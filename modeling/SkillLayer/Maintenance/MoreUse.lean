import SkillLayer.Maintenance.UsageAggregation

/-! Whether more use can lead to a retirement. -/

namespace SkillLayer.Maintenance

open Infrastructure (SkillUsageSummary microsPerDay)

section Decision

variable {F : Type} (ops : ScoreOps F) (faults : HostFaults F) (config : RetirementConfig F)
  (usageSamples : List UsageSample) (now : Domain.Timestamp) (skill : SkillSnapshot)

/-- The pass proposes nothing for the skill and touches nothing. -/
def LeavesAlone : Prop :=
  ∀ workspace, proposeRetirement ops faults config usageSamples now skill workspace = .ok [] workspace

variable {ops faults config usageSamples now skill}

/-- Where there are no directories there is no place for a marker. -/
theorem retiredPath_nowhere (activePath : Path) :
    ∃ error, retiredPathForActiveSkill ⟨fun _ => none⟩ activePath = .error error := by
  have rootless : ∃ error, canonicalActiveSkillRoot ⟨fun _ => none⟩ activePath = .error error := by
    unfold canonicalActiveSkillRoot
    split
    · exact ⟨_, rfl⟩
    · split
      · exact ⟨_, rfl⟩
      · exact ⟨_, rfl⟩
  obtain ⟨error, failed⟩ := rootless
  unfold retiredPathForActiveSkill
  rw [failed]
  dsimp only [bind, Except.bind]
  split
  · exact ⟨_, rfl⟩
  · exact ⟨_, rfl⟩

/-- The pass leaves a skill alone unless it has a score that is too low. -/
theorem leavesAlone_iff :
    LeavesAlone ops faults config usageSamples now skill ↔ staleScore? ops config usageSamples now skill = none := by
  unfold LeavesAlone proposeRetirement
  cases staleScore? ops config usageSamples now skill with
  | none => simp [pure, EStateM.pure]
  | some usageScore =>
    simp only [reduceCtorEq, iff_false, not_forall]
    obtain ⟨error, nowhere⟩ := retiredPath_nowhere skill.sourcePath
    refine ⟨⟨⟨fun _ => none⟩, [], []⟩, fun left => ?_⟩
    change (ofExcept (retiredPathForActiveSkill ⟨fun _ => none⟩ skill.sourcePath) >>= _) _ = _ at left
    rw [nowhere] at left
    cases left

end Decision

section Scores

variable (instant : Infrastructure.Timestamp) (windowDays : Int)

/-- The days that a sample still has in the window, for each of its uses. -/
def daysLeft (sample : UsageSample) : Int :=
  if instant - windowDays * microsPerDay ≤ sample.usedAt then
    sample.usageCount * (windowDays - ageDays instant sample.usedAt)
  else 0

/-- What one sample adds to the uses per month. -/
def monthlyUse (sample : UsageSample) : ℚ :=
  (daysLeft instant windowDays sample : ℚ) / windowDays / max ((windowDays : ℚ) / 30) 1

variable {instant windowDays} {showFixed : ℚ → Str} {toRfc3339 : Domain.Timestamp → Str}

theorem monthlyUse_nonneg (window : 0 < windowDays) (sample : UsageSample) :
    0 ≤ monthlyUse instant windowDays sample := by
  have days : 0 ≤ daysLeft instant windowDays sample := by
    unfold daysLeft
    split
    · rename_i recent
      exact mul_nonneg (Int.natCast_nonneg _) (sub_nonneg.mpr (ageDays_le window recent))
    · exact le_rfl
  have inWindow : (0 : ℚ) ≤ (daysLeft instant windowDays sample : ℚ) / windowDays :=
    div_nonneg (by exact_mod_cast days) (by exact_mod_cast window.le)
  exact div_nonneg inWindow (le_max_of_le_right zero_le_one)

/-- The score is what its samples add, one by one. -/
theorem usageScoreAt_eq_sum (window : 0 < windowDays) (samples : List UsageSample) :
    usageScoreAt (exactScores showFixed toRfc3339) samples instant windowDays =
      (samples.map (monthlyUse instant windowDays)).sum := by
  rw [usageScoreAt_exact window]
  induction samples with
  | nil => simp
  | cons sample rest ih =>
    rw [List.map_cons, List.sum_cons, ← ih, monthlyUse, daysLeft, List.filter_cons]
    by_cases recent : instant - windowDays * microsPerDay ≤ sample.usedAt
    · rw [if_pos recent, if_pos (decide_eq_true recent), List.map_cons, List.sum_cons]
      push_cast
      rw [add_div, add_div]
    · rw [if_neg recent, if_neg (by simpa using recent)]
      simp

/-- A further sample never lowers the score, wherever it stands. -/
theorem usageScoreAt_mono (window : 0 < windowDays) {samples more : List UsageSample} {extra : UsageSample}
    (added : more.Perm (extra :: samples)) :
    usageScoreAt (exactScores showFixed toRfc3339) samples instant windowDays ≤
      usageScoreAt (exactScores showFixed toRfc3339) more instant windowDays := by
  have total := (added.map (monthlyUse instant windowDays)).sum_eq
  rw [List.map_cons, List.sum_cons] at total
  rw [usageScoreAt_eq_sum window, usageScoreAt_eq_sum window, total]
  exact le_add_of_nonneg_left (monthlyUse_nonneg window extra)

end Scores

section MoreUse

variable {showFixed : ℚ → Str} {toRfc3339 : Domain.Timestamp → Str} {faults : HostFaults ℚ}
  {config : RetirementConfig ℚ} {samples more : List UsageSample} {extra : UsageSample} {now : Domain.Timestamp}
  {skill : SkillSnapshot}

/-- A skill is left alone when it has no samples, or when those that it has reach the threshold. -/
theorem leavesAlone_exact :
    LeavesAlone (exactScores showFixed toRfc3339) faults config samples now skill ↔
      (samples.filter fun sample => sample.skillId = skill.id) = [] ∨
        config.scoreThresholdPerMonth ≤ calculateUsageScorePerMonth (exactScores showFixed toRfc3339)
          (samples.filter fun sample => sample.skillId = skill.id) now config.scoringWindowDays := by
  rw [leavesAlone_iff]
  unfold staleScore?
  cases samples.filter fun sample => sample.skillId = skill.id with
  | nil => simp
  | cons first rest => simp [exactScores]

/-- More use keeps a skill that was left alone exactly when the skill had been used before, or when the
added use is of another skill or reaches the threshold alone. -/
theorem moreUse_keeps_iff (showFixed : ℚ → Str) (toRfc3339 : Domain.Timestamp → Str) (faults : HostFaults ℚ)
    (config : RetirementConfig ℚ) (samples more : List UsageSample) (extra : UsageSample) (now : Domain.Timestamp)
    (skill : SkillSnapshot) (window : 0 < config.scoringWindowDays) (added : more.Perm (extra :: samples)) :
    (LeavesAlone (exactScores showFixed toRfc3339) faults config samples now skill →
        LeavesAlone (exactScores showFixed toRfc3339) faults config more now skill) ↔
      (∃ sample ∈ samples, sample.skillId = skill.id) ∨ extra.skillId ≠ skill.id ∨
        config.scoreThresholdPerMonth ≤ monthlyUse (micros now) config.scoringWindowDays extra := by
  have own := added.filter fun sample => sample.skillId = skill.id
  rw [leavesAlone_exact, leavesAlone_exact]
  by_cases same : extra.skillId = skill.id
  · rw [List.filter_cons_of_pos (by simpa using same)] at own
    have present : (more.filter fun sample => sample.skillId = skill.id) ≠ [] := by
      intro none
      rw [none] at own
      exact List.cons_ne_nil _ _ own.nil_eq.symm
    cases before : samples.filter fun sample => sample.skillId = skill.id with
    | nil =>
      have unused : ¬ ∃ sample ∈ samples, sample.skillId = skill.id := by
        rintro ⟨sample, member, its⟩
        have kept : sample ∈ samples.filter fun sample => sample.skillId = skill.id :=
          List.mem_filter.mpr ⟨member, decide_eq_true its⟩
        rw [before] at kept
        cases kept
      have score : calculateUsageScorePerMonth (exactScores showFixed toRfc3339)
          (more.filter fun sample => sample.skillId = skill.id) now config.scoringWindowDays =
            monthlyUse (micros now) config.scoringWindowDays extra := by
        rw [before] at own
        rw [calculateUsageScorePerMonth, usageScoreAt_eq_sum window, List.perm_singleton.mp own]
        simp
      simp [unused, same, present, score]
    | cons first rest =>
      have used : ∃ sample ∈ samples, sample.skillId = skill.id := by
        have member : first ∈ samples.filter fun sample => sample.skillId = skill.id :=
          before ▸ List.mem_cons_self
        exact ⟨first, (List.mem_filter.mp member).1, of_decide_eq_true (List.mem_filter.mp member).2⟩
      have grows : usageScoreAt (exactScores showFixed toRfc3339) (first :: rest) (micros now)
          config.scoringWindowDays ≤ usageScoreAt (exactScores showFixed toRfc3339)
            (more.filter fun sample => sample.skillId = skill.id) (micros now) config.scoringWindowDays := by
        rw [← before]
        exact usageScoreAt_mono window own
      refine iff_of_true (fun kept => .inr ?_) (.inl used)
      exact (kept.resolve_left (List.cons_ne_nil _ _)).trans grows
  · rw [List.filter_cons_of_neg (by simpa using same)] at own
    refine iff_of_true (fun kept => kept.imp (fun unused => ?_) fun reached => ?_) (.inr (.inl same))
    · rw [unused] at own
      exact own.eq_nil
    · have total := (own.map (monthlyUse (micros now) config.scoringWindowDays)).sum_eq
      rw [calculateUsageScorePerMonth, usageScoreAt_eq_sum window] at reached ⊢
      rwa [total]

/-! ### The first use of a skill -/

/-- The default configuration. -/
def monthlyConfig : RetirementConfig ℚ := ⟨1, 90⟩

def freshSkill : SkillSnapshot := ⟨"s1", "Rebase", "Rebase before a push.", .project, [], [], []⟩

def neverUsed : SkillUsageSummary := ⟨"s1", 0, 0, none, none⟩

def usedOnce : SkillUsageSummary := ⟨"s1", 1, 1, some 0, some 0⟩

/-- Never used, the skill is left alone; used for the first time a moment ago, it is not. -/
theorem firstUse_retires :
    LeavesAlone (exactScores (fun _ => []) fun _ => []) (HostFaults.none ℚ) monthlyConfig
        ([neverUsed].filterMap (usageSampleOf 0)) 0 freshSkill ∧
      ¬ LeavesAlone (exactScores (fun _ => []) fun _ => []) (HostFaults.none ℚ) monthlyConfig
        ([usedOnce].filterMap (usageSampleOf 0)) 0 freshSkill := by
  rw [leavesAlone_iff, leavesAlone_iff]
  decide +kernel

/-- A skill that is used enough is left alone, and still is after another use. -/
theorem secondUse_keeps :
    LeavesAlone (exactScores (fun _ => []) fun _ => []) (HostFaults.none ℚ) monthlyConfig [⟨"s1", 0, 15⟩] 0
        freshSkill ∧
      LeavesAlone (exactScores (fun _ => []) fun _ => []) (HostFaults.none ℚ) monthlyConfig
        [⟨"s1", 0, 1⟩, ⟨"s1", 0, 15⟩] 0 freshSkill := by
  have before : LeavesAlone (exactScores (fun _ => []) fun _ => []) (HostFaults.none ℚ) monthlyConfig
      [⟨"s1", 0, 15⟩] 0 freshSkill := by
    rw [leavesAlone_iff]
    decide +kernel
  exact ⟨before, (moreUse_keeps_iff (fun _ => []) (fun _ => []) (HostFaults.none ℚ) monthlyConfig [⟨"s1", 0, 15⟩]
    [⟨"s1", 0, 1⟩, ⟨"s1", 0, 15⟩] ⟨"s1", 0, 1⟩ 0 freshSkill (by decide) (List.Perm.refl _)).mpr
      (.inl ⟨⟨"s1", 0, 15⟩, List.mem_cons_self, rfl⟩) before⟩

end MoreUse

end SkillLayer.Maintenance

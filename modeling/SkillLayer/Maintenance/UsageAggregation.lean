import Mathlib.Algebra.BigOperators.Group.List.Basic
import Mathlib.Algebra.Order.Field.Rat
import Mathlib.Tactic.FieldSimp
import Mathlib.Tactic.Linarith
import Mathlib.Tactic.Ring
import SkillLayer.Maintenance.Retire

/-! The retirement score of one summarised sample against the score of one sample for each
recorded use, in exact arithmetic. -/

namespace SkillLayer.Maintenance

open Infrastructure (SkillUsageRow UsageServices Uuid asU32 lastUse summarizeUsage withinWindow microsPerDay)

/-- Exact scores, with any texts. -/
def exactScores (showFixed : ℚ → Str) (toRfc3339 : Domain.Timestamp → Str) : ScoreOps ℚ where
  ofInt n := n
  add := (· + ·)
  sub := (· - ·)
  mul := (· * ·)
  div := (· / ·)
  max := max
  le score bound := decide (score ≤ bound)
  showFixed := showFixed
  toRfc3339 := toRfc3339

section Samples

variable {F : Type} (ops : ScoreOps F) (services : UsageServices) (now : Infrastructure.Timestamp)
  (windowDays : Int) (skillId : Uuid) (rows : List SkillUsageRow)

/-- The one sample that the runtime builds from the summary of the usage rows. -/
def aggregatedSamples : List UsageSample :=
  (usageSampleAt now (summarizeUsage services now windowDays skillId rows)).toList

/-- One sample for each usage row. -/
def eventSamples : List UsageSample :=
  rows.map fun row => ⟨services.uuidText skillId, row.usedAt, 1⟩

def ScoresAgree : Prop :=
  usageScoreAt ops (aggregatedSamples services now windowDays skillId rows) now windowDays =
    usageScoreAt ops (eventSamples services skillId rows) now windowDays

/-- The whole days since a use, none for one in the future. -/
def ageDays (usedAt : Infrastructure.Timestamp) : Int :=
  max ((now - usedAt).tdiv microsPerDay) 0

def recentRows : List SkillUsageRow :=
  rows.filter fun row => now - windowDays * microsPerDay ≤ row.usedAt

def lastAge : Int := ageDays now ((lastUse rows).getD now)

/-- The uses in the window that the casts to `u32` leave. -/
def countedUses : Nat :=
  if asU32 rows.length = 0 then 0 else asU32 (recentRows now windowDays rows).length

/-- The days by which the uses in the window are older than the last one. -/
def agedDays : Int :=
  ((recentRows now windowDays rows).map fun row => ageDays now row.usedAt - lastAge now rows).sum

/-- The days that the uses lost in the casts still had in the window. -/
def lostDays : Int :=
  ((recentRows now windowDays rows).length - countedUses now windowDays rows) *
    (windowDays - lastAge now rows)

end Samples

/-! ### The last use -/

theorem lastUse_append (rows : List SkillUsageRow) (last : SkillUsageRow) :
    lastUse (rows ++ [last]) = match lastUse rows with
      | none => some last.usedAt
      | some latest => some (if latest < last.usedAt then last.usedAt else latest) := by
  rw [lastUse, List.foldl_append]
  rfl

theorem lastUse_spec (rows : List SkillUsageRow) :
    match lastUse rows with
    | none => rows = []
    | some instant => (∃ row ∈ rows, row.usedAt = instant) ∧ ∀ row ∈ rows, row.usedAt ≤ instant := by
  induction rows using List.reverseRecOn with
  | nil => rfl
  | append_singleton rows last ih =>
    rw [lastUse_append]
    cases found : lastUse rows with
    | none =>
      rw [found] at ih
      obtain rfl : rows = [] := ih
      simp
    | some latest =>
      rw [found] at ih
      obtain ⟨⟨row, member, same⟩, bound⟩ := ih
      dsimp only
      split
      · rename_i later
        refine ⟨⟨last, by simp, rfl⟩, fun other inRows => ?_⟩
        rcases List.mem_append.mp inRows with old | new
        · exact (bound other old).trans later.le
        · rw [List.mem_singleton.mp new]
      · rename_i earlier
        refine ⟨⟨row, List.mem_append_left _ member, same⟩, fun other inRows => ?_⟩
        rcases List.mem_append.mp inRows with old | new
        · exact bound other old
        · rw [List.mem_singleton.mp new]
          exact not_lt.mp earlier

/-! ### Exact scores -/

variable {showFixed : ℚ → Str} {toRfc3339 : Domain.Timestamp → Str} {now : Infrastructure.Timestamp}
  {windowDays : Int}

theorem ageDays_le (window : 0 < windowDays) {usedAt : Infrastructure.Timestamp}
    (recent : now - windowDays * microsPerDay ≤ usedAt) : ageDays now usedAt ≤ windowDays := by
  have day : (0 : Int) < microsPerDay := by decide
  have days : (now - usedAt).tdiv microsPerDay ≤ windowDays := by
    rcases le_total usedAt now with past | future
    · rw [Int.tdiv_eq_ediv_of_nonneg (sub_nonneg.mpr past)]
      exact Int.ediv_le_of_le_mul day (sub_le_comm.mp recent)
    · have reversed := Int.tdiv_nonneg (sub_nonneg.mpr future) day.le
      rw [← neg_sub, Int.neg_tdiv]
      linarith
  exact max_le days window.le

theorem usageWeight_exact (window : 0 < windowDays) {sample : UsageSample}
    (recent : now - windowDays * microsPerDay ≤ sample.usedAt) :
    usageWeight (exactScores showFixed toRfc3339) now windowDays sample =
      sample.usageCount * ((windowDays - ageDays now sample.usedAt : Int) : ℚ) / windowDays := by
  have positive : (0 : ℚ) < windowDays := by exact_mod_cast window
  have left : (0 : ℚ) ≤ ((windowDays - ageDays now sample.usedAt : Int) : ℚ) := by
    exact_mod_cast sub_nonneg.mpr (ageDays_le window recent)
  have weight : (1 : ℚ) - ((ageDays now sample.usedAt : Int) : ℚ) / windowDays =
      ((windowDays - ageDays now sample.usedAt : Int) : ℚ) / windowDays := by
    push_cast
    field_simp
  unfold usageWeight exactScores
  dsimp only
  rw [show Max.max ((now - sample.usedAt).tdiv microsPerDay) 0 = ageDays now sample.usedAt from rfl]
  push_cast at weight left ⊢
  rw [weight, max_eq_left (div_nonneg left positive.le), mul_div_assoc]

/-- The exact score is the days left in the window, added up over the uses in it. -/
theorem usageScoreAt_exact (window : 0 < windowDays) (samples : List UsageSample) :
    usageScoreAt (exactScores showFixed toRfc3339) samples now windowDays =
      ((((samples.filter fun sample => now - windowDays * microsPerDay ≤ sample.usedAt).map
        fun sample => sample.usageCount * (windowDays - ageDays now sample.usedAt)).sum : Int) : ℚ) /
        windowDays / max ((windowDays : ℚ) / 30) 1 := by
  have added (recent : List UsageSample) (start : ℚ)
      (inWindow : ∀ sample ∈ recent, now - windowDays * microsPerDay ≤ sample.usedAt) :
      (recent.map (usageWeight (exactScores showFixed toRfc3339) now windowDays)).foldl (· + ·) start =
        start + (((recent.map fun sample =>
          sample.usageCount * (windowDays - ageDays now sample.usedAt)).sum : Int) : ℚ) / windowDays := by
    induction recent generalizing start with
    | nil => simp
    | cons sample recent ih =>
      rw [List.map_cons, List.foldl_cons, ih _ fun other member => inWindow other (.tail _ member),
        usageWeight_exact window (inWindow sample List.mem_cons_self), List.map_cons, List.sum_cons]
      push_cast
      rw [add_div, add_assoc]
  have total := added (samples.filter fun sample => now - windowDays * microsPerDay ≤ sample.usedAt) 0
    fun sample member => by simpa using (List.mem_filter.mp member).2
  rw [zero_add] at total
  rw [← total]
  simp [usageScoreAt, exactScores]

variable {services : UsageServices} {skillId : Uuid} {rows : List SkillUsageRow}

theorem eventSamples_left :
    (((eventSamples services skillId rows).filter fun sample =>
        now - windowDays * microsPerDay ≤ sample.usedAt).map fun sample =>
        (sample.usageCount : Int) * (windowDays - ageDays now sample.usedAt)).sum =
      ((recentRows now windowDays rows).map fun row => windowDays - ageDays now row.usedAt).sum := by
  unfold eventSamples recentRows
  rw [List.filter_map, List.map_map]
  simp [Function.comp_def]

theorem recentRows_eq_nil {instant : Infrastructure.Timestamp}
    (bound : ∀ row ∈ rows, row.usedAt ≤ instant) (old : instant < now - windowDays * microsPerDay) :
    recentRows now windowDays rows = [] := by
  rw [recentRows, List.filter_eq_nil_iff]
  intro row member
  rw [decide_eq_true_eq, not_le]
  exact (bound row member).trans_lt old

/-- The summary weighs every use it counts with the age of the last one. -/
theorem aggregatedSamples_left
    (calendar : ∀ instant days, services.daysBefore instant days = instant - days * microsPerDay) :
    (((aggregatedSamples services now windowDays skillId rows).filter fun sample =>
        now - windowDays * microsPerDay ≤ sample.usedAt).map fun sample =>
        (sample.usageCount : Int) * (windowDays - ageDays now sample.usedAt)).sum =
      countedUses now windowDays rows * (windowDays - lastAge now rows) := by
  have within : withinWindow services now windowDays rows = recentRows now windowDays rows := by
    simp only [withinWindow, recentRows, calendar]
  unfold aggregatedSamples usageSampleAt summarizeUsage countedUses
  dsimp only
  rw [within]
  split
  · simp
  · rename_i used
    rw [Option.toList_some]
    by_cases recent : now - windowDays * microsPerDay ≤ (lastUse rows).getD now
    · rw [List.filter_cons_of_pos (by simpa using recent)]
      simp [lastAge]
    · rw [List.filter_cons_of_neg (by simpa using recent)]
      have spec := lastUse_spec rows
      cases found : lastUse rows with
      | none =>
        rw [found] at spec
        exact absurd (by rw [spec]; rfl) used
      | some instant =>
        rw [found] at spec recent
        rw [recentRows_eq_nil spec.2 (not_le.mp recent)]
        simp [asU32]

theorem scoresAgree_iff_left (window : 0 < windowDays)
    (calendar : ∀ instant days, services.daysBefore instant days = instant - days * microsPerDay) :
    ScoresAgree (exactScores showFixed toRfc3339) services now windowDays skillId rows ↔
      (countedUses now windowDays rows : Int) * (windowDays - lastAge now rows) =
        ((recentRows now windowDays rows).map fun row => windowDays - ageDays now row.usedAt).sum := by
  have days : (windowDays : ℚ) ≠ 0 := by exact_mod_cast window.ne'
  have months : max ((windowDays : ℚ) / 30) 1 ≠ 0 := (lt_max_of_lt_right one_pos).ne'
  rw [ScoresAgree, usageScoreAt_exact window, usageScoreAt_exact window, aggregatedSamples_left calendar,
    eventSamples_left, div_left_inj' months, div_left_inj' days, Int.cast_inj]

theorem sum_left (rows : List SkillUsageRow) (age : Int) :
    (rows.map fun row => windowDays - ageDays now row.usedAt).sum =
      rows.length * (windowDays - age) - (rows.map fun row => ageDays now row.usedAt - age).sum := by
  induction rows with
  | nil => simp
  | cons row rows ih =>
    rw [List.map_cons, List.sum_cons, ih, List.map_cons, List.sum_cons, List.length_cons]
    push_cast
    ring

/-- A use is at least as old as the last one. -/
theorem lastAge_le {row : SkillUsageRow} (member : row ∈ rows) :
    lastAge now rows ≤ ageDays now row.usedAt := by
  have spec := lastUse_spec rows
  cases found : lastUse rows with
  | none =>
    rw [found] at spec
    simp [spec] at member
  | some instant =>
    rw [found] at spec
    have later := spec.2 row member
    unfold lastAge ageDays
    rw [found, Option.getD_some]
    apply max_le_max _ le_rfl
    exact Int.tdiv_le_tdiv (by decide) (sub_le_sub_left later now)

theorem countedUses_eq (few : rows.length < 2 ^ 32) :
    countedUses now windowDays rows = (recentRows now windowDays rows).length := by
  have fewer : (recentRows now windowDays rows).length ≤ rows.length := List.length_filter_le _ _
  unfold countedUses asU32
  rw [Nat.mod_eq_of_lt few, Nat.mod_eq_of_lt (fewer.trans_lt few)]
  split
  · omega
  · rfl

/-- Days that are never negative add up to none exactly when there are none. -/
theorem agedDays_eq_zero_iff :
    agedDays now windowDays rows = 0 ↔
      ∀ row ∈ recentRows now windowDays rows, ageDays now row.usedAt = lastAge now rows := by
  have summed (recent : List SkillUsageRow) (older : ∀ row ∈ recent, lastAge now rows ≤ ageDays now row.usedAt) :
      0 ≤ (recent.map fun row => ageDays now row.usedAt - lastAge now rows).sum ∧
        ((recent.map fun row => ageDays now row.usedAt - lastAge now rows).sum = 0 ↔
          ∀ row ∈ recent, ageDays now row.usedAt = lastAge now rows) := by
    induction recent with
    | nil => simp
    | cons row recent ih =>
      obtain ⟨nonneg, none⟩ := ih fun other member => older other (.tail _ member)
      have here := older row List.mem_cons_self
      rw [List.map_cons, List.sum_cons, List.forall_mem_cons, ← none]
      constructor
      · omega
      · omega
  exact (summed _ fun row member => lastAge_le (List.mem_of_mem_filter member)).2

def rowAt (usedAt : Infrastructure.Timestamp) : SkillUsageRow where
  id := [1]
  sessionId := "s1"
  skillId := none
  contextStatus := "ok"
  usedAt := usedAt

end SkillLayer.Maintenance

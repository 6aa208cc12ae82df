import SkillLayer.SessionExtractor.Preamble

/-! What the preamble keeps: the language that the votes elect, and the items that fit
under the token cap. -/

namespace SkillLayer.SessionExtractor

/-! ### The vote -/

def MostFrequent (votes : List Str) (value : Str) : Prop :=
  value ∈ votes ∧ ∀ other ∈ votes, votes.count other ≤ votes.count value

/-- The elected value is one of the most frequent, and the first of them to appear. -/
def ElectsEarliest (votes : List Str) : Option Str → Prop
  | none => votes = []
  | some winner => MostFrequent votes winner ∧
      ∀ other ∈ votes, votes.count other = votes.count winner → votes.idxOf winner ≤ votes.idxOf other

theorem pluralityVote_eq_none {votes : List Str} (none : pluralityVote votes = none) : votes = [] := by
  unfold pluralityVote at none
  split at none
  · rename_i empty
    exact List.isEmpty_iff.mp empty
  · rename_i nonempty
    rw [Option.map_eq_none_iff, lastArgmax_eq_none] at none
    cases votes with
    | nil => rfl
    | cons vote rest =>
      have entry := (tallies_tally (vote :: rest)).complete vote List.mem_cons_self
      rw [none] at entry
      cases entry

/-- The winner is the last to appear of the most frequent values. -/
theorem pluralityVote_latest {votes : List Str} {winner : Str} (elected : pluralityVote votes = some winner) :
    MostFrequent votes winner ∧
      ∀ other ∈ votes, votes.count other = votes.count winner → votes.idxOf other ≤ votes.idxOf winner := by
  unfold pluralityVote at elected
  split at elected
  · cases elected
  · obtain ⟨entry, found, rfl⟩ := Option.map_eq_some_iff.mp elected
    obtain ⟨member, bound⟩ := lastArgmax_tally found
    exact ⟨⟨member, fun other known => (bound other known).1⟩, fun other known => (bound other known).2⟩

/-- The earliest of the most frequent values is elected exactly when there is only one. -/
theorem pluralityVote_electsEarliest_iff (votes : List Str) :
    ElectsEarliest votes (pluralityVote votes) ↔
      ∀ one two, MostFrequent votes one → MostFrequent votes two → one = two := by
  cases elected : pluralityVote votes with
  | none =>
    obtain rfl := pluralityVote_eq_none elected
    exact ⟨fun _ one _ frequent => absurd frequent.1 List.not_mem_nil, fun _ => rfl⟩
  | some winner =>
    obtain ⟨frequent, latest⟩ := pluralityVote_latest elected
    constructor
    · intro earliest
      have only (value : Str) (other : MostFrequent votes value) : value = winner := by
        have same : votes.count value = votes.count winner :=
          Nat.le_antisymm (frequent.2 value other.1) (other.2 winner frequent.1)
        have place := Nat.le_antisymm (latest value other.1 same) (earliest.2 value other.1 same)
        exact (List.idxOf_inj other.1).mp place
      intro one two frequentOne frequentTwo
      rw [only one frequentOne, only two frequentTwo]
    · intro single
      refine ⟨frequent, fun other known same => ?_⟩
      have alsoFrequent : MostFrequent votes other := ⟨known, fun value inVotes => same ▸ frequent.2 value inVotes⟩
      rw [single other winner alsoFrequent frequent]

/-- Of one vote each, the later one wins. -/
theorem tiedVote_electsLatest : pluralityVote ["Rust", "Python"] = some "Python".toList ∧
    ¬ ∀ votes, ElectsEarliest votes (pluralityVote votes) := by
  have elected : pluralityVote ["Rust", "Python"] = some "Python".toList := by decide
  refine ⟨elected, fun earliest => ?_⟩
  have first := earliest ["Rust", "Python"]
  rw [elected] at first
  exact absurd (first.2 "Rust" (by decide) (by decide)) (by decide)

/-! ### The cap -/

/-- What the cap leaves of a draft. -/
structure Capped (draft : PreambleDraft) (preamble : MinedPreamble) : Prop where
  bounded : preamble.approximateTokens ≤ preambleHardTokenCap
  counted : preamble.approximateTokens = approximateTokenCount preamble.text
  preferences : preamble.preferences <+: draft.preferences
  conventions : preamble.facts.statedConventions <+: draft.facts.statedConventions
  paths : preamble.facts.salientPaths <+: draft.facts.salientPaths
  named : preamble.facts.repoName = draft.facts.repoName ∧
    preamble.facts.primaryLanguage = draft.facts.primaryLanguage
  conventionsAfterPaths : preamble.facts.statedConventions ≠ draft.facts.statedConventions →
    preamble.facts.salientPaths = []
  preferencesLast : preamble.preferences ≠ draft.preferences →
    preamble.facts.salientPaths = [] ∧ preamble.facts.statedConventions = []
  pathNeeded : preamble.facts.salientPaths ≠ draft.facts.salientPaths →
    preamble.facts.statedConventions = draft.facts.statedConventions → preamble.preferences = draft.preferences →
    preambleHardTokenCap < draftTokens ⟨preamble.preferences, preamble.facts.withPaths
      (draft.facts.salientPaths.take (preamble.facts.salientPaths.length + 1))⟩
  conventionNeeded : preamble.facts.statedConventions ≠ draft.facts.statedConventions →
    preamble.preferences = draft.preferences →
    preambleHardTokenCap < draftTokens ⟨preamble.preferences, preamble.facts.withConventions
      (draft.facts.statedConventions.take (preamble.facts.statedConventions.length + 1))⟩
  preferenceNeeded : preamble.preferences ≠ draft.preferences →
    preambleHardTokenCap < draftTokens
      ⟨draft.preferences.take (preamble.preferences.length + 1), preamble.facts⟩
  rendered : preamble.text = renderPreambleText preamble.preferences preamble.facts ∨
    preamble.text = [] ∧ preambleHardTokenCap < draftTokens ⟨[], (preamble.facts.withPaths []).withConventions []⟩
  emptied : preamble.text = [] → preamble.facts ≠ ⟨none, none, [], []⟩ ∨ preamble.preferences ≠ [] →
    preambleHardTokenCap < draftTokens ⟨[], (preamble.facts.withPaths []).withConventions []⟩

theorem join_ne_nil {sep : Str} {sections : List Str} (some : sections ≠ [])
    (nonempty : ∀ text ∈ sections, text ≠ []) : Str.join sep sections ≠ [] := by
  cases sections with
  | nil => exact absurd rfl some
  | cons first rest =>
    have visible := nonempty first List.mem_cons_self
    cases rest with
    | nil => simpa [Str.join] using visible
    | cons second rest => simp [Str.join, List.intercalate_cons_cons, visible]

theorem factLines_eq_nil {facts : ProjectFacts} (empty : factLines facts = []) : facts = ⟨none, none, [], []⟩ := by
  obtain ⟨repoName, primaryLanguage, salientPaths, statedConventions⟩ := facts
  simp only [factLines, List.append_eq_nil_iff, Option.toList_eq_nil_iff, Option.map_eq_none_iff,
    ite_eq_left_iff, List.cons_ne_nil, imp_false, Decidable.not_not, List.isEmpty_iff, List.map_eq_nil_iff] at empty
  obtain ⟨⟨⟨rfl, rfl⟩, rfl⟩, rfl⟩ := empty
  rfl

/-- Only an empty draft is rendered as the empty text. -/
theorem renderPreambleText_eq_nil {preferences : List DetectedPreference} {facts : ProjectFacts}
    (empty : renderPreambleText preferences facts = []) : facts = ⟨none, none, [], []⟩ ∧ preferences = [] := by
  have none : factSection facts ++ preferenceSection preferences = [] := by
    by_contra some
    refine join_ne_nil some (fun text member => ?_) empty
    rcases List.mem_append.mp member with inFacts | inPreferences
    · unfold factSection at inFacts
      split at inFacts
      · cases inFacts
      · rw [List.mem_singleton.mp inFacts]
        exact List.cons_ne_nil _ _
    · unfold preferenceSection at inPreferences
      split at inPreferences
      · cases inPreferences
      · rw [List.mem_singleton.mp inPreferences]
        exact List.cons_ne_nil _ _
  obtain ⟨noFacts, noPreferences⟩ := List.append_eq_nil_iff.mp none
  simp only [factSection, preferenceSection, ite_eq_left_iff, List.cons_ne_nil, imp_false, Decidable.not_not,
    List.isEmpty_iff] at noFacts noPreferences
  exact ⟨factLines_eq_nil noFacts, noPreferences⟩

theorem prefix_dropLast {Item : Type} {kept items : List Item} (shorter : kept <+: items.dropLast) :
    kept <+: items :=
  shorter.trans (List.dropLast_prefix items)

/-- One item more than a proper prefix keeps is the same before the last item is dropped. -/
theorem take_dropLast {Item : Type} {kept items : List Item} (shorter : kept <+: items.dropLast)
    (proper : kept ≠ items.dropLast) :
    items.dropLast.take (kept.length + 1) = items.take (kept.length + 1) := by
  have less := Nat.lt_of_le_of_ne shorter.length_le (mt shorter.eq_of_length proper)
  rw [List.length_dropLast] at less
  rw [List.dropLast_eq_take, List.take_take, Nat.min_eq_left (by omega)]

theorem take_dropLast_self {Item : Type} {items : List Item} (some : items ≠ []) :
    items.take (items.dropLast.length + 1) = items := by
  have positive := List.length_pos_of_ne_nil some
  rw [List.length_dropLast, Nat.sub_add_cancel positive, List.take_length]

theorem withPaths_eq {kept facts : ProjectFacts}
    (named : kept.repoName = facts.repoName ∧ kept.primaryLanguage = facts.primaryLanguage)
    (conventions : kept.statedConventions = facts.statedConventions) :
    kept.withPaths facts.salientPaths = facts := by
  rw [ProjectFacts.withPaths, named.1, named.2, conventions]

theorem withConventions_eq {kept facts : ProjectFacts}
    (named : kept.repoName = facts.repoName ∧ kept.primaryLanguage = facts.primaryLanguage)
    (paths : kept.salientPaths = facts.salientPaths) :
    kept.withConventions facts.statedConventions = facts := by
  rw [ProjectFacts.withConventions, named.1, named.2, paths]

/-- The cap drops paths before conventions before preferences, and no item that would fit. -/
theorem enforceTokenCapAndBuild_capped (draft : PreambleDraft) :
    Capped draft (enforceTokenCapAndBuild draft) := by
  induction draft using enforceTokenCapAndBuild.induct with
  | case1 draft fits =>
    rw [enforceTokenCapAndBuild, if_pos fits]
    refine ⟨fits, rfl, List.prefix_rfl, List.prefix_rfl, List.prefix_rfl, ⟨rfl, rfl⟩, absurd rfl, absurd rfl,
      absurd rfl, absurd rfl, absurd rfl, .inl rfl, fun empty some => ?_⟩
    obtain ⟨noFacts, noPreferences⟩ := renderPreambleText_eq_nil empty
    exact absurd some (by simp [noFacts, noPreferences])
  | case2 draft exceeds some ih =>
    rw [enforceTokenCapAndBuild, if_neg exceeds, if_pos some]
    generalize enforceTokenCapAndBuild _ = preamble at ih ⊢
    have paths : preamble.facts.salientPaths <+: draft.facts.salientPaths.dropLast := ih.paths
    refine ⟨ih.bounded, ih.counted, ih.preferences, ih.conventions, prefix_dropLast paths, ih.named,
      ih.conventionsAfterPaths, ih.preferencesLast, ?_, ih.conventionNeeded, ih.preferenceNeeded, ih.rendered, ih.emptied⟩
    intro _ sameConventions samePreferences
    by_cases last : preamble.facts.salientPaths = draft.facts.salientPaths.dropLast
    · have whole : preamble.facts.withPaths draft.facts.salientPaths = draft.facts :=
        withPaths_eq ih.named sameConventions
      rw [last, take_dropLast_self some, whole, samePreferences]
      exact Nat.not_le.mp exceeds
    · have needed : preambleHardTokenCap < draftTokens ⟨preamble.preferences, preamble.facts.withPaths
          (draft.facts.salientPaths.dropLast.take (preamble.facts.salientPaths.length + 1))⟩ :=
        ih.pathNeeded last sameConventions samePreferences
      rwa [take_dropLast paths last] at needed
  | case3 draft exceeds none some ih =>
    rw [enforceTokenCapAndBuild, if_neg exceeds, if_neg none, if_pos some]
    generalize enforceTokenCapAndBuild _ = preamble at ih ⊢
    have noPaths : draft.facts.salientPaths = [] := not_not.mp none
    have paths : preamble.facts.salientPaths = [] := List.prefix_nil.mp (noPaths ▸ ih.paths)
    have conventions : preamble.facts.statedConventions <+: draft.facts.statedConventions.dropLast := ih.conventions
    refine ⟨ih.bounded, ih.counted, ih.preferences, prefix_dropLast conventions, ih.paths, ih.named,
      fun _ => paths, ih.preferencesLast, fun dropped => absurd (paths.trans noPaths.symm) dropped, ?_,
      ih.preferenceNeeded, ih.rendered, ih.emptied⟩
    intro _ samePreferences
    by_cases last : preamble.facts.statedConventions = draft.facts.statedConventions.dropLast
    · have whole : preamble.facts.withConventions draft.facts.statedConventions = draft.facts :=
        withConventions_eq ih.named (paths.trans noPaths.symm)
      rw [last, take_dropLast_self some, whole, samePreferences]
      exact Nat.not_le.mp exceeds
    · have needed : preambleHardTokenCap < draftTokens ⟨preamble.preferences, preamble.facts.withConventions
          (draft.facts.statedConventions.dropLast.take (preamble.facts.statedConventions.length + 1))⟩ :=
        ih.conventionNeeded last samePreferences
      rwa [take_dropLast conventions last] at needed
  | case4 draft exceeds noPath noConvention some ih =>
    rw [enforceTokenCapAndBuild, if_neg exceeds, if_neg noPath, if_neg noConvention, if_pos some]
    generalize enforceTokenCapAndBuild _ = preamble at ih ⊢
    have noPaths : draft.facts.salientPaths = [] := not_not.mp noPath
    have noConventions : draft.facts.statedConventions = [] := not_not.mp noConvention
    have paths : preamble.facts.salientPaths = [] := List.prefix_nil.mp (noPaths ▸ ih.paths)
    have conventions : preamble.facts.statedConventions = [] := List.prefix_nil.mp (noConventions ▸ ih.conventions)
    have preferences : preamble.preferences <+: draft.preferences.dropLast := ih.preferences
    refine ⟨ih.bounded, ih.counted, prefix_dropLast preferences, ih.conventions, ih.paths, ih.named,
      fun _ => paths, fun _ => ⟨paths, conventions⟩, fun dropped => absurd (paths.trans noPaths.symm) dropped,
      fun dropped => absurd (conventions.trans noConventions.symm) dropped, ?_, ih.rendered, ih.emptied⟩
    intro _
    by_cases last : preamble.preferences = draft.preferences.dropLast
    · rw [last, take_dropLast_self some]
      have facts := withPaths_eq ih.named (conventions.trans noConventions.symm)
      rw [noPaths, ← paths] at facts
      change preamble.facts = draft.facts at facts
      rw [facts]
      exact Nat.not_le.mp exceeds
    · have needed : preambleHardTokenCap < draftTokens
          ⟨draft.preferences.dropLast.take (preamble.preferences.length + 1), preamble.facts⟩ :=
        ih.preferenceNeeded last
      rwa [take_dropLast preferences last] at needed
  | case5 draft exceeds noPath noConvention noPreference =>
    rw [enforceTokenCapAndBuild, if_neg exceeds, if_neg noPath, if_neg noConvention, if_neg noPreference]
    obtain ⟨preferences, repoName, primaryLanguage, salientPaths, statedConventions⟩ := draft
    obtain rfl : salientPaths = [] := not_not.mp noPath
    obtain rfl : statedConventions = [] := not_not.mp noConvention
    obtain rfl : preferences = [] := not_not.mp noPreference
    have empty : 0 = approximateTokenCount [] := by decide
    exact ⟨Nat.zero_le _, empty, List.prefix_rfl, List.prefix_rfl, List.prefix_rfl, ⟨rfl, rfl⟩, absurd rfl,
      absurd rfl, absurd rfl, absurd rfl, absurd rfl, .inr ⟨rfl, Nat.not_le.mp exceeds⟩,
      fun _ _ => Nat.not_le.mp exceeds⟩

end SkillLayer.SessionExtractor

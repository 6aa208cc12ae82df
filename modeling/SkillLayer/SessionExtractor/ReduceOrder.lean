import SkillLayer.Kernel
import SkillLayer.SessionExtractor.Reduce

/-! Reduce steps over the windows' candidates, in whatever order the windows finish. -/

namespace SkillLayer.SessionExtractor

open Domain Infrastructure

variable {F : Type} (ops : FloatOps F) (threshold : F) (embed : Str → List F)
  (answer : Str → Str → EquivalenceDecision)

/-- The reduce step merges two candidates when it compares them. -/
def Mergeable (left right : ExtractedSkillCandidate) : Prop :=
  ∃ similarity, cosineSimilarity ops (embed (candidateSemanticText left))
      (embed (candidateSemanticText right)) = .ok similarity ∧
    ops.lt similarity threshold = false ∧
    (answer (candidateSemanticText left) (candidateSemanticText right)).equivalent

/-- The embeddings of the candidates have one dimension. -/
def OneDimension (candidates : List ExtractedSkillCandidate) : Prop :=
  ∀ left ∈ candidates, ∀ right ∈ candidates,
    (embed (candidateSemanticText left)).length = (embed (candidateSemanticText right)).length

variable {ops threshold embed answer} {candidates deduped : List ExtractedSkillCandidate}
  {audit : List (ReduceAuditEntry F)} {removed : List (Fin candidates.length)}
  {decisions : List (ReduceDecision F candidates.length)}

theorem mergeable_symm (symmetric : ∀ left right, (answer left right).equivalent = (answer right left).equivalent)
    (left right : ExtractedSkillCandidate) (merges : Mergeable ops threshold embed answer left right) :
    Mergeable ops threshold embed answer right left := by
  obtain ⟨similarity, found, near, equivalent⟩ := merges
  exact ⟨similarity, cosineSimilarity_symm found, near, by rwa [symmetric]⟩

theorem Mergeable.length_eq {left right : ExtractedSkillCandidate}
    (merges : Mergeable ops threshold embed answer left right) :
    (embed (candidateSemanticText left)).length = (embed (candidateSemanticText right)).length := by
  obtain ⟨similarity, found, _⟩ := merges
  by_contra differ
  rw [cosineSimilarity, if_pos differ] at found
  cases found

namespace Reduced

theorem mem_deduped (reduced : Reduced ops threshold embed answer candidates deduped audit removed decisions)
    {candidate : ExtractedSkillCandidate} :
    candidate ∈ deduped ↔ ∃ position, position ∉ removed ∧ candidates.get position = candidate := by
  rw [reduced.deduped]
  simp [survivors]

theorem mem_removed (reduced : Reduced ops threshold embed answer candidates deduped audit removed decisions)
    {right : Fin candidates.length} (gone : right ∈ removed) :
    ∃ left, left ∉ removed ∧
      Mergeable ops threshold embed answer (candidates.get left) (candidates.get right) := by
  rw [reduced.merged.mem_iff] at gone
  obtain ⟨decided, member, rfl⟩ := List.mem_map.mp gone
  obtain ⟨inside, equivalent⟩ := List.mem_filter.mp member
  obtain ⟨_, found, near, decision⟩ := reduced.asked decided inside
  exact ⟨decided.left, reduced.keeps decided inside, decided.similarity, found, near, decision ▸ equivalent⟩

/-- The survivors are a choice of candidates no two of which merge and that reaches all. -/
theorem kernel (reduced : Reduced ops threshold embed answer candidates deduped audit removed decisions) :
    Kernel (Mergeable ops threshold embed answer) candidates deduped where
  subset _ member := reduced.sublist.subset member
  apart := by
    rw [reduced.deduped, survivors, List.pairwise_map]
    refine ((List.pairwise_lt_finRange candidates.length).filter _).imp_of_mem ?_
    rintro left right inLeft inRight before ⟨similarity, found, near, equivalent⟩
    obtain ⟨decision, rfl, differ, _⟩ := reduced.settled left right similarity before
      (by simpa using (List.mem_filter.mp inLeft).2) (by simpa using (List.mem_filter.mp inRight).2) found near
    rw [equivalent] at differ
    cases differ
  reaches := by
    intro candidate member
    obtain ⟨position, rfl⟩ := List.get_of_mem member
    by_cases gone : position ∈ removed
    · obtain ⟨left, stays, merges⟩ := reduced.mem_removed gone
      exact .inr ⟨_, reduced.mem_deduped.mpr ⟨left, stays, rfl⟩, merges⟩
    · exact .inl (reduced.mem_deduped.mpr ⟨position, gone, rfl⟩)

theorem oneDimension (reduced : Reduced ops threshold embed answer candidates deduped audit removed decisions) :
    OneDimension embed candidates := by
  have atKept (position : Fin candidates.length) : ∃ kept, kept ∉ removed ∧
      (embed (candidateSemanticText (candidates.get kept))).length =
        (embed (candidateSemanticText (candidates.get position))).length := by
    by_cases gone : position ∈ removed
    · obtain ⟨left, stays, merges⟩ := reduced.mem_removed gone
      exact ⟨left, stays, merges.length_eq⟩
    · exact ⟨position, gone, rfl⟩
  intro left inLeft right inRight
  obtain ⟨leftPosition, rfl⟩ := List.get_of_mem inLeft
  obtain ⟨rightPosition, rfl⟩ := List.get_of_mem inRight
  obtain ⟨leftKept, leftStays, leftSame⟩ := atKept leftPosition
  obtain ⟨rightKept, rightStays, rightSame⟩ := atKept rightPosition
  rw [← leftSame, ← rightSame]
  rcases lt_trichotomy leftKept rightKept with before | rfl | after
  · exact reduced.comparable _ _ before leftStays rightStays
  · rfl
  · exact (reduced.comparable _ _ after rightStays leftStays).symm

end Reduced

/-- A reduce step whose services always answer returns exactly when the embeddings have one
dimension. -/
theorem reduceAnswered_isOk :
    (reduceAnswered ops threshold embed answer candidates).isOk ↔ OneDimension embed candidates := by
  cases result : reduceAnswered ops threshold embed answer candidates with
  | ok returned =>
    obtain ⟨deduped, audit⟩ := returned
    obtain ⟨removed, decisions, reduced⟩ := reduceAnswered_eq_ok result
    exact ⟨fun _ => reduced.oneDimension, fun _ => rfl⟩
  | error error =>
    obtain ⟨left, inLeft, right, inRight, differ, _⟩ := reduceAnswered_eq_error result
    constructor
    · exact fun impossible => absurd impossible Bool.false_ne_true
    · exact fun same => absurd (same left inLeft right inRight) differ

theorem windowCandidates_perm {results other : List WindowResult} (same : results.Perm other) :
    (windowCandidates results).Perm (windowCandidates other) := by
  induction same with
  | nil => exact .nil
  | cons result same ih =>
    cases result with
    | error error => exact ih
    | ok candidates => exact ih.append_left candidates
  | swap first second rest =>
    cases first <;> cases second
    · exact .refl _
    · exact .refl _
    · exact .refl _
    · simpa only [windowCandidates, List.append_assoc] using
        List.perm_append_comm.append_right (windowCandidates rest)
  | trans _ _ first second => exact first.trans second

/-- In two orders of the windows' results a reduce step returns in both or in none, and its
survivors are a maximal choice of candidates no two of which merge. Where merging is
transitive the survivors match one to one, and where only equal candidates merge they are
the same. -/
theorem reduceAnswered_order (ops : FloatOps F) (threshold : F) (embed : Str → List F)
    (answer : Str → Str → EquivalenceDecision)
    (symmetric : ∀ left right, (answer left right).equivalent = (answer right left).equivalent)
    (preamble : List ExtractedSkillCandidate) {results other : List WindowResult} (same : results.Perm other) :
    let candidates := windowCandidates results ++ preamble
    let reordered := windowCandidates other ++ preamble
    let merges := Mergeable ops threshold embed answer
    ((reduceAnswered ops threshold embed answer candidates).isOk ↔
      (reduceAnswered ops threshold embed answer reordered).isOk) ∧
    ∀ deduped audit rededuped reaudit,
      reduceAnswered ops threshold embed answer candidates = .ok (deduped, audit) →
      reduceAnswered ops threshold embed answer reordered = .ok (rededuped, reaudit) →
      Kernel merges candidates deduped ∧ Kernel merges candidates rededuped ∧
      ((∀ first ∈ candidates, ∀ second ∈ candidates, ∀ third ∈ candidates,
          merges first second → merges second third → merges first third) →
        (∀ item ∈ deduped, ∃! keeper, keeper ∈ rededuped ∧ (item = keeper ∨ merges item keeper)) ∧
        ∀ item ∈ rededuped, ∃! keeper, keeper ∈ deduped ∧ (item = keeper ∨ merges item keeper)) ∧
      ((∀ left ∈ candidates, ∀ right ∈ candidates, merges left right → left = right) →
        ∀ candidate, candidate ∈ deduped ↔ candidate ∈ rededuped) := by
  intro candidates reordered merges
  have members (candidate : ExtractedSkillCandidate) : candidate ∈ reordered ↔ candidate ∈ candidates :=
    ((windowCandidates_perm same).append_right preamble).symm.mem_iff
  refine ⟨?_, ?_⟩
  · rw [reduceAnswered_isOk, reduceAnswered_isOk]
    simp only [OneDimension, members]
  · intro deduped audit rededuped reaudit returned rereturned
    obtain ⟨_, _, reduced⟩ := reduceAnswered_eq_ok returned
    obtain ⟨_, _, rereduced⟩ := reduceAnswered_eq_ok rereturned
    have kernel : Kernel merges candidates deduped := reduced.kernel
    have rekernel : Kernel merges candidates rededuped := rereduced.kernel.congr members
    refine ⟨kernel, rekernel, fun transitive => ?_, fun equal candidate => ?_⟩
    · exact ⟨kernel.matches_unique (mergeable_symm symmetric) transitive rekernel,
        rekernel.matches_unique (mergeable_symm symmetric) transitive kernel⟩
    · rw [kernel.mem_chosen equal, rekernel.mem_chosen equal]

/-- A candidate of which only the name is of interest. -/
def namedCandidate (name : Str) : ExtractedSkillCandidate := ⟨name, [], [], [], [], [], none, none⟩

/-- Two windows with one candidate each, which merge, in both orders. -/
theorem reduceAnswered_order_pair :
    ∃! keeper, keeper ∈ [namedCandidate "b".toList] ∧
      (namedCandidate "a".toList = keeper ∨
        Mergeable fractions 1 (fun _ => [1]) (fun _ _ => ⟨true, []⟩) (namedCandidate "a".toList) keeper) := by
  have similar : cosineSimilarity fractions [1] [1] = .ok 1 := by decide +kernel
  have orders := (reduceAnswered_order fractions 1 (fun _ => [1]) (fun _ _ => ⟨true, []⟩) (fun _ _ => rfl) []
    (List.Perm.swap (.ok [namedCandidate "b".toList]) (.ok [namedCandidate "a".toList]) [])).2
      [namedCandidate "a".toList] [⟨"a".toList, "b".toList, 1, .merged []⟩]
      [namedCandidate "b".toList] [⟨"b".toList, "a".toList, 1, .merged []⟩]
      (by decide +kernel) (by decide +kernel)
  exact (orders.2.2.1 fun _ _ _ _ _ _ _ _ => ⟨1, similar, by decide +kernel, rfl⟩).1 _ List.mem_cons_self

/-- Three candidates of which the middle one merges with both others leave one or two
survivors, by the order of their windows. -/
theorem reduceAnswered_order_differs :
    ¬ ∀ (threshold : Rat) (embed : Str → List Rat) (answer : Str → Str → EquivalenceDecision)
      (preamble : List ExtractedSkillCandidate) (results other : List WindowResult),
      (∀ left right, answer left right = answer right left) → results.Perm other →
      ∀ deduped audit rededuped reaudit,
        reduceAnswered fractions threshold embed answer (windowCandidates results ++ preamble) =
          .ok (deduped, audit) →
        reduceAnswered fractions threshold embed answer (windowCandidates other ++ preamble) =
          .ok (rededuped, reaudit) →
        ∀ candidate, candidate ∈ deduped ↔ candidate ∈ rededuped := by
  intro independent
  let middle := candidateSemanticText (namedCandidate "b".toList)
  have same := independent 1 (fun _ => [1])
    (fun left right => ⟨left = middle ∨ right = middle, []⟩) []
    [.ok [namedCandidate "a".toList], .ok [namedCandidate "b".toList], .ok [namedCandidate "c".toList]]
    [.ok [namedCandidate "b".toList], .ok [namedCandidate "a".toList], .ok [namedCandidate "c".toList]]
    (fun left right => by simp [or_comm]) (List.Perm.swap _ _ _)
    [namedCandidate "a".toList, namedCandidate "c".toList]
    [⟨"a".toList, "b".toList, 1, .merged []⟩, ⟨"a".toList, "c".toList, 1, .kept []⟩]
    [namedCandidate "b".toList]
    [⟨"b".toList, "a".toList, 1, .merged []⟩, ⟨"b".toList, "c".toList, 1, .merged []⟩]
    (by decide +kernel) (by decide +kernel) (namedCandidate "a".toList)
  have differ : ¬ (namedCandidate "a".toList ∈ [namedCandidate "a".toList, namedCandidate "c".toList] ↔
      namedCandidate "a".toList ∈ [namedCandidate "b".toList]) := by decide +kernel
  exact differ same

end SkillLayer.SessionExtractor

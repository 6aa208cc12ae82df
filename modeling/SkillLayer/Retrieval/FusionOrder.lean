import SkillLayer.Retrieval.FusionLaw
import SkillLayer.SortOrder

/-! Whether the fusion depends on the order in which the map of the aggregates gives its entries back. -/

namespace SkillLayer.Retrieval

deriving instance DecidableEq for Aggregate

/-- The entry of an id, from its occurrences. -/
def entryOf (rrfK : Rat) (scopeRankings : List ScopeRanking) (id : Str) : Option FusedCandidate :=
  (firstBest? originalStanding (occurrences scopeRankings id)).map fun original =>
    { original with score := rrfScore rrfK scopeRankings id }

/-- The entries of all ids that take part, in no particular order. -/
def entries (rrfK : Rat) (scopeRankings : List ScopeRanking) : List FusedCandidate :=
  (((contributors scopeRankings).map FusedCandidate.skillId).dedup).filterMap (entryOf rrfK scopeRankings)

/-- No two skills stand alike with fewer than the given number of others above them. -/
def NoOpenTie (rrfK : Rat) (scopeRankings : List ScopeRanking) (maxResults : Nat) : Prop :=
  ∀ one ∈ entries rrfK scopeRankings, ∀ two ∈ entries rrfK scopeRankings, one.skillId ≠ two.skillId →
    fusedStanding one = fusedStanding two →
    maxResults ≤ (entries rrfK scopeRankings).countP fun other => fusedStanding one < fusedStanding other

variable {rrfK : Rat} {scopeRankings : List ScopeRanking} {k : Rat} {maxResults : Nat}

theorem skillId_of_entryOf {id : Str} {entry : FusedCandidate} (found : entryOf rrfK scopeRankings id = some entry) :
    entry.skillId = id := by
  obtain ⟨original, best, rfl⟩ := Option.map_eq_some_iff.mp found
  have occurs := (firstBest?_eq_some_iff.mp best).mem
  exact of_decide_eq_true (List.mem_filter.mp occurs).2

theorem entryOf_of_mem_entries {entry : FusedCandidate} (member : entry ∈ entries rrfK scopeRankings) :
    entryOf rrfK scopeRankings entry.skillId = some entry := by
  obtain ⟨id, -, found⟩ := List.mem_filterMap.mp member
  rwa [skillId_of_entryOf found]

theorem nodup_entries : (entries rrfK scopeRankings).Nodup := by
  refine (List.nodup_dedup _).filterMap fun id other entry found alsoFound => ?_
  rw [← skillId_of_entryOf found, ← skillId_of_entryOf alsoFound]

theorem wholeFusion_perm_entries (mapOrder : HashOrder (Str × Aggregate)) (scopeRankings : List ScopeRanking) (k : Rat) :
    (wholeFusion mapOrder scopeRankings k).Perm (entries (rrfConstant k) scopeRankings) := by
  have exactly := fusedExactly_wholeFusion mapOrder scopeRankings k
  have own : ∀ entry ∈ wholeFusion mapOrder scopeRankings k,
      entryOf (rrfConstant k) scopeRankings entry.skillId = some entry := by
    intro entry member
    obtain ⟨original, best, same⟩ := exactly.fields entry member
    rw [entryOf, firstBest?_eq_some_iff.mpr best, Option.map_some, ← exactly.score entry member, ← same]
  refine (List.perm_ext_iff_of_nodup (List.Nodup.of_map _ exactly.distinct)
    nodup_entries).mpr fun entry => ?_
  rw [entries, List.mem_filterMap]
  constructor
  · intro member
    refine ⟨entry.skillId, ?_, own entry member⟩
    rw [List.mem_dedup, mem_contributors_iff, ← exactly.ids]
    exact List.mem_map_of_mem member
  · intro ⟨id, takesPart, found⟩
    rw [List.mem_dedup, mem_contributors_iff, ← exactly.ids] at takesPart
    obtain ⟨listed, member, rfl⟩ := List.mem_map.mp takesPart
    exact Option.some.inj (found.symm.trans (own listed member)) ▸ member

/-- Where nothing ties among the first results, they are the same for every order of the map. -/
theorem fusion_eq_of_noOpenTie (untied : NoOpenTie (rrfConstant k) scopeRankings maxResults)
    (mapOrder otherOrder : HashOrder (Str × Aggregate)) :
    weightedReciprocalRankFusion mapOrder scopeRankings k maxResults =
      weightedReciprocalRankFusion otherOrder scopeRankings k maxResults := by
  have first := wholeFusion_perm_entries mapOrder scopeRankings k
  have second := wholeFusion_perm_entries otherOrder scopeRankings k
  rw [weightedReciprocalRankFusion_eq_take, weightedReciprocalRankFusion_eq_take]
  refine take_eq_of_untied (first.trans second.symm) (first.nodup_iff.mpr nodup_entries)
    (sorted_wholeFusion ..) (sorted_wholeFusion ..) ?_
  intro one inOne two inTwo different tied
  rw [first.countP_eq]
  refine untied one (first.subset inOne) two (first.subset inTwo) (fun same => different ?_) tied
  have found := entryOf_of_mem_entries (first.subset inTwo)
  rw [← same, entryOf_of_mem_entries (first.subset inOne)] at found
  exact Option.some.inj found

/-- Of the entries that stand alike, the map may give any one first, and it is then the first of them. -/
theorem exists_order_with_first {entry : FusedCandidate} (member : entry ∈ entries (rrfConstant k) scopeRankings) :
    ∃ mapOrder : HashOrder (Str × Aggregate), (wholeFusion mapOrder scopeRankings k)[
      (entries (rrfConstant k) scopeRankings).countP fun other => fusedStanding entry < fusedStanding other]? =
        some entry := by
  have listed := (wholeFusion_perm_entries (HashOrder.unchanged _) scopeRankings k).symm.subset member
  obtain ⟨aggregate, inMap, rfl⟩ := List.mem_map.mp (wholeFusion_perm.subset listed)
  refine ⟨HashOrder.preferring aggregate, ?_⟩
  rw [← (wholeFusion_perm_entries (HashOrder.preferring aggregate) scopeRankings k).countP_eq]
  apply getElem?_of_head_tied (sorted_wholeFusion ..)
  rw [wholeFusion_eq, filter_insertionSort]
  · rw [HashOrder.preferring]
    simp [inMap]
  · intro one two first second
    rw [of_decide_eq_true first, of_decide_eq_true second]

/-- Two skills that each scope ranks the other way round. -/
def mirroredRankings : List ScopeRanking :=
  [⟨"project", 1, [sampleCandidate 0 "a", sampleCandidate 1 "b"]⟩,
    ⟨"global", 1, [sampleCandidate 1 "b", sampleCandidate 0 "a"]⟩]

def mirroredAggregate (index : Nat) (id : Str) : Str × Aggregate := (id, ⟨1 / 61 + 1 / 62, sampleCandidate index id⟩)

end SkillLayer.Retrieval

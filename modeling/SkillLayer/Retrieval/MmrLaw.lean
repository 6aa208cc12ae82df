import SkillLayer.Retrieval.Fusion

/-! What the selection by marginal relevance gives: a greedy run over the input positions. -/

namespace SkillLayer.Retrieval

variable {root : Root} {candidates : List FusedCandidate} {lambda : Rat} {maxResults : Nat}

/-- Scores as `f32` holds them. -/
def FiniteScores (candidates : List FusedCandidate) : Prop :=
  ∀ candidate ∈ candidates, f32Min ≤ candidate.score ∧ candidate.score ≤ -f32Min

/-- The chosen positions are distinct, as many as asked for and there are, each the first of the most relevant
still there; all of them with room for all, more of them with a larger limit, and the front of a sorted list
where only relevance counts. -/
structure SelectsByRelevance (root : Root) (candidates : List FusedCandidate) (lambda : Rat) (maxResults : Nat) :
    Prop where
  greedy : ∃ chosen : List (Fin candidates.length),
    mmrSelect root candidates lambda maxResults = chosen.map candidates.get ∧
      chosen.length = min maxResults candidates.length ∧
      Greedy (mmrScore root candidates lambda) (List.finRange candidates.length) chosen
  permutation : candidates.length ≤ maxResults → (mmrSelect root candidates lambda maxResults).Perm candidates
  prefixes : ∀ larger, maxResults ≤ larger →
    mmrSelect root candidates lambda maxResults <+: mmrSelect root candidates lambda larger
  sorted : 1 ≤ lambda → (candidates.Pairwise fun left right => right.score ≤ left.score) →
    mmrSelect root candidates lambda maxResults = candidates.take maxResults

/-- The largest similarity to what is selected: none is larger, and it is one of them unless it is zero. -/
theorem maxSimilarity_largest (selected : List (Fin candidates.length)) (index : Fin candidates.length) :
    let similarity other := semanticScore root (candidates.get index).embedding (candidates.get other).embedding
    0 ≤ maxSimilarity root candidates selected index ∧
      (∀ other ∈ selected, similarity other ≤ maxSimilarity root candidates selected index) ∧
      (maxSimilarity root candidates selected index = 0 ∨
        ∃ other ∈ selected, maxSimilarity root candidates selected index = similarity other) := by
  intro similarity
  unfold maxSimilarity
  induction selected using List.reverseRecOn with
  | nil => exact ⟨le_rfl, List.forall_mem_nil _, .inl rfl⟩
  | append_singleton selected last ih =>
    obtain ⟨nonneg, bounds, attained⟩ := ih
    rw [List.foldl_append, List.foldl_cons, List.foldl_nil]
    refine ⟨nonneg.trans (le_max_left _ _), ?_, ?_⟩
    · intro other member
      rcases List.mem_append.mp member with earlier | here
      · exact (bounds other earlier).trans (le_max_left _ _)
      · rw [List.mem_singleton.mp here]
        exact le_max_right _ _
    · rcases max_choice (selected.foldl (fun largest other => max largest (similarity other)) 0) (similarity last) with
        before | here
      · rw [before]
        rcases attained with zero | ⟨other, member, same⟩
        · exact .inl zero
        · exact .inr ⟨other, List.mem_append_left _ member, same⟩
      · exact .inr ⟨last, List.mem_append_right _ (List.mem_singleton.mpr rfl), here⟩

/-- The run over the positions, whatever the limit. -/
def mmrPositions (root : Root) (candidates : List FusedCandidate) (lambda : Rat) (maxResults : Nat) :
    List (Fin candidates.length) :=
  select (mmrScore root candidates lambda) f32Min maxResults [] (List.finRange candidates.length)

theorem mmrSelect_eq : mmrSelect root candidates lambda maxResults =
    (mmrPositions root candidates lambda maxResults).map candidates.get := by
  unfold mmrSelect
  split
  · rename_i nothing
    rcases Bool.or_eq_true_iff.mp nothing with empty | zero
    · rw [List.eq_nil_iff_forall_not_mem.mpr fun index (_ : index ∈ mmrPositions root candidates lambda maxResults) =>
        Nat.not_lt_zero index.val (List.isEmpty_iff_length_eq_zero.mp empty ▸ index.isLt)]
      rfl
    · rw [eq_of_beq zero]
      rfl
  · rfl

theorem mmrScore_of_one_le (one : 1 ≤ lambda) (selected : List (Fin candidates.length)) (index : Fin candidates.length) :
    mmrScore root candidates lambda selected index = (candidates.get index).score := by
  have clamped : clampUnit lambda = 1 := by
    rw [clampUnit, max_eq_left (zero_le_one.trans one), min_eq_right one]
  rw [mmrScore, clamped]
  ring

/-- Below one, the start value of the scan is under every finite score. -/
theorem f32Min_lt_mmrScore_of_lt_one (below : lambda < 1) (finite : FiniteScores candidates)
    (selected : List (Fin candidates.length)) (index : Fin candidates.length) :
    f32Min < mmrScore root candidates lambda selected index := by
  have lowest := (finite _ (List.get_mem candidates index)).1
  have similar : maxSimilarity root candidates selected index ≤ 1 := maxSimilarity_le_one selected index
  have nonneg := clampUnit_nonneg lambda
  have small : clampUnit lambda < 1 := by
    rw [clampUnit, min_eq_left (max_le below.le zero_le_one)]
    exact max_lt below one_pos
  have scaled := mul_le_mul_of_nonneg_left lowest nonneg
  have penalty := mul_le_mul_of_nonneg_left similar (sub_nonneg.mpr small.le)
  have far : f32Min < -1 := by
    unfold f32Min
    norm_num
  have gap : 0 < (1 - clampUnit lambda) * (-1 - f32Min) := mul_pos (sub_pos.mpr small) (by linarith)
  unfold mmrScore
  linarith

/-! ### When the run comes to its end -/

/-- The positions whose score is above the start value of the scan. -/
def eligible (candidates : List FusedCandidate) : List (Fin candidates.length) :=
  (List.finRange candidates.length).filter fun index => decide (f32Min < (candidates.get index).score)

theorem length_eligible (candidates : List FusedCandidate) :
    (eligible candidates).length = candidates.countP fun candidate => decide (f32Min < candidate.score) := by
  calc (eligible candidates).length
      = ((List.finRange candidates.length).map candidates.get).countP
          fun candidate => decide (f32Min < candidate.score) := by
        rw [eligible, ← List.countP_eq_length_filter, List.countP_map]
        rfl
    _ = _ := by rw [List.map_get_finRange]

variable (root candidates lambda maxResults) in
theorem greedy_mmrPositions :
    Greedy (mmrScore root candidates lambda) (List.finRange candidates.length)
      (mmrPositions root candidates lambda maxResults) :=
  (greedy_select (mmrScore root candidates lambda) f32Min maxResults (List.finRange candidates.length)).1

theorem mmrPositions_above {index : Fin candidates.length}
    (member : index ∈ mmrPositions root candidates lambda maxResults) :
    ∃ before, f32Min < mmrScore root candidates lambda before index := by
  obtain ⟨step, found⟩ := List.mem_iff_getElem?.mp member
  have above := (greedy_select (mmrScore root candidates lambda) f32Min maxResults (List.finRange candidates.length)).2
  exact ⟨_, above step index found⟩

/-- A run that takes fewer positions than asked for has left no score above the start value. -/
theorem mmrPositions_ends (short : (mmrPositions root candidates lambda maxResults).length ≠ maxResults)
    (index : Fin candidates.length) (fresh : index ∉ mmrPositions root candidates lambda maxResults) :
    mmrScore root candidates lambda (mmrPositions root candidates lambda maxResults) index ≤ f32Min := by
  rcases select_ends_from_start (mmrScore root candidates lambda) f32Min maxResults
    (List.finRange candidates.length) with whole | ⟨-, low⟩
  · exact absurd whole short
  · exact low index (List.mem_finRange index) fresh

theorem length_mmrPositions_le :
    (mmrPositions root candidates lambda maxResults).length ≤ min maxResults candidates.length := by
  have greedy := greedy_mmrPositions root candidates lambda maxResults
  refine le_min ?_ ?_
  · rcases select_ends_from_start (mmrScore root candidates lambda) f32Min maxResults
      (List.finRange candidates.length) with whole | ⟨short, -⟩
    · exact whole.le
    · exact short.le
  · have inside := (List.subperm_of_subset greedy.distinct greedy.subset).length_le
    rwa [List.length_finRange] at inside

variable (root) in
/-- Below one the run takes as many positions as asked for and there are; at one, only those above the start value. -/
theorem length_mmrPositions_iff (finite : FiniteScores candidates) :
    (mmrPositions root candidates lambda maxResults).length = min maxResults candidates.length ↔
      lambda < 1 ∨
        min maxResults candidates.length ≤ candidates.countP fun candidate => decide (f32Min < candidate.score) := by
  have greedy := greedy_mmrPositions root candidates lambda maxResults
  constructor
  · intro full
    by_cases below : lambda < 1
    · exact .inl below
    · have high : mmrPositions root candidates lambda maxResults ⊆ eligible candidates := by
        intro index member
        obtain ⟨before, score⟩ := mmrPositions_above member
        rw [mmrScore_of_one_le (not_lt.mp below)] at score
        exact List.mem_filter.mpr ⟨List.mem_finRange index, decide_eq_true score⟩
      have few := (List.subperm_of_subset greedy.distinct high).length_le
      rw [length_eligible, full] at few
      exact .inr few
  · intro holds
    refine le_antisymm length_mmrPositions_le ?_
    by_cases whole : (mmrPositions root candidates lambda maxResults).length = maxResults
    · exact (min_le_left _ _).trans whole.ge
    · by_cases below : lambda < 1
      · have all : List.finRange candidates.length ⊆ mmrPositions root candidates lambda maxResults := by
          intro index _
          by_contra fresh
          exact (f32Min_lt_mmrScore_of_lt_one below finite _ index).not_ge (mmrPositions_ends whole index fresh)
        have many := (List.subperm_of_subset (List.nodup_finRange _) all).length_le
        rw [List.length_finRange] at many
        exact (min_le_right _ _).trans many
      · have all : eligible candidates ⊆ mmrPositions root candidates lambda maxResults := by
          intro index member
          by_contra fresh
          have low := mmrPositions_ends whole index fresh
          rw [mmrScore_of_one_le (not_lt.mp below)] at low
          exact (of_decide_eq_true (List.mem_filter.mp member).2).not_ge low
        have many : (eligible candidates).length ≤ _ :=
          (List.subperm_of_subset ((List.nodup_finRange _).filter _) all).length_le
        rw [length_eligible] at many
        exact (holds.resolve_left below).trans many

/-! ### What a full run gives -/

theorem mmrSelect_prefix {larger : Nat} (more : maxResults ≤ larger) :
    mmrSelect root candidates lambda maxResults <+: mmrSelect root candidates lambda larger := by
  rw [mmrSelect_eq, mmrSelect_eq]
  exact (select_begins _ _ more _ _).map _

theorem mmrSelect_subperm : (mmrSelect root candidates lambda maxResults).Subperm candidates := by
  have greedy := greedy_mmrPositions root candidates lambda maxResults
  obtain ⟨positions, shuffled, within⟩ := List.subperm_of_subset greedy.distinct greedy.subset
  have listed := within.map candidates.get
  rw [List.map_get_finRange] at listed
  exact ⟨_, mmrSelect_eq ▸ shuffled.map candidates.get, listed⟩

theorem mmrSelect_perm (full : (mmrPositions root candidates lambda maxResults).length = candidates.length) :
    (mmrSelect root candidates lambda maxResults).Perm candidates := by
  have greedy := greedy_mmrPositions root candidates lambda maxResults
  have positions : (mmrPositions root candidates lambda maxResults).Perm (List.finRange candidates.length) := by
    apply (List.subperm_of_subset greedy.distinct greedy.subset).perm_of_length_le
    rw [List.length_finRange, full]
  have listed := positions.map candidates.get
  rwa [List.map_get_finRange, ← mmrSelect_eq] at listed

theorem mmrSelect_sorted (one : 1 ≤ lambda)
    (falling : candidates.Pairwise fun left right => right.score ≤ left.score)
    (full : (mmrPositions root candidates lambda maxResults).length = min maxResults candidates.length) :
    mmrSelect root candidates lambda maxResults = candidates.take maxResults := by
  have positions := (greedy_mmrPositions root candidates lambda maxResults).eq_take (List.nodup_finRange _) ?_
  · rw [mmrSelect_eq, positions, List.map_take, List.map_get_finRange, full, ← List.take_take, List.take_length]
  · intro before
    simp only [mmrScore_of_one_le one]
    rw [← List.map_get_finRange candidates, List.pairwise_map] at falling
    exact falling

/-- Selecting by marginal relevance does what it is to do exactly when the weight of relevance is below one, or
enough candidates score above the start value of the scan. -/
theorem selectsByRelevance_iff (finite : FiniteScores candidates) :
    SelectsByRelevance root candidates lambda maxResults ↔
      lambda < 1 ∨
        min maxResults candidates.length ≤ candidates.countP fun candidate => decide (f32Min < candidate.score) := by
  rw [← length_mmrPositions_iff root finite]
  constructor
  · intro selects
    obtain ⟨chosen, listed, sized, -⟩ := selects.greedy
    have lengths := congrArg List.length listed
    rwa [mmrSelect_eq, List.length_map, List.length_map, sized] at lengths
  · intro full
    refine ⟨⟨_, mmrSelect_eq, full, greedy_mmrPositions root candidates lambda maxResults⟩, ?_, ?_, ?_⟩
    · intro room
      exact mmrSelect_perm (by rw [full, min_eq_right room])
    · intro larger more
      exact mmrSelect_prefix more
    · intro one falling
      exact mmrSelect_sorted one falling full

/-- A candidate with the lowest score there is. -/
def lowestCandidate : FusedCandidate :=
  ⟨0, "tips", .project, f32Min, 0, 0, 0, [1], []⟩

theorem finite_lowestCandidate : FiniteScores [lowestCandidate] := by
  intro candidate member
  obtain rfl := List.mem_singleton.mp member
  refine ⟨le_rfl, ?_⟩
  change f32Min ≤ -f32Min
  unfold f32Min
  norm_num

theorem lowestCandidate_selected : SelectsByRelevance fractionRoot [lowestCandidate] (13 / 20) 1 :=
  (selectsByRelevance_iff finite_lowestCandidate).mpr (.inl (by norm_num))

/-- At one, the scan never takes it: the list of one candidate is not selected as a whole. -/
theorem lowestCandidate_unselected :
    mmrSelect fractionRoot [lowestCandidate] 1 1 = [] ∧ ¬ SelectsByRelevance fractionRoot [lowestCandidate] 1 1 := by
  have nothing : mmrSelect fractionRoot [lowestCandidate] 1 1 = [] := by
    rw [mmrSelect_eq, List.map_eq_nil_iff, List.eq_nil_iff_forall_not_mem]
    intro index member
    obtain ⟨before, above⟩ := mmrPositions_above member
    rw [mmrScore_of_one_le le_rfl, List.mem_singleton.mp (List.get_mem [lowestCandidate] index)] at above
    exact above.false
  refine ⟨nothing, ?_⟩
  intro selects
  have whole := selects.permutation le_rfl
  rw [nothing] at whole
  exact absurd whole.length_eq (by decide)

end SkillLayer.Retrieval

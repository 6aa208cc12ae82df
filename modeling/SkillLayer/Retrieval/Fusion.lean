import Mathlib.Data.List.FinRange
import SkillLayer.Grouping
import SkillLayer.Retrieval.GraphSearch
import SkillLayer.Selection
import SkillLayer.Upsert

/-! Candidates of a scope by maximal marginal relevance, and the fusion of the scopes' rankings. -/

namespace SkillLayer.Retrieval

open Domain

structure FusedCandidate where
  skillIndex : Nat
  skillId : Str
  matchedScope : ScopeType
  score : Rat
  semanticScore : Rat
  lexicalScore : Rat
  subunitEvidence : Rat
  embedding : Embedding
  highlights : List SubunitProjection
deriving DecidableEq

structure ScopeRanking where
  scopeId : Str
  weight : Rat
  candidates : List FusedCandidate

structure Aggregate where
  rrfScore : Rat
  representative : FusedCandidate

/-! ### Maximal marginal relevance -/

/-- `f32::MIN`. -/
def f32Min : Rat := -340282346638528859811704183484516925440

/-- `clamp(0.0, 1.0)`. -/
def clampUnit (value : Rat) : Rat := min (max value 0) 1

section Mmr

variable (root : Root) (candidates : List FusedCandidate) (lambda : Rat)

def maxSimilarity (selected : List (Fin candidates.length)) (index : Fin candidates.length) : Rat :=
  selected.foldl (fun largest other =>
    max largest (semanticScore root (candidates.get index).embedding (candidates.get other).embedding)) 0

def mmrScore (selected : List (Fin candidates.length)) (index : Fin candidates.length) : Rat :=
  clampUnit lambda * (candidates.get index).score -
    (1 - clampUnit lambda) * maxSimilarity root candidates selected index

def mmrSelect (maxResults : Nat) : List FusedCandidate :=
  if candidates.isEmpty || maxResults == 0 then []
  else
    (select (mmrScore root candidates lambda) f32Min maxResults [] (List.finRange candidates.length)).map
      candidates.get

variable {root candidates lambda}

theorem maxSimilarity_le_one (selected : List (Fin candidates.length)) (index : Fin candidates.length) :
    maxSimilarity root candidates selected index ≤ 1 := by
  have bounded (largest : Rat) (small : largest ≤ 1) : selected.foldl (fun largest other =>
      max largest (semanticScore root (candidates.get index).embedding (candidates.get other).embedding)) largest ≤ 1 := by
    induction selected generalizing largest with
    | nil => exact small
    | cons other rest ih => exact ih _ (max_le small (semanticScore_le_one root _ _))
  exact bounded 0 zero_le_one

theorem clampUnit_nonneg (value : Rat) : 0 ≤ clampUnit value := le_min (le_max_right _ _) zero_le_one

theorem clampUnit_le_one (value : Rat) : clampUnit value ≤ 1 := min_le_right _ _

/-- A score above the start value of the scan stays above it, whatever was selected before. -/
theorem f32Min_lt_mmrScore (selected : List (Fin candidates.length)) {index : Fin candidates.length}
    (above : f32Min < (candidates.get index).score) : f32Min < mmrScore root candidates lambda selected index := by
  unfold mmrScore
  have similar : maxSimilarity root candidates selected index ≤ 1 := maxSimilarity_le_one selected index
  have nonneg := clampUnit_nonneg lambda
  have small := clampUnit_le_one lambda
  have penalty : (1 - clampUnit lambda) * maxSimilarity root candidates selected index ≤ 1 - clampUnit lambda := by
    nlinarith
  have far : f32Min < -1 := by
    unfold f32Min
    norm_num
  rcases nonneg.eq_or_lt with zero | positive
  · rw [← zero] at penalty ⊢
    linarith
  · have scaled := mul_lt_mul_of_pos_left above positive
    nlinarith

theorem mem_of_mem_mmrSelect {maxResults : Nat} {candidate : FusedCandidate}
    (member : candidate ∈ mmrSelect root candidates lambda maxResults) : candidate ∈ candidates := by
  unfold mmrSelect at member
  split at member
  · cases member
  · obtain ⟨index, -, rfl⟩ := List.mem_map.mp member
    exact List.get_mem candidates index

/-- With room for all candidates, and scores above the start value of the scan, none is left out. -/
theorem mem_mmrSelect_of_room {maxResults : Nat} (room : candidates.length ≤ maxResults)
    (above : ∀ candidate ∈ candidates, f32Min < candidate.score) {candidate : FusedCandidate}
    (member : candidate ∈ candidates) : candidate ∈ mmrSelect root candidates lambda maxResults := by
  obtain ⟨index, rfl⟩ := List.get_of_mem member
  have many : ¬ (candidates.isEmpty || maxResults == 0) = true := by
    have some_ := List.length_pos_of_mem member
    rw [Bool.or_eq_true, List.isEmpty_iff_length_eq_zero, beq_iff_eq]
    omega
  rw [mmrSelect, if_neg many]
  refine List.mem_map_of_mem (mem_select_of_room ?_ ?_ (List.mem_finRange index))
  · rwa [List.length_finRange]
  · intro selected other _
    exact f32Min_lt_mmrScore selected (above _ (List.get_mem candidates other))

end Mmr

/-! ### Reciprocal rank fusion -/

def scopePriority : ScopeType → Nat
  | .project => 3
  | .global => 2
  | .team => 1

def shouldReplaceRepresentative (candidate current : FusedCandidate) : Bool :=
  decide (current.score < candidate.score) ||
    (decide (candidate.score = current.score) &&
      decide (scopePriority current.matchedScope < scopePriority candidate.matchedScope))

def upsertAggregate (contribution : Rat) (candidate : FusedCandidate) :
    List (Str × Aggregate) → List (Str × Aggregate) :=
  upsert candidate.skillId ⟨contribution, candidate⟩ fun aggregate =>
    { rrfScore := aggregate.rrfScore + contribution
      representative :=
        if shouldReplaceRepresentative candidate aggregate.representative then candidate
        else aggregate.representative }

def accumulateScopeRanking (rrfK : Rat) (aggregated : List (Str × Aggregate)) (ranking : ScopeRanking) :
    List (Str × Aggregate) :=
  if ranking.weight ≤ 0 then aggregated
  else ranking.candidates.zipIdx.foldl (fun aggregated entry =>
    upsertAggregate (ranking.weight / (rrfK + ((entry.2 : Rat) + 1))) entry.1 aggregated) aggregated

def finalizeAggregate (entry : Str × Aggregate) : FusedCandidate :=
  { entry.2.representative with score := entry.2.rrfScore }

def fusedCandidateOrder (left right : FusedCandidate) : Ordering :=
  (((cmp right.score left.score).then
    (cmp (scopePriority right.matchedScope) (scopePriority left.matchedScope))).then
    (cmp right.semanticScore left.semanticScore)).then
    (cmp right.lexicalScore left.lexicalScore)

/-- `mapOrder` is the order in which the map of the aggregates gives them back. -/
def weightedReciprocalRankFusion (mapOrder : HashOrder (Str × Aggregate)) (scopeRankings : List ScopeRanking)
    (k : Rat) (maxResults : Nat) : List FusedCandidate :=
  if scopeRankings.isEmpty || maxResults == 0 then []
  else
    let rrfK := if 0 < k then k else 60
    let aggregated := scopeRankings.foldl (accumulateScopeRanking rrfK) []
    let fused := (mapOrder.arrange aggregated).map finalizeAggregate
    (fused.insertionSort fun left right => fusedCandidateOrder left right ≠ .gt).take maxResults

/-! ### What the fusion keeps -/

/-- The candidates that take part: those of the rankings with a positive weight. -/
def contributors (scopeRankings : List ScopeRanking) : List FusedCandidate :=
  scopeRankings.flatMap fun ranking => if ranking.weight ≤ 0 then [] else ranking.candidates

/-- The entries are those of the candidates, each under its id and represented by one of them. -/
structure Aggregates (candidates : List FusedCandidate) (aggregated : List (Str × Aggregate)) : Prop where
  distinct : (aggregated.map Prod.fst).Nodup
  keys : ∀ id, id ∈ aggregated.map Prod.fst ↔ id ∈ candidates.map FusedCandidate.skillId
  represented : ∀ entry ∈ aggregated,
    entry.2.representative ∈ candidates ∧ entry.2.representative.skillId = entry.1

theorem Aggregates.upsert {candidates : List FusedCandidate} {aggregated : List (Str × Aggregate)}
    (aggregates : Aggregates candidates aggregated) (contribution : Rat) (candidate : FusedCandidate) :
    Aggregates (candidates ++ [candidate]) (upsertAggregate contribution candidate aggregated) where
  distinct := nodup_keys_upsert aggregates.distinct
  keys id := by
    rw [upsertAggregate, mem_keys_upsert, aggregates.keys, List.map_append, List.mem_append, List.map_singleton,
      List.mem_singleton, or_comm]
  represented := by
    have here : candidate ∈ candidates ++ [candidate] := List.mem_append_right _ (List.mem_singleton.mpr rfl)
    let holds (id : Str) (aggregate : Aggregate) :=
      aggregate.representative ∈ candidates ++ [candidate] ∧ aggregate.representative.skillId = id
    have inserted : holds candidate.skillId ⟨contribution, candidate⟩ := ⟨here, rfl⟩
    refine forall_upsert inserted ?_ ?_
    · intro aggregate known
      dsimp only [holds]
      split
      · exact inserted
      · exact known
    · intro entry member
      obtain ⟨known, same⟩ := aggregates.represented entry member
      exact ⟨List.mem_append_left _ known, same⟩

theorem Aggregates.accumulate {candidates : List FusedCandidate} {aggregated : List (Str × Aggregate)}
    (aggregates : Aggregates candidates aggregated) (rrfK : Rat) (ranking : ScopeRanking) :
    Aggregates (candidates ++ contributors [ranking]) (accumulateScopeRanking rrfK aggregated ranking) := by
  unfold accumulateScopeRanking contributors
  rw [List.flatMap_singleton]
  split
  · rwa [List.append_nil]
  · have each (entries : List (FusedCandidate × Nat)) {candidates : List FusedCandidate}
        {aggregated : List (Str × Aggregate)} (aggregates : Aggregates candidates aggregated) :
        Aggregates (candidates ++ entries.map Prod.fst) (entries.foldl (fun aggregated entry =>
          upsertAggregate (ranking.weight / (rrfK + ((entry.2 : Rat) + 1))) entry.1 aggregated) aggregated) := by
      induction entries generalizing candidates aggregated with
      | nil => simpa using aggregates
      | cons entry rest ih => simpa using ih (aggregates.upsert _ entry.1)
    have all := each ranking.candidates.zipIdx aggregates
    rwa [List.zipIdx_map_fst] at all

theorem aggregates_fusion (rrfK : Rat) (scopeRankings : List ScopeRanking) :
    Aggregates (contributors scopeRankings) (scopeRankings.foldl (accumulateScopeRanking rrfK) []) := by
  have each (rankings : List ScopeRanking) {candidates : List FusedCandidate} {aggregated : List (Str × Aggregate)}
      (aggregates : Aggregates candidates aggregated) :
      Aggregates (candidates ++ contributors rankings) (rankings.foldl (accumulateScopeRanking rrfK) aggregated) := by
    induction rankings generalizing candidates aggregated with
    | nil => simpa [contributors] using aggregates
    | cons ranking rest ih => simpa [contributors] using ih (aggregates.accumulate rrfK ranking)
  have none_ : Aggregates [] [] := ⟨List.nodup_nil, fun _ => Iff.rfl, List.forall_mem_nil _⟩
  simpa using each scopeRankings none_

/-- A fusion lists each id once, and every entry is a candidate that takes part, with a new score. -/
structure Fused (candidates fused : List FusedCandidate) : Prop where
  distinct : (fused.map FusedCandidate.skillId).Nodup
  candidate : ∀ entry ∈ fused, ∃ original ∈ candidates, entry = { original with score := entry.score }

section Fusion

variable {mapOrder : HashOrder (Str × Aggregate)} {scopeRankings : List ScopeRanking} {k : Rat} {maxResults : Nat}

theorem fused_of_aggregates {candidates fused : List FusedCandidate} {aggregated : List (Str × Aggregate)}
    (aggregates : Aggregates candidates aggregated) (listed : fused.Perm (aggregated.map finalizeAggregate)) :
    Fused candidates fused ∧
      ∀ id, id ∈ fused.map FusedCandidate.skillId ↔ id ∈ candidates.map FusedCandidate.skillId := by
  have ids : (aggregated.map finalizeAggregate).map FusedCandidate.skillId = aggregated.map Prod.fst := by
    rw [List.map_map]
    exact List.map_congr_left fun entry member => (aggregates.represented entry member).2
  have idsPerm := listed.map FusedCandidate.skillId
  rw [ids] at idsPerm
  refine ⟨⟨idsPerm.nodup_iff.mpr aggregates.distinct, ?_⟩, fun id => idsPerm.mem_iff.trans (aggregates.keys id)⟩
  intro entry member
  obtain ⟨aggregate, inAggregated, rfl⟩ := List.mem_map.mp (listed.subset member)
  exact ⟨aggregate.2.representative, (aggregates.represented aggregate inAggregated).1, rfl⟩

variable (mapOrder scopeRankings k maxResults) in
/-- The whole fusion, before it is cut to the number of results. -/
theorem exists_fused : ∃ fused, Fused (contributors scopeRankings) fused ∧
    (∀ id, id ∈ fused.map FusedCandidate.skillId ↔
      id ∈ (contributors scopeRankings).map FusedCandidate.skillId) ∧
    weightedReciprocalRankFusion mapOrder scopeRankings k maxResults = fused.take maxResults := by
  have aggregates := aggregates_fusion (if 0 < k then k else 60) scopeRankings
  obtain ⟨fused, ids⟩ := fused_of_aggregates aggregates
    ((List.perm_insertionSort (fun left right => fusedCandidateOrder left right ≠ .gt) _).trans
      ((mapOrder.perm _).map finalizeAggregate))
  refine ⟨_, fused, ids, ?_⟩
  unfold weightedReciprocalRankFusion
  split
  · rename_i nothing
    rcases Bool.or_eq_true_iff.mp nothing with noRanking | noResult
    · rw [List.isEmpty_iff.mp noRanking, List.foldl_nil, List.perm_nil.mp (mapOrder.perm [])]
      exact List.take_nil.symm
    · rw [eq_of_beq noResult, List.take_zero]
  · rfl

variable (mapOrder scopeRankings k maxResults) in
theorem fused_fusion :
    Fused (contributors scopeRankings) (weightedReciprocalRankFusion mapOrder scopeRankings k maxResults) := by
  obtain ⟨fused, all, -, cut⟩ := exists_fused mapOrder scopeRankings k maxResults
  rw [cut]
  have front := List.take_sublist maxResults fused
  exact ⟨all.distinct.sublist (front.map _), fun entry member => all.candidate entry (front.subset member)⟩

/-- With room for all candidates, the id of each one that takes part is in the fusion. -/
theorem mem_fusion_of_room (room : (contributors scopeRankings).length ≤ maxResults) {candidate : FusedCandidate}
    (member : candidate ∈ contributors scopeRankings) :
    ∃ entry ∈ weightedReciprocalRankFusion mapOrder scopeRankings k maxResults,
      entry.skillId = candidate.skillId := by
  obtain ⟨fused, all, ids, cut⟩ := exists_fused mapOrder scopeRankings k maxResults
  have subset : fused.map FusedCandidate.skillId ⊆ (contributors scopeRankings).map FusedCandidate.skillId :=
    fun id known => (ids id).mp known
  have short := (List.subperm_of_subset all.distinct subset).length_le
  rw [List.length_map, List.length_map] at short
  rw [cut, List.take_of_length_le (short.trans room)]
  exact List.mem_map.mp ((ids _).mpr (List.mem_map_of_mem member))

end Fusion

end SkillLayer.Retrieval

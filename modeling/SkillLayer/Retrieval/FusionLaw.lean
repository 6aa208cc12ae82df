import Mathlib.Algebra.Order.BigOperators.Group.List
import Mathlib.Data.Prod.Lex
import Mathlib.Tactic.Positivity
import SkillLayer.Retrieval.Fusion

/-! What the fusion computes: each id once, with its whole score, its best occurrence and its place. -/

namespace SkillLayer.Retrieval

open Domain

def rrfConstant (k : Rat) : Rat := if 0 < k then k else 60

/-- The ranks of an id in a ranking, counted from one. -/
def ranks (ranking : ScopeRanking) (id : Str) : List Nat :=
  (ranking.candidates.zipIdx.filter fun entry => entry.1.skillId = id).map fun entry => entry.2 + 1

/-- What the occurrences of an id in a ranking are worth. -/
def rankingScore (rrfK : Rat) (ranking : ScopeRanking) (id : Str) : Rat :=
  if 0 < ranking.weight then ((ranks ranking id).map fun (rank : Nat) => ranking.weight / (rrfK + rank)).sum else 0

def rrfScore (rrfK : Rat) (scopeRankings : List ScopeRanking) (id : Str) : Rat :=
  (scopeRankings.map fun ranking => rankingScore rrfK ranking id).sum

/-- The occurrences of an id in the rankings that take part. -/
def occurrences (scopeRankings : List ScopeRanking) (id : Str) : List FusedCandidate :=
  (contributors scopeRankings).filter fun candidate => candidate.skillId = id

/-- Occurrences stand by original score, then by scope. -/
def originalStanding (candidate : FusedCandidate) : Rat ×ₗ Nat :=
  toLex (candidate.score, scopePriority candidate.matchedScope)

/-- Entries stand by fused score, scope, semantic score and lexical score. -/
def fusedStanding (candidate : FusedCandidate) : Rat ×ₗ Nat ×ₗ Rat ×ₗ Rat :=
  toLex (candidate.score, toLex (scopePriority candidate.matchedScope,
    toLex (candidate.semanticScore, candidate.lexicalScore)))

/-! ### The two comparisons of the code -/

theorem shouldReplaceRepresentative_iff (candidate current : FusedCandidate) :
    shouldReplaceRepresentative candidate current = true ↔ originalStanding current < originalStanding candidate := by
  rw [originalStanding, originalStanding, Prod.Lex.toLex_lt_toLex, shouldReplaceRepresentative]
  simp only [Bool.or_eq_true, Bool.and_eq_true, decide_eq_true_eq, @eq_comm _ candidate.score]

theorem cmp_toLex {One Two : Type} [LinearOrder One] [LinearOrder Two] (a c : One) (b d : Two) :
    cmp (toLex (a, b)) (toLex (c, d)) = (cmp a c).then (cmp b d) := by
  rcases lt_trichotomy a c with less | rfl | more
  · rw [(cmp_eq_lt_iff a c).mpr less, Ordering.lt_then, cmp_eq_lt_iff, Prod.Lex.toLex_lt_toLex]
    exact .inl less
  · rw [cmp_self_eq_eq, Ordering.eq_then]
    rcases lt_trichotomy b d with less | rfl | more
    · rw [(cmp_eq_lt_iff b d).mpr less, cmp_eq_lt_iff, Prod.Lex.toLex_lt_toLex]
      exact .inr ⟨rfl, less⟩
    · rw [cmp_self_eq_eq, cmp_self_eq_eq]
    · rw [(cmp_eq_gt_iff b d).mpr more, cmp_eq_gt_iff, Prod.Lex.toLex_lt_toLex]
      exact .inr ⟨rfl, more⟩
  · rw [(cmp_eq_gt_iff a c).mpr more, Ordering.gt_then, cmp_eq_gt_iff, Prod.Lex.toLex_lt_toLex]
    exact .inl more

theorem fusedCandidateOrder_eq (left right : FusedCandidate) :
    fusedCandidateOrder left right = cmp (fusedStanding right) (fusedStanding left) := by
  rw [fusedStanding, fusedStanding, cmp_toLex, cmp_toLex, cmp_toLex, fusedCandidateOrder, Ordering.then_assoc,
    Ordering.then_assoc]

theorem fusedCandidateOrder_ne_gt (left right : FusedCandidate) :
    fusedCandidateOrder left right ≠ .gt ↔ fusedStanding right ≤ fusedStanding left := by
  rw [fusedCandidateOrder_eq, Ne, cmp_eq_gt_iff, not_lt]

/-! ### The entries of the map -/

/-- What each occurrence adds, in the order of the run. -/
def contributions (rrfK : Rat) (scopeRankings : List ScopeRanking) : List (Rat × FusedCandidate) :=
  scopeRankings.flatMap fun ranking =>
    if ranking.weight ≤ 0 then []
    else ranking.candidates.zipIdx.map fun entry => (ranking.weight / (rrfK + ((entry.2 : Rat) + 1)), entry.1)

def mergeContribution (contribution : Rat × FusedCandidate) (aggregate : Aggregate) : Aggregate where
  rrfScore := aggregate.rrfScore + contribution.1
  representative :=
    if shouldReplaceRepresentative contribution.2 aggregate.representative then contribution.2
    else aggregate.representative

def freshContribution (contribution : Rat × FusedCandidate) : Aggregate := ⟨contribution.1, contribution.2⟩

def contributionId (contribution : Rat × FusedCandidate) : Str := contribution.2.skillId

theorem foldl_accumulate_eq (rrfK : Rat) (scopeRankings : List ScopeRanking) (aggregated : List (Str × Aggregate)) :
    scopeRankings.foldl (accumulateScopeRanking rrfK) aggregated =
      upsertAll contributionId freshContribution mergeContribution (contributions rrfK scopeRankings) aggregated := by
  induction scopeRankings generalizing aggregated with
  | nil => rfl
  | cons ranking rest ih =>
    rw [List.foldl_cons, ih]
    unfold upsertAll contributions accumulateScopeRanking
    rw [List.flatMap_cons, List.foldl_append]
    split
    · rfl
    · rw [List.foldl_map]
      rfl

theorem map_snd_contributions (rrfK : Rat) (scopeRankings : List ScopeRanking) :
    (contributions rrfK scopeRankings).map Prod.snd = contributors scopeRankings := by
  induction scopeRankings with
  | nil => rfl
  | cons ranking rest ih =>
    unfold contributions contributors at ih ⊢
    rw [List.flatMap_cons, List.flatMap_cons, List.map_append, ih]
    split
    · rfl
    · rw [List.map_map]
      congr 1
      exact List.zipIdx_map_fst ..

/-- The contributions of one id. -/
def ownContributions (rrfK : Rat) (scopeRankings : List ScopeRanking) (id : Str) : List (Rat × FusedCandidate) :=
  (contributions rrfK scopeRankings).filter fun contribution => contributionId contribution = id

theorem map_snd_ownContributions (rrfK : Rat) (scopeRankings : List ScopeRanking) (id : Str) :
    (ownContributions rrfK scopeRankings id).map Prod.snd = occurrences scopeRankings id := by
  rw [occurrences, ← map_snd_contributions rrfK, List.filter_map]
  rfl

theorem sum_ownContributions (rrfK : Rat) (scopeRankings : List ScopeRanking) (id : Str) :
    ((ownContributions rrfK scopeRankings id).map Prod.fst).sum = rrfScore rrfK scopeRankings id := by
  induction scopeRankings with
  | nil => rfl
  | cons ranking rest ih =>
    unfold ownContributions contributions rrfScore at ih ⊢
    rw [List.flatMap_cons, List.filter_append, List.map_append, List.sum_append, ih, List.map_cons, List.sum_cons]
    congr 1
    unfold rankingScore
    by_cases positive : 0 < ranking.weight
    · rw [if_neg (not_le.mpr positive), if_pos positive, ranks, List.filter_map, List.map_map, List.map_map]
      simp only [Function.comp_def, contributionId, Nat.cast_add, Nat.cast_one]
      rfl
    · rw [if_pos (not_lt.mp positive), if_neg positive]
      rfl

/-- Together the occurrences are worth their sum, and the first best of them stands for all. -/
theorem gathered_contributions {contributions : List (Rat × FusedCandidate)} (nonempty : contributions ≠ []) :
    ∃ representative, FirstBest originalStanding (contributions.map Prod.snd) representative ∧
      gathered freshContribution mergeContribution contributions none =
        some ⟨(contributions.map Prod.fst).sum, representative⟩ := by
  induction contributions using List.reverseRecOn with
  | nil => exact absurd rfl nonempty
  | append_singleton earlier last ih =>
    rw [List.map_append, List.map_append, List.map_singleton, List.map_singleton, List.sum_append, List.sum_singleton]
    unfold gathered at ih ⊢
    rw [List.foldl_append, List.foldl_cons, List.foldl_nil]
    rcases List.eq_nil_or_concat earlier with rfl | ⟨front, item, rfl⟩
    · exact ⟨last.2, firstBest_singleton last.2, by simp [freshContribution]⟩
    · obtain ⟨representative, best, sum⟩ := ih (by simp)
      refine ⟨_, best.append_singleton last.2, ?_⟩
      rw [sum]
      simp only [Option.elim_some, mergeContribution, shouldReplaceRepresentative_iff]

/-! ### The fused list -/

/-- Each id of a ranking with a positive weight once, with the worth of its occurrences and the fields of the first
best of them, from the best standing down. -/
structure FusedExactly (rrfK : Rat) (scopeRankings : List ScopeRanking) (fused : List FusedCandidate) : Prop where
  distinct : (fused.map FusedCandidate.skillId).Nodup
  ids : ∀ id, id ∈ fused.map FusedCandidate.skillId ↔
    ∃ ranking ∈ scopeRankings, 0 < ranking.weight ∧ id ∈ ranking.candidates.map FusedCandidate.skillId
  score : ∀ entry ∈ fused, entry.score = rrfScore rrfK scopeRankings entry.skillId
  fields : ∀ entry ∈ fused, ∃ original,
    FirstBest originalStanding (occurrences scopeRankings entry.skillId) original ∧
      entry = { original with score := entry.score }
  sorted : fused.Pairwise fun left right => fusedStanding right ≤ fusedStanding left

theorem mem_contributors_iff {scopeRankings : List ScopeRanking} {id : Str} :
    id ∈ (contributors scopeRankings).map FusedCandidate.skillId ↔
      ∃ ranking ∈ scopeRankings, 0 < ranking.weight ∧ id ∈ ranking.candidates.map FusedCandidate.skillId := by
  unfold contributors
  rw [List.map_flatMap, List.mem_flatMap]
  refine exists_congr fun ranking => and_congr_right fun _ => ?_
  by_cases positive : 0 < ranking.weight
  · simp [positive]
  · simp [positive, not_lt.mp positive]

variable {mapOrder : HashOrder (Str × Aggregate)} {scopeRankings : List ScopeRanking} {k : Rat}

/-- The whole fusion: what a result number leaves of it is a prefix. -/
def wholeFusion (mapOrder : HashOrder (Str × Aggregate)) (scopeRankings : List ScopeRanking) (k : Rat) :
    List FusedCandidate :=
  let aggregated := scopeRankings.foldl (accumulateScopeRanking (rrfConstant k)) []
  ((mapOrder.arrange aggregated).map finalizeAggregate).insertionSort fun left right =>
    fusedCandidateOrder left right ≠ .gt

theorem weightedReciprocalRankFusion_eq_take (mapOrder : HashOrder (Str × Aggregate))
    (scopeRankings : List ScopeRanking) (k : Rat) (maxResults : Nat) :
    weightedReciprocalRankFusion mapOrder scopeRankings k maxResults =
      (wholeFusion mapOrder scopeRankings k).take maxResults := by
  unfold weightedReciprocalRankFusion
  split
  · rename_i nothing
    rcases Bool.or_eq_true_iff.mp nothing with noRanking | noResult
    · rw [List.isEmpty_iff.mp noRanking, wholeFusion, List.foldl_nil, List.perm_nil.mp (mapOrder.perm [])]
      exact List.take_nil.symm
    · rw [eq_of_beq noResult, List.take_zero]
  · rfl

/-- An entry of the map is the sum of its occurrences. -/
theorem aggregated_entry {rrfK : Rat} {id : Str} {aggregate : Aggregate}
    (member : (id, aggregate) ∈ scopeRankings.foldl (accumulateScopeRanking rrfK) []) :
    aggregate.rrfScore = rrfScore rrfK scopeRankings id ∧
      FirstBest originalStanding (occurrences scopeRankings id) aggregate.representative := by
  have aggregates := aggregates_fusion rrfK scopeRankings
  have held := (lookup_eq_some_iff_mem aggregates.distinct).mpr member
  rw [foldl_accumulate_eq, lookup_upsertAll, List.lookup_nil] at held
  have nonempty : ownContributions rrfK scopeRankings id ≠ [] := by
    intro none_
    rw [ownContributions] at none_
    rw [none_] at held
    cases held
  obtain ⟨representative, best, sum⟩ := gathered_contributions nonempty
  obtain rfl := Option.some.inj (held.symm.trans sum)
  rw [sum_ownContributions, map_snd_ownContributions] at *
  exact ⟨rfl, best⟩

theorem wholeFusion_perm : (wholeFusion mapOrder scopeRankings k).Perm
    ((scopeRankings.foldl (accumulateScopeRanking (rrfConstant k)) []).map finalizeAggregate) :=
  (List.perm_insertionSort _ _).trans ((mapOrder.perm _).map finalizeAggregate)

/-- The order of the code is the order by standing, from the best down. -/
theorem wholeFusion_eq (mapOrder : HashOrder (Str × Aggregate)) (scopeRankings : List ScopeRanking) (k : Rat) :
    wholeFusion mapOrder scopeRankings k =
      ((mapOrder.arrange (scopeRankings.foldl (accumulateScopeRanking (rrfConstant k)) [])).map
        finalizeAggregate).insertionSort fun left right => fusedStanding right ≤ fusedStanding left := by
  unfold wholeFusion
  simp only [fusedCandidateOrder_ne_gt]

theorem sorted_wholeFusion (mapOrder : HashOrder (Str × Aggregate)) (scopeRankings : List ScopeRanking) (k : Rat) :
    (wholeFusion mapOrder scopeRankings k).Pairwise fun left right => fusedStanding right ≤ fusedStanding left := by
  rw [wholeFusion_eq]
  exact List.pairwise_insertionSort ..

variable (mapOrder scopeRankings k) in
theorem fusedExactly_wholeFusion : FusedExactly (rrfConstant k) scopeRankings (wholeFusion mapOrder scopeRankings k) := by
  have aggregates := aggregates_fusion (rrfConstant k) scopeRankings
  have merged : (wholeFusion mapOrder scopeRankings k).Perm
      ((scopeRankings.foldl (accumulateScopeRanking (rrfConstant k)) []).map finalizeAggregate) := wholeFusion_perm
  obtain ⟨fused, ids⟩ := fused_of_aggregates aggregates merged
  have entries : ∀ entry ∈ wholeFusion mapOrder scopeRankings k, ∃ aggregate,
      (entry.skillId, aggregate) ∈ scopeRankings.foldl (accumulateScopeRanking (rrfConstant k)) [] ∧
        entry = { aggregate.representative with score := aggregate.rrfScore } := by
    intro entry member
    obtain ⟨known, inMap, rfl⟩ := List.mem_map.mp (wholeFusion_perm.subset member)
    refine ⟨known.2, ?_, rfl⟩
    rw [finalizeAggregate, (aggregates.represented known inMap).2]
    exact inMap
  refine ⟨fused.distinct, fun id => (ids id).trans mem_contributors_iff, ?_, ?_, ?_⟩
  · intro entry member
    obtain ⟨aggregate, inMap, same⟩ := entries entry member
    rw [← (aggregated_entry inMap).1, same]
  · intro entry member
    obtain ⟨aggregate, inMap, same⟩ := entries entry member
    refine ⟨aggregate.representative, (aggregated_entry inMap).2, ?_⟩
    rw [same]
  · exact sorted_wholeFusion ..

/-! ### Dominance -/

/-- Every occurrence of the second id has an occurrence of the first one to itself, at a better rank. -/
def Outranks (ranking : ScopeRanking) (first second : Str) : Prop :=
  ∃ matched : List Nat, matched.Subperm (ranks ranking first) ∧
    List.Forall₂ (fun rank other => rank < other) matched (ranks ranking second)

theorem Outranks.of_single {ranking : ScopeRanking} {first second : Str} {rank other : Nat}
    (single : ranks ranking second = [other]) (occurs : rank ∈ ranks ranking first) (better : rank < other) :
    Outranks ranking first second := by
  refine ⟨[rank], ?_, ?_⟩
  · exact (List.singleton_sublist.mpr occurs).subperm
  · rw [single]
    exact .cons better .nil

section Dominance

variable {rrfK : Rat} {ranking : ScopeRanking} {first second : Str}

theorem rankingScore_nonneg (positive : 0 < rrfK) (ranking : ScopeRanking) (id : Str) :
    0 ≤ rankingScore rrfK ranking id := by
  unfold rankingScore
  split
  · refine List.sum_nonneg fun worth member => ?_
    obtain ⟨rank, -, rfl⟩ := List.mem_map.mp member
    positivity
  · exact le_rfl

/-- Better ranks are worth more, one by one. -/
theorem sum_worth_lt {weight : Rat} (positive : 0 < rrfK) (weighty : 0 < weight) {better worse : List Nat}
    (matched : List.Forall₂ (fun rank other => rank < other) better worse) (nonempty : worse ≠ []) :
    (worse.map fun (rank : Nat) => weight / (rrfK + rank)).sum <
      (better.map fun (rank : Nat) => weight / (rrfK + rank)).sum := by
  have each : ∀ {rank other : Nat}, rank < other → weight / (rrfK + other) < weight / (rrfK + rank) := by
    intro rank other less
    have cast : (rank : Rat) < other := Nat.cast_lt.mpr less
    have nonneg : (0 : Rat) ≤ rank := Nat.cast_nonneg rank
    exact div_lt_div_of_pos_left weighty (by linarith) (by linarith)
  induction matched with
  | nil => exact absurd rfl nonempty
  | cons here later ih =>
    rename_i rank other better worse
    rw [List.map_cons, List.map_cons, List.sum_cons, List.sum_cons]
    cases later with
    | nil => simpa using each here
    | cons next rest => exact add_lt_add (each here) (ih (List.cons_ne_nil _ _))

theorem rankingScore_lt (positive : 0 < rrfK) (weighty : 0 < ranking.weight) (outranks : Outranks ranking first second)
    (occurs : ranks ranking second ≠ []) : rankingScore rrfK ranking second < rankingScore rrfK ranking first := by
  obtain ⟨matched, within, better⟩ := outranks
  rw [rankingScore, rankingScore, if_pos weighty, if_pos weighty]
  refine (sum_worth_lt positive weighty better occurs).trans_le ?_
  obtain ⟨sub, same, inside⟩ := within
  rw [← (same.map _).sum_eq]
  refine (inside.map _).sum_le_sum fun worth member => ?_
  obtain ⟨rank, -, rfl⟩ := List.mem_map.mp member
  positivity

theorem ranks_eq_nil_iff : ranks ranking second = [] ↔ second ∉ ranking.candidates.map FusedCandidate.skillId := by
  have known : second ∈ (ranking.candidates.zipIdx.map Prod.fst).map FusedCandidate.skillId ↔
      ∃ entry ∈ ranking.candidates.zipIdx, entry.1.skillId = second := by
    rw [List.map_map, List.mem_map]
    rfl
  rw [List.zipIdx_map_fst] at known
  rw [known, ranks, List.map_eq_nil_iff, List.filter_eq_nil_iff]
  simp

/-- Ahead in every ranking that has the other, ahead in the sum. -/
theorem rrfScore_lt (positive : 0 < rrfK)
    (ahead : ∀ ranking ∈ scopeRankings, 0 < ranking.weight →
      second ∈ ranking.candidates.map FusedCandidate.skillId → Outranks ranking first second)
    (occurs : ∃ ranking ∈ scopeRankings, 0 < ranking.weight ∧
      second ∈ ranking.candidates.map FusedCandidate.skillId) :
    rrfScore rrfK scopeRankings second < rrfScore rrfK scopeRankings first := by
  have strict : ∀ ranking ∈ scopeRankings, 0 < ranking.weight →
      second ∈ ranking.candidates.map FusedCandidate.skillId →
      rankingScore rrfK ranking second < rankingScore rrfK ranking first := by
    intro ranking member weighty here
    exact rankingScore_lt positive weighty (ahead ranking member weighty here)
      (fun none_ => ranks_eq_nil_iff.mp none_ here)
  refine List.sum_lt_sum _ _ ?_ ?_
  · intro ranking member
    by_cases here : 0 < ranking.weight ∧ second ∈ ranking.candidates.map FusedCandidate.skillId
    · exact (strict ranking member here.1 here.2).le
    · have worthless : rankingScore rrfK ranking second = 0 := by
        unfold rankingScore
        split
        · rename_i weighty
          rw [ranks_eq_nil_iff.mpr fun known => here ⟨weighty, known⟩]
          rfl
        · rfl
      rw [worthless]
      exact rankingScore_nonneg positive ranking first
  · obtain ⟨ranking, member, weighty, here⟩ := occurs
    exact ⟨ranking, member, strict ranking member weighty here⟩

theorem length_ranks (ranking : ScopeRanking) (id : Str) :
    (ranks ranking id).length = (ranking.candidates.map FusedCandidate.skillId).count id := by
  have whole : (ranking.candidates.zipIdx.map Prod.fst).map FusedCandidate.skillId =
      ranking.candidates.map FusedCandidate.skillId := by rw [List.zipIdx_map_fst]
  rw [ranks, List.length_map, ← List.countP_eq_length_filter, ← whole, List.count, List.map_map, List.countP_map]
  refine List.countP_congr fun entry _ => ?_
  simp

/-- An id that stands once in a ranking is worth no more than the first rank. -/
theorem rankingScore_le_first (positive : 0 < rrfK) (distinct : (ranking.candidates.map FusedCandidate.skillId).Nodup)
    (weighty : 0 < ranking.weight) (id : Str) : rankingScore rrfK ranking id ≤ ranking.weight / (rrfK + 1) := by
  have once : (ranks ranking id).length ≤ 1 := by
    rw [length_ranks]
    exact List.nodup_iff_count_le_one.mp distinct id
  rw [rankingScore, if_pos weighty]
  cases places : ranks ranking id with
  | nil =>
    simp only [List.map_nil, List.sum_nil]
    positivity
  | cons rank rest =>
    rw [places, List.length_cons] at once
    obtain rfl := List.eq_nil_of_length_eq_zero (Nat.le_zero.mp (Nat.le_of_succ_le_succ once))
    have counted : rank ∈ ranks ranking id := places ▸ List.mem_cons_self
    obtain ⟨entry, -, rfl⟩ := List.mem_map.mp counted
    simp only [List.map_cons, List.map_nil, List.sum_cons, List.sum_nil, add_zero, Nat.cast_add, Nat.cast_one]
    refine div_le_div_of_nonneg_left weighty.le (by linarith) ?_
    have nonneg : (0 : Rat) ≤ entry.2 := Nat.cast_nonneg _
    linarith

theorem rrfConstant_pos (k : Rat) : 0 < rrfConstant k := by
  unfold rrfConstant
  split
  · assumption
  · norm_num

/-- A skill ahead of another in every ranking that has it comes before it. -/
theorem wholeFusion_dominates
    (ahead : ∀ ranking ∈ scopeRankings, 0 < ranking.weight →
      second ∈ ranking.candidates.map FusedCandidate.skillId → Outranks ranking first second)
    (occurs : second ∈ (wholeFusion mapOrder scopeRankings k).map FusedCandidate.skillId) :
    [first, second].Sublist ((wholeFusion mapOrder scopeRankings k).map FusedCandidate.skillId) := by
  have exactly := fusedExactly_wholeFusion mapOrder scopeRankings k
  have somewhere := (exactly.ids second).mp occurs
  have more := rrfScore_lt (rrfConstant_pos k) ahead somewhere
  have firstOccurs : first ∈ (wholeFusion mapOrder scopeRankings k).map FusedCandidate.skillId := by
    obtain ⟨ranking, member, weighty, here⟩ := somewhere
    refine (exactly.ids first).mpr ⟨ranking, member, weighty, ?_⟩
    obtain ⟨matched, within, better⟩ := ahead ranking member weighty here
    by_contra absent
    rw [ranks_eq_nil_iff.mpr absent, List.subperm_nil] at within
    rw [within, List.forall₂_nil_left_iff] at better
    exact ranks_eq_nil_iff.mp better here
  obtain ⟨entry, inFused, rfl⟩ := List.mem_map.mp firstOccurs
  obtain ⟨other, alsoInFused, rfl⟩ := List.mem_map.mp occurs
  rw [← exactly.score entry inFused, ← exactly.score other alsoInFused] at more
  have pair := sublist_pair_of_pairwise exactly.sorted inFused alsoInFused (fun same => more.ne (same ▸ rfl)) ?_
  · exact pair.map FusedCandidate.skillId
  · intro behind
    exact (Prod.Lex.monotone_fst _ _ behind).not_gt more

end Dominance

/-- The fusion exactly, and what any number of results leaves of it. -/
theorem weightedReciprocalRankFusion_exact (mapOrder : HashOrder (Str × Aggregate))
    (scopeRankings : List ScopeRanking) (k : Rat) :
    ∃ fused, FusedExactly (rrfConstant k) scopeRankings fused ∧
      (∀ first second, (∀ ranking ∈ scopeRankings, 0 < ranking.weight →
          second ∈ ranking.candidates.map FusedCandidate.skillId → Outranks ranking first second) →
        second ∈ fused.map FusedCandidate.skillId → [first, second].Sublist (fused.map FusedCandidate.skillId)) ∧
      ∀ maxResults, weightedReciprocalRankFusion mapOrder scopeRankings k maxResults = fused.take maxResults := by
  refine ⟨_, fusedExactly_wholeFusion mapOrder scopeRankings k, ?_, ?_⟩
  · intro first second ahead occurs
    exact wholeFusion_dominates ahead occurs
  · intro maxResults
    exact weightedReciprocalRankFusion_eq_take mapOrder scopeRankings k maxResults

def sampleCandidate (index : Nat) (id : Str) : FusedCandidate := ⟨index, id, .project, 1 / 2, 0, 0, 0, [], []⟩

def orderedRanking : ScopeRanking where
  scopeId := "project"
  weight := 1
  candidates := [sampleCandidate 0 "a", sampleCandidate 1 "b"]

theorem orderedRanking_dominates : ∃ fused : List FusedCandidate, [("a" : Str), "b"].Sublist (fused.map FusedCandidate.skillId) ∧
    weightedReciprocalRankFusion (HashOrder.unchanged _) [orderedRanking] 60 2 = fused.take 2 := by
  obtain ⟨fused, exactly, dominates, cut⟩ :=
    weightedReciprocalRankFusion_exact (HashOrder.unchanged _) [orderedRanking] 60
  refine ⟨fused, dominates "a" "b" ?_ ?_, cut 2⟩
  · intro ranking member _ _
    rw [List.mem_singleton.mp member]
    exact Outranks.of_single rfl (List.mem_singleton.mpr rfl) one_lt_two
  · exact (exactly.ids "b").mpr ⟨orderedRanking, List.mem_singleton.mpr rfl, one_pos, by decide⟩

/-- One ranking in which the second skill stands twice, both times behind the first one. -/
def repeatedRanking : ScopeRanking where
  scopeId := "project"
  weight := 1
  candidates := [sampleCandidate 0 "a", sampleCandidate 1 "b", sampleCandidate 1 "b"]

/-- Together its two occurrences are worth more. -/
theorem repeatedRanking_overtakes :
    ranks repeatedRanking "a" = [1] ∧ ranks repeatedRanking "b" = [2, 3] ∧
      (weightedReciprocalRankFusion (HashOrder.unchanged _) [repeatedRanking] 60 2).map FusedCandidate.skillId =
        ["b", "a"] := by
  decide +kernel

end SkillLayer.Retrieval

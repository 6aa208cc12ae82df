import Mathlib.Algebra.GroupWithZero.Nat
import Mathlib.Algebra.Order.BigOperators.Group.List
import SkillLayer.Retrieval.ScopeSearch
import SkillLayer.Retrieval.SnapshotRuns

/-! What a retrieval returns: skills and rescue cues of one snapshot, from the fused ranking of
the scopes. -/

namespace SkillLayer.Retrieval

open Domain

/-! ### From the searches to the answer -/

structure ScoredSkill where
  skill : Skill
  score : Rat
  matchedScope : ScopeType
  rationale : List Str

structure RetrievedSubunit where
  kind : SubunitType
  title : Str
  content : Str
  relevance : Rat

structure RetrievedSkill where
  scoredSkill : ScoredSkill
  highlights : List RetrievedSubunit

structure RescueCue where
  sourceSkill : Str
  title : Str
  content : Str
  relevance : Rat
deriving DecidableEq

/-- The services of the searches, the order of the map of the aggregates, and the text of a score with a
number of decimals. -/
structure RankServices extends SearchServices where
  mapOrder : HashOrder (Str × Aggregate)
  decimals : Nat → Rat → Str

variable (services : RankServices) (config : SearchConfig)

def scopeWeight : ScopeType → Rat
  | .project => config.projectScopeWeight
  | .global => config.globalScopeWeight
  | .team => config.globalScopeWeight

def scopeRankings (scopeResults : List (Str × ScopeType × List FusedCandidate)) : List ScopeRanking :=
  scopeResults.map fun result => ⟨result.1, scopeWeight config result.2.1, result.2.2⟩

def fusionLimit (rankings : List ScopeRanking) : Nat :=
  max (rankings.map fun ranking => ranking.candidates.length).sum config.maxResults

def rankedCandidates (scopeResults : List (Str × ScopeType × List FusedCandidate)) : List FusedCandidate :=
  weightedReciprocalRankFusion services.mapOrder (scopeRankings config scopeResults) config.rrfK
    (fusionLimit config (scopeRankings config scopeResults))

def retrievedSubunit (projection : SubunitProjection) : RetrievedSubunit where
  kind := projection.subunit.kind
  title := projection.subunit.title
  content := projection.subunit.content
  relevance := projection.relevance

def retrievedSkill (graph : RetrievalSnapshot) (candidate : FusedCandidate) : Option RetrievedSkill :=
  graph.skills[candidate.skillIndex]?.map fun seeded =>
    { scoredSkill :=
        { skill := seeded.skill
          score := candidate.score
          matchedScope := candidate.matchedScope
          rationale :=
            ["rrf=" ++ services.decimals 6 candidate.score,
              "semantic=" ++ services.decimals 3 candidate.semanticScore,
              "subunit_evidence=" ++ services.decimals 3 candidate.subunitEvidence,
              "lexical=" ++ services.decimals 3 candidate.lexicalScore] }
      highlights := (candidate.highlights.filter fun projection => 0 < projection.relevance).map retrievedSubunit }

def rescueCues (graph : RetrievalSnapshot) (candidate : FusedCandidate) : List RescueCue :=
  let skillName := (graph.skills[candidate.skillIndex]?.map fun seeded => seeded.skill.name).getD "unknown-skill".toList
  (candidate.highlights.filter fun projection => config.rescueThreshold ≤ projection.relevance).map fun projection =>
    ⟨skillName, projection.subunit.title, projection.subunit.content, projection.relevance⟩

def rankScopes (graph : RetrievalSnapshot) (scopeResults : List (Str × ScopeType × List FusedCandidate)) :
    List RetrievedSkill × List RescueCue :=
  let ranked := rankedCandidates services config scopeResults
  let selected := ranked.take config.maxResults
  let selectedIds := selected.map FusedCandidate.skillId
  (selected.filterMap (retrievedSkill services graph),
    (ranked.filter fun candidate => !selectedIds.contains candidate.skillId).flatMap (rescueCues config graph))

/-- The engine of the orchestrator, which searches and ranks as above. -/
@[reducible] def searchEngine : SearchEngine where
  Graph := RetrievalSnapshot
  Vector := Embedding
  Candidate := FusedCandidate
  Skill := RetrievedSkill
  Cue := RescueCue
  rank := rankScopes services config

/-! ### The contract -/

section Contract

variable (prompt : Str) (promptEmbedding : Embedding) (graph : RetrievalSnapshot) (scopes : List ScopeDescriptor)

/-- What the searches of the scopes find. -/
def scopeResults : List (Str × ScopeType × List FusedCandidate) :=
  scopes.map fun scope => (scope.scopeId, scope.scopeType,
    performScopeSearch services.toSearchServices config prompt promptEmbedding graph scope)

/-- The skill belongs to the scope; below one of its paths with all of its own, where the scope has any. -/
structure Matches (seeded : SeededSkill) (scope : ScopeDescriptor) : Prop where
  scopeType : seeded.skill.scope = scope.scopeType
  scopeId : seeded.scopeId = scope.scopeId
  paths : scope.paths ≠ [] → seeded.sourcePaths ≠ [] ∧
    ∀ sourcePath ∈ seeded.sourcePaths, ∃ scopePath ∈ scope.paths, pathStartsWith sourcePath scopePath = true

/-- The skill matches one of the scopes, and scores high enough in it. -/
def Relevant (seeded : SeededSkill) (scope : ScopeDescriptor) : Prop :=
  scope ∈ scopes ∧ Matches seeded scope ∧ config.relevanceThreshold ≤
    eq3Score services.toSearchServices config prompt promptEmbedding graph scope seeded

/-- What is promised of the skills and the cues of an answer. -/
structure Contract (skills : List RetrievedSkill) (rescuePool : List RescueCue) : Prop where
  distinct : (skills.map fun retrieved => retrieved.scoredSkill.skill.id).Nodup
  few : skills.length ≤ config.maxResults
  matched : ∀ retrieved ∈ skills, ∃ scope, ∃ seeded ∈ graph.skills,
    Relevant services config prompt promptEmbedding graph scopes seeded scope ∧
      retrieved.scoredSkill.skill = seeded.skill ∧ retrieved.scoredSkill.matchedScope = scope.scopeType ∧
      ∀ highlight ∈ retrieved.highlights, ∃ subunit ∈ seeded.subunits,
        highlight.kind = subunit.kind ∧ highlight.title = subunit.title ∧ highlight.content = subunit.content
  complete : f32Min < config.relevanceThreshold → ∀ scope seeded index, graph.skills[index]? = some seeded →
    Relevant services config prompt promptEmbedding graph scopes seeded scope →
    0 < scopeWeight config scope.scopeType →
    (inScope graph scope).countP (fun other =>
      Ahead services.toSearchServices promptEmbedding other (seeded, index)) < config.candidateLimit →
    ∃ candidate ∈ rankedCandidates services config
        (scopeResults services config prompt promptEmbedding graph scopes),
      candidate.skillIndex = index
  rescued : ∀ cue ∈ rescuePool, ∃ candidate ∈ rankedCandidates services config
      (scopeResults services config prompt promptEmbedding graph scopes),
    ∃ seeded, graph.skills[candidate.skillIndex]? = some seeded ∧
      seeded.skill.id ∉ skills.map (fun retrieved => retrieved.scoredSkill.skill.id) ∧
      cue.sourceSkill = seeded.skill.name ∧ config.rescueThreshold ≤ cue.relevance ∧
      ∃ projection ∈ candidate.highlights, projection.subunit ∈ seeded.subunits ∧
        cue.title = projection.subunit.title ∧ cue.content = projection.subunit.content ∧
        cue.relevance = projection.relevance

end Contract

variable {services config} {prompt : Str} {promptEmbedding : Embedding} {graph : RetrievalSnapshot}
  {scopes : List ScopeDescriptor}

theorem matches_iff {seeded : SeededSkill} {scope : ScopeDescriptor} :
    seededSkillMatchesScope seeded scope = true ↔ Matches seeded scope := by
  unfold seededSkillMatchesScope
  constructor
  · intro matching
    split at matching
    · cases matching
    · rename_i sameType
      split at matching
      · cases matching
      · rename_i sameId
        refine ⟨not_not.mp sameType, not_not.mp sameId, ?_⟩
        intro somePath
        rw [if_neg (mt List.isEmpty_iff.mp somePath)] at matching
        split at matching
        · cases matching
        · rename_i someSource
          refine ⟨mt List.isEmpty_iff.mpr someSource, ?_⟩
          simpa using matching
  · intro matching
    rw [if_neg (not_not.mpr matching.scopeType), if_neg (not_not.mpr matching.scopeId)]
    split
    · rfl
    · rename_i somePath
      obtain ⟨someSource, below⟩ := matching.paths (mt List.isEmpty_iff.mpr somePath)
      rw [if_neg (mt List.isEmpty_iff.mp someSource)]
      simpa using below

instance (seeded : SeededSkill) (scope : ScopeDescriptor) : Decidable (Matches seeded scope) :=
  decidable_of_iff _ matches_iff

instance (seeded : SeededSkill) (scope : ScopeDescriptor) :
    Decidable (Relevant services config prompt promptEmbedding graph scopes seeded scope) :=
  inferInstanceAs (Decidable (_ ∧ _ ∧ _))

/-- A candidate that takes part in the fusion is the one of a relevant skill. -/
theorem relevant_of_contributor {candidate : FusedCandidate}
    (member : candidate ∈ contributors (scopeRankings config
      (scopeResults services config prompt promptEmbedding graph scopes))) :
    ∃ scope seeded, graph.skills[candidate.skillIndex]? = some seeded ∧
      Relevant services config prompt promptEmbedding graph scopes seeded scope ∧
      candidate = candidateOf services.toSearchServices config prompt promptEmbedding graph scope
        (seeded, candidate.skillIndex) := by
  obtain ⟨ranking, inRankings, here⟩ := List.mem_flatMap.mp member
  obtain ⟨result, inResults, rfl⟩ := List.mem_map.mp inRankings
  obtain ⟨scope, inScopes, rfl⟩ := List.mem_map.mp inResults
  split at here
  · cases here
  · obtain ⟨seeded, there, matching, reaches, made⟩ := of_mem_performScopeSearch here
    exact ⟨scope, seeded, there, ⟨inScopes, matches_iff.mp matching, reaches⟩, made⟩

theorem subunit_of_hit {entry : SeededSkill × Nat} {projection : SubunitProjection}
    (member : projection ∈ (hitOf services.toSearchServices config prompt promptEmbedding entry).projections) :
    projection.subunit ∈ entry.1.subunits := subunit_of_projection member

/-- A ranked candidate stands for a relevant skill, with a score of its own. -/
theorem relevant_of_ranked {candidate : FusedCandidate} (member : candidate ∈ rankedCandidates services config
      (scopeResults services config prompt promptEmbedding graph scopes)) :
    ∃ scope seeded, graph.skills[candidate.skillIndex]? = some seeded ∧
      Relevant services config prompt promptEmbedding graph scopes seeded scope ∧
      candidate.skillId = seeded.skill.id.value ∧ candidate.matchedScope = scope.scopeType ∧
      ∀ projection ∈ candidate.highlights, projection.subunit ∈ seeded.subunits := by
  obtain ⟨original, contributes, rescored⟩ := (fused_fusion _ _ _ _).candidate candidate member
  obtain ⟨scope, seeded, here, relevant, made⟩ := relevant_of_contributor contributes
  have index : candidate.skillIndex = original.skillIndex := by rw [rescored]
  refine ⟨scope, seeded, index ▸ here, relevant, ?_, ?_, ?_⟩
  · rw [rescored, made]
    rfl
  · rw [rescored, made]
    rfl
  · intro projection shown
    rw [rescored, made] at shown
    exact subunit_of_hit shown

theorem ids_of_ranked {candidates : List FusedCandidate} (ranked : candidates ⊆ rankedCandidates services config
      (scopeResults services config prompt promptEmbedding graph scopes)) :
    (candidates.filterMap (retrievedSkill services graph)).map (fun retrieved => retrieved.scoredSkill.skill.id.value) =
      candidates.map FusedCandidate.skillId := by
  rw [List.map_filterMap, List.filterMap_eq_map_iff_forall_eq_some]
  intro candidate member
  obtain ⟨scope, seeded, here, -, id, -⟩ := relevant_of_ranked (ranked member)
  rw [retrievedSkill, here, id]
  rfl

theorem length_contributors_le (rankings : List ScopeRanking) :
    (contributors rankings).length ≤ (rankings.map fun ranking => ranking.candidates.length).sum := by
  unfold contributors
  rw [List.length_flatMap]
  apply List.sum_le_sum
  intro ranking _
  split
  · exact Nat.zero_le _
  · exact Nat.le_refl _

theorem index_of_id (distinct : (graph.skills.map fun seeded => seeded.skill.id).Nodup) {index other : Nat}
    {one two : SeededSkill} (here : graph.skills[index]? = some one) (there : graph.skills[other]? = some two)
    (same : one.skill.id = two.skill.id) : index = other := by
  have within := (List.getElem?_eq_some_iff.mp here).1
  apply (List.getElem?_inj (by rwa [List.length_map]) distinct).mp
  rw [List.getElem?_map, List.getElem?_map, here, there, Option.map_some, Option.map_some, same]

/-- The fused ranking leaves no relevant skill out that is near enough in a scope with a positive weight. -/
theorem ranked_complete (distinct : (graph.skills.map fun seeded => seeded.skill.id).Nodup)
    (above : f32Min < config.relevanceThreshold) {scope : ScopeDescriptor} {seeded : SeededSkill} {index : Nat}
    (here : graph.skills[index]? = some seeded)
    (relevant : Relevant services config prompt promptEmbedding graph scopes seeded scope)
    (weighty : 0 < scopeWeight config scope.scopeType)
    (near : (inScope graph scope).countP (fun other =>
      Ahead services.toSearchServices promptEmbedding other (seeded, index)) < config.candidateLimit) :
    ∃ candidate ∈ rankedCandidates services config (scopeResults services config prompt promptEmbedding graph scopes),
      candidate.skillIndex = index := by
  obtain ⟨inScopes, matching, reaches⟩ := relevant
  have member : (seeded, index) ∈ inScope graph scope :=
    List.mem_filter.mpr ⟨List.mem_zipIdx_iff_getElem?.mpr here, matches_iff.mpr matching⟩
  have found := mem_performScopeSearch above member near reaches
  have contributes : candidateOf services.toSearchServices config prompt promptEmbedding graph scope (seeded, index) ∈
      contributors (scopeRankings config (scopeResults services config prompt promptEmbedding graph scopes)) := by
    refine List.mem_flatMap.mpr ⟨_, List.mem_map_of_mem (List.mem_map_of_mem inScopes), ?_⟩
    rwa [if_neg (not_le.mpr weighty)]
  obtain ⟨candidate, ranked, sameId⟩ := mem_fusion_of_room
    ((length_contributors_le _).trans (le_max_left _ config.maxResults)) contributes
  refine ⟨candidate, ranked, ?_⟩
  obtain ⟨_, other, there, -, id, -⟩ := relevant_of_ranked ranked
  refine index_of_id distinct there here ?_
  have values : other.skill.id.value = seeded.skill.id.value := id.symm.trans sameId
  cases oneId : other.skill.id
  cases twoId : seeded.skill.id
  rw [oneId, twoId] at values
  exact congrArg DomainId.mk values

/-- The answer from the fused ranking keeps the contract, whatever the scopes are. -/
theorem contract_rankScopes (distinct : (graph.skills.map fun seeded => seeded.skill.id).Nodup) :
    Contract services config prompt promptEmbedding graph scopes
      (rankScopes services config graph (scopeResults services config prompt promptEmbedding graph scopes)).1
      (rankScopes services config graph (scopeResults services config prompt promptEmbedding graph scopes)).2 := by
  have front := List.take_sublist config.maxResults
    (rankedCandidates services config (scopeResults services config prompt promptEmbedding graph scopes))
  have ids := ids_of_ranked front.subset
  constructor
  case distinct =>
    apply List.Nodup.of_map DomainId.value
    rw [List.map_map]
    exact ids ▸ (fused_fusion _ _ _ _).distinct.sublist (front.map _)
  case few => exact (List.length_filterMap_le _ _).trans (List.length_take_le _ _)
  case matched =>
    intro retrieved member
    obtain ⟨candidate, selected, made⟩ := List.mem_filterMap.mp member
    obtain ⟨scope, seeded, here, relevant, -, sameScope, shown⟩ := relevant_of_ranked (front.subset selected)
    rw [retrievedSkill, here] at made
    obtain rfl := Option.some.inj made
    refine ⟨scope, seeded, List.mem_of_getElem? here, relevant, rfl, sameScope, ?_⟩
    intro highlight kept
    obtain ⟨projection, known, rfl⟩ := List.mem_map.mp kept
    exact ⟨projection.subunit, shown projection (List.mem_of_mem_filter known), rfl, rfl, rfl⟩
  case complete =>
    intro above scope seeded index here relevant weighty near
    exact ranked_complete distinct above here relevant weighty near
  case rescued =>
    intro cue member
    obtain ⟨candidate, unselected, fromCandidate⟩ := List.mem_flatMap.mp member
    obtain ⟨ranked, absent⟩ := List.mem_filter.mp unselected
    obtain ⟨scope, seeded, here, -, id, -, shown⟩ := relevant_of_ranked ranked
    obtain ⟨projection, known, rfl⟩ := List.mem_map.mp fromCandidate
    obtain ⟨highlighted, reaches⟩ := List.mem_filter.mp known
    refine ⟨candidate, ranked, seeded, here, ?_, ?_, of_decide_eq_true reaches, projection, highlighted,
      shown projection highlighted, rfl, rfl, rfl⟩
    · intro selected
      have value := List.mem_map_of_mem (f := DomainId.value) selected
      rw [List.map_map] at value
      have known := ids ▸ value
      rw [← id] at known
      cases (List.contains_iff_mem.mpr known).symm.trans ((Bool.not_eq_true' _).mp absent)
    · rw [here]
      rfl

/-! ### The whole retrieval -/

variable (services config) in
/-- The circuit breaker allows the request, and the embedding and every search succeed. -/
def succeeding (project : Option Str → Except ScopeError (List ScopeDescriptor))
    (global : Except ScopeError (List ScopeDescriptor)) (embed : Str → Embedding) (elapsed : Nat) :
    Environment (searchEngine services config) where
  project := project
  global := global
  allows := true
  embedding prompt := .ok (embed prompt)
  search prompt promptEmbedding graph scope :=
    .found (performScopeSearch services.toSearchServices config prompt promptEmbedding graph scope)
  elapsed := elapsed

/-- The outcome is of one snapshot: its version, and an answer within the contract. -/
structure Keeps (snapshot : GraphSnapshot RetrievalSnapshot) (prompt : Str) (promptEmbedding : Embedding)
    (scopes : List ScopeDescriptor) (outcome : RetrievalOutcome (searchEngine services config)) : Prop where
  version : outcome.graphVersion = snapshot.version
  contract : Contract services config prompt promptEmbedding snapshot.graph scopes outcome.skills outcome.rescuePool

theorem rankScopes_nil : rankScopes services config graph [] = ([], []) := by
  simp [rankScopes, rankedCandidates, scopeRankings, weightedReciprocalRankFusion]

theorem keeps_of_ranks {snapshot : GraphSnapshot RetrievalSnapshot}
    (distinct : (snapshot.graph.skills.map fun seeded => seeded.skill.id).Nodup)
    {outcome : RetrievalOutcome (searchEngine services config)}
    (ranks : Ranks snapshot (scopeResults services config prompt promptEmbedding snapshot.graph scopes) outcome) :
    Keeps snapshot prompt promptEmbedding scopes outcome where
  version := ranks.version
  contract := by
    rw [ranks.skills, ranks.rescuePool]
    exact contract_rankScopes distinct

/-- A retrieval keeps the contract for the snapshot at its first call, whatever is served later; and from
the embedding on it keeps it for any scopes. -/
theorem retrieve_contract (project : Option Str → Except ScopeError (List ScopeDescriptor))
    (global : Except ScopeError (List ScopeDescriptor)) (embed : Str → Embedding) (elapsed : Nat)
    (retrieval : RetrievalConfig) (prompt : Str) (repoPath : Option Str)
    (served : Nat → GraphSnapshot RetrievalSnapshot) {World : Type} (calls : Nat) (world : World)
    (distinct : ((served calls).graph.skills.map fun seeded => seeded.skill.id).Nodup) :
    let environment := succeeding services config project global embed elapsed
    (∃ outcome later, (retrieve retrieval prompt repoPath).run (serveSwapping environment served) calls world =
        ⟨.ok outcome, later, world⟩ ∧
      Keeps (served calls) prompt (embed prompt) (environment.resolved retrieval repoPath).scopes outcome) ∧
    ∀ (resolved : ResolvedScopes) (start : Nat), ∃ outcome later,
      (retrieveEmbedded prompt (embed prompt) (served calls) resolved).run (serveSwapping environment served) start
        world = ⟨.ok outcome, later, world⟩ ∧
      Keeps (served calls) prompt (embed prompt) resolved.scopes outcome := by
  intro environment
  have allowed : environment.allows = true := rfl
  have embedded : environment.embedding prompt = .ok (embed prompt) := rfl
  have searched (scope : ScopeDescriptor) : environment.search prompt (embed prompt) (served calls).graph scope =
      .found (performScopeSearch services.toSearchServices config prompt (embed prompt) (served calls).graph scope) := rfl
  constructor
  · obtain ⟨outcome, later, ran, ranks⟩ := run_retrieve_found served retrieval repoPath allowed embedded searched
      rankScopes_nil
    exact ⟨outcome, later, ran, keeps_of_ranks distinct ranks⟩
  · intro resolved start
    obtain ⟨outcome, later, ran, ranks⟩ := run_retrieveEmbedded_found served resolved searched rankScopes_nil start world
    exact ⟨outcome, later, ran, keeps_of_ranks distinct ranks⟩

/-! ### Runs -/

def plainServices : RankServices where
  root := fractionRoot
  isAlphanumeric := Char.isAlphanum
  toLowercase := List.map Char.toLower
  mapOrder := HashOrder.unchanged _
  decimals _ _ := []

def narrowConfig : SearchConfig where
  candidateLimit := 1
  maxResults := 1
  maxSubunitsPerSkill := 1
  rescueThreshold := 1
  relevanceThreshold := 1
  mmrLambda := 1
  scoringWeights := ⟨1, 0, 1, 0⟩
  projectScopeWeight := 1
  globalScopeWeight := 1
  rrfK := 60
  communityBoostMode := .off

def repoSkill (id : Str) (embedding : Embedding) (prior : Rat) : SeededSkill where
  skill := ⟨⟨id⟩, id, [], .project, .ready, .active, [], [], none⟩
  scopeId := "repo".toList
  sourcePaths := ["/repo/skills".toList]
  embedding := embedding
  subunits := []
  subunitEmbeddings := []
  prior := prior
  communityBoost := 0

def repoScope (paths : List Str) : ScopeDescriptor := ⟨"repo".toList, .project, paths, []⟩

def repoGraph (skills : List SeededSkill) : RetrievalSnapshot := ⟨1, skills, fun _ => none⟩

def rankedIndices (config : SearchConfig) (skills : List SeededSkill) (scope : ScopeDescriptor) : List Nat :=
  (rankedCandidates plainServices config
    (scopeResults plainServices config [] [1, 0] (repoGraph skills) [scope])).map FusedCandidate.skillIndex

theorem retrieve_contract_repo : ∃ outcome later,
    (retrieve ⟨false, "repo".toList, .project⟩ [] none).run (serveSwapping
      (succeeding plainServices narrowConfig (fun _ => .ok []) (.ok []) (fun _ => [1, 0]) 0)
      fun calls => ⟨repoGraph [repoSkill "near".toList [1, 0] 1, repoSkill "far".toList [-1, 0] 1], calls⟩) 3 () =
        ⟨.ok outcome, later, ()⟩ ∧
      outcome.graphVersion = 3 ∧ (outcome.skills.map fun retrieved => retrieved.scoredSkill.skill.id).Nodup := by
  obtain ⟨outcome, later, ran, keeps⟩ := (retrieve_contract (fun _ => .ok []) (.ok []) (fun _ => [1, 0]) 0
    ⟨false, "repo".toList, .project⟩ [] none
    (fun calls => ⟨repoGraph [repoSkill "near".toList [1, 0] 1, repoSkill "far".toList [-1, 0] 1], calls⟩) 3 ()
    (by decide)).1
  exact ⟨outcome, later, ran, keeps.version, keeps.contract.distinct⟩

/-- A matching skill is not ranked in a scope without weight, nor when an earlier one is as far below zero, nor
at the lowest threshold; and a scope without paths has skills that lie nowhere in it. -/
theorem retrieve_contract_gaps :
    (Relevant plainServices { narrowConfig with projectScopeWeight := 0 } [] [1, 0]
        (repoGraph [repoSkill "near".toList [1, 0] 1]) [repoScope ["/repo".toList]]
        (repoSkill "near".toList [1, 0] 1) (repoScope ["/repo".toList]) ∧
      rankedIndices { narrowConfig with projectScopeWeight := 0 } [repoSkill "near".toList [1, 0] 1]
        (repoScope ["/repo".toList]) = []) ∧
    (cosineSimilarity fractionRoot [1, 0] [-1, 0] < cosineSimilarity fractionRoot [1, 0] [-3, 4] ∧
      Relevant plainServices narrowConfig [] [1, 0]
        (repoGraph [repoSkill "far".toList [-1, 0] 1, repoSkill "near".toList [-3, 4] 1]) [repoScope ["/repo".toList]]
        (repoSkill "near".toList [-3, 4] 1) (repoScope ["/repo".toList]) ∧
      rankedIndices narrowConfig [repoSkill "far".toList [-1, 0] 1, repoSkill "near".toList [-3, 4] 1]
        (repoScope ["/repo".toList]) = [0]) ∧
    (Relevant plainServices { narrowConfig with relevanceThreshold := f32Min } [] [1, 0]
        (repoGraph [repoSkill "far".toList [-1, 0] f32Min]) [repoScope ["/repo".toList]]
        (repoSkill "far".toList [-1, 0] f32Min) (repoScope ["/repo".toList]) ∧
      rankedIndices { narrowConfig with relevanceThreshold := f32Min } [repoSkill "far".toList [-1, 0] f32Min]
        (repoScope ["/repo".toList]) = []) ∧
    (rankedIndices narrowConfig [repoSkill "near".toList [1, 0] 1] (repoScope []) = [0] ∧
      ¬ ∀ sourcePath ∈ (repoSkill "near".toList [1, 0] 1).sourcePaths, ∃ scopePath ∈ (repoScope []).paths,
        pathStartsWith sourcePath scopePath = true) := by
  decide +kernel

end SkillLayer.Retrieval

import SkillLayer.Retrieval.Fusion
import SkillLayer.Retrieval.ScopeResolution

/-! The search of one scope: its skills ranked by similarity, scored, filtered and selected. -/

namespace SkillLayer.Retrieval

open Domain

/-! ### Configuration and snapshot -/

inductive CommunityBoostMode where
  | binary
  | centroidAffinity
  | off
deriving DecidableEq

structure ScoringWeights where
  alpha : Rat
  beta : Rat
  gamma : Rat
  lambda : Rat

structure ScoreComponents where
  l1Semantic : Rat
  subunitEvidence : Rat
  prior : Rat
  communityBoost : Rat

def scoreEq3 (components : ScoreComponents) (weights : ScoringWeights) : Rat :=
  let base := weights.alpha * components.l1Semantic + weights.beta * components.subunitEvidence +
    weights.gamma * components.prior
  base * (1 + weights.lambda * components.communityBoost)

/-- The fields of the configuration that searching and ranking read. -/
structure SearchConfig where
  candidateLimit : Nat
  maxResults : Nat
  maxSubunitsPerSkill : Nat
  rescueThreshold : Rat
  relevanceThreshold : Rat
  mmrLambda : Rat
  scoringWeights : ScoringWeights
  projectScopeWeight : Rat
  globalScopeWeight : Rat
  rrfK : Rat
  communityBoostMode : CommunityBoostMode

structure SeededSkill where
  skill : Skill
  scopeId : Str
  sourcePaths : List Str
  embedding : Embedding
  subunits : List Subunit
  subunitEmbeddings : List Embedding
  prior : Rat
  communityBoost : Rat

structure RetrievalSnapshot where
  graphVersion : Int
  skills : List SeededSkill
  communityCentroids : Str → Option Embedding

/-! ### Matching a scope -/

/-- `Path::components`, each as its text. -/
def components (path : Str) : List Str :=
  let names := Str.splitOn '/' path
  (if path.head? == some '/' then [['/']] else if names.head? == some ['.'] then [['.']] else []) ++
    names.filter fun name => !name.isEmpty && name != ['.']

def pathStartsWith (path base : Str) : Bool := (components base).isPrefixOf (components path)

def seededSkillMatchesScope (seeded : SeededSkill) (scope : ScopeDescriptor) : Bool :=
  if seeded.skill.scope ≠ scope.scopeType then false
  else if seeded.scopeId ≠ scope.scopeId then false
  else if scope.paths.isEmpty then true
  else if seeded.sourcePaths.isEmpty then false
  else seeded.sourcePaths.all fun sourcePath => scope.paths.any fun scopePath => pathStartsWith sourcePath scopePath

/-- The skills of a scope, with their places in the snapshot. -/
def inScope (graph : RetrievalSnapshot) (scope : ScopeDescriptor) : List (SeededSkill × Nat) :=
  graph.skills.zipIdx.filter fun entry => seededSkillMatchesScope entry.1 scope

/-! ### The search -/

variable (services : SearchServices) (config : SearchConfig)

def communityBoost (graph : RetrievalSnapshot) (promptEmbedding : Embedding) (seeded : SeededSkill) : Rat :=
  match config.communityBoostMode with
  | .binary => seeded.communityBoost
  | .off => 0
  | .centroidAffinity =>
    match seeded.skill.communityId.bind fun id => graph.communityCentroids id.value with
    | some centroid => clampUnit (cosineSimilarity services.root promptEmbedding centroid)
    | none => 0

def skillTextOf (seeded : SeededSkill) : Str :=
  seeded.skill.name ++ [' '] ++ seeded.skill.description ++ [' '] ++ Str.join [' '] seeded.skill.tags

/-- A candidate from its place in the ranking and its hit of the search. -/
def fusedCandidate (graph : RetrievalSnapshot) (promptEmbedding : Embedding) (scope : ScopeDescriptor)
    (scopedSkillIndex : Nat) (seeded : SeededSkill) (semanticScore : Rat) (graphHit : Option GraphHit) :
    FusedCandidate :=
  let lexicalScore := (graphHit.map GraphHit.lexicalScore).getD 0
  let subunitEvidence := (graphHit.map GraphHit.subunitEvidence).getD 0
  let boost := communityBoost services config graph promptEmbedding seeded
  { skillIndex := scopedSkillIndex
    skillId := seeded.skill.id.value
    matchedScope := scope.scopeType
    score := scoreEq3 ⟨semanticScore, subunitEvidence, seeded.prior, boost⟩ config.scoringWeights
    semanticScore := semanticScore
    lexicalScore := lexicalScore
    subunitEvidence := subunitEvidence
    embedding := seeded.embedding
    highlights := (graphHit.map GraphHit.projections).getD [] }

def performScopeSearch (prompt : Str) (promptEmbedding : Embedding) (graph : RetrievalSnapshot)
    (scope : ScopeDescriptor) : List FusedCandidate :=
  let scopedIndices := (inScope graph scope).map Prod.snd
  if scopedIndices.isEmpty then []
  else
    let scopedEmbeddings := scopedIndices.filterMap fun index => graph.skills[index]?.map SeededSkill.embedding
    let cosineHits := rankByCosine services.root promptEmbedding scopedEmbeddings config.candidateLimit
    let candidateIndices := cosineHits.filterMap fun hit => scopedIndices[hit.skillIndex]?
    let graphHits := searchGraph services prompt promptEmbedding (graph.skills.map skillTextOf)
      (graph.skills.map SeededSkill.subunits) (graph.skills.map SeededSkill.subunitEmbeddings) candidateIndices
      config.maxSubunitsPerSkill
    let fusedCandidates := (cosineHits.filterMap fun cosineHit => do
      let scopedSkillIndex ← scopedIndices[cosineHit.skillIndex]?
      let seeded ← graph.skills[scopedSkillIndex]?
      -- the map of the hits keeps the last one of an index
      let graphHit := (graphHits.filter fun hit => hit.skillIndex == scopedSkillIndex).getLast?
      return fusedCandidate services config graph promptEmbedding scope scopedSkillIndex seeded
        cosineHit.semanticScore graphHit).filter fun candidate => config.relevanceThreshold ≤ candidate.score
    let sorted := fusedCandidates.insertionSort fun left right => right.score ≤ left.score
    mmrSelect services.root sorted config.mmrLambda config.candidateLimit

/-! ### What the search finds -/

section Search

variable (prompt : Str) (promptEmbedding : Embedding) (graph : RetrievalSnapshot) (scope : ScopeDescriptor)

/-- The hit of a skill, from the skill alone. -/
def hitOf (entry : SeededSkill × Nat) : GraphHit :=
  searchSkill services (tokenize services prompt) promptEmbedding config.maxSubunitsPerSkill entry.2
    (skillTextOf entry.1) entry.1.subunits (some entry.1.subunitEmbeddings)

/-- The candidate of a skill, from the skill alone. -/
def candidateOf (entry : SeededSkill × Nat) : FusedCandidate :=
  fusedCandidate services config graph promptEmbedding scope entry.2 entry.1
    (semanticScore services.root promptEmbedding entry.1.embedding)
    (some (hitOf services config prompt promptEmbedding entry))

/-- The score of a skill in equation 3. -/
def eq3Score (seeded : SeededSkill) : Rat :=
  (candidateOf services config prompt promptEmbedding graph scope (seeded, 0)).score

/-- The first skill is at least as near to the prompt as the second one. -/
def AsNear (one two : SeededSkill × Nat) : Prop :=
  semanticScore services.root promptEmbedding two.1.embedding ≤ semanticScore services.root promptEmbedding one.1.embedding

instance : DecidableRel (AsNear services promptEmbedding) := fun _ _ => inferInstanceAs (Decidable (_ ≤ _))

instance : Std.Total (AsNear services promptEmbedding) := ⟨fun _ _ => le_total _ _⟩

instance : IsTrans (SeededSkill × Nat) (AsNear services promptEmbedding) := ⟨fun _ _ _ first second => second.trans first⟩

/-- The first skill is nearer to the prompt than the second one, or as near and earlier in the snapshot. -/
def Ahead (one two : SeededSkill × Nat) : Prop :=
  let nearOne := semanticScore services.root promptEmbedding one.1.embedding
  let nearTwo := semanticScore services.root promptEmbedding two.1.embedding
  nearTwo < nearOne ∨ nearOne = nearTwo ∧ one.2 < two.2

instance : DecidableRel (Ahead services promptEmbedding) := fun _ _ => inferInstanceAs (Decidable (_ ∨ _))

/-- The skills of the scope by similarity, up to the limit. -/
def nearest : List (SeededSkill × Nat) :=
  ((inScope graph scope).insertionSort (AsNear services promptEmbedding)).take config.candidateLimit

variable {graph scope} in
theorem getElem_of_mem_inScope {entry : SeededSkill × Nat} (member : entry ∈ inScope graph scope) :
    graph.skills[entry.2]? = some entry.1 ∧ seededSkillMatchesScope entry.1 scope = true := by
  obtain ⟨indexed, here⟩ := List.mem_filter.mp member
  exact ⟨List.mem_zipIdx_iff_getElem?.mp indexed, here⟩

theorem pairwise_inScope : (inScope graph scope).Pairwise fun one two => one.2 < two.2 := by
  have indices : (graph.skills.zipIdx.map Prod.snd).Pairwise fun one two => one < two := by
    rw [List.zipIdx_map_snd]
    exact List.pairwise_lt_range'
  exact (List.pairwise_map.mp indices).filter _

/-- The hits of the cosine ranking, with what their positions stand for. -/
theorem rankByCosine_inScope : ∃ hits : List ((SeededSkill × Nat) × Nat),
    rankByCosine services.root promptEmbedding ((inScope graph scope).map fun entry => entry.1.embedding)
        config.candidateLimit =
      hits.map (fun hit => ⟨hit.2, semanticScore services.root promptEmbedding hit.1.1.embedding⟩) ∧
    hits.map Prod.fst = nearest services config promptEmbedding graph scope ∧
    ∀ hit ∈ hits, (inScope graph scope)[hit.2]? = some hit.1 := by
  refine ⟨((inScope graph scope).zipIdx.insertionSort fun one two =>
    AsNear services promptEmbedding one.1 two.1).take config.candidateLimit, ?_, ?_, ?_⟩
  · rw [rankByCosine, List.zipIdx_map, List.map_map, List.map_take, List.map_insertionSort _ fun left right =>
      right.semanticScore ≤ left.semanticScore]
    · rfl
    · intro one _ two _
      exact Iff.rfl
  · rw [List.map_take, List.map_insertionSort _ (AsNear services promptEmbedding), List.zipIdx_map_fst]
    · rfl
    · intro one _ two _
      exact Iff.rfl
  · intro hit member
    exact List.mem_zipIdx_iff_getElem?.mp ((List.mem_insertionSort _).mp (List.mem_of_mem_take member))

theorem searchGraph_listed {entries : List (SeededSkill × Nat)}
    (listed : ∀ entry ∈ entries, graph.skills[entry.2]? = some entry.1) :
    searchGraph services prompt promptEmbedding (graph.skills.map skillTextOf)
        (graph.skills.map SeededSkill.subunits) (graph.skills.map SeededSkill.subunitEmbeddings)
        (entries.map Prod.snd) config.maxSubunitsPerSkill =
      entries.map (hitOf services config prompt promptEmbedding) := by
  unfold searchGraph
  rw [List.filterMap_map, List.filterMap_eq_map_iff_forall_eq_some]
  intro entry member
  simp [listed entry member, hitOf]

/-- What the map of the hits holds for a skill of the ranking is the hit of that skill. -/
theorem getLast?_hits {entries : List (SeededSkill × Nat)} {entry : SeededSkill × Nat}
    (listed : ∀ other ∈ entries, graph.skills[other.2]? = some other.1) (member : entry ∈ entries) :
    ((entries.map (hitOf services config prompt promptEmbedding)).filter fun hit =>
      hit.skillIndex == entry.2).getLast? = some (hitOf services config prompt promptEmbedding entry) := by
  have kept : hitOf services config prompt promptEmbedding entry ∈
      (entries.map (hitOf services config prompt promptEmbedding)).filter fun hit => hit.skillIndex == entry.2 :=
    List.mem_filter.mpr ⟨List.mem_map_of_mem member, beq_self_eq_true _⟩
  have last := List.getLast?_eq_some_getLast (List.ne_nil_of_mem kept)
  have inFilter := List.mem_of_getLast? last
  obtain ⟨inMap, sameIndex⟩ := List.mem_filter.mp inFilter
  obtain ⟨other, inEntries, same⟩ := List.mem_map.mp inMap
  have index : other.2 = entry.2 := by
    rw [← same] at sameIndex
    exact eq_of_beq sameIndex
  have skill := listed other inEntries
  rw [index, listed entry member] at skill
  rw [last, ← same, Prod.ext (Option.some.inj skill).symm index]

/-- The search has scored the nearest skills of the scope, each from that skill alone. -/
theorem performScopeSearch_eq : ∃ ranked : List FusedCandidate,
    ranked.Perm (((nearest services config promptEmbedding graph scope).map
      (candidateOf services config prompt promptEmbedding graph scope)).filter fun candidate =>
        config.relevanceThreshold ≤ candidate.score) ∧
    performScopeSearch services config prompt promptEmbedding graph scope =
      mmrSelect services.root ranked config.mmrLambda config.candidateLimit := by
  obtain ⟨hits, ranking, near, places⟩ := rankByCosine_inScope services config promptEmbedding graph scope
  have fromScope : ∀ hit ∈ hits, hit.1 ∈ inScope graph scope := fun hit member =>
    List.mem_of_getElem? (places hit member)
  have listed : ∀ entry ∈ hits.map Prod.fst, graph.skills[entry.2]? = some entry.1 := by
    intro entry member
    obtain ⟨hit, inHits, rfl⟩ := List.mem_map.mp member
    exact (getElem_of_mem_inScope (fromScope hit inHits)).1
  have embeddings : ((inScope graph scope).map Prod.snd).filterMap (fun index =>
      graph.skills[index]?.map SeededSkill.embedding) = (inScope graph scope).map fun entry => entry.1.embedding := by
    rw [List.filterMap_map, List.filterMap_eq_map_iff_forall_eq_some]
    intro entry member
    rw [Function.comp_apply, (getElem_of_mem_inScope member).1, Option.map_some]
  have index (hit : (SeededSkill × Nat) × Nat) (member : hit ∈ hits) :
      ((inScope graph scope).map Prod.snd)[hit.2]? = some hit.1.2 := by
    rw [List.getElem?_map, places hit member, Option.map_some]
  unfold performScopeSearch
  dsimp only
  by_cases empty : ((inScope graph scope).map Prod.snd).isEmpty = true
  · rw [if_pos empty]
    have noSkill : inScope graph scope = [] := by simpa using empty
    refine ⟨[], ?_, ?_⟩
    · simp [nearest, noSkill]
    · rfl
  · rw [if_neg empty, embeddings, ranking, List.filterMap_map, List.filterMap_map]
    have candidates : hits.filterMap ((fun hit : CosineHit => ((inScope graph scope).map Prod.snd)[hit.skillIndex]?) ∘
        fun hit => ⟨hit.2, semanticScore services.root promptEmbedding hit.1.1.embedding⟩) =
        (hits.map Prod.fst).map Prod.snd := by
      rw [List.map_map, List.filterMap_eq_map_iff_forall_eq_some]
      exact index
    rw [candidates, searchGraph_listed services config prompt promptEmbedding graph listed]
    refine ⟨_, (List.perm_insertionSort _ _).trans ?_, rfl⟩
    apply List.Perm.of_eq
    rw [← near]
    congr 1
    refine (List.filterMap_eq_map_iff_forall_eq_some.mpr ?_).trans List.map_map.symm
    intro hit member
    have inRanking : hit.1 ∈ hits.map Prod.fst := List.mem_map_of_mem member
    have last := getLast?_hits services config prompt promptEmbedding graph listed inRanking
    simp only [Function.comp_apply, index hit member, listed hit.1 inRanking, last, Option.pure_def, Option.bind_eq_bind,
      Option.bind_some]
    rfl

variable {services config prompt promptEmbedding graph scope}

theorem ahead_iff {one two : SeededSkill × Nat} : Ahead services promptEmbedding one two ↔
    AsNear services promptEmbedding one two ∧ (AsNear services promptEmbedding two one → one.2 < two.2) := by
  unfold Ahead AsNear
  dsimp only
  constructor
  · rintro (nearer | ⟨same, earlier⟩)
    · exact ⟨nearer.le, fun back => absurd nearer (not_lt.mpr back)⟩
    · exact ⟨same.ge, fun _ => earlier⟩
  · rintro ⟨near, earlier⟩
    rcases near.lt_or_eq with nearer | same
    · exact .inl nearer
    · exact .inr ⟨same.symm, earlier same.ge⟩

/-- A skill of the scope is among the nearest ones when fewer others than the limit are ahead of it. -/
theorem mem_nearest_iff {entry : SeededSkill × Nat} (member : entry ∈ inScope graph scope) :
    entry ∈ nearest services config promptEmbedding graph scope ↔
      (inScope graph scope).countP (fun other => Ahead services promptEmbedding other entry) <
        config.candidateLimit := by
  unfold nearest
  rw [mem_take_stable_iff (pairwise_inScope graph scope) (fun _ _ first => Nat.lt_asymm first) member]
  simp only [ahead_iff]

/-- A candidate is what its skill alone makes it, and the skill belongs to the scope. -/
theorem of_mem_performScopeSearch {candidate : FusedCandidate}
    (member : candidate ∈ performScopeSearch services config prompt promptEmbedding graph scope) :
    ∃ seeded, graph.skills[candidate.skillIndex]? = some seeded ∧ seededSkillMatchesScope seeded scope = true ∧
      config.relevanceThreshold ≤ eq3Score services config prompt promptEmbedding graph scope seeded ∧
      candidate = candidateOf services config prompt promptEmbedding graph scope (seeded, candidate.skillIndex) := by
  obtain ⟨ranked, listed, searched⟩ := performScopeSearch_eq services config prompt promptEmbedding graph scope
  rw [searched] at member
  obtain ⟨inNearest, reaches⟩ := List.mem_filter.mp (listed.subset (mem_of_mem_mmrSelect member))
  obtain ⟨entry, near, rfl⟩ := List.mem_map.mp inNearest
  have inScope := (List.mem_insertionSort _).mp (List.mem_of_mem_take near)
  obtain ⟨here, matching⟩ := getElem_of_mem_inScope inScope
  exact ⟨entry.1, here, matching, of_decide_eq_true reaches, rfl⟩

/-- A skill of the scope that is near enough and reaches the threshold is a candidate. -/
theorem mem_performScopeSearch {entry : SeededSkill × Nat} (above : f32Min < config.relevanceThreshold)
    (member : entry ∈ inScope graph scope)
    (near : (inScope graph scope).countP (fun other => Ahead services promptEmbedding other entry) <
      config.candidateLimit)
    (reaches : config.relevanceThreshold ≤ eq3Score services config prompt promptEmbedding graph scope entry.1) :
    candidateOf services config prompt promptEmbedding graph scope entry ∈
      performScopeSearch services config prompt promptEmbedding graph scope := by
  obtain ⟨ranked, listed, searched⟩ := performScopeSearch_eq services config prompt promptEmbedding graph scope
  have inRanked : candidateOf services config prompt promptEmbedding graph scope entry ∈ ranked := by
    refine listed.symm.subset (List.mem_filter.mpr ⟨?_, decide_eq_true reaches⟩)
    exact List.mem_map_of_mem ((mem_nearest_iff member).mpr near)
  rw [searched]
  apply mem_mmrSelect_of_room _ _ inRanked
  · rw [listed.length_eq]
    refine (List.length_filter_le _ _).trans ?_
    rw [List.length_map, nearest, List.length_take]
    exact min_le_left _ _
  · intro candidate known
    exact above.trans_le (of_decide_eq_true (List.mem_filter.mp (listed.subset known)).2)

end Search

end SkillLayer.Retrieval

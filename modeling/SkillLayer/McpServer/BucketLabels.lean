import SkillLayer.Compiler.Rendering
import SkillLayer.Retrieval.FusionLaw
import SkillLayer.Retrieval.MmrLaw

/-! The bucket label of a selected skill, from its fused score. -/

namespace SkillLayer.McpServer

open Domain Compiler Retrieval

/-! ### From the outcome to the compiler -/

def compilerHighlight (highlight : RetrievedSubunit) : CompilerHighlightInput :=
  ⟨highlight.kind, highlight.title, highlight.content, highlight.relevance⟩

def compilerSkill (retrieved : RetrievedSkill) : CompilerSkillInput where
  name := retrieved.scoredSkill.skill.name
  description := retrieved.scoredSkill.skill.description
  score := retrieved.scoredSkill.score
  highlights := retrieved.highlights.map compilerHighlight
  matchedScope := retrieved.scoredSkill.matchedScope.asStr
  rationale := retrieved.scoredSkill.rationale

def compilerCue (cue : RescueCue) : CompilerRescueCueInput := ⟨cue.sourceSkill, cue.title, cue.content, cue.relevance⟩

variable (services : RankServices) (maxRescuePerSkill : Nat)

/-- What the compiler makes of the skills and the cues of an outcome. -/
def compiledSkills (skills : List RetrievedSkill) (rescuePool : List RescueCue) : List CompiledSkillContext :=
  attachRescueCues services (skills.map compilerSkill) (rescuePool.map compilerCue) maxRescuePerSkill

/-- Every skill is labelled high or medium in its match reason. -/
def HonestLabels (skills : List RetrievedSkill) (rescuePool : List RescueCue) : Prop :=
  List.Forall₂ (fun retrieved compiled =>
    Labelled retrieved.scoredSkill.matchedScope.asStr "high" compiled.matchReason ∨
      Labelled retrieved.scoredSkill.matchedScope.asStr "medium" compiled.matchReason)
    skills (compiledSkills services maxRescuePerSkill skills rescuePool)

def buckets : List Str := ["high", "medium", "low"]

theorem scoreBucket_mem (score : Rat) : scoreBucket score ∈ buckets := by
  unfold scoreBucket buckets
  split
  · simp
  · split <;> simp

theorem eq_of_prefix_of_buckets : ∀ one ∈ buckets, ∀ two ∈ buckets, one <+: two → one = two := by
  decide

theorem labelled_iff (retrieved : RetrievedSkill) {bucket : Str} (known : bucket ∈ buckets) :
    Labelled retrieved.scoredSkill.matchedScope.asStr bucket (buildMatchReason (compilerSkill retrieved)) ↔
      scoreBucket retrieved.scoredSkill.score = bucket := by
  have own := labelled_buildMatchReason (compilerSkill retrieved)
  constructor
  · intro labelled
    rcases labelled.bucket_eq own with shorter | longer
    · exact (eq_of_prefix_of_buckets _ known _ (scoreBucket_mem _) shorter).symm
    · exact eq_of_prefix_of_buckets _ (scoreBucket_mem _) _ known longer
  · intro same
    exact same ▸ own

theorem scoreBucket_not_low (score : Rat) :
    scoreBucket score = "high" ∨ scoreBucket score = "medium" ↔ 1 / 5 ≤ score := by
  unfold scoreBucket
  split
  · rename_i high
    have enough : (1 : Rat) / 5 ≤ score := by linarith
    exact ⟨fun _ => enough, fun _ => .inl rfl⟩
  · split
    · rename_i enough
      exact ⟨fun _ => enough, fun _ => .inr rfl⟩
    · rename_i low
      simp only [low, iff_false, not_or]
      decide

theorem honestLabels_iff_scores {skills : List RetrievedSkill} {rescuePool : List RescueCue} :
    HonestLabels services maxRescuePerSkill skills rescuePool ↔
      ∀ retrieved ∈ skills, 1 / 5 ≤ retrieved.scoredSkill.score := by
  unfold HonestLabels compiledSkills attachRescueCues
  rw [List.map_map, List.forall₂_map_right_iff, List.forall₂_same]
  refine forall_congr' fun retrieved => imp_congr_right fun _ => ?_
  simp only [Function.comp_apply]
  rw [labelled_iff _ (by simp [buckets]), labelled_iff _ (by simp [buckets])]
  exact scoreBucket_not_low _

/-! ### How much a fused score can be -/

variable {services} {config : SearchConfig} {prompt : Str} {promptEmbedding : Embedding}
  {graph : Retrieval.RetrievalSnapshot}

theorem nodup_ids_inScope (distinct : (graph.skills.map fun seeded => seeded.skill.id).Nodup)
    (scope : ScopeDescriptor) : ((inScope graph scope).map fun entry => entry.1.skill.id.value).Nodup := by
  have values : Function.Injective DomainId.value := fun one two same => by
    cases one
    cases two
    exact congrArg DomainId.mk same
  have whole : (graph.skills.zipIdx.map Prod.fst).map (fun seeded => seeded.skill.id.value) =
      (graph.skills.map fun seeded => seeded.skill.id).map DomainId.value := by
    rw [List.zipIdx_map_fst, List.map_map]
    rfl
  have all := distinct.map values
  rw [← whole, List.map_map] at all
  exact all.sublist (List.filter_sublist.map _)

/-- A search finds each id once. -/
theorem nodup_ids_performScopeSearch (distinct : (graph.skills.map fun seeded => seeded.skill.id).Nodup)
    (scope : ScopeDescriptor) :
    ((performScopeSearch services.toSearchServices config prompt promptEmbedding graph scope).map
      FusedCandidate.skillId).Nodup := by
  obtain ⟨ranked, listed, searched⟩ := performScopeSearch_eq services.toSearchServices config prompt promptEmbedding
    graph scope
  have near : ((nearest services.toSearchServices config promptEmbedding graph scope).map
      fun entry => entry.1.skill.id.value).Nodup := by
    have sorted := (List.perm_insertionSort (AsNear services.toSearchServices promptEmbedding)
      (inScope graph scope)).map fun entry => entry.1.skill.id.value
    exact (sorted.nodup_iff.mpr (nodup_ids_inScope distinct scope)).sublist ((List.take_sublist _ _).map _)
  have rankedIds : (ranked.map FusedCandidate.skillId).Nodup := by
    refine (listed.map FusedCandidate.skillId).nodup_iff.mpr (List.Nodup.sublist (List.filter_sublist.map _) ?_)
    rw [List.map_map]
    exact near
  obtain ⟨front, shuffled, within⟩ := (mmrSelect_subperm : (mmrSelect services.root ranked config.mmrLambda
    config.candidateLimit).Subperm ranked)
  rw [searched]
  exact (shuffled.map FusedCandidate.skillId).nodup_iff.mp (rankedIds.sublist (within.map _))

/-- The weights, the fusion constant and the relevance floor that are the defaults. -/
structure DefaultRetrieval (config : SearchConfig) : Prop where
  projectScopeWeight : config.projectScopeWeight = 1
  globalScopeWeight : config.globalScopeWeight = 7 / 10
  rrfK : config.rrfK = 60
  relevanceThreshold : config.relevanceThreshold = 12 / 25

theorem DefaultRetrieval.weight_bounds (defaults : DefaultRetrieval config) (scopeType : ScopeType) :
    0 < scopeWeight config scopeType ∧ scopeWeight config scopeType ≤ 1 := by
  cases scopeType with
  | project => norm_num [scopeWeight, defaults.projectScopeWeight]
  | global => norm_num [scopeWeight, defaults.globalScopeWeight]
  | team => norm_num [scopeWeight, defaults.globalScopeWeight]

/-- The rankings of some scopes, as a retrieval fuses them. -/
def rankingsOf (services : RankServices) (config : SearchConfig) (prompt : Str) (promptEmbedding : Embedding)
    (graph : Retrieval.RetrievalSnapshot) (scopes : List ScopeDescriptor) : List ScopeRanking :=
  scopeRankings config (scopeResults services config prompt promptEmbedding graph scopes)

/-- Two scopes are worth two first ranks at most, far from the boundary of a medium label. -/
theorem rrfScore_lt_medium (defaults : DefaultRetrieval config)
    (distinct : (graph.skills.map fun seeded => seeded.skill.id).Nodup) {scopes : List ScopeDescriptor}
    (few : scopes.length ≤ 2) (id : Str) :
    rrfScore (rrfConstant config.rrfK) (rankingsOf services config prompt promptEmbedding graph scopes) id < 1 / 5 := by
  have constant : rrfConstant config.rrfK = 60 := by norm_num [rrfConstant, defaults.rrfK]
  rw [constant]
  have each : ∀ worth ∈ (rankingsOf services config prompt promptEmbedding graph scopes).map
      (fun ranking => rankingScore 60 ranking id), worth ≤ 1 / 61 := by
    intro worth member
    obtain ⟨ranking, inRankings, rfl⟩ := List.mem_map.mp member
    obtain ⟨result, inResults, rfl⟩ := List.mem_map.mp inRankings
    obtain ⟨scope, -, rfl⟩ := List.mem_map.mp inResults
    obtain ⟨positive, small⟩ := defaults.weight_bounds scope.scopeType
    refine (rankingScore_le_first (by norm_num) (nodup_ids_performScopeSearch distinct scope) positive id).trans ?_
    rw [div_le_div_iff₀ (by norm_num) (by norm_num)]
    linarith
  have total := List.sum_le_card_nsmul _ _ each
  have length : ((rankingsOf services config prompt promptEmbedding graph scopes).map
      fun ranking => rankingScore 60 ranking id).length = scopes.length := by
    simp [rankingsOf, scopeRankings, scopeResults]
  rw [length, nsmul_eq_mul] at total
  have cast : (scopes.length : Rat) ≤ 2 := by exact_mod_cast few
  refine total.trans_lt ?_
  linarith

/-! ### What is selected -/

/-- Some skill of the scope is among its nearest and clears the relevance floor. -/
def ClearsBar (services : RankServices) (config : SearchConfig) (prompt : Str) (promptEmbedding : Embedding)
    (graph : Retrieval.RetrievalSnapshot) (scope : ScopeDescriptor) : Prop :=
  ∃ entry ∈ nearest services.toSearchServices config promptEmbedding graph scope,
    config.relevanceThreshold ≤ eq3Score services.toSearchServices config prompt promptEmbedding graph scope entry.1

theorem performScopeSearch_ne_nil_iff (above : f32Min < config.relevanceThreshold) (scope : ScopeDescriptor) :
    performScopeSearch services.toSearchServices config prompt promptEmbedding graph scope ≠ [] ↔
      ClearsBar services config prompt promptEmbedding graph scope := by
  constructor
  · intro found
    obtain ⟨candidate, member⟩ := List.exists_mem_of_ne_nil _ found
    obtain ⟨ranked, listed, searched⟩ := performScopeSearch_eq services.toSearchServices config prompt promptEmbedding
      graph scope
    rw [searched] at member
    obtain ⟨inNearest, reaches⟩ := List.mem_filter.mp (listed.subset (mem_of_mem_mmrSelect member))
    obtain ⟨entry, near, rfl⟩ := List.mem_map.mp inNearest
    exact ⟨entry, near, of_decide_eq_true reaches⟩
  · intro ⟨entry, near, reaches⟩
    have inScope := (List.mem_insertionSort _).mp (List.mem_of_mem_take near)
    exact List.ne_nil_of_mem (mem_performScopeSearch above inScope ((mem_nearest_iff inScope).mp near) reaches)

theorem selected_eq (scopes : List ScopeDescriptor) :
    (rankedCandidates services config (scopeResults services config prompt promptEmbedding graph scopes)).take
        config.maxResults =
      (wholeFusion services.mapOrder (rankingsOf services config prompt promptEmbedding graph scopes)
        config.rrfK).take config.maxResults := by
  have room : config.maxResults ≤ fusionLimit config
      (scopeRankings config (scopeResults services config prompt promptEmbedding graph scopes)) := le_max_right _ _
  unfold rankedCandidates
  rw [weightedReciprocalRankFusion_eq_take, List.take_take, min_eq_left room]
  rfl

theorem wholeFusion_ne_nil_iff (defaults : DefaultRetrieval config) (scopes : List ScopeDescriptor) :
    wholeFusion services.mapOrder (rankingsOf services config prompt promptEmbedding graph scopes) config.rrfK ≠ [] ↔
      ∃ scope ∈ scopes, ClearsBar services config prompt promptEmbedding graph scope := by
  have exactly := fusedExactly_wholeFusion services.mapOrder
    (rankingsOf services config prompt promptEmbedding graph scopes) config.rrfK
  have above : f32Min < config.relevanceThreshold := by
    rw [defaults.relevanceThreshold]
    norm_num [f32Min]
  constructor
  · intro found
    obtain ⟨entry, member⟩ := List.exists_mem_of_ne_nil _ found
    obtain ⟨ranking, inRankings, -, here⟩ := (exactly.ids _).mp (List.mem_map_of_mem member)
    obtain ⟨result, inResults, rfl⟩ := List.mem_map.mp inRankings
    obtain ⟨scope, inScopes, rfl⟩ := List.mem_map.mp inResults
    refine ⟨scope, inScopes, (performScopeSearch_ne_nil_iff above scope).mp ?_⟩
    exact fun nothing => by simp [nothing] at here
  · intro ⟨scope, inScopes, clears⟩
    obtain ⟨candidate, member⟩ := List.exists_mem_of_ne_nil _ ((performScopeSearch_ne_nil_iff above scope).mpr clears)
    have listed := (exactly.ids candidate.skillId).mpr ⟨_, List.mem_map_of_mem (List.mem_map_of_mem inScopes),
      (defaults.weight_bounds scope.scopeType).1, List.mem_map_of_mem member⟩
    exact fun nothing => by simp [nothing] at listed

/-- Something is selected when there is room for a result and a scope has a skill that clears the floor. -/
theorem skills_ne_nil_iff (defaults : DefaultRetrieval config) (scopes : List ScopeDescriptor) :
    (rankScopes services config graph (scopeResults services config prompt promptEmbedding graph scopes)).1 ≠ [] ↔
      0 < config.maxResults ∧ ∃ scope ∈ scopes, ClearsBar services config prompt promptEmbedding graph scope := by
  have ids := ids_of_ranked (List.take_sublist config.maxResults
    (rankedCandidates services config (scopeResults services config prompt promptEmbedding graph scopes))).subset
  have lengths := congrArg List.length ids
  rw [List.length_map, List.length_map, selected_eq] at lengths
  rw [← wholeFusion_ne_nil_iff defaults scopes]
  unfold rankScopes
  dsimp only
  rw [Ne, ← List.length_eq_zero_iff, selected_eq, lengths, List.length_take]
  rw [← List.length_pos_iff]
  omega

/-- The scores of what is selected are the sums of the fusion. -/
theorem score_of_selected {scopes : List ScopeDescriptor} {retrieved : RetrievedSkill}
    (member : retrieved ∈ (rankScopes services config graph
      (scopeResults services config prompt promptEmbedding graph scopes)).1) :
    ∃ id, retrieved.scoredSkill.score = rrfScore (rrfConstant config.rrfK)
      (rankingsOf services config prompt promptEmbedding graph scopes) id := by
  obtain ⟨candidate, selected, made⟩ := List.mem_filterMap.mp member
  rw [selected_eq] at selected
  have exactly := fusedExactly_wholeFusion services.mapOrder
    (rankingsOf services config prompt promptEmbedding graph scopes) config.rrfK
  refine ⟨candidate.skillId, ?_⟩
  rw [← exactly.score candidate (List.mem_of_mem_take selected)]
  unfold retrievedSkill at made
  obtain ⟨seeded, -, rfl⟩ := Option.map_eq_some_iff.mp made
  rfl

/-- Under the defaults, no skill that is selected is labelled high or medium. -/
theorem honestLabels_rankScopes_iff (defaults : DefaultRetrieval config)
    (distinct : (graph.skills.map fun seeded => seeded.skill.id).Nodup) {scopes : List ScopeDescriptor}
    (few : scopes.length ≤ 2) (rescuePool : List RescueCue) :
    HonestLabels services maxRescuePerSkill
        (rankScopes services config graph (scopeResults services config prompt promptEmbedding graph scopes)).1
        rescuePool ↔
      ¬ (0 < config.maxResults ∧ ∃ scope ∈ scopes, ClearsBar services config prompt promptEmbedding graph scope) := by
  rw [← skills_ne_nil_iff defaults scopes, not_not, honestLabels_iff_scores]
  constructor
  · intro high
    rw [List.eq_nil_iff_forall_not_mem]
    intro retrieved member
    obtain ⟨id, score⟩ := score_of_selected member
    have enough := high retrieved member
    rw [score] at enough
    exact (rrfScore_lt_medium defaults distinct few id).not_ge enough
  · intro nothing
    rw [nothing]
    exact List.forall_mem_nil _

/-! ### Whole retrievals -/

/-- What the resolvers, the breaker and the embedding answer, and how each search ends. -/
structure Surroundings where
  project : Option Str → Except ScopeError (List ScopeDescriptor)
  global : Except ScopeError (List ScopeDescriptor)
  allows : Bool
  embedding : Str → Except EmbeddingError Embedding
  ends : ScopeDescriptor → SearchEnd Unit
  elapsed : Nat

/-- A search that ends well finds what searching the scope finds. -/
def Surroundings.searchEnd (surroundings : Surroundings) (services : RankServices) (config : SearchConfig) (prompt : Str)
    (promptEmbedding : Embedding) (graph : Retrieval.RetrievalSnapshot) (scope : ScopeDescriptor) :
    SearchEnd FusedCandidate :=
  match surroundings.ends scope with
  | .found _ => .found (performScopeSearch services.toSearchServices config prompt promptEmbedding graph scope)
  | .taskFailed => .taskFailed
  | .timedOut => .timedOut

def Surroundings.environment (surroundings : Surroundings) (services : RankServices) (config : SearchConfig) :
    Environment (searchEngine services config) where
  project := surroundings.project
  global := surroundings.global
  allows := surroundings.allows
  embedding := surroundings.embedding
  search := surroundings.searchEnd services config
  elapsed := surroundings.elapsed

def endsWell (surroundings : Surroundings) (scope : ScopeDescriptor) : Bool :=
  match surroundings.ends scope with
  | .found _ => true
  | _ => false

theorem length_resolved_scopes_le (environment : Environment (searchEngine services config))
    (retrieval : RetrievalConfig) (repoPath : Option Str) :
    (environment.resolved retrieval repoPath).scopes.length ≤ 2 := by
  unfold Environment.resolved
  split
  · simp only [resolveDual, ScopeResolutionOutcome.resolvedScopes, List.length_append]
    have one (found : Option ScopeDescriptor) : found.toList.length ≤ 1 := by
      cases found <;> simp
    exact Nat.add_le_add (one _) (one _)
  · exact one_le_two

theorem foundResult_eq (surroundings : Surroundings) (snapshot : GraphSnapshot Retrieval.RetrievalSnapshot)
    (scope : ScopeDescriptor) :
    foundResult (surroundings.environment services config) snapshot prompt promptEmbedding scope =
      if endsWell surroundings scope then
        some (scope.scopeId, scope.scopeType,
          performScopeSearch services.toSearchServices config prompt promptEmbedding snapshot.graph scope)
      else none := by
  have searched : (surroundings.environment services config).search prompt promptEmbedding snapshot.graph scope =
    surroundings.searchEnd services config prompt promptEmbedding snapshot.graph scope := rfl
  rw [foundResult, searched, Surroundings.searchEnd, endsWell]
  cases surroundings.ends scope with
  | found _ => rfl
  | taskFailed => rfl
  | timedOut => rfl

theorem filterMap_foundResult (surroundings : Surroundings) (snapshot : GraphSnapshot Retrieval.RetrievalSnapshot)
    (scopes : List ScopeDescriptor) :
    scopes.filterMap (foundResult (surroundings.environment services config) snapshot prompt promptEmbedding) =
      scopeResults services config prompt promptEmbedding snapshot.graph (scopes.filter (endsWell surroundings)) := by
  induction scopes with
  | nil => rfl
  | cons scope rest ih =>
    rw [List.filterMap_cons, List.filter_cons, ih, foundResult_eq]
    cases endsWell surroundings scope with
    | true => rfl
    | false => rfl

/-- Something clears the relevance floor in a scope that is searched to the end, with room for a result. -/
def Selects (surroundings : Surroundings) (services : RankServices) (config : SearchConfig) (retrieval : RetrievalConfig)
    (prompt : Str) (repoPath : Option Str) (graph : Retrieval.RetrievalSnapshot) : Prop :=
  0 < config.maxResults ∧ surroundings.allows = true ∧
    ∃ promptEmbedding, surroundings.embedding prompt = .ok promptEmbedding ∧
      ∃ scope ∈ ((surroundings.environment services config).resolved retrieval repoPath).scopes,
        endsWell surroundings scope = true ∧ ClearsBar services config prompt promptEmbedding graph scope

/-- `RetrievalConfig::default()`. -/
def defaultConfig : SearchConfig where
  candidateLimit := 50
  maxResults := 3
  maxSubunitsPerSkill := 3
  rescueThreshold := 3 / 20
  relevanceThreshold := 12 / 25
  mmrLambda := 13 / 20
  scoringWeights := ⟨9 / 20, 7 / 20, 1 / 5, 1 / 4⟩
  projectScopeWeight := 1
  globalScopeWeight := 7 / 10
  rrfK := 60
  communityBoostMode := .off

theorem defaultRetrieval_defaultConfig : DefaultRetrieval defaultConfig := ⟨rfl, rfl, rfl, rfl⟩

/-- A skill whose text and only subunit are the prompt itself. -/
def exactSkill : SeededSkill where
  skill := ⟨⟨"tips"⟩, "tips", [], .global, .ready, .active, [], [⟨"one"⟩], none⟩
  scopeId := "global"
  sourcePaths := []
  embedding := [1, 0]
  subunits := [⟨⟨"one"⟩, ⟨"tips"⟩, .procedure, [], [], .active⟩]
  subunitEmbeddings := [[1, 0]]
  prior := 0
  communityBoost := 0

def exactGraph : Retrieval.RetrievalSnapshot := ⟨1, [exactSkill], fun _ => none⟩

def calm : Surroundings where
  project _ := .ok []
  global := .ok []
  allows := true
  embedding _ := .ok [1, 0]
  ends _ := .found []
  elapsed := 0

def globalRetrieval : RetrievalConfig := ⟨false, "global", .global⟩

def globalScope : ScopeDescriptor := ⟨"global", .global, [], [("resolver", "static")]⟩

theorem exactSkill_clears : ClearsBar plainServices defaultConfig [] [1, 0] exactGraph globalScope := by
  have here : (exactSkill, 0) ∈ inScope exactGraph globalScope :=
    List.mem_filter.mpr ⟨List.mem_singleton.mpr rfl, by decide +kernel⟩
  refine ⟨(exactSkill, 0), (mem_nearest_iff here).mpr ?_, ?_⟩
  · decide +kernel
  · decide +kernel

end SkillLayer.McpServer

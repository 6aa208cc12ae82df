import SkillLayer.Retrieval.GraphState
import SkillLayer.Retrieval.ScopeResolution

/-! A retrieval: one graph snapshot, the scopes of the request, the embedding of the prompt
behind the circuit breaker, and the search of every scope. -/

namespace SkillLayer.Retrieval

open Domain

/-- What scores and ranks; the weights and sums are not modelled. -/
structure SearchEngine where
  Graph : Type
  Vector : Type
  Candidate : Type
  Skill : Type
  Cue : Type
  rank : Graph → List (Str × ScopeType × List Candidate) → List Skill × List Cue

structure RetrievalOutcome (engine : SearchEngine) where
  skills : List engine.Skill
  rescuePool : List engine.Cue
  degradedScopes : List Str
  reasonCodes : List Str
  health : List (Str × Str)
  scopesConsidered : List Str
  graphVersion : Int
  latencyMs : Nat

def RetrievalOutcome.isDegraded {engine : SearchEngine} (outcome : RetrievalOutcome engine) : Bool :=
  !outcome.degradedScopes.isEmpty

inductive EmbeddingError where
  | providerUnavailable (message : Str)
  | invalidInput (message : Str)
  | timeout (timeoutMs : Nat)
  | unexpected (message : Str)
deriving DecidableEq

/-- How the search of a scope ends. -/
inductive SearchEnd (Candidate : Type) where
  | found (candidates : List Candidate)
  | taskFailed
  | timedOut

variable (engine : SearchEngine)

/-! ### Calls -/

inductive RetrievalCall where
  | loadGraph
  | resolveProject (repoPath : Option Str)
  | resolveGlobal
  | allowRequest
  | embedText (prompt : Str)
  | recordSuccess
  | recordFailure
  | search (prompt : Str) (promptEmbedding : engine.Vector) (graph : engine.Graph) (scope : ScopeDescriptor)
  | elapsedMillis

@[reducible] def RetrievalAnswer : RetrievalCall engine → Type
  | .loadGraph => GraphSnapshot engine.Graph
  | .resolveProject _ => Except ScopeError (List ScopeDescriptor)
  | .resolveGlobal => Except ScopeError (List ScopeDescriptor)
  | .allowRequest => Bool
  | .embedText _ => Except EmbeddingError engine.Vector
  | .recordSuccess => Unit
  | .recordFailure => Unit
  | .search _ _ _ _ => SearchEnd engine.Candidate
  | .elapsedMillis => Nat

abbrev RetrievalProgram (Result : Type) := Program (RetrievalCall engine) (RetrievalAnswer engine) Empty Result

/-- The scope resolver, if there is one, and the scope that is searched otherwise. -/
structure RetrievalConfig where
  dualScope : Bool
  scopeId : Str
  scopeType : ScopeType

def RetrievalConfig.configuredScopes (config : RetrievalConfig) : List Str :=
  if config.dualScope then configuredScopeIds else [config.scopeId]

/-! ### The functions of the orchestrator -/

def healthyMarkers : List (Str × Str) :=
  [("filesystem_index", "ok"), ("ollama", "ok"), ("skill_snapshot_sync", "ok")]

def degradedMarker (reason : Str) : List (Str × Str) :=
  [("filesystem_index", "ok"), ("ollama", "degraded"), ("reason", reason), ("skill_snapshot_sync", "ok")]

def reasonEmbeddingCircuitOpen : Str := "embedding_circuit_open"

def mapEmbeddingErrorToReason : EmbeddingError → Str
  | .providerUnavailable _ => "embedding_provider_unavailable"
  | .timeout _ => "embedding_timeout"
  | .invalidInput _ => "embedding_invalid_input"
  | .unexpected _ => "embedding_unexpected"

/-- The scopes to search, those considered, and what is degraded already. -/
structure ResolvedScopes where
  scopes : List ScopeDescriptor
  scopesConsidered : List Str
  degradedScopes : List Str
  reasonCodes : List Str

variable {engine}

def resolveScopes (config : RetrievalConfig) (repoPath : Option Str) : RetrievalProgram engine ResolvedScopes := do
  if config.dualScope then
    let projectResult ← Program.ask (.resolveProject repoPath)
    let globalResult ← Program.ask .resolveGlobal
    let outcome := resolveDual projectResult globalResult
    return ⟨outcome.resolvedScopes, outcome.scopesConsidered, outcome.degradedScopes, outcome.reasonCodes⟩
  else
    return ⟨[⟨config.scopeId, config.scopeType, [], [("resolver", "static")]⟩], [config.scopeId], [], []⟩

def reasonOf (reasonCodes : List Str) : Str := reasonCodes.head?.getD "retrieval_degraded"

def buildDegradedOutcome (graphVersion : Int) (degradedScopes reasonCodes scopesConsidered : List Str) :
    RetrievalProgram engine (RetrievalOutcome engine) := do
  let degradedScopes := dedupe degradedScopes
  let reasonCodes := dedupe reasonCodes
  let degradedScopes := if degradedScopes.isEmpty then scopesConsidered else degradedScopes
  let latencyMs ← Program.ask .elapsedMillis
  return {
    skills := []
    rescuePool := []
    degradedScopes := degradedScopes
    reasonCodes := reasonCodes
    health := degradedMarker (reasonOf reasonCodes)
    scopesConsidered := scopesConsidered
    graphVersion := graphVersion
    latencyMs := (latencyMs : Nat) }

/-- A result of a scope, or its degraded entry and reason code. -/
def splitResult {Candidate : Type} (scope : ScopeDescriptor) : SearchEnd Candidate →
    (Str × ScopeType × List Candidate) ⊕ (Str × Str)
  | .found candidates => .inl (scope.scopeId, scope.scopeType, candidates)
  | .taskFailed => .inr (scope.scopeId, scope.scopeTypeLabel ++ "_search_task_failed")
  | .timedOut => .inr (scope.scopeId, scope.scopeTypeLabel ++ "_search_timeout")

/-- The results and the failures of the scopes, in their order; the searches do not depend on
each other. -/
def searchScopesConcurrently (prompt : Str) (promptEmbedding : engine.Vector) (graph : engine.Graph) :
    List ScopeDescriptor →
      RetrievalProgram engine (List (Str × ScopeType × List engine.Candidate) × List (Str × Str))
  | [] => return ([], [])
  | scope :: rest => do
    let answer ← Program.ask (.search prompt promptEmbedding graph scope)
    let (results, failures) ← searchScopesConcurrently prompt promptEmbedding graph rest
    match splitResult scope (answer : SearchEnd engine.Candidate) with
    | .inl result => return (result :: results, failures)
    | .inr failure => return (results, failure :: failures)

/-- From the embedding on: search, rank, and say what is degraded. -/
def retrieveEmbedded (prompt : Str) (promptEmbedding : engine.Vector) (snapshot : GraphSnapshot engine.Graph)
    (resolved : ResolvedScopes) : RetrievalProgram engine (RetrievalOutcome engine) := do
  let (scopeResults, scopeFailures) ←
    searchScopesConcurrently prompt promptEmbedding snapshot.graph resolved.scopes
  let degradedScopes := resolved.degradedScopes ++ scopeFailures.map Prod.fst
  let reasonCodes := resolved.reasonCodes ++ scopeFailures.map Prod.snd
  if scopeResults.isEmpty then
    buildDegradedOutcome snapshot.version degradedScopes reasonCodes resolved.scopesConsidered
  else
    let (skills, rescuePool) := engine.rank snapshot.graph scopeResults
    let degradedScopes := dedupe degradedScopes
    let reasonCodes := dedupe reasonCodes
    let latencyMs ← Program.ask .elapsedMillis
    return {
      skills := skills
      rescuePool := rescuePool
      degradedScopes := degradedScopes
      reasonCodes := reasonCodes
      health := if degradedScopes.isEmpty then healthyMarkers else degradedMarker (reasonOf reasonCodes)
      scopesConsidered := resolved.scopesConsidered
      graphVersion := snapshot.version
      latencyMs := (latencyMs : Nat) }

/-- From the answer of the embedding service on. -/
def afterEmbedding (prompt : Str) (snapshot : GraphSnapshot engine.Graph) (resolved : ResolvedScopes) :
    Except EmbeddingError engine.Vector → RetrievalProgram engine (RetrievalOutcome engine)
  | .ok promptEmbedding => do
    let _ ← Program.ask .recordSuccess
    retrieveEmbedded prompt promptEmbedding snapshot resolved
  | .error error => do
    let _ ← Program.ask .recordFailure
    buildDegradedOutcome snapshot.version resolved.scopesConsidered
      (resolved.reasonCodes ++ [mapEmbeddingErrorToReason error]) resolved.scopesConsidered

/-- From the answer of the circuit breaker on. -/
def afterBreaker (prompt : Str) (snapshot : GraphSnapshot engine.Graph) (resolved : ResolvedScopes) :
    Bool → RetrievalProgram engine (RetrievalOutcome engine)
  | false =>
    buildDegradedOutcome snapshot.version resolved.scopesConsidered
      (resolved.reasonCodes ++ [reasonEmbeddingCircuitOpen]) resolved.scopesConsidered
  | true => do
    let embedded ← Program.ask (.embedText prompt)
    afterEmbedding prompt snapshot resolved embedded

def retrieve (config : RetrievalConfig) (prompt : Str) (repoPath : Option Str) :
    RetrievalProgram engine (RetrievalOutcome engine) := do
  let loaded ← Program.ask .loadGraph
  let snapshot : GraphSnapshot engine.Graph := loaded
  let resolved ← resolveScopes config repoPath
  if resolved.scopes.isEmpty then
    buildDegradedOutcome snapshot.version resolved.degradedScopes resolved.reasonCodes resolved.scopesConsidered
  else
    let allowed ← Program.ask .allowRequest
    afterBreaker prompt snapshot resolved allowed

/-! ### Retrievals in a fixed environment -/

/-- What resolvers, breaker, embedding and searches answer. -/
structure Environment (engine : SearchEngine) where
  project : Option Str → Except ScopeError (List ScopeDescriptor)
  global : Except ScopeError (List ScopeDescriptor)
  allows : Bool
  embedding : Str → Except EmbeddingError engine.Vector
  search : Str → engine.Vector → engine.Graph → ScopeDescriptor → SearchEnd engine.Candidate
  elapsed : Nat

/-- The answers of an environment that serves one snapshot. -/
def Environment.answer (environment : Environment engine) (snapshot : GraphSnapshot engine.Graph) :
    (request : RetrievalCall engine) → RetrievalAnswer engine request
  | .loadGraph => snapshot
  | .resolveProject repoPath => environment.project repoPath
  | .resolveGlobal => environment.global
  | .allowRequest => environment.allows
  | .embedText prompt => environment.embedding prompt
  | .recordSuccess => ()
  | .recordFailure => ()
  | .search prompt promptEmbedding graph scope => environment.search prompt promptEmbedding graph scope
  | .elapsedMillis => environment.elapsed

end SkillLayer.Retrieval

import SkillLayer.McpServer.ContextCache
import SkillLayer.McpServer.Redis
import SkillLayer.Retrieval.Orchestrator

/-! The tool `compile_context`: suppression, cache, retrieval, and what is stored after it. -/

namespace SkillLayer.McpServer

open Retrieval

inductive TriggerKind where
  | compact
  | other
deriving DecidableEq

structure CompileContextRequest where
  prompt : Str
  sessionId : Str
  repoPath : Str
  trigger : Option TriggerKind
deriving DecidableEq

structure CompileContextResponse where
  status : CompileContextStatus
  reasonCode : Option Str
  additionalContext : Option Str
  health : List (Str × Str)
  scopesConsidered : List Str
  graphVersion : Int
  latencyMs : Nat
  source : Str
deriving DecidableEq

/-- The tool with the stores of the server and the retriever's configuration; the rendering of
the selected skills is not modelled. -/
structure CompileContextTool (engine : SearchEngine) where
  config : RetrievalConfig
  compileWithRescue : Str → List engine.Skill → List engine.Cue → Str
  state : RedisLayer SuppressionEntry
  cache : RedisLayer CachedContext
  names : CacheNames

/-! ### Calls -/

/-- The calls on the retriever, the stores and the clock; a retrieval reads what is served
once only, and takes it as it is at the call. -/
inductive ServerCall (engine : SearchEngine) where
  | currentGraphVersion
  | retrieve (prompt : Str) (repoPath : Option Str)
  | elapsedMillis
  | suppression (request : MapCall SuppressionEntry)
  | cache (request : MapCall CachedContext)
  | redis (request : RedisCall)
  | swapGraph (incoming : GraphSnapshot engine.Graph)

@[reducible] def ServerAnswer (engine : SearchEngine) : ServerCall engine → Type
  | .currentGraphVersion => Int
  | .retrieve _ _ => RetrievalOutcome engine
  | .elapsedMillis => Nat
  | .suppression request => MapAnswer SuppressionEntry request
  | .cache request => MapAnswer CachedContext request
  | .redis request => RedisAnswer request
  | .swapGraph _ => Bool

abbrev ServerProgram (engine : SearchEngine) (Result : Type) :=
  Program (ServerCall engine) (ServerAnswer engine) Empty Result

section Asks

variable {engine : SearchEngine}

def askSuppression (request : MapCall SuppressionEntry) : ServerProgram engine (MapAnswer SuppressionEntry request) :=
  Program.ask (ServerCall.suppression request)

def askCache (request : MapCall CachedContext) : ServerProgram engine (MapAnswer CachedContext request) :=
  Program.ask (ServerCall.cache request)

def askRedis (request : RedisCall) : ServerProgram engine (RedisAnswer request) :=
  Program.ask (ServerCall.redis request)

end Asks

/-! ### The functions of the tool -/

namespace CompileContextTool

variable {engine : SearchEngine} (tool : CompileContextTool engine) (request : CompileContextRequest)
  (outcome : RetrievalOutcome engine)

def configuredScopes : List Str := tool.config.configuredScopes

/-- What a suppressed request is answered. -/
def suppressedResponse (graphVersion : Int) (scopesConsidered : List Str) (latencyMs : Nat) :
    CompileContextResponse where
  status := .duplicateSuppressed
  reasonCode := some "already_compiled_for_session"
  additionalContext := none
  health := []
  scopesConsidered := scopesConsidered
  graphVersion := graphVersion
  latencyMs := latencyMs
  source := "suppression"

/-- What a request is answered from a cached context. -/
def cachedResponse (cached : CachedContext) (latencyMs : Nat) : CompileContextResponse where
  status := cached.status
  reasonCode := cached.reasonCode
  additionalContext := cached.additionalContext
  health := cached.health
  scopesConsidered := cached.scopesConsidered
  graphVersion := cached.graphVersion
  latencyMs := latencyMs
  source := "cache"

/-- What a request is answered from a retrieval. -/
def retrievalResponse (status : CompileContextStatus) (reasonCode additionalContext : Option Str) :
    CompileContextResponse where
  status := status
  reasonCode := reasonCode
  additionalContext := additionalContext
  health := outcome.health
  scopesConsidered := outcome.scopesConsidered
  graphVersion := outcome.graphVersion
  latencyMs := outcome.latencyMs
  source := "retrieval"

/-- What is cached of a retrieval. -/
def cachedContext (status : CompileContextStatus) (reasonCode additionalContext : Option Str) : CachedContext where
  status := status
  reasonCode := reasonCode
  additionalContext := additionalContext
  scopesConsidered := outcome.scopesConsidered
  graphVersion := outcome.graphVersion
  health := outcome.health

/-- From a suppression entry of the served version on. -/
def answerSuppressed (graphVersion : Int) : ServerProgram engine CompileContextResponse := do
  let gv ← suppressedVersion askSuppression askRedis tool.state tool.names.keyPrefix request.sessionId
    request.repoPath
  let sc ← suppressedScopes askSuppression askRedis tool.state tool.names.keyPrefix request.sessionId
    request.repoPath
  let latencyMs ← Program.ask .elapsedMillis
  return suppressedResponse (gv.getD graphVersion) (sc.getD tool.configuredScopes) latencyMs

/-- From a request that is not suppressed on. -/
def tryCache (graphVersion : Int) : ServerProgram engine (Option CompileContextResponse) := do
  match ← getCached askCache askRedis tool.cache tool.names request.sessionId request.prompt
      tool.configuredScopes graphVersion with
  | some cached => do
    let latencyMs ← Program.ask .elapsedMillis
    return some (cachedResponse cached latencyMs)
  | none => return none

def trySuppressionOrCache (graphVersion : Int) : ServerProgram engine (Option CompileContextResponse) := do
  let suppressed ← isSuppressed askSuppression askRedis tool.state tool.names.keyPrefix request.sessionId
    request.repoPath graphVersion
  if suppressed then do
    let response ← tool.answerSuppressed request graphVersion
    return some response
  else tool.tryCache request graphVersion

def compileMarkdown : Str := tool.compileWithRescue request.prompt outcome.skills outcome.rescuePool

/-- The reason code of a degraded outcome. -/
def degradedReason : Option Str := some (outcome.reasonCodes.head?.getD "retrieval_degraded")

/-- `mark_healthy` for the request, and then `set` with its context. -/
def markAndCache (context : CachedContext) : ServerProgram engine Unit := do
  markHealthy askSuppression askRedis tool.state tool.names.keyPrefix request.sessionId request.repoPath
    outcome.graphVersion outcome.scopesConsidered
  setCached askCache askRedis tool.cache tool.names request.sessionId request.prompt tool.configuredScopes context

def cacheAndSuppressOk (markdown : Str) : ServerProgram engine Unit :=
  tool.markAndCache request outcome (cachedContext outcome .ok none (some markdown))

def handleRetrievalResult : ServerProgram engine CompileContextResponse :=
  if outcome.skills.isEmpty then
    if outcome.isDegraded then return retrievalResponse outcome .degraded (degradedReason outcome) none
    else do
      tool.markAndCache request outcome (cachedContext outcome .noMatch (some "no_relevant_skills") none)
      return retrievalResponse outcome .noMatch (some "no_relevant_skills") none
  else
    let markdown := tool.compileMarkdown request outcome
    if outcome.isDegraded then
      return retrievalResponse outcome .degraded (degradedReason outcome) (some markdown)
    else do
      tool.cacheAndSuppressOk request outcome markdown
      return retrievalResponse outcome .ok none (some markdown)

/-- A retrieval, and the handling of its outcome. -/
def retrieveAndHandle : ServerProgram engine (CompileContextResponse × Option (RetrievalOutcome engine)) := do
  let answer ← Program.ask (.retrieve request.prompt (some request.repoPath))
  let outcome : RetrievalOutcome engine := answer
  let response ← tool.handleRetrievalResult request outcome
  return (response, some outcome)

def invokeAndCaptureOutcome :
    ServerProgram engine (CompileContextResponse × Option (RetrievalOutcome engine)) := do
  let graphVersion ← Program.ask .currentGraphVersion
  if request.trigger = some .compact then tool.retrieveAndHandle request
  else
    match ← tool.trySuppressionOrCache request graphVersion with
    | some response => return (response, none)
    | none => tool.retrieveAndHandle request

/-! ### What is answered and cached, by the outcome -/

def contextOf : CachedContext :=
  if outcome.skills.isEmpty then cachedContext outcome .noMatch (some "no_relevant_skills") none
  else cachedContext outcome .ok none (some (tool.compileMarkdown request outcome))

def responseOf : CompileContextResponse :=
  if outcome.isDegraded then
    retrievalResponse outcome .degraded (degradedReason outcome)
      (if outcome.skills.isEmpty then none else some (tool.compileMarkdown request outcome))
  else { cachedResponse (tool.contextOf request outcome) outcome.latencyMs with source := "retrieval" }

/-- A degraded outcome is answered at once, and any other marked and cached first. -/
theorem handleRetrievalResult_eq : tool.handleRetrievalResult request outcome =
    if outcome.isDegraded then return tool.responseOf request outcome
    else do
      tool.markAndCache request outcome (tool.contextOf request outcome)
      return tool.responseOf request outcome := by
  unfold handleRetrievalResult responseOf contextOf cacheAndSuppressOk
  by_cases degraded : outcome.isDegraded
  · by_cases empty : outcome.skills.isEmpty
    · simp [degraded, empty]
    · simp [degraded, empty]
  · by_cases empty : outcome.skills.isEmpty
    · simp [degraded, empty, cachedResponse, cachedContext, retrievalResponse]
    · simp [degraded, empty, cachedResponse, cachedContext, retrievalResponse]

end CompileContextTool
end SkillLayer.McpServer

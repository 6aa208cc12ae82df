import SkillLayer.McpServer.CompileContext
import SkillLayer.Retrieval.Degradation
import SkillLayer.Threads

/-! The server's calls of `compile_context`, clears of sessions and swaps of the graph, in any
interleaving. -/

namespace SkillLayer.McpServer

open Retrieval

variable {engine : SearchEngine}

structure ServerWorld (engine : SearchEngine) where
  current : GraphSnapshot engine.Graph
  suppression : SessionMaps SuppressionEntry
  cache : SessionMaps CachedContext
  redis : RedisState

/-- A started server, with nothing in the stores. -/
def ServerWorld.started (first : GraphSnapshot engine.Graph) : ServerWorld engine :=
  ⟨first, .empty, .empty, .empty⟩

inductive ServerTask (engine : SearchEngine) where
  | compile (request : CompileContextRequest)
  | clearState (sessionId : Str)
  | clearContexts (sessionId : Str)
  | swap (incoming : GraphSnapshot engine.Graph)

inductive ServerResult (engine : SearchEngine) where
  | compiled (response : CompileContextResponse) (outcome : Option (RetrievalOutcome engine))
  | cleared
  | swapped (applied : Bool)

def ServerTask.program (tool : CompileContextTool engine) :
    ServerTask engine → ServerProgram engine (ServerResult engine)
  | .compile request => do
    let result ← tool.invokeAndCaptureOutcome request
    return .compiled result.1 result.2
  | .clearState sessionId => do
    clearSuppression askSuppression askRedis tool.state tool.names.keyPrefix sessionId
    return .cleared
  | .clearContexts sessionId => do
    clearCache askCache askRedis tool.cache tool.names sessionId
    return .cleared
  | .swap incoming => do
    let applied ← Program.ask (.swapGraph incoming)
    return .swapped applied

/-- The outcome of a retrieval on a snapshot. -/
def Retrieves (tool : CompileContextTool engine) (environment : Environment engine)
    (snapshot : GraphSnapshot engine.Graph) (prompt : Str) (repoPath : Option Str)
    (outcome : RetrievalOutcome engine) : Prop :=
  ∃ later, (retrieve tool.config prompt repoPath).run (serveRetrieval environment snapshot) 0 () =
    ⟨.ok outcome, later, ()⟩

/-- What the server's threads are answered; resolvers, breaker, embedding service and searches
may answer each of them in another way. -/
def ServerAnswers (tool : CompileContextTool engine) (environments : Nat → Environment engine) (id : Nat) :
    (request : ServerCall engine) → ServerWorld engine → ServerAnswer engine request → ServerWorld engine → Prop
  | .currentGraphVersion, before, answer, after => answer = before.current.version ∧ after = before
  | .retrieve prompt repoPath, before, answer, after =>
    Retrieves tool (environments id) before.current prompt repoPath answer ∧ after = before
  | .elapsedMillis, before, _, after => after = before
  | .suppression request, before, answer, after =>
    ∃ maps, MapAnswers request before.suppression answer maps ∧ after = { before with suppression := maps }
  | .cache request, before, answer, after =>
    ∃ maps, MapAnswers request before.cache answer maps ∧ after = { before with cache := maps }
  | .redis request, before, answer, after =>
    ∃ redis, RedisAnswers id request before.redis answer redis ∧ after = { before with redis := redis }
  | .swapGraph incoming, before, answer, after =>
    answer = (before.current.swap incoming).1 ∧ after = { before with current := (before.current.swap incoming).2 }

abbrev ServerPool (engine : SearchEngine) :=
  Pool (ServerTask engine) (ServerCall engine) (ServerAnswer engine) (ServerResult engine) (ServerWorld engine)

abbrev ServerMoment (engine : SearchEngine) :=
  Moment (ServerTask engine) (ServerCall engine) (ServerAnswer engine) (ServerResult engine)

/-- A server that starts with a graph. -/
structure Server (engine : SearchEngine) where
  tool : CompileContextTool engine
  environments : Nat → Environment engine
  first : GraphSnapshot engine.Graph
  mayStart : ServerPool engine → ServerTask engine → Prop

def Server.threads (server : Server engine) : Threads (ServerTask engine) (ServerCall engine) (ServerAnswer engine)
    (ServerResult engine) (ServerWorld engine) where
  initial world := world = .started server.first
  program := ServerTask.program server.tool
  mayStart := server.mayStart
  answers := ServerAnswers server.tool server.environments

/-! ### Answers one after the other -/

/-- The outcome of a retrieval alone. -/
def retrieveAlone (tool : CompileContextTool engine) (environment : Environment engine)
    (snapshot : GraphSnapshot engine.Graph) (prompt : Str) (repoPath : Option Str) : RetrievalOutcome engine :=
  match ((retrieve tool.config prompt repoPath).run (serveRetrieval environment snapshot) 0 ()).outcome with
  | .ok outcome => outcome
  | .error impossible => impossible.elim

/-- What a thread of the server may be answered when Redis cannot be reached. -/
def Server.serve (server : Server engine) (id _calls : Nat) :
    (request : ServerCall engine) → ServerWorld engine → ServerAnswer engine request × ServerWorld engine
  | .currentGraphVersion, world => (world.current.version, world)
  | .retrieve prompt repoPath, world =>
    (retrieveAlone server.tool (server.environments id) world.current prompt repoPath, world)
  | .elapsedMillis, world => ((0 : Nat), world)
  | .suppression request, world =>
    ((serveMaps request world.suppression).1, { world with suppression := (serveMaps request world.suppression).2 })
  | .cache request, world =>
    ((serveMaps request world.cache).1, { world with cache := (serveMaps request world.cache).2 })
  | .redis (.scanBegin pattern), world =>
    (redisFailure "connection refused" (.scanBegin pattern),
      { world with redis := (world.redis.delete fun _ => false).observe id })
  | .redis request, world =>
    (redisFailure "connection refused" request, { world with redis := world.redis.delete fun _ => false })
  | .swapGraph incoming, world =>
    ((world.current.swap incoming).1, { world with current := (world.current.swap incoming).2 })

theorem retrieves_alone (tool : CompileContextTool engine) (environment : Environment engine)
    (snapshot : GraphSnapshot engine.Graph) (prompt : Str) (repoPath : Option Str) :
    Retrieves tool environment snapshot prompt repoPath (retrieveAlone tool environment snapshot prompt repoPath) := by
  obtain ⟨outcome, later, ran, -⟩ := @run_retrieve engine Unit environment tool.config snapshot prompt repoPath 0 ()
  have same : retrieveAlone tool environment snapshot prompt repoPath = outcome := by
    unfold retrieveAlone
    rw [ran]
  exact ⟨later, same ▸ ran⟩

theorem retrieves_unique {tool : CompileContextTool engine} {environment : Environment engine}
    {snapshot : GraphSnapshot engine.Graph} {prompt : Str} {repoPath : Option Str} {outcome : RetrievalOutcome engine}
    (retrieves : Retrieves tool environment snapshot prompt repoPath outcome) :
    outcome = retrieveAlone tool environment snapshot prompt repoPath := by
  obtain ⟨later, ran⟩ := retrieves
  unfold retrieveAlone
  rw [ran]

theorem server_serves (server : Server engine) (id calls : Nat) (request : ServerCall engine)
    (world : ServerWorld engine) :
    server.threads.answers id request world (server.serve id calls request world).1
      (server.serve id calls request world).2 := by
  cases request with
  | currentGraphVersion => exact ⟨rfl, rfl⟩
  | retrieve prompt repoPath => exact ⟨retrieves_alone .., rfl⟩
  | elapsedMillis => rfl
  | suppression request => exact ⟨_, mapAnswers_serveMaps request world.suppression, rfl⟩
  | cache request => exact ⟨_, mapAnswers_serveMaps request world.cache, rfl⟩
  | redis request =>
    cases request with
    | get key => exact ⟨_, ⟨fun _ => false, rfl, .inl ⟨_, rfl⟩⟩, rfl⟩
    | setEx key value ttlSecs => exact ⟨_, ⟨fun _ => false, .inr ⟨rfl, _, rfl⟩⟩, rfl⟩
    | scanBegin pattern => exact ⟨_, ⟨fun _ => false, rfl⟩, rfl⟩
    | scanEnd pattern => exact ⟨_, ⟨fun _ => false, rfl, nofun⟩, rfl⟩
    | del keys => exact ⟨_, ⟨fun _ => false, .inr ⟨rfl, _, rfl⟩⟩, rfl⟩
  | swapGraph incoming => exact ⟨rfl, rfl⟩

/-! ### The served snapshots -/

/-- The snapshot that is served after what has happened. -/
def Server.served (server : Server engine) (trace : List (ServerMoment engine)) : GraphSnapshot engine.Graph :=
  (trace.filterMap fun
    | .called _ (.swapGraph incoming) applied => if applied = true then some incoming else none
    | _ => none).getLast?.getD server.first

variable {server : Server engine} {pool after : ServerPool engine} {trace : List (ServerMoment engine)}

theorem served_swap {id : Nat} {incoming : GraphSnapshot engine.Graph} {applied : Bool} :
    server.served (trace ++ [.called id (.swapGraph incoming) applied]) =
      if applied = true then incoming else server.served trace := by
  unfold Server.served
  rw [List.filterMap_append]
  cases applied with
  | true => simp
  | false => simp

variable (server trace) in
/-- A call of another kind leaves what is served. -/
theorem current_answers {id : Nat} {request : ServerCall engine} {answer : ServerAnswer engine request}
    {before after : ServerWorld engine} (other : ∀ incoming, request ≠ .swapGraph incoming)
    (answered : ServerAnswers server.tool server.environments id request before answer after) :
    after.current = before.current ∧
      server.served (trace ++ [.called id request answer]) = server.served trace := by
  unfold Server.served
  rw [List.filterMap_append]
  cases request with
  | currentGraphVersion => exact ⟨by rw [answered.2], by simp⟩
  | retrieve prompt repoPath => exact ⟨by rw [answered.2], by simp⟩
  | elapsedMillis => exact ⟨by rw [show after = before from answered], by simp⟩
  | suppression request =>
    obtain ⟨maps, -, rfl⟩ := answered
    exact ⟨rfl, by simp⟩
  | cache request =>
    obtain ⟨maps, -, rfl⟩ := answered
    exact ⟨rfl, by simp⟩
  | redis request =>
    obtain ⟨redis, -, rfl⟩ := answered
    exact ⟨rfl, by simp⟩
  | swapGraph incoming => exact absurd rfl (other incoming)

/-- Every step serves what was served before, or a newer snapshot. -/
theorem served_step (step : server.threads.Step pool after)
    (before : server.served pool.trace = pool.world.current) :
    server.served after.trace = after.world.current ∧
      (after.world.current = pool.world.current ∨ pool.world.current.version < after.world.current.version) := by
  cases step with
  | started id task fresh may =>
    refine ⟨?_, .inl rfl⟩
    rw [Pool.trace_start, Pool.world_start, ← before]
    simp [Server.served, List.filterMap_append]
  | returned id here =>
    refine ⟨?_, .inl rfl⟩
    rw [Pool.trace_finish, Pool.world_finish, ← before]
    simp [Server.served, List.filterMap_append]
  | @called id task request next here answer world answered =>
    rw [Pool.trace_answer, Pool.world_answer]
    by_cases swaps : ∃ incoming, request = .swapGraph incoming
    · obtain ⟨incoming, rfl⟩ := swaps
      obtain ⟨rfl, rfl⟩ := answered
      rw [served_swap, before]
      unfold GraphSnapshot.swap
      split
      · rename_i newer
        exact ⟨rfl, .inr newer⟩
      · exact ⟨rfl, .inl rfl⟩
    · obtain ⟨current, same⟩ := current_answers server pool.trace (not_exists.mp swaps) answered
      exact ⟨by rw [same, current, before], .inl current⟩

theorem served_world (reached : server.threads.runs.Reachable pool) :
    server.served pool.trace = pool.world.current := by
  apply reached.invariant
  · intro pool start
    rw [start.1, start.2.2]
    rfl
  · intro before after same step
    exact (served_step step same).1

/-- The version tells the snapshots of a run apart. -/
theorem served_versions (reached : server.threads.runs.Reachable pool) {earlier : List (ServerMoment engine)}
    (begins : earlier <+: pool.trace) :
    (server.served earlier).version ≤ (server.served pool.trace).version ∧
      ((server.served earlier).version = (server.served pool.trace).version →
        server.served earlier = server.served pool.trace) := by
  obtain ⟨start, initial, run⟩ := reached
  induction run with
  | refl =>
    rw [initial.2.2] at begins ⊢
    rw [List.prefix_nil.mp begins]
    exact ⟨Int.le_refl _, fun _ => rfl⟩
  | @tail pool later run step ih =>
    obtain ⟨moment, extended⟩ := Threads.Step.extends_trace step
    have before := served_world ⟨start, initial, run⟩
    obtain ⟨now, moved⟩ := served_step step before
    rw [extended, List.prefix_concat_iff] at begins
    rcases begins with rfl | begins
    · rw [extended]
      exact ⟨Int.le_refl _, fun _ => rfl⟩
    · obtain ⟨le, unique⟩ := ih begins
      rw [before] at le unique
      rw [now]
      rcases moved with same | newer
      · rw [same]
        exact ⟨le, unique⟩
      · refine ⟨by omega, ?_⟩
        intro equal
        omega

/-- The version tells any two snapshots of a run apart. -/
theorem served_unique (reached : server.threads.runs.Reachable pool) {one two : List (ServerMoment engine)}
    (first : one <+: pool.trace) (second : two <+: pool.trace)
    (version : (server.served one).version = (server.served two).version) : server.served one = server.served two := by
  have ordered {earlier later : List (ServerMoment engine)} (begins : earlier <+: later)
      (within : later <+: pool.trace) (version : (server.served earlier).version = (server.served later).version) :
      server.served earlier = server.served later := by
    obtain ⟨pool, reached, rfl⟩ := Threads.reached_before reached within
    exact (served_versions reached begins).2 version
  rcases List.prefix_or_prefix_of_prefix first second with before | before
  · exact ordered before second version
  · exact (ordered before first version.symm).symm

/-! ### A small server -/

/-- An engine whose skills are the texts that a search finds. -/
def textEngine : SearchEngine where
  Graph := Unit
  Vector := Unit
  Candidate := Str
  Skill := Str
  Cue := Unit
  rank _ scopes := (scopes.flatMap fun scope => scope.2.2, [])

/-- Both scopes, and no Redis. -/
def textTool : CompileContextTool textEngine where
  config := ⟨true, "global", .global⟩
  compileWithRescue _ skills _ := Str.join ['\n'] skills
  state := ⟨false, 3600, unaryJson _⟩
  cache := ⟨false, 600, unaryJson _⟩
  names := ⟨fun bytes => bytes, []⟩

/-- Searches that find their scopes' paths, of which a resolver finds one. -/
def textEnvironment (resolve : Option Str → Str) : Environment textEngine where
  project repoPath := .ok [⟨"project", .project, [resolve repoPath], []⟩]
  global := .ok [⟨"global", .global, [], []⟩]
  allows := true
  embedding _ := .ok ()
  search _ _ _ scope := .found scope.paths
  elapsed := 3

/-- A server with one environment for the first call, and another for all later ones. -/
def pairServer (resolve : Option Str → Str) (later : Environment textEngine) : Server textEngine where
  tool := textTool
  environments id := if id = 0 then textEnvironment resolve else later
  first := ⟨(), 1⟩
  mayStart _ _ := True

def firstRequest : CompileContextRequest := ⟨"read files", "s", "/a", none⟩

def secondRequest : CompileContextRequest := ⟨"read files", "s", "/b", none⟩

/-- What both requests are answered. -/
def pairResponse (resolve : Option Str → Str) (latencyMs : Nat) (source : Str) : CompileContextResponse where
  status := .ok
  reasonCode := none
  additionalContext := some (Str.join ['\n'] [resolve (some "/a")])
  health := healthyMarkers
  scopesConsidered := ["project", "global"]
  graphVersion := 1
  latencyMs := latencyMs
  source := source

/-- What the first request leaves in the stores. -/
def pairWorld (resolve : Option Str → Str) : ServerWorld textEngine :=
  let key := cacheKey textTool.names "s" "read files" ["project", "global"]
  let context : CachedContext :=
    ⟨.ok, none, some (Str.join ['\n'] [resolve (some "/a")]), ["project", "global"], 1, healthyMarkers⟩
  { ServerWorld.started ⟨(), 1⟩ with
    suppression := (SessionMaps.empty.insert "s::/a" ⟨true, 1, ["project", "global"]⟩).index "s" "s::/a"
    cache := (SessionMaps.empty.insert key context).index "s" key }

theorem first_run (resolve : Option Str → Str) (later : Environment textEngine) :
    ((pairServer resolve later).threads.program (.compile firstRequest)).run ((pairServer resolve later).serve 0) 0
      (.started ⟨(), 1⟩) =
        ⟨.ok (.compiled (pairResponse resolve 3 "retrieval")
          (some (retrieveAlone textTool (textEnvironment resolve) ⟨(), 1⟩ "read files" (some "/a")))), 8,
          pairWorld resolve⟩ := rfl

theorem later_run (resolve : Option Str → Str) (later : Environment textEngine) :
    (((pairServer resolve later).threads.program (.compile secondRequest)).run ((pairServer resolve later).serve 1) 0
      (pairWorld resolve)).outcome = .ok (.compiled (pairResponse resolve 0 "cache") none) := rfl

/-- Two calls one after the other, for one session and prompt and two repositories. -/
theorem pair_run (resolve : Option Str → Str) (later : Environment textEngine) : ∃ pool : ServerPool textEngine,
    (pairServer resolve later).threads.runs.Reachable pool ∧ .started 0 (.compile firstRequest) ∈ pool.trace ∧
    (∃ outcome, .returned 0 (.compiled (pairResponse resolve 3 "retrieval") (some outcome)) ∈ pool.trace) ∧
    .started 1 (.compile secondRequest) ∈ pool.trace ∧
    .returned 1 (.compiled (pairResponse resolve 0 "cache") none) ∈ pool.trace ∧
    ∀ id request, .started id (.compile request) ∈ pool.trace → request = firstRequest ∨ request = secondRequest := by
  have start : (pairServer resolve later).threads.runs.Reachable ⟨.started ⟨(), 1⟩, fun _ => none, []⟩ :=
    .start ⟨rfl, fun _ => rfl, rfl⟩
  have unused (id : Nat) : Pool.Fresh (⟨.started ⟨(), 1⟩, fun _ => none, []⟩ : ServerPool textEngine) id :=
    ⟨rfl, fun _ => List.not_mem_nil⟩
  obtain ⟨between, first, world, -, startedFirst, returnedFirst, others⟩ :=
    Threads.turn (server_serves (pairServer resolve later) 0) start (.compile firstRequest) (unused 0) trivial
      (first_run resolve later) rfl
  obtain ⟨pool, second, -, grown, startedSecond, returnedSecond, rest⟩ :=
    Threads.turn (server_serves (pairServer resolve later) 1) first (.compile secondRequest)
      (others 1 Nat.one_ne_zero (unused 1)) trivial (congrArg _ world) (later_run resolve later)
  refine ⟨pool, second, grown.subset startedFirst, ⟨_, grown.subset returnedFirst⟩, startedSecond, returnedSecond, ?_⟩
  intro id request started
  by_cases zero : id = 0
  · subst zero
    exact .inl (ServerTask.compile.inj (Threads.started_unique second started (grown.subset startedFirst)))
  · by_cases one : id = 1
    · subst one
      exact .inr (ServerTask.compile.inj (Threads.started_unique second started startedSecond))
    · exact absurd started ((rest id one (others id zero (unused id))).2 _)

end SkillLayer.McpServer

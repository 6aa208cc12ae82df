import SkillLayer.McpServer.DegradedAnswers

/-! When a cached context is what a fresh retrieval would give: the key names session, prompt
and configured scopes, but not the repository. -/

namespace SkillLayer.McpServer

open Retrieval

variable {engine : SearchEngine} {tool : CompileContextTool engine} {first second : CompileContextRequest}

/-! ### What the key tells apart -/

theorem colon_notMem_toHex (bytes : List UInt8) : ':' ∉ toHex bytes := by
  have digits : ∀ half : Fin 16, hexDigit half ≠ ':' := by decide
  have digit (half : Nat) (small : half < 16) : hexDigit half ≠ ':' := digits ⟨half, small⟩
  intro member
  obtain ⟨byte, -, member⟩ := List.mem_flatMap.mp member
  have bound := byte.toNat_lt
  rcases List.mem_cons.mp member with high | member
  · exact digit _ (by omega) high.symm
  · exact digit _ (by omega) (List.mem_singleton.mp member).symm

theorem append_colon_inj {one two rest other : Str} (restPlain : ':' ∉ rest) (otherPlain : ':' ∉ other)
    (same : one ++ ':' :: rest = two ++ ':' :: other) : one = two ∧ rest = other := by
  rcases List.append_eq_append_iff.mp same with ⟨middle, rfl, tail⟩ | ⟨middle, rfl, tail⟩
  · cases middle with
    | nil => exact ⟨(List.append_nil one).symm, (List.cons.inj tail).2⟩
    | cons c middle =>
      obtain ⟨-, rfl⟩ := List.cons.inj tail
      exact absurd (List.mem_append_right _ List.mem_cons_self) restPlain
  · cases middle with
    | nil => exact ⟨List.append_nil two, (List.cons.inj tail).2.symm⟩
    | cons c middle =>
      obtain ⟨-, rfl⟩ := List.cons.inj tail
      exact absurd (List.mem_append_right _ List.mem_cons_self) otherPlain

/-- Requests with one key have one session and one prompt hash. -/
theorem contextKey_inj (same : tool.contextKey first = tool.contextKey second) :
    first.session = second.session ∧
      promptHash tool.names.blake3 first.prompt = promptHash tool.names.blake3 second.prompt := by
  have plain (prompt : Str) : ':' ∉ promptHash tool.names.blake3 prompt :=
    fun member => colon_notMem_toHex _ (List.mem_of_mem_take member)
  unfold CompileContextTool.contextKey cacheKey at same
  have front := List.append_cancel_right (List.append_cancel_right same)
  simp only [List.append_assoc] at front
  have middle := List.append_cancel_left (List.append_cancel_left front)
  exact append_colon_inj (plain _) (plain _) middle

/-! ### What a retrieval depends on -/

/-- The repository matters for the project scope only. -/
theorem retrieveAlone_congr {environment : Environment engine} {one two : Option Str}
    (same : tool.config.dualScope = true → environment.project one = environment.project two)
    (snapshot : GraphSnapshot engine.Graph) (prompt : Str) :
    retrieveAlone tool environment snapshot prompt one = retrieveAlone tool environment snapshot prompt two := by
  have scopes (calls : Nat) :
      (resolveScopes tool.config one : RetrievalProgram engine ResolvedScopes).run
        (serveRetrieval environment snapshot) calls () =
      (resolveScopes tool.config two : RetrievalProgram engine ResolvedScopes).run
        (serveRetrieval environment snapshot) calls () := by
    unfold resolveScopes
    cases dual : tool.config.dualScope with
    | true =>
      simp only [if_true, Program.ask_bind, Program.run_call, serveRetrieval, Environment.answer, same dual]
    | false => rfl
  unfold retrieveAlone retrieve
  simp only [Program.ask_bind, Program.run_call, Program.run_bind, scopes]

/-! ### Cached answers -/

/-- The response without its latency and source. -/
def CompileContextResponse.content (response : CompileContextResponse) : CompileContextResponse :=
  { response with latencyMs := 0, source := [] }

theorem content_cached {outcome : RetrievalOutcome engine} (healthy : outcome.isDegraded = false)
    (prompts : first.prompt = second.prompt) (latencyMs : Nat) :
    (CompileContextTool.cachedResponse (tool.contextOf first outcome) latencyMs).content =
      (tool.responseOf second outcome).content := by
  unfold CompileContextTool.responseOf
  rw [healthy]
  simp only [Bool.false_eq_true, if_false, CompileContextTool.contextOf, CompileContextTool.compileMarkdown, prompts]
  rfl

section Runs

variable {server : Server engine} {pool : ServerPool engine} {trace : List (ServerMoment engine)}
  {environment : Environment engine}

/-- Requests of one session with one prompt are for repositories with one project scope. -/
def Uniform (tool : CompileContextTool engine) (environment : Environment engine)
    (trace : List (ServerMoment engine)) : Prop :=
  tool.config.dualScope = true → ∀ one two first second,
    Moment.started one (.compile first) ∈ trace → Moment.started two (.compile second) ∈ trace →
    first.session = second.session → first.prompt = second.prompt →
    environment.project (some first.repoPath) = environment.project (some second.repoPath)

/-- The hash tells the prompts of the requests apart. -/
def CollisionFree (blake3 : List UInt8 → List UInt8) (trace : List (ServerMoment engine)) : Prop :=
  ∀ one two first second,
    Moment.started one (.compile first) ∈ trace → Moment.started two (.compile second) ∈ trace →
    promptHash blake3 first.prompt = promptHash blake3 second.prompt → first.prompt = second.prompt

/-- Where requests of one session with one prompt are for one project scope, whatever is
answered from the cache is, but for latency and source, what a fresh retrieval for the request
gives at the version that was served when it began. -/
theorem cached_fresh (reached : server.threads.runs.Reachable pool)
    (fixed : ∀ id, server.environments id = environment) (uniform : Uniform server.tool environment pool.trace)
    (collisionFree : CollisionFree server.tool.names.blake3 pool.trace) {id : Nat} {request : CompileContextRequest}
    {response : CompileContextResponse} (started : .started id (.compile request) ∈ pool.trace)
    (returned : .returned id (.compiled response none) ∈ pool.trace)
    (cached : response.status ≠ .duplicateSuppressed) : ∃ before version after,
      pool.trace = before ++ .called id .currentGraphVersion version :: after ∧
      response.content = (server.tool.responseOf request (retrieveAlone server.tool environment
        (server.served before) request.prompt (some request.repoPath))).content := by
  obtain ⟨ledger, between, rest, split, ended, sound⟩ := returned_compile reached started returned
  have within : between ⊆ pool.trace := split ▸ List.subset_append_left ..
  cases ended with
  | suppressed status => exact absurd status cached
  | @found _ version entry latencyMs =>
    obtain ⟨⟨-, asked⟩, ⟨producer, origin, outcome, retrieved, healthy, key, rfl⟩, current⟩ := sound
    obtain ⟨before, after, askedThen⟩ := List.append_of_mem (within asked)
    refine ⟨before, version, after, askedThen, ?_⟩
    obtain ⟨asking, task, next, world, reachedThen, same, -, answer, -⟩ := Threads.answered reached askedThen
    obtain ⟨earlier, later, retrievedThen, alone⟩ := retrieved_alone reached (within retrieved.2)
    obtain ⟨session, hash⟩ := contextKey_inj key
    have prompts := collisionFree producer id origin request (within retrieved.1) started hash
    have versions : (server.served earlier).version = (server.served before).version := by
      have reports := reports_alone server.tool (server.environments producer) (server.served earlier)
        origin.prompt (some origin.repoPath)
      rw [← alone] at reports
      have cachedVersion : outcome.graphVersion = version := by
        unfold CompileContextTool.contextOf at current
        split at current <;> exact current
      rw [← same, served_world reachedThen, ← reports.version, cachedVersion]
      exact answer
    have snapshots : server.served earlier = server.served before :=
      served_unique reached (retrievedThen ▸ List.prefix_append ..) (askedThen ▸ List.prefix_append ..) versions
    have fresh : outcome = retrieveAlone server.tool environment (server.served before) request.prompt
        (some request.repoPath) := by
      rw [alone, fixed, snapshots, prompts]
      apply retrieveAlone_congr
      intro dual
      exact uniform dual producer id origin request (within retrieved.1) started session prompts
    rw [← fresh]
    exact content_cached healthy prompts latencyMs

theorem environments_pair (resolve : Option Str → Str) (id : Nat) :
    (pairServer resolve (textEnvironment resolve)).environments id = textEnvironment resolve := by
  unfold pairServer
  dsimp only
  split <;> rfl

/-- The context of one repository is served for another. -/
theorem cached_other_repository : ∃ (pool : ServerPool textEngine) (request : CompileContextRequest)
    (response : CompileContextResponse),
    (pairServer (fun repoPath => repoPath.getD []) (textEnvironment fun repoPath => repoPath.getD [])).threads.runs.Reachable
      pool ∧ .started 1 (.compile request) ∈ pool.trace ∧ .returned 1 (.compiled response none) ∈ pool.trace ∧
    response.source = "cache" ∧ ∀ snapshot, response.content ≠ (textTool.responseOf request
      (retrieveAlone textTool (textEnvironment fun repoPath => repoPath.getD []) snapshot request.prompt
        (some request.repoPath))).content := by
  obtain ⟨pool, reached, -, -, started, returned, -⟩ :=
    pair_run (fun repoPath => repoPath.getD []) (textEnvironment fun repoPath => repoPath.getD [])
  refine ⟨pool, _, _, reached, started, returned, rfl, ?_⟩
  intro snapshot same
  have contexts : (some "/a" : Option Str) = some "/b" :=
    congrArg CompileContextResponse.additionalContext same
  cases contexts

theorem cached_fresh_shared : ∃ (pool : ServerPool textEngine) (before : List (ServerMoment textEngine)),
    (pairServer (fun _ => "/a") (textEnvironment fun _ => "/a")).threads.runs.Reachable pool ∧
    (pairResponse (fun _ => "/a") 0 "cache").content = (textTool.responseOf secondRequest
      (retrieveAlone textTool (textEnvironment fun _ => "/a")
        ((pairServer (fun _ => "/a") (textEnvironment fun _ => "/a")).served before) "read files" (some "/b"))).content := by
  obtain ⟨pool, reached, -, -, started, returned, requests⟩ := pair_run (fun _ => "/a") (textEnvironment fun _ => "/a")
  have prompts (id : Nat) (request : CompileContextRequest) (member : .started id (.compile request) ∈ pool.trace) :
      request.prompt = "read files" := by
    rcases requests id request member with rfl | rfl <;> rfl
  obtain ⟨before, version, after, -, fresh⟩ := cached_fresh reached (environments_pair fun _ => "/a")
    (fun _ _ _ _ _ _ _ _ _ => rfl)
    (fun one two first second oneStarted twoStarted _ =>
      (prompts one first oneStarted).trans (prompts two second twoStarted).symm) started returned nofun
  exact ⟨pool, before, reached, fresh⟩

end Runs
end SkillLayer.McpServer

import SkillLayer.McpServer.Provenance

/-! A call that retrieves says so when its retrieval was degraded, and what is stored and
answered without a retrieval was healthy. -/

namespace SkillLayer.McpServer

open Retrieval

variable {engine : SearchEngine} {tool : CompileContextTool engine} {request : CompileContextRequest}
  {outcome : RetrievalOutcome engine}

/-- The statuses of healthy answers. -/
def CompileContextStatus.Healthy (status : CompileContextStatus) : Prop := status = .ok ∨ status = .noMatch

theorem healthy_contextOf (tool : CompileContextTool engine) (request : CompileContextRequest)
    (outcome : RetrievalOutcome engine) : (tool.contextOf request outcome).status.Healthy := by
  unfold CompileContextTool.contextOf
  split
  · exact .inr rfl
  · exact .inl rfl

theorem isDegraded_iff : outcome.isDegraded = true ↔ outcome.degradedScopes ≠ [] := by
  simp [RetrievalOutcome.isDegraded]

theorem healthy_responseOf : (tool.responseOf request outcome).status.Healthy ↔ outcome.degradedScopes = [] := by
  unfold CompileContextTool.responseOf
  split
  · rename_i degraded
    constructor
    · intro healthy
      rcases healthy with healthy | healthy <;> cases healthy
    · intro none
      exact absurd none (isDegraded_iff.mp degraded)
  · rename_i healthy
    constructor
    · intro _
      exact not_not.mp (mt isDegraded_iff.mpr healthy)
    · intro _
      exact healthy_contextOf tool request outcome

/-- A degraded outcome is answered as such, with its first reason. -/
theorem responseOf_degraded (degraded : outcome.degradedScopes ≠ []) (reasoned : outcome.reasonCodes ≠ []) :
    (tool.responseOf request outcome).status = .degraded ∧
      ∃ reason ∈ outcome.reasonCodes, (tool.responseOf request outcome).reasonCode = some reason := by
  rw [CompileContextTool.responseOf, if_pos (isDegraded_iff.mpr degraded)]
  obtain ⟨reason, rest, same⟩ := List.exists_cons_of_ne_nil reasoned
  refine ⟨rfl, reason, same ▸ List.mem_cons_self, ?_⟩
  simp [CompileContextTool.retrievalResponse, CompileContextTool.degradedReason, same]

theorem reports_alone (tool : CompileContextTool engine) (environment : Environment engine)
    (snapshot : GraphSnapshot engine.Graph) (prompt : Str) (repoPath : Option Str) :
    Reports environment tool.config snapshot prompt repoPath
      (retrieveAlone tool environment snapshot prompt repoPath) := by
  obtain ⟨outcome, later, ran, reports⟩ :=
    @run_retrieve engine Unit environment tool.config snapshot prompt repoPath 0 ()
  rwa [← retrieves_unique ⟨later, ran⟩]

section Runs

variable {server : Server engine} {pool : ServerPool engine} {id : Nat}

/-- A retrieval of a run took a snapshot that was served, in the environment of its call. -/
theorem retrieved_alone (reached : server.threads.runs.Reachable pool) {prompt : Str} {repoPath : Option Str}
    (called : .called id (.retrieve prompt repoPath) outcome ∈ pool.trace) : ∃ before after,
    pool.trace = before ++ .called id (.retrieve prompt repoPath) outcome :: after ∧
      outcome = retrieveAlone server.tool (server.environments id) (server.served before) prompt repoPath := by
  obtain ⟨before, after, split⟩ := List.append_of_mem called
  obtain ⟨earlier, task, next, world, reachedThen, same, here, retrieves, -⟩ := Threads.answered reached split
  refine ⟨before, after, split, ?_⟩
  rw [← same, served_world reachedThen]
  exact retrieves_unique retrieves

/-- The request of a returned task. -/
theorem returned_compile (reached : server.threads.runs.Reachable pool) {response : CompileContextResponse}
    {found : Option (RetrievalOutcome engine)} (started : .started id (.compile request) ∈ pool.trace)
    (returned : .returned id (.compiled response found) ∈ pool.trace) : ∃ ledger before after,
    pool.trace = before ++ .returned id (.compiled response found) :: after ∧
      Ended server.tool (.compile request) ledger (.compiled response found) ∧
      ledger.Sound server.tool before id := by
  obtain ⟨before, after, split⟩ := List.append_of_mem returned
  obtain ⟨task, ledger, ended, sound⟩ := returned_stage reached split
  have whole : before ⊆ pool.trace := split ▸ List.subset_append_left ..
  refine ⟨ledger, before, after, split, ?_, sound⟩
  have same {other : CompileContextRequest} (startedThen : .started id (.compile other) ∈ before) :
      other = request :=
    ServerTask.compile.inj (Threads.started_unique reached (whole startedThen) started)
  cases ended with
  | suppressed status =>
    obtain rfl := same sound.2.1
    exact .suppressed status
  | found latencyMs =>
    obtain rfl := same sound.1.1
    exact .found latencyMs
  | degraded degraded =>
    obtain rfl := same sound.1
    exact .degraded degraded
  | marked healthy =>
    obtain rfl := same sound.1.1
    exact .marked healthy

/-- An embedding service that cannot be reached. -/
def outage : Environment textEngine :=
  { textEnvironment (fun repoPath => repoPath.getD []) with
    embedding := fun _ => .error (.providerUnavailable "connection refused") }

def outageServer : Server textEngine := pairServer (fun repoPath => repoPath.getD []) outage

end Runs
end SkillLayer.McpServer

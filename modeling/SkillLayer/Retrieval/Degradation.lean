import SkillLayer.Retrieval.Orchestrator

/-! When a retrieval is degraded: exactly when a scope is not resolved, the prompt is not
embedded, or a search fails; and then it names a scope and a reason. -/

namespace SkillLayer.Retrieval

open Domain

variable {engine : SearchEngine} {World : Type}

/-- The run of a retrieval in an environment; nothing else is changed by it. -/
def serveRetrieval (environment : Environment engine) (snapshot : GraphSnapshot engine.Graph) (_calls : Nat)
    (request : RetrievalCall engine) (world : World) : RetrievalAnswer engine request × World :=
  (environment.answer snapshot request, world)

/-- The scopes of a request are resolved, both of them where there are two. -/
def Environment.Resolves (environment : Environment engine) (config : RetrievalConfig)
    (repoPath : Option Str) : Prop :=
  config.dualScope = true →
    (findScope .project (environment.project repoPath)).isSome ∧ (findScope .global environment.global).isSome

/-- The scopes that a request resolves to. -/
def Environment.resolved (environment : Environment engine) (config : RetrievalConfig)
    (repoPath : Option Str) : ResolvedScopes :=
  if config.dualScope then
    let outcome := resolveDual (environment.project repoPath) environment.global
    ⟨outcome.resolvedScopes, outcome.scopesConsidered, outcome.degradedScopes, outcome.reasonCodes⟩
  else ⟨[⟨config.scopeId, config.scopeType, [], [("resolver", "static")]⟩], [config.scopeId], [], []⟩

/-- Every configured scope is resolved, the prompt is embedded, and every search succeeds. -/
def Environment.Healthy (environment : Environment engine) (config : RetrievalConfig)
    (snapshot : GraphSnapshot engine.Graph) (prompt : Str) (repoPath : Option Str) : Prop :=
  environment.Resolves config repoPath ∧ environment.allows = true ∧
    ∃ promptEmbedding, environment.embedding prompt = .ok promptEmbedding ∧
      ∀ scope ∈ (environment.resolved config repoPath).scopes, ∃ candidates,
        environment.search prompt promptEmbedding snapshot.graph scope = .found candidates

variable {environment : Environment engine} {config : RetrievalConfig} {snapshot : GraphSnapshot engine.Graph}
  {prompt : Str} {repoPath : Option Str} {promptEmbedding : engine.Vector} {calls : Nat} {world : World}

/-! ### Scopes -/

variable (environment config snapshot repoPath calls world) in
theorem run_resolveScopes : ∃ later,
    (resolveScopes config repoPath : RetrievalProgram engine ResolvedScopes).run
      (serveRetrieval environment snapshot) calls world =
        ⟨.ok (environment.resolved config repoPath), later, world⟩ := by
  unfold resolveScopes Environment.resolved
  cases config.dualScope with
  | true => exact ⟨_, rfl⟩
  | false => exact ⟨_, rfl⟩

theorem resolved_degraded_iff :
    (environment.resolved config repoPath).degradedScopes = [] ↔ environment.Resolves config repoPath := by
  unfold Environment.resolved Environment.Resolves
  cases config.dualScope with
  | true => exact degradedScopes_resolveDual.trans ⟨fun both _ => both, fun both => both rfl⟩
  | false => exact ⟨fun _ => nofun, fun _ => rfl⟩

theorem resolved_reasons_iff :
    (environment.resolved config repoPath).reasonCodes = [] ↔
      (environment.resolved config repoPath).degradedScopes = [] := by
  unfold Environment.resolved
  cases config.dualScope with
  | true => exact reasonCodes_resolveDual
  | false => exact Iff.rfl

theorem considered_ne_nil : (environment.resolved config repoPath).scopesConsidered ≠ [] := by
  unfold Environment.resolved
  cases config.dualScope with
  | true => exact scopesConsidered_ne_nil
  | false => exact List.cons_ne_nil _ _

/-- Where both scopes are resolved there is something to search. -/
theorem scopes_ne_nil (resolves : environment.Resolves config repoPath) :
    (environment.resolved config repoPath).scopes ≠ [] := by
  unfold Environment.resolved
  unfold Environment.Resolves at resolves
  cases dual : config.dualScope with
  | true =>
    obtain ⟨scope, found⟩ := Option.isSome_iff_exists.mp (resolves dual).1
    simp [resolveDual, ScopeResolutionOutcome.resolvedScopes, found]
  | false => exact List.cons_ne_nil _ _

/-! ### Searches and degraded outcomes -/

variable (environment snapshot prompt promptEmbedding) in
theorem run_search (scopes : List ScopeDescriptor) (calls : Nat) (world : World) : ∃ results failures later,
    (searchScopesConcurrently prompt promptEmbedding snapshot.graph scopes).run
      (serveRetrieval environment snapshot) calls world = ⟨.ok (results, failures), later, world⟩ ∧
    (failures = [] ↔ ∀ scope ∈ scopes, ∃ candidates,
      environment.search prompt promptEmbedding snapshot.graph scope = .found candidates) ∧
    (results = [] → failures = [] → scopes = []) := by
  induction scopes generalizing calls with
  | nil => exact ⟨[], [], calls, rfl, by simp, fun _ _ => rfl⟩
  | cons scope rest ih =>
    obtain ⟨results, failures, later, ran, succeeded, -⟩ := ih (calls + 1)
    simp only [searchScopesConcurrently, Program.ask_bind, Program.run_call, serveRetrieval,
      Environment.answer]
    cases ended : environment.search prompt promptEmbedding snapshot.graph scope with
    | found candidates =>
      refine ⟨_, failures, later, Program.run_bind_eq_ok.mpr ⟨_, _, _, ran, rfl⟩, ?_, nofun⟩
      simp [succeeded, ended]
    | taskFailed =>
      refine ⟨results, _, later, Program.run_bind_eq_ok.mpr ⟨_, _, _, ran, rfl⟩, ?_, fun _ => nofun⟩
      simp [ended]
    | timedOut =>
      refine ⟨results, _, later, Program.run_bind_eq_ok.mpr ⟨_, _, _, ran, rfl⟩, ?_, fun _ => nofun⟩
      simp [ended]

/-- What a retrieval says about its health. -/
structure Reports (environment : Environment engine) (config : RetrievalConfig)
    (snapshot : GraphSnapshot engine.Graph) (prompt : Str) (repoPath : Option Str)
    (outcome : RetrievalOutcome engine) : Prop where
  version : outcome.graphVersion = snapshot.version
  healthy : outcome.degradedScopes = [] ↔ environment.Healthy config snapshot prompt repoPath
  reason : outcome.degradedScopes ≠ [] → outcome.reasonCodes ≠ []

variable (environment snapshot) in
theorem run_buildDegraded {version : Int} {degraded reasons considered : List Str}
    (named : considered ≠ []) (reasoned : reasons ≠ []) : ∃ outcome later,
    (buildDegradedOutcome version degraded reasons considered : RetrievalProgram engine _).run
      (serveRetrieval environment snapshot) calls world = ⟨.ok outcome, later, world⟩ ∧
    outcome.graphVersion = version ∧ outcome.degradedScopes ≠ [] ∧ outcome.reasonCodes ≠ [] := by
  refine ⟨_, _, rfl, rfl, ?_, mt dedupe_eq_nil.mp reasoned⟩
  dsimp only
  split
  · exact named
  · rename_i some_
    rwa [List.isEmpty_iff] at some_

/-- A degraded outcome of an unhealthy environment is reported. -/
theorem reports_degraded {outcome : RetrievalOutcome engine} (version : outcome.graphVersion = snapshot.version)
    (degraded : outcome.degradedScopes ≠ []) (reasoned : outcome.reasonCodes ≠ [])
    (unhealthy : ¬ environment.Healthy config snapshot prompt repoPath) :
    Reports environment config snapshot prompt repoPath outcome where
  version := version
  healthy := ⟨fun none => absurd none degraded, fun healthy => absurd healthy unhealthy⟩
  reason _ := reasoned

theorem run_retrieveEmbedded (allowed : environment.allows = true)
    (embedded : environment.embedding prompt = .ok promptEmbedding)
    (some_ : (environment.resolved config repoPath).scopes ≠ []) : ∃ outcome later,
    (retrieveEmbedded prompt promptEmbedding snapshot (environment.resolved config repoPath)).run
      (serveRetrieval environment snapshot) calls world = ⟨.ok outcome, later, world⟩ ∧
    Reports environment config snapshot prompt repoPath outcome := by
  obtain ⟨results, failures, later, ran, succeeded, exhausted⟩ :=
    run_search environment snapshot prompt promptEmbedding (environment.resolved config repoPath).scopes calls world
  have healthy : environment.Healthy config snapshot prompt repoPath ↔
      (environment.resolved config repoPath).degradedScopes = [] ∧ failures = [] := by
    rw [resolved_degraded_iff, succeeded]
    constructor
    · intro healthy
      obtain ⟨resolves, -, other, again, found⟩ := healthy
      obtain rfl := Except.ok.inj (embedded.symm.trans again)
      exact ⟨resolves, found⟩
    · intro both
      exact ⟨both.1, allowed, promptEmbedding, embedded, both.2⟩
  have degradedIff : (environment.resolved config repoPath).degradedScopes ++ failures.map Prod.fst = [] ↔
      environment.Healthy config snapshot prompt repoPath := by
    rw [healthy, List.append_eq_nil_iff, List.map_eq_nil_iff]
  have reasonsIff : (environment.resolved config repoPath).reasonCodes ++ failures.map Prod.snd = [] ↔
      environment.Healthy config snapshot prompt repoPath := by
    rw [healthy, List.append_eq_nil_iff, List.map_eq_nil_iff, resolved_reasons_iff]
  cases results with
  | nil =>
    have unhealthy : ¬ environment.Healthy config snapshot prompt repoPath := by
      intro well
      exact some_ (exhausted rfl (healthy.mp well).2)
    obtain ⟨outcome, last, built, version, degraded, reasoned⟩ :=
      run_buildDegraded environment snapshot considered_ne_nil (mt reasonsIff.mp unhealthy)
    refine ⟨outcome, last, ?_, reports_degraded version degraded reasoned unhealthy⟩
    rw [retrieveEmbedded, Program.run_bind, ran]
    exact built
  | cons result results =>
    refine ⟨_, _, Program.run_bind_eq_ok.mpr ⟨_, _, _, ran, rfl⟩, rfl, ?_, ?_⟩
    · exact dedupe_eq_nil.trans degradedIff
    · intro degraded
      apply mt dedupe_eq_nil.mp
      exact mt (fun none => dedupe_eq_nil.mpr (degradedIff.mpr (reasonsIff.mp none))) degraded

/-- A retrieval always ends, changes nothing, and reports the health of its environment. -/
theorem run_retrieve : ∃ outcome later,
    (retrieve config prompt repoPath).run (serveRetrieval environment snapshot) calls world =
      ⟨.ok outcome, later, world⟩ ∧ Reports environment config snapshot prompt repoPath outcome := by
  obtain ⟨start, resolved⟩ := run_resolveScopes environment config snapshot repoPath (calls + 1) world
  have degrades {calls : Nat} {degraded reasons : List Str} (reasoned : reasons ≠ [])
      (unhealthy : ¬ environment.Healthy config snapshot prompt repoPath) : ∃ outcome later,
      (buildDegradedOutcome snapshot.version degraded reasons
        (environment.resolved config repoPath).scopesConsidered).run
        (serveRetrieval environment snapshot) calls world = ⟨.ok outcome, later, world⟩ ∧
      Reports environment config snapshot prompt repoPath outcome := by
    obtain ⟨outcome, later, built, version, degraded, reasoned⟩ :=
      run_buildDegraded environment snapshot considered_ne_nil reasoned
    exact ⟨outcome, later, built, reports_degraded version degraded reasoned unhealthy⟩
  simp only [retrieve, Program.ask_bind, Program.run_call, serveRetrieval, Environment.answer]
  rw [Program.run_bind, resolved]
  dsimp only
  by_cases none : (environment.resolved config repoPath).scopes = []
  · rw [List.isEmpty_iff.mpr none, if_pos rfl]
    have unresolved : ¬ environment.Resolves config repoPath := fun resolves => scopes_ne_nil resolves none
    apply degrades
    · exact mt (fun noReason => resolved_degraded_iff.mp (resolved_reasons_iff.mp noReason)) unresolved
    · exact mt And.left unresolved
  · rw [if_neg (mt List.isEmpty_iff.mp none)]
    simp only [Program.run_call, serveRetrieval, Environment.answer]
    cases allowed : (environment.allows : Bool) with
    | false =>
      apply degrades
      · exact List.append_ne_nil_of_right_ne_nil _ (List.cons_ne_nil _ _)
      · intro healthy
        cases allowed.symm.trans healthy.2.1
    | true =>
      simp only [afterBreaker, Program.ask_bind, Program.run_call, serveRetrieval, Environment.answer]
      cases embedded : environment.embedding prompt with
      | error error =>
        apply degrades
        · exact List.append_ne_nil_of_right_ne_nil _ (List.cons_ne_nil _ _)
        · intro healthy
          obtain ⟨promptEmbedding, found, -⟩ := healthy.2.2
          cases embedded.symm.trans found
      | ok promptEmbedding => exact run_retrieveEmbedded allowed embedded none

end SkillLayer.Retrieval

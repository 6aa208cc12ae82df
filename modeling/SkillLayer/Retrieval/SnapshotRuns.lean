import SkillLayer.Retrieval.Degradation

/-! Retrievals while the served graph is swapped: whatever is served later, the answer is that of
the snapshot at the first call. -/

namespace SkillLayer.Retrieval

open Domain

variable {engine : SearchEngine} {World : Type}

/-- The run of a retrieval in an environment that serves its own snapshot at every call. -/
def serveSwapping (environment : Environment engine) (served : Nat → GraphSnapshot engine.Graph) (calls : Nat)
    (request : RetrievalCall engine) (world : World) : RetrievalAnswer engine request × World :=
  (environment.answer (served calls) request, world)

/-- What the scopes are ranked from when each search succeeds. -/
def foundIn (candidates : ScopeDescriptor → List engine.Candidate) (scopes : List ScopeDescriptor) :
    List (Str × ScopeType × List engine.Candidate) :=
  scopes.map fun scope => (scope.scopeId, scope.scopeType, candidates scope)

/-- The outcome is the ranking of what one snapshot was searched for. -/
structure Ranks (snapshot : GraphSnapshot engine.Graph)
    (found : List (Str × ScopeType × List engine.Candidate)) (outcome : RetrievalOutcome engine) : Prop where
  version : outcome.graphVersion = snapshot.version
  skills : outcome.skills = (engine.rank snapshot.graph found).1
  rescuePool : outcome.rescuePool = (engine.rank snapshot.graph found).2

variable {environment : Environment engine} {served : Nat → GraphSnapshot engine.Graph}
  {config : RetrievalConfig} {snapshot : GraphSnapshot engine.Graph} {prompt : Str} {repoPath : Option Str}
  {promptEmbedding : engine.Vector} {candidates : ScopeDescriptor → List engine.Candidate}

variable (environment served config repoPath) in
theorem run_resolveScopes_swapping (calls : Nat) (world : World) : ∃ later,
    (resolveScopes config repoPath : RetrievalProgram engine ResolvedScopes).run
      (serveSwapping environment served) calls world =
        ⟨.ok (environment.resolved config repoPath), later, world⟩ := by
  unfold resolveScopes Environment.resolved
  cases config.dualScope with
  | true => exact ⟨_, rfl⟩
  | false => exact ⟨_, rfl⟩

variable (served) in
/-- Each scope is searched in the snapshot that was passed on, not in the one that is served. -/
theorem run_search_found (scopes : List ScopeDescriptor)
    (searched : ∀ scope, environment.search prompt promptEmbedding snapshot.graph scope = .found (candidates scope))
    (calls : Nat) (world : World) : ∃ later,
    (searchScopesConcurrently prompt promptEmbedding snapshot.graph scopes).run
      (serveSwapping environment served) calls world = ⟨.ok (foundIn candidates scopes, []), later, world⟩ := by
  induction scopes generalizing calls with
  | nil => exact ⟨calls, rfl⟩
  | cons scope rest ih =>
    obtain ⟨later, ran⟩ := ih (calls + 1)
    simp only [searchScopesConcurrently, Program.ask_bind, Program.run_call, serveSwapping,
      Environment.answer, searched scope]
    exact ⟨later, Program.run_bind_eq_ok.mpr ⟨_, _, _, ran, rfl⟩⟩

variable (served) in
/-- Searching and ranking, for any list of scopes; `quiet` covers the empty one. -/
theorem run_retrieveEmbedded_found (resolved : ResolvedScopes)
    (searched : ∀ scope, environment.search prompt promptEmbedding snapshot.graph scope = .found (candidates scope))
    (quiet : engine.rank snapshot.graph [] = ([], [])) (calls : Nat) (world : World) : ∃ outcome later,
    (retrieveEmbedded prompt promptEmbedding snapshot resolved).run (serveSwapping environment served) calls world =
      ⟨.ok outcome, later, world⟩ ∧ Ranks snapshot (foundIn candidates resolved.scopes) outcome := by
  obtain ⟨later, ran⟩ := run_search_found served resolved.scopes searched calls world
  rw [retrieveEmbedded, Program.run_bind, ran]
  cases foundIn candidates resolved.scopes with
  | nil => exact ⟨_, _, rfl, rfl, (congrArg Prod.fst quiet).symm, (congrArg Prod.snd quiet).symm⟩
  | cons result rest => exact ⟨_, _, rfl, rfl, rfl, rfl⟩

variable (served config repoPath) in
/-- A retrieval whose embedding and searches succeed ranks what the first snapshot was searched for. -/
theorem run_retrieve_found (allowed : environment.allows = true)
    (embedded : environment.embedding prompt = .ok promptEmbedding) {calls : Nat} {world : World}
    (searched : ∀ scope,
      environment.search prompt promptEmbedding (served calls).graph scope = .found (candidates scope))
    (quiet : engine.rank (served calls).graph [] = ([], [])) : ∃ outcome later,
    (retrieve config prompt repoPath).run (serveSwapping environment served) calls world =
      ⟨.ok outcome, later, world⟩ ∧
    Ranks (served calls) (foundIn candidates (environment.resolved config repoPath).scopes) outcome := by
  obtain ⟨start, resolved⟩ := run_resolveScopes_swapping environment served config repoPath (calls + 1) world
  simp only [retrieve, Program.ask_bind, Program.run_call, serveSwapping, Environment.answer]
  rw [Program.run_bind, resolved]
  dsimp only
  by_cases none : (environment.resolved config repoPath).scopes = []
  · rw [List.isEmpty_iff.mpr none, if_pos rfl, none]
    exact ⟨_, _, rfl, rfl, (congrArg Prod.fst quiet).symm, (congrArg Prod.snd quiet).symm⟩
  · rw [if_neg (mt List.isEmpty_iff.mp none)]
    simp only [Program.run_call, serveSwapping, Environment.answer, allowed, afterBreaker, Program.ask_bind, embedded,
      afterEmbedding]
    exact run_retrieveEmbedded_found served _ searched quiet _ world

/-! ### Retrievals in which calls may fail -/

/-- The result of a scope whose search succeeds. -/
def foundResult (environment : Environment engine) (snapshot : GraphSnapshot engine.Graph) (prompt : Str)
    (promptEmbedding : engine.Vector) (scope : ScopeDescriptor) : Option (Str × ScopeType × List engine.Candidate) :=
  (splitResult scope (environment.search prompt promptEmbedding snapshot.graph scope)).getLeft?

/-- What is ranked: nothing without an embedding, and otherwise what the searches find that succeed. -/
def rankedResults (environment : Environment engine) (snapshot : GraphSnapshot engine.Graph) (prompt : Str)
    (scopes : List ScopeDescriptor) : List (Str × ScopeType × List engine.Candidate) :=
  if environment.allows then
    match environment.embedding prompt with
    | .ok promptEmbedding => scopes.filterMap (foundResult environment snapshot prompt promptEmbedding)
    | .error _ => []
  else []

variable (environment served snapshot prompt promptEmbedding) in
theorem run_search_results (scopes : List ScopeDescriptor) (calls : Nat) (world : World) : ∃ failures later,
    (searchScopesConcurrently prompt promptEmbedding snapshot.graph scopes).run
      (serveSwapping environment served) calls world =
        ⟨.ok (scopes.filterMap (foundResult environment snapshot prompt promptEmbedding), failures), later, world⟩ := by
  induction scopes generalizing calls with
  | nil => exact ⟨[], calls, rfl⟩
  | cons scope rest ih =>
    obtain ⟨failures, later, ran⟩ := ih (calls + 1)
    simp only [searchScopesConcurrently, Program.ask_bind, Program.run_call, serveSwapping, Environment.answer,
      List.filterMap_cons, foundResult]
    cases splitResult scope (environment.search prompt promptEmbedding snapshot.graph scope) with
    | inl result => exact ⟨failures, later, Program.run_bind_eq_ok.mpr ⟨_, _, _, ran, rfl⟩⟩
    | inr failure => exact ⟨failure :: failures, later, Program.run_bind_eq_ok.mpr ⟨_, _, _, ran, rfl⟩⟩

/-- The skills and cues of an outcome are those ranked from these results. -/
def Shows (snapshot : GraphSnapshot engine.Graph) (results : List (Str × ScopeType × List engine.Candidate))
    (outcome : RetrievalOutcome engine) : Prop :=
  outcome.skills = (engine.rank snapshot.graph results).1 ∧ outcome.rescuePool = (engine.rank snapshot.graph results).2

theorem run_buildDegraded_shows (quiet : engine.rank snapshot.graph [] = ([], []))
    {version : Int} {degraded reasons considered : List Str} (calls : Nat) (world : World) : ∃ outcome later,
    (buildDegradedOutcome version degraded reasons considered : RetrievalProgram engine _).run
      (serveSwapping environment served) calls world = ⟨.ok outcome, later, world⟩ ∧ Shows snapshot [] outcome :=
  ⟨_, _, rfl, (congrArg Prod.fst quiet).symm, (congrArg Prod.snd quiet).symm⟩

variable (environment served) in
theorem run_retrieveEmbedded_shows (quiet : engine.rank snapshot.graph [] = ([], [])) (resolved : ResolvedScopes)
    (calls : Nat) (world : World) : ∃ outcome later,
    (retrieveEmbedded prompt promptEmbedding snapshot resolved).run (serveSwapping environment served) calls world =
      ⟨.ok outcome, later, world⟩ ∧
    Shows snapshot (resolved.scopes.filterMap (foundResult environment snapshot prompt promptEmbedding)) outcome := by
  obtain ⟨failures, later, ran⟩ :=
    run_search_results environment served snapshot prompt promptEmbedding resolved.scopes calls world
  rw [retrieveEmbedded, Program.run_bind, ran]
  cases resolved.scopes.filterMap (foundResult environment snapshot prompt promptEmbedding) with
  | nil => exact run_buildDegraded_shows quiet _ world
  | cons result rest => exact ⟨_, _, rfl, rfl, rfl⟩

/-- A retrieval shows what its searches find, or nothing, whatever fails on its way. -/
theorem run_retrieve_shows (environment : Environment engine) (served : Nat → GraphSnapshot engine.Graph)
    (config : RetrievalConfig) (prompt : Str) (repoPath : Option Str) (calls : Nat) (world : World)
    (quiet : engine.rank (served calls).graph [] = ([], [])) : ∃ outcome later,
    (retrieve config prompt repoPath).run (serveSwapping environment served) calls world =
      ⟨.ok outcome, later, world⟩ ∧
    Shows (served calls) (rankedResults environment (served calls) prompt (environment.resolved config repoPath).scopes)
      outcome := by
  obtain ⟨start, resolved⟩ := run_resolveScopes_swapping environment served config repoPath (calls + 1) world
  simp only [retrieve, Program.ask_bind, Program.run_call, serveSwapping, Environment.answer]
  rw [Program.run_bind, resolved]
  dsimp only
  by_cases none : (environment.resolved config repoPath).scopes = []
  · rw [List.isEmpty_iff.mpr none, if_pos rfl, none]
    have nothing : rankedResults environment (served calls) prompt [] = [] := by
      unfold rankedResults
      split
      · split <;> rfl
      · rfl
    rw [nothing]
    exact run_buildDegraded_shows quiet _ world
  · rw [if_neg (mt List.isEmpty_iff.mp none)]
    simp only [Program.run_call, serveSwapping, Environment.answer, rankedResults]
    cases environment.allows with
    | false => exact run_buildDegraded_shows quiet _ world
    | true =>
      simp only [afterBreaker, Program.ask_bind, Program.run_call, serveSwapping, Environment.answer]
      cases environment.embedding prompt with
      | error error => exact run_buildDegraded_shows quiet _ world
      | ok promptEmbedding => exact run_retrieveEmbedded_shows environment served quiet _ _ world

end SkillLayer.Retrieval

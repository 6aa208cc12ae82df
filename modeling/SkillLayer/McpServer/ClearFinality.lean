import SkillLayer.McpServer.SuppressionThreads

/-! When a cleared session stays cleared: no thread of the session carries an entry across the
clear, and the deletion in Redis succeeds. -/

namespace SkillLayer.McpServer

open SuppressionStage
open scoped List

/-! ### The condition -/

section Condition

variable (layer : RedisLayer SuppressionEntry) (session : Str) (trace : List SuppressionMoment) (id : Nat)

def LooksUp : Prop :=
  ∃ sessionId repoPath, .started id (.lookup sessionId repoPath) ∈ trace ∧ Str.trim sessionId = session

def Records : Prop :=
  ∃ sessionId repoPath graphVersion scopesConsidered,
    .started id (.record sessionId repoPath graphVersion scopesConsidered) ∈ trace ∧ Str.trim sessionId = session

def Clears : Prop := ∃ sessionId, .started id (.clear sessionId) ∈ trace ∧ Str.trim sessionId = session

/-- A record of the session was started after the clear of it. -/
def Reopened : Prop := ∃ before after clear record, trace = before ++ after ∧ Clears session before clear ∧
  Records session after record

/-- A lookup has read an entry from Redis. -/
def Fetched : Prop := ∃ key answer entry, .called id (.redis (.get key)) answer ∈ trace ∧
  fetched layer answer = some entry

/-- A thread of the session has an entry that it has not indexed yet. -/
def Carrying : Prop := (Records session trace id ∨ (LooksUp session trace id ∧ Fetched layer trace id)) ∧
  ∀ key, .called id (.maps (.index session key)) () ∉ trace

/-- A record of the session has not written to Redis yet. -/
def Unsaved : Prop := Records session trace id ∧
  ∀ key value ttlSecs answer, .called id (.redis (.setEx key value ttlSecs)) answer ∉ trace

/-- The local removal of the session has begun. -/
def Unindexed : Prop := ∃ id keys, .called id (.maps (.unindex session)) keys ∈ trace

/-- A clear is between its local removal and its end. -/
def Clearing : Prop := ∃ id keys, .called id (.maps (.unindex session)) keys ∈ trace ∧ .returned id .cleared ∉ trace

/-- What may happen next: no other session has keys of this one; nobody carries an entry of
the session into the clear, or fetches one during it; and the calls of the clear succeed. -/
def CalmStep : SuppressionMoment → Prop
  | .started _ (.lookup sessionId repoPath) =>
    Str.trim sessionId ≠ session → ¬Own session (localKey sessionId repoPath)
  | .started _ (.record sessionId repoPath _ _) =>
    Str.trim sessionId ≠ session → ¬Own session (localKey sessionId repoPath)
  | .called _ (.maps (.unindex other)) _ => other = session → ∀ id, ¬Carrying layer session trace id
  | .called id (.redis (.get _)) answer =>
    LooksUp session trace id → Clearing session trace → fetched layer answer = none
  | .called id (.redis (.scanBegin _)) answer =>
    Clears session trace id → answer = .ok () ∧ ∀ id, ¬Unsaved session trace id
  | .called id (.redis (.scanEnd _)) answer => Clears session trace id → ∃ keys, answer = .ok keys
  | .called id (.redis (.del _)) answer => Clears session trace id → answer = .ok ()
  | _ => True

/-- A run that met the condition at every step, until the session was reopened if it was. -/
def Calm : Prop := ∀ before moment, before ++ [moment] <+: trace →
  Reopened session before ∨ CalmStep layer session before moment

end Condition

variable {layer : RedisLayer SuppressionEntry} {keyPrefix session : Str} {trace later : List SuppressionMoment}
  {id : Nat} {stage : SuppressionStage}

theorem LooksUp.mono (grown : trace ⊆ later) (looks : LooksUp session trace id) : LooksUp session later id := by
  obtain ⟨sessionId, repoPath, started, same⟩ := looks
  exact ⟨sessionId, repoPath, grown started, same⟩

theorem Records.mono (grown : trace ⊆ later) (records : Records session trace id) : Records session later id := by
  obtain ⟨sessionId, repoPath, graphVersion, scopesConsidered, started, same⟩ := records
  exact ⟨sessionId, repoPath, graphVersion, scopesConsidered, grown started, same⟩

theorem Clears.mono (grown : trace ⊆ later) (clears : Clears session trace id) : Clears session later id := by
  obtain ⟨sessionId, started, same⟩ := clears
  exact ⟨sessionId, grown started, same⟩

theorem Fetched.mono (grown : trace ⊆ later) (read : Fetched layer trace id) : Fetched layer later id := by
  obtain ⟨key, answer, entry, called, parsed⟩ := read
  exact ⟨key, answer, entry, grown called, parsed⟩

theorem Reopened.append (reopened : Reopened session trace) (more : List SuppressionMoment) :
    Reopened session (trace ++ more) := by
  obtain ⟨before, after, clear, record, rfl, clears, records⟩ := reopened
  exact ⟨before, after ++ more, clear, record, List.append_assoc .., clears,
    records.mono (List.subset_append_left ..)⟩

theorem Calm.before {moment : SuppressionMoment} (calm : Calm layer session (trace ++ [moment])) :
    Calm layer session trace :=
  fun before next begins => calm before next (begins.trans (List.prefix_append ..))

/-- Every step of a calm run that does not reopen the session met the condition. -/
theorem Calm.met {before after : List SuppressionMoment} {moment : SuppressionMoment}
    (calm : Calm layer session (before ++ moment :: after))
    (closed : ¬Reopened session (before ++ moment :: after)) : CalmStep layer session before moment := by
  rcases calm before moment ⟨after, by simp⟩ with reopened | met
  · exact absurd (reopened.append _) closed
  · exact met

/-- The keys of a thread of another session are not those of this one. -/
theorem Calm.sessions (calm : Calm layer session trace) (closed : ¬Reopened session trace) {sessionId repoPath : Str}
    (own : Own session (localKey sessionId repoPath))
    (started : .started id (.lookup sessionId repoPath) ∈ trace ∨
      ∃ graphVersion scopesConsidered,
        .started id (.record sessionId repoPath graphVersion scopesConsidered) ∈ trace) :
    Str.trim sessionId = session := by
  by_contra apart
  rcases started with started | ⟨graphVersion, scopesConsidered, started⟩
  · obtain ⟨before, after, rfl⟩ := List.append_of_mem started
    exact calm.met closed apart own
  · obtain ⟨before, after, rfl⟩ := List.append_of_mem started
    exact calm.met closed apart own

/-! ### What a stage says of the thread -/

/-- The thread has an entry of this key that it has not indexed yet. -/
def Carries (layer : RedisLayer SuppressionEntry) (trace : List SuppressionMoment) (id : Nat) (recording : Bool)
    (sessionId repoPath : Str) : Prop :=
  if recording then ∃ graphVersion scopesConsidered,
    .started id (.record sessionId repoPath graphVersion scopesConsidered) ∈ trace
  else .started id (.lookup sessionId repoPath) ∈ trace ∧ Fetched layer trace id

def NotIndexed (trace : List SuppressionMoment) (id : Nat) : Prop :=
  ∀ session key, .called id (.maps (.index session key)) () ∉ trace

def NotSaved (trace : List SuppressionMoment) (id : Nat) : Prop :=
  ∀ key value ttlSecs answer, .called id (.redis (.setEx key value ttlSecs)) answer ∉ trace

def UnindexedBy (trace : List SuppressionMoment) (id : Nat) (sessionId : Str) : Prop :=
  .started id (.clear sessionId) ∈ trace ∧
    ∃ keys, .called id (.maps (.unindex (Str.trim sessionId))) keys ∈ trace

namespace SuppressionStage

def Fits (layer : RedisLayer SuppressionEntry) (trace : List SuppressionMoment) (id : Nat) : SuppressionStage → Prop
  | .unstarted => True
  | .looking sessionId repoPath => .started id (.lookup sessionId repoPath) ∈ trace ∧ NotIndexed trace id
  | .missed sessionId repoPath => .started id (.lookup sessionId repoPath) ∈ trace ∧ NotIndexed trace id
  | .nothing => ∃ task, .started id task ∈ trace
  | .found => ∃ task, .started id task ∈ trace
  | .saved => ∃ task, .started id task ∈ trace
  | .bringing recording sessionId repoPath => Carries layer trace id recording sessionId repoPath ∧
    NotIndexed trace id ∧ (recording = true → NotSaved trace id)
  | .inserted recording sessionId repoPath => Carries layer trace id recording sessionId repoPath ∧
    NotIndexed trace id ∧ (recording = true → NotSaved trace id)
  | .saving sessionId repoPath => Carries layer trace id true sessionId repoPath ∧ NotSaved trace id
  | .clearing sessionId => .started id (.clear sessionId) ∈ trace
  | .evicting sessionId _ => UnindexedBy trace id sessionId
  | .listing sessionId => UnindexedBy trace id sessionId
  | .deleting sessionId _ => UnindexedBy trace id sessionId
  | .swept sessionId => UnindexedBy trace id sessionId
  | .abandoned sessionId => UnindexedBy trace id sessionId

end SuppressionStage

theorem Carries.mono (grown : trace ⊆ later) {recording : Bool} {sessionId repoPath : Str}
    (carries : Carries layer trace id recording sessionId repoPath) :
    Carries layer later id recording sessionId repoPath := by
  cases recording with
  | true =>
    obtain ⟨graphVersion, scopesConsidered, started⟩ := carries
    exact ⟨graphVersion, scopesConsidered, grown started⟩
  | false => exact ⟨grown carries.1, carries.2.mono grown⟩

theorem Carries.started {recording : Bool} {sessionId repoPath : Str}
    (carries : Carries layer trace id recording sessionId repoPath) : ∃ task, .started id task ∈ trace := by
  cases recording with
  | true =>
    obtain ⟨graphVersion, scopesConsidered, started⟩ := carries
    exact ⟨_, started⟩
  | false => exact ⟨_, carries.1⟩

theorem UnindexedBy.mono (grown : trace ⊆ later) {sessionId : Str} (unindexed : UnindexedBy trace id sessionId) :
    UnindexedBy later id sessionId := by
  obtain ⟨started, keys, called⟩ := unindexed
  exact ⟨grown started, keys, grown called⟩

/-- What a thread has done stays as it was when only others move. -/
theorem SuppressionStage.Fits.mono (fits : stage.Fits layer trace id) (grown : trace ⊆ later)
    (others : ∀ call answer, .called id call answer ∈ later → .called id call answer ∈ trace) :
    stage.Fits layer later id := by
  have notIndexed (none : NotIndexed trace id) : NotIndexed later id :=
    fun session key called => none session key (others _ _ called)
  have notSaved (none : NotSaved trace id) : NotSaved later id :=
    fun key value ttlSecs answer called => none key value ttlSecs answer (others _ _ called)
  cases stage with
  | unstarted => trivial
  | looking sessionId repoPath => exact ⟨grown fits.1, notIndexed fits.2⟩
  | missed sessionId repoPath => exact ⟨grown fits.1, notIndexed fits.2⟩
  | nothing | found | saved =>
    obtain ⟨task, started⟩ := fits
    exact ⟨task, grown started⟩
  | bringing recording sessionId repoPath =>
    exact ⟨fits.1.mono grown, notIndexed fits.2.1, fun recorded => notSaved (fits.2.2 recorded)⟩
  | inserted recording sessionId repoPath =>
    exact ⟨fits.1.mono grown, notIndexed fits.2.1, fun recorded => notSaved (fits.2.2 recorded)⟩
  | saving sessionId repoPath => exact ⟨fits.1.mono grown, notSaved fits.2⟩
  | clearing sessionId => exact grown fits
  | evicting | listing | deleting | swept | abandoned => exact UnindexedBy.mono grown fits

theorem SuppressionStage.Fits.started (fits : stage.Fits layer trace id) (some : stage ≠ .unstarted) :
    ∃ task, .started id task ∈ trace := by
  cases stage with
  | unstarted => exact absurd rfl some
  | looking | missed => exact ⟨_, fits.1⟩
  | nothing | found | saved => exact fits
  | bringing | inserted | saving => exact fits.1.started
  | clearing => exact ⟨_, fits⟩
  | evicting | listing | deleting | swept | abandoned => exact ⟨_, fits.1⟩

theorem fits_opening (task : SuppressionTask) (started : .started id task ∈ trace)
    (nothing : ∀ call answer, .called id call answer ∉ trace) : (opening task).Fits layer trace id := by
  cases task with
  | lookup sessionId repoPath => exact ⟨started, fun _ _ => nothing _ _⟩
  | record sessionId repoPath graphVersion scopesConsidered =>
    exact ⟨⟨graphVersion, scopesConsidered, started⟩, fun _ _ => nothing _ _, fun _ _ _ _ _ => nothing _ _⟩
  | clear sessionId => exact started

/-- A call that a stage allows leads to a stage that fits what has happened then. -/
theorem SuppressionStage.Fits.after (fits : stage.Fits layer trace id) {call : SuppressionCall}
    (allowed : stage.Allows layer keyPrefix call) (answer : SuppressionAnswer call) :
    ((discipline layer keyPrefix).after stage call answer).Fits layer (trace ++ [.called id call answer]) id := by
  have now : .called id call answer ∈ trace ++ [.called id call answer] := by simp
  have grown : trace ⊆ trace ++ [.called id call answer] := List.subset_append_left ..
  have notIndexed (apart : ∀ session key, call ≠ .maps (.index session key)) (none : NotIndexed trace id) :
      NotIndexed (trace ++ [.called id call answer]) id := by
    intro session key member
    rcases List.mem_append.mp member with old | last
    · exact none session key old
    · cases List.mem_singleton.mp last
      exact apart session key rfl
  have notSaved (apart : ∀ key value ttlSecs, call ≠ .redis (.setEx key value ttlSecs)) (none : NotSaved trace id) :
      NotSaved (trace ++ [.called id call answer]) id := by
    intro key value ttlSecs given member
    rcases List.mem_append.mp member with old | last
    · exact none key value ttlSecs given old
    · cases List.mem_singleton.mp last
      exact apart key value ttlSecs rfl
  cases allowed with
  | look sessionId repoPath =>
    cases answer with
    | some entry => exact ⟨_, grown fits.1⟩
    | none => exact ⟨grown fits.1, notIndexed (by simp) fits.2⟩
  | fetch sessionId repoPath client =>
    cases parsed : fetched layer answer with
    | some entry =>
      simp only [discipline, parsed]
      exact ⟨⟨grown fits.1, _, answer, entry, now, parsed⟩, notIndexed (by simp) fits.2, by simp⟩
    | none =>
      simp only [discipline, parsed]
      exact ⟨_, grown fits.1⟩
  | insert recording sessionId repoPath entry =>
    exact ⟨fits.1.mono grown, notIndexed (by simp) fits.2.1, fun recorded => notSaved (by simp) (fits.2.2 recorded)⟩
  | index recording sessionId repoPath =>
    cases recording with
    | true => exact ⟨fits.1.mono grown, notSaved (by simp) (fits.2.2 rfl)⟩
    | false => exact (fits.1.mono grown).started
  | save sessionId repoPath value ttlSecs => exact (fits.1.mono grown).started
  | unindex sessionId => exact ⟨grown fits, _, now⟩
  | evict sessionId key keys => exact UnindexedBy.mono grown fits
  | scan sessionId => cases answer <;> exact UnindexedBy.mono grown fits
  | list sessionId => cases answer <;> exact UnindexedBy.mono grown fits
  | delete sessionId keys => cases answer <;> exact UnindexedBy.mono grown fits

/-! ### What the stages of all threads say -/

abbrev SuppressionLedgers := Nat → SuppressionStage

structure Staged (layer : RedisLayer SuppressionEntry) (keyPrefix : Str) (pool : SuppressionPool)
    (ledgers : SuppressionLedgers) : Prop where
  reached : (suppressionThreads layer keyPrefix).runs.Reachable pool
  fits : ∀ id, (ledgers id).Fits layer pool.trace id
  ended : ∀ id result, .returned id result ∈ pool.trace →
    ∃ task, .started id task ∈ pool.trace ∧ ends layer task (ledgers id) result
  alone : ∀ one two oneSession twoSession, .started one (.clear oneSession) ∈ pool.trace →
    .started two (.clear twoSession) ∈ pool.trace → Str.trim oneSession = Str.trim twoSession → one = two
  unindexes : ∀ id session keys, .called id (.maps (.unindex session)) keys ∈ pool.trace →
    Clears session pool.trace id

variable {pool : SuppressionPool} {ledgers : SuppressionLedgers} {task : SuppressionTask}

theorem Staged.start (staged : Staged layer keyPrefix pool ledgers) (fresh : pool.Fresh id)
    (may : (suppressionThreads layer keyPrefix).mayStart pool task) :
    Staged layer keyPrefix (pool.start id task (task.program layer keyPrefix))
      (Function.update ledgers id (opening task)) := by
  have grown : pool.trace ⊆ pool.trace ++ [.started id task] := List.subset_append_left ..
  have apart {other : Nat} {task : SuppressionTask} (started : .started other task ∈ pool.trace) : other ≠ id := by
    rintro rfl
    exact fresh.2 task started
  have quiet (call : SuppressionCall) (answer : SuppressionAnswer call) :
      .called id call answer ∉ pool.trace ++ [.started id task] := by
    intro member
    rcases List.mem_append.mp member with old | last
    · obtain ⟨other, started⟩ := Threads.moved_started staged.reached old (.inl ⟨call, answer, rfl⟩)
      exact apart started rfl
    · cases List.mem_singleton.mp last
  refine ⟨staged.reached.next (.started id task fresh may), ?_, ?_, ?_, ?_⟩
  · intro other
    by_cases same : other = id
    · subst same
      rw [Function.update_self]
      exact fits_opening task (by simp) quiet
    · rw [Function.update_of_ne same]
      apply (staged.fits other).mono grown
      intro call answer member
      rcases List.mem_append.mp member with old | last
      · exact old
      · cases List.mem_singleton.mp last
  · intro other result member
    rcases List.mem_append.mp member with old | last
    · obtain ⟨before, started, ended⟩ := staged.ended other result old
      exact ⟨before, grown started, by rwa [Function.update_of_ne (apart started)]⟩
    · cases List.mem_singleton.mp last
  · intro one two oneSession twoSession oneStarted twoStarted same
    rw [Pool.trace_start, List.mem_append, List.mem_singleton] at oneStarted twoStarted
    rcases oneStarted with oneStarted | oneStarted
    · rcases twoStarted with twoStarted | twoStarted
      · exact staged.alone one two oneSession twoSession oneStarted twoStarted same
      · cases twoStarted
        exact absurd same (may one oneSession oneStarted)
    · cases oneStarted
      rcases twoStarted with twoStarted | twoStarted
      · exact absurd same.symm (may two twoSession twoStarted)
      · cases twoStarted
        rfl
  · intro other session keys member
    rcases List.mem_append.mp member with old | last
    · exact (staged.unindexes other session keys old).mono grown
    · cases List.mem_singleton.mp last

theorem Staged.answer (staged : Staged layer keyPrefix pool ledgers) {call : SuppressionCall}
    {next : SuppressionAnswer call → SuppressionProgram SuppressionResult} {answer : SuppressionAnswer call}
    {world : SuppressionWorld} (here : pool.running id = some (task, .call call next))
    (allowed : (ledgers id).Allows layer keyPrefix call) (answered : SuppressionAnswers id call pool.world answer world) :
    Staged layer keyPrefix (pool.answer id task call answer (next answer) world)
      (Function.update ledgers id ((discipline layer keyPrefix).after (ledgers id) call answer)) := by
  have grown : pool.trace ⊆ pool.trace ++ [.called id call answer] := List.subset_append_left ..
  have started {other : Nat} {task : SuppressionTask}
      (member : .started other task ∈ pool.trace ++ [.called id call answer]) :
      .started other task ∈ pool.trace := by
    rcases List.mem_append.mp member with old | last
    · exact old
    · cases List.mem_singleton.mp last
  refine ⟨staged.reached.next (.called id here answered), ?_, ?_, ?_, ?_⟩
  · intro other
    by_cases same : other = id
    · subst same
      rw [Function.update_self]
      exact (staged.fits other).after allowed answer
    · rw [Function.update_of_ne same]
      apply (staged.fits other).mono grown
      intro otherCall given member
      rcases List.mem_append.mp member with old | last
      · exact old
      · cases List.mem_singleton.mp last
        exact absurd rfl same
  · intro other result member
    rcases List.mem_append.mp member with old | last
    · obtain ⟨before, began, ended⟩ := staged.ended other result old
      have apart : other ≠ id := by
        rintro rfl
        cases (Threads.returned_idle staged.reached old).symm.trans here
      exact ⟨before, grown began, by rwa [Function.update_of_ne apart]⟩
    · cases List.mem_singleton.mp last
  · intro one two oneSession twoSession oneStarted twoStarted
    exact staged.alone one two oneSession twoSession (started oneStarted) (started twoStarted)
  · intro other session keys member
    rcases List.mem_append.mp member with old | last
    · exact (staged.unindexes other session keys old).mono grown
    · cases List.mem_singleton.mp last
      have fits := staged.fits id
      obtain ⟨stage, now⟩ : ∃ stage, ledgers id = stage := ⟨_, rfl⟩
      rw [now] at allowed fits
      cases allowed with
      | unindex sessionId => exact ⟨sessionId, grown fits, rfl⟩

theorem Staged.finish (staged : Staged layer keyPrefix pool ledgers) {result : SuppressionResult}
    (here : pool.running id = some (task, .done result)) (ended : ends layer task (ledgers id) result) :
    Staged layer keyPrefix (pool.finish id result) ledgers := by
  have grown : pool.trace ⊆ pool.trace ++ [.returned id result] := List.subset_append_left ..
  have started {other : Nat} {task : SuppressionTask}
      (member : .started other task ∈ pool.trace ++ [.returned id result]) :
      .started other task ∈ pool.trace := by
    rcases List.mem_append.mp member with old | last
    · exact old
    · cases List.mem_singleton.mp last
  refine ⟨staged.reached.next (.returned id here), ?_, ?_, ?_, ?_⟩
  · intro other
    apply (staged.fits other).mono grown
    intro call answer member
    rcases List.mem_append.mp member with old | last
    · exact old
    · cases List.mem_singleton.mp last
  · intro other value member
    rcases List.mem_append.mp member with old | last
    · obtain ⟨before, began, endedThen⟩ := staged.ended other value old
      exact ⟨before, grown began, endedThen⟩
    · cases List.mem_singleton.mp last
      exact ⟨task, grown (Threads.running_started staged.reached here), ended⟩
  · intro one two oneSession twoSession oneStarted twoStarted
    exact staged.alone one two oneSession twoSession (started oneStarted) (started twoStarted)
  · intro other session keys member
    rcases List.mem_append.mp member with old | last
    · exact (staged.unindexes other session keys old).mono grown
    · cases List.mem_singleton.mp last

/-! ### What the local maps hold -/

structure LocalSeal (session : Str) (pool : SuppressionPool) (ledgers : SuppressionLedgers) : Prop where
  covered : ¬Unindexed session pool.trace → ∀ key, Own session key → pool.world.maps.inner key ≠ none →
    key ∈ pool.world.maps.indexed session ∨
      ∃ id recording sessionId repoPath, ledgers id = .inserted recording sessionId repoPath ∧
        localKey sessionId repoPath = key
  removing : Unindexed session pool.trace → ∀ key, Own session key → pool.world.maps.inner key ≠ none →
    ∃ id sessionId keys, ledgers id = .evicting sessionId keys ∧ Str.trim sessionId = session ∧ key ∈ keys
  quiet : Unindexed session pool.trace → ∀ id recording sessionId repoPath,
    ledgers id = .bringing recording sessionId repoPath ∨ ledgers id = .inserted recording sessionId repoPath →
    Str.trim sessionId ≠ session

/-- A step that adds no keys, and that of no thread about to index. -/
theorem LocalSeal.frame (closed : LocalSeal session pool ledgers) {after : SuppressionPool}
    (inner : ∀ key, Own session key → after.world.maps.inner key ≠ none → pool.world.maps.inner key ≠ none)
    (index : ∀ key, key ∈ pool.world.maps.indexed session → key ∈ after.world.maps.indexed session)
    (unindexed : Unindexed session after.trace ↔ Unindexed session pool.trace)
    (inserted : ∀ recording sessionId repoPath, ledgers id ≠ .inserted recording sessionId repoPath)
    (evicting : ∀ sessionId keys key, ledgers id = .evicting sessionId keys → key ∈ keys →
      after.world.maps.inner key ≠ none → ∃ rest, stage = .evicting sessionId rest ∧ key ∈ rest)
    (quiet : Unindexed session pool.trace → ∀ recording sessionId repoPath,
      stage = .bringing recording sessionId repoPath ∨ stage = .inserted recording sessionId repoPath →
      Str.trim sessionId ≠ session) : LocalSeal session after (Function.update ledgers id stage) where
  covered indexed key own present := by
    rcases closed.covered (fun begun => indexed (unindexed.mpr begun)) key own (inner key own present) with
      listed | ⟨other, recording, sessionId, repoPath, now, same⟩
    · exact .inl (index key listed)
    · exact .inr ⟨other, recording, sessionId, repoPath,
        Threads.ledger_kept (inserted recording sessionId repoPath) now, same⟩
  removing begun key own present := by
    obtain ⟨other, sessionId, keys, now, same, member⟩ :=
      closed.removing (unindexed.mp begun) key own (inner key own present)
    by_cases mine : other = id
    · subst mine
      obtain ⟨rest, stays, still⟩ := evicting sessionId keys key now member present
      exact ⟨other, sessionId, rest, by rw [Function.update_self, stays], same, still⟩
    · exact ⟨other, sessionId, keys, by rw [Function.update_of_ne mine, now], same, member⟩
  quiet begun other recording sessionId repoPath now := by
    by_cases mine : other = id
    · subst mine
      rw [Function.update_self] at now
      exact quiet (unindexed.mp begun) recording sessionId repoPath now
    · rw [Function.update_of_ne mine] at now
      exact closed.quiet (unindexed.mp begun) other recording sessionId repoPath now

theorem unindexed_append {moment : SuppressionMoment}
    (other : ∀ id keys, moment ≠ .called id (.maps (.unindex session)) keys) :
    Unindexed session (trace ++ [moment]) ↔ Unindexed session trace := by
  constructor
  · intro begun
    obtain ⟨id, keys, member⟩ := begun
    rcases List.mem_append.mp member with old | last
    · exact ⟨id, keys, old⟩
    · exact absurd (List.mem_singleton.mp last).symm (other id keys)
  · intro begun
    obtain ⟨id, keys, member⟩ := begun
    exact ⟨id, keys, List.mem_append_left _ member⟩

theorem Carries.belongs {recording : Bool} {sessionId repoPath : Str}
    (carries : Carries layer trace id recording sessionId repoPath) (calm : Calm layer session trace)
    (kept : ¬Reopened session trace) (own : Own session (localKey sessionId repoPath)) :
    Str.trim sessionId = session := by
  cases recording with
  | true => exact calm.sessions kept own (.inr carries)
  | false => exact calm.sessions kept own (.inl carries.1)

theorem Carries.carrying {recording : Bool} {sessionId repoPath : Str}
    (carries : Carries layer trace id recording sessionId repoPath) (none : NotIndexed trace id)
    (same : Str.trim sessionId = session) : Carrying layer session trace id := by
  refine ⟨?_, fun key => none session key⟩
  cases recording with
  | true =>
    obtain ⟨graphVersion, scopesConsidered, started⟩ := carries
    exact .inl ⟨sessionId, repoPath, graphVersion, scopesConsidered, started, same⟩
  | false => exact .inr ⟨⟨sessionId, repoPath, carries.1, same⟩, carries.2⟩

section Steps

variable {call : SuppressionCall} {answer : SuppressionAnswer call} {world : SuppressionWorld}
  {rest : SuppressionProgram SuppressionResult}

/-- The clear of the session takes all keys of it, when nobody carries one. -/
theorem LocalSeal.unindex (closed : LocalSeal session pool ledgers) (staged : Staged layer keyPrefix pool ledgers)
    (calm : Calm layer session pool.trace) (kept : ¬Reopened session pool.trace) {sessionId : Str}
    {keys : Option (List Str)} (now : ledgers id = .clearing sessionId)
    (nobody : Str.trim sessionId = session → ∀ id, ¬Carrying layer session pool.trace id)
    (all : ∀ key, key ∈ keys.getD [] ↔ key ∈ pool.world.maps.indexed (Str.trim sessionId))
    (maps : world.maps = pool.world.maps.unindex (Str.trim sessionId)) :
    LocalSeal session (pool.answer id task (.maps (.unindex (Str.trim sessionId))) keys rest world)
      (Function.update ledgers id (.evicting sessionId (keys.getD []))) := by
  by_cases mine : Str.trim sessionId = session
  · have bearers (other : Nat) (recording : Bool) (otherSession repoPath : Str)
        (stage : ledgers other = .bringing recording otherSession repoPath ∨
          ledgers other = .inserted recording otherSession repoPath) : Str.trim otherSession ≠ session := by
      intro same
      have fits := staged.fits other
      rcases stage with stage | stage
      · rw [stage] at fits
        exact nobody mine other (fits.1.carrying fits.2.1 same)
      · rw [stage] at fits
        exact nobody mine other (fits.1.carrying fits.2.1 same)
    constructor
    · intro notBegun
      exact absurd ⟨id, keys, by simp [mine]⟩ notBegun
    · intro _ key own present
      have there : pool.world.maps.inner key ≠ none := by
        rwa [Pool.world_answer, maps, SessionMaps.inner_unindex] at present
      by_cases begun : Unindexed session pool.trace
      · obtain ⟨other, otherSession, held, stage, same, member⟩ := closed.removing begun key own there
        exact ⟨other, otherSession, held, Threads.ledger_kept (by simp [now]) stage, same, member⟩
      · refine ⟨id, sessionId, keys.getD [], Function.update_self .., mine, (all key).mpr ?_⟩
        rcases closed.covered begun key own there with listed | ⟨other, recording, otherSession, repoPath, stage, rfl⟩
        · rwa [mine]
        · have fits := staged.fits other
          rw [stage] at fits
          exact absurd (fits.1.belongs calm kept own) (bearers other recording otherSession repoPath (.inr stage))
    · intro _ other recording otherSession repoPath stage
      have apart : other ≠ id := by
        rintro rfl
        rw [Function.update_self] at stage
        rcases stage with stage | stage <;> cases stage
      rw [Function.update_of_ne apart] at stage
      exact bearers other recording otherSession repoPath stage
  · apply closed.frame
    · intro key own present
      rwa [Pool.world_answer, maps, SessionMaps.inner_unindex] at present
    · intro key listed
      rw [Pool.world_answer, maps]
      exact SessionMaps.mem_indexed_unindex.mpr ⟨fun same => mine same.symm, listed⟩
    · apply unindexed_append
      intro other given same
      cases same
      exact mine rfl
    · intro recording otherSession repoPath stage
      cases now.symm.trans stage
    · intro otherSession held key stage
      cases now.symm.trans stage
    · intro _ recording otherSession repoPath stage
      rcases stage with stage | stage <;> cases stage

theorem LocalSeal.insert (closed : LocalSeal session pool ledgers) (staged : Staged layer keyPrefix pool ledgers)
    (calm : Calm layer session pool.trace) (kept : ¬Reopened session pool.trace) {recording : Bool}
    {sessionId repoPath : Str} {entry : SuppressionEntry} (now : ledgers id = .bringing recording sessionId repoPath)
    (maps : world.maps = pool.world.maps.insert (localKey sessionId repoPath) entry) :
    LocalSeal session (pool.answer id task (.maps (.insert (localKey sessionId repoPath) entry)) () rest world)
      (Function.update ledgers id (.inserted recording sessionId repoPath)) := by
  have unindexed : Unindexed session (pool.answer id task (.maps (.insert (localKey sessionId repoPath) entry)) ()
      rest world).trace ↔ Unindexed session pool.trace := unindexed_append nofun
  have fits := staged.fits id
  rw [now] at fits
  have old {key : Str} (other : key ≠ localKey sessionId repoPath) (present : world.maps.inner key ≠ none) :
      pool.world.maps.inner key ≠ none := by
    rwa [maps, SessionMaps.inner_insert, Function.update_of_ne other] at present
  constructor
  · intro notBegun key own present
    by_cases same : key = localKey sessionId repoPath
    · exact .inr ⟨id, recording, sessionId, repoPath, Function.update_self .., same.symm⟩
    · rcases closed.covered (fun begun => notBegun (unindexed.mpr begun)) key own (old same present) with
        listed | ⟨other, otherRecording, otherSession, otherPath, stage, own⟩
      · left
        rwa [Pool.world_answer, maps, SessionMaps.indexed_insert]
      · exact .inr ⟨other, otherRecording, otherSession, otherPath, Threads.ledger_kept (by simp [now]) stage, own⟩
  · intro begun key own present
    by_cases same : key = localKey sessionId repoPath
    · subst same
      exact absurd (fits.1.belongs calm kept own)
        (closed.quiet (unindexed.mp begun) id recording sessionId repoPath (.inl now))
    · obtain ⟨other, otherSession, held, stage, same, member⟩ :=
        closed.removing (unindexed.mp begun) key own (old same present)
      exact ⟨other, otherSession, held, Threads.ledger_kept (by simp [now]) stage, same, member⟩
  · intro begun other otherRecording otherSession otherPath stage
    by_cases same : other = id
    · subst same
      rw [Function.update_self] at stage
      rcases stage with stage | stage
      · cases stage
      · cases stage
        exact closed.quiet (unindexed.mp begun) other recording sessionId repoPath (.inl now)
    · rw [Function.update_of_ne same] at stage
      exact closed.quiet (unindexed.mp begun) other otherRecording otherSession otherPath stage

theorem LocalSeal.index (closed : LocalSeal session pool ledgers) (staged : Staged layer keyPrefix pool ledgers)
    (calm : Calm layer session pool.trace) (kept : ¬Reopened session pool.trace) {recording : Bool}
    {sessionId repoPath : Str} (now : ledgers id = .inserted recording sessionId repoPath)
    (maps : world.maps = pool.world.maps.index (Str.trim sessionId) (localKey sessionId repoPath)) :
    LocalSeal session
      (pool.answer id task (.maps (.index (Str.trim sessionId) (localKey sessionId repoPath))) () rest world)
      (Function.update ledgers id (indexed recording sessionId repoPath)) := by
  have unindexed : Unindexed session (pool.answer id task
      (.maps (.index (Str.trim sessionId) (localKey sessionId repoPath))) () rest world).trace ↔
      Unindexed session pool.trace := unindexed_append nofun
  have fits := staged.fits id
  rw [now] at fits
  have there {key : Str} (present : world.maps.inner key ≠ none) : pool.world.maps.inner key ≠ none := by
    rwa [maps, SessionMaps.inner_index] at present
  constructor
  · intro notBegun key own present
    rw [Pool.world_answer, maps, SessionMaps.mem_indexed_index]
    rcases closed.covered (fun begun => notBegun (unindexed.mpr begun)) key own (there present) with
      listed | ⟨other, otherRecording, otherSession, otherPath, stage, rfl⟩
    · exact .inl (.inr listed)
    · by_cases same : other = id
      · subst same
        cases now.symm.trans stage
        exact .inl (.inl ⟨(fits.1.belongs calm kept own).symm, rfl⟩)
      · exact .inr ⟨other, otherRecording, otherSession, otherPath, by rw [Function.update_of_ne same, stage], rfl⟩
  · intro begun key own present
    obtain ⟨other, otherSession, held, stage, same, member⟩ :=
      closed.removing (unindexed.mp begun) key own (there present)
    exact ⟨other, otherSession, held, Threads.ledger_kept (by simp [now]) stage, same, member⟩
  · intro begun other otherRecording otherSession otherPath stage
    by_cases same : other = id
    · subst same
      rw [Function.update_self] at stage
      cases recording with
      | true => rcases stage with stage | stage <;> cases stage
      | false => rcases stage with stage | stage <;> cases stage
    · rw [Function.update_of_ne same] at stage
      exact closed.quiet (unindexed.mp begun) other otherRecording otherSession otherPath stage

theorem LocalSeal.evict (closed : LocalSeal session pool ledgers) {sessionId key : Str} {keys : List Str}
    (now : ledgers id = .evicting sessionId (key :: keys)) (maps : world.maps = pool.world.maps.remove key) :
    LocalSeal session (pool.answer id task (.maps (.remove key)) () rest world)
      (Function.update ledgers id (.evicting sessionId keys)) := by
  apply closed.frame
  · intro other own present
    rw [Pool.world_answer, maps, SessionMaps.inner_remove] at present
    by_cases same : other = key
    · rw [same, Function.update_self] at present
      exact absurd rfl present
    · rwa [Function.update_of_ne same] at present
  · intro other listed
    rwa [Pool.world_answer, maps, SessionMaps.indexed_remove]
  · exact unindexed_append nofun
  · intro recording otherSession repoPath stage
    cases now.symm.trans stage
  · intro otherSession held other stage member present
    cases now.symm.trans stage
    rcases List.mem_cons.mp member with same | later
    · rw [Pool.world_answer, maps, SessionMaps.inner_remove, same, Function.update_self] at present
      exact absurd rfl present
    · exact ⟨keys, rfl, later⟩
  · intro _ recording otherSession repoPath stage
    rcases stage with stage | stage <;> cases stage

/-- A call that leaves the maps alone, at a stage that neither indexes nor holds keys. -/
theorem LocalSeal.elsewhere (closed : LocalSeal session pool ledgers) {before : SuppressionStage}
    (now : ledgers id = before) (same : ∃ redis, world = { pool.world with redis := redis })
    (others : call ≠ .maps (.unindex session))
    (inserted : ∀ recording sessionId repoPath, before ≠ .inserted recording sessionId repoPath)
    (evicting : ∀ sessionId key keys, before ≠ .evicting sessionId (key :: keys))
    (quiet : Unindexed session pool.trace → ∀ recording sessionId repoPath,
      stage = .bringing recording sessionId repoPath ∨ stage = .inserted recording sessionId repoPath →
      Str.trim sessionId ≠ session) :
    LocalSeal session (pool.answer id task call answer rest world) (Function.update ledgers id stage) := by
  obtain ⟨redis, rfl⟩ := same
  apply closed.frame
  · exact fun _ _ present => present
  · exact fun _ listed => listed
  · apply unindexed_append
    intro other keys same
    cases same
    exact others rfl
  · rw [now]
    exact inserted
  · intro sessionId keys key stage member
    cases keys with
    | nil => cases member
    | cons first keys => exact absurd (now.symm.trans stage) (evicting sessionId first keys)
  · exact quiet

end Steps

/-! ### What Redis holds -/

/-- The key is in Redis, under the prefix. -/
def InRedis (keyPrefix : Str) (redis : RedisState) (key : Str) : Prop :=
  (redis.keyspace.get (keyPrefix ++ "suppression:" ++ key)).isSome

namespace SuppressionStage

/-- What a clear of the session has found out. -/
def Knows (keyPrefix session : Str) (redis : RedisState) (id : Nat) : SuppressionStage → Prop
  | .listing sessionId => Str.trim sessionId = session → ∀ key, Own session key → InRedis keyPrefix redis key →
    redis.steady id (keyPrefix ++ "suppression:" ++ key)
  | .deleting sessionId keys => Str.trim sessionId = session → ∀ key, Own session key →
    InRedis keyPrefix redis key → keyPrefix ++ "suppression:" ++ key ∈ keys
  | .swept sessionId => Str.trim sessionId = session → ∀ key, Own session key → ¬InRedis keyPrefix redis key
  | .abandoned sessionId => Str.trim sessionId ≠ session
  | _ => True

/-- A clear of the session has begun to scan. -/
def Scanned (session : Str) : SuppressionStage → Prop
  | .listing sessionId => Str.trim sessionId = session
  | .deleting sessionId _ => Str.trim sessionId = session
  | .swept sessionId => Str.trim sessionId = session
  | _ => False

/-- A record of the session has not written to Redis yet. -/
def Unwritten (session : Str) : SuppressionStage → Prop
  | .bringing recording sessionId _ => recording = true ∧ Str.trim sessionId = session
  | .inserted recording sessionId _ => recording = true ∧ Str.trim sessionId = session
  | .saving sessionId _ => Str.trim sessionId = session
  | _ => False

end SuppressionStage

structure RedisSeal (keyPrefix session : Str) (pool : SuppressionPool) (ledgers : SuppressionLedgers) : Prop where
  knows : ∀ id, (ledgers id).Knows keyPrefix session pool.world.redis id
  written : ∀ clear id, (ledgers clear).Scanned session → ¬(ledgers id).Unwritten session

theorem SuppressionStage.Knows.mono {before after : RedisState} (knows : stage.Knows keyPrefix session before id)
    (shrinks : stage.Scanned session → ∀ key, Own session key → InRedis keyPrefix after key →
      InRedis keyPrefix before key ∧ (before.steady id (keyPrefix ++ "suppression:" ++ key) →
        after.steady id (keyPrefix ++ "suppression:" ++ key))) : stage.Knows keyPrefix session after id := by
  cases stage with
  | listing sessionId =>
    intro same key own present
    obtain ⟨there, steady⟩ := shrinks same key own present
    exact steady (knows same key own there)
  | deleting sessionId keys =>
    intro same key own present
    exact knows same key own (shrinks same key own present).1
  | swept sessionId =>
    intro same key own present
    exact knows same key own (shrinks same key own present).1
  | _ => exact knows

theorem SuppressionStage.Fits.unsaved (fits : stage.Fits layer trace id) (pending : stage.Unwritten session) :
    Unsaved session trace id := by
  have records {sessionId repoPath : Str} (carries : Carries layer trace id true sessionId repoPath)
      (same : Str.trim sessionId = session) : Records session trace id := by
    obtain ⟨graphVersion, scopesConsidered, started⟩ := carries
    exact ⟨sessionId, repoPath, graphVersion, scopesConsidered, started, same⟩
  cases stage with
  | bringing recording sessionId repoPath =>
    obtain ⟨rfl, same⟩ := pending
    exact ⟨records fits.1 same, fits.2.2 rfl⟩
  | inserted recording sessionId repoPath =>
    obtain ⟨rfl, same⟩ := pending
    exact ⟨records fits.1 same, fits.2.2 rfl⟩
  | saving sessionId repoPath => exact ⟨records fits.1 pending, fits.2⟩
  | _ => cases pending

/-- A step of one thread after which no more keys of the session are in Redis. -/
theorem RedisSeal.frame (closed : RedisSeal keyPrefix session pool ledgers) {after : SuppressionPool}
    (shrinks : ∀ clear, (ledgers clear).Scanned session → ∀ key, Own session key →
      InRedis keyPrefix after.world.redis key → InRedis keyPrefix pool.world.redis key ∧
      (clear ≠ id → pool.world.redis.steady clear (keyPrefix ++ "suppression:" ++ key) →
        after.world.redis.steady clear (keyPrefix ++ "suppression:" ++ key)))
    (knows : stage.Knows keyPrefix session after.world.redis id)
    (scanned : stage.Scanned session → ¬stage.Unwritten session ∧
      ((ledgers id).Scanned session ∨ ∀ other, ¬(ledgers other).Unwritten session))
    (unwritten : stage.Unwritten session → (ledgers id).Unwritten session ∨
      ∀ clear, ¬(ledgers clear).Scanned session) :
    RedisSeal keyPrefix session after (Function.update ledgers id stage) where
  knows other := by
    by_cases same : other = id
    · rw [same, Function.update_self]
      exact knows
    · rw [Function.update_of_ne same]
      apply (closed.knows other).mono
      intro began key own present
      obtain ⟨there, steady⟩ := shrinks other began key own present
      exact ⟨there, steady same⟩
  written clear other began pending := by
    by_cases clears : clear = id
    · rw [clears, Function.update_self] at began
      obtain ⟨apart, before⟩ := scanned began
      by_cases records : other = id
      · rw [records, Function.update_self] at pending
        exact apart pending
      · rw [Function.update_of_ne records] at pending
        rcases before with before | none
        · exact closed.written id other before pending
        · exact none other pending
    · rw [Function.update_of_ne clears] at began
      by_cases records : other = id
      · rw [records, Function.update_self] at pending
        rcases unwritten pending with before | none
        · exact closed.written clear id began before
        · exact none clear began
      · rw [Function.update_of_ne records] at pending
        exact closed.written clear other began pending

/-! ### What a finished clear leaves -/

/-- The last stage of a clear that has returned. -/
theorem Staged.cleared (staged : Staged layer keyPrefix pool ledgers) {clear : Nat}
    (clears : Clears session pool.trace clear) (returned : .returned clear .cleared ∈ pool.trace) :
    ∃ sessionId, .started clear (.clear sessionId) ∈ pool.trace ∧ Str.trim sessionId = session ∧
      Swept layer sessionId (ledgers clear) := by
  obtain ⟨sessionId, started, same⟩ := clears
  obtain ⟨task, began, ended⟩ := staged.ended clear .cleared returned
  obtain rfl := Threads.started_unique staged.reached began started
  exact ⟨sessionId, started, same, ended.1⟩

theorem Staged.unindexed (staged : Staged layer keyPrefix pool ledgers) {clear : Nat}
    (clears : Clears session pool.trace clear) (returned : .returned clear .cleared ∈ pool.trace) :
    Unindexed session pool.trace := by
  obtain ⟨sessionId, -, same, swept⟩ := staged.cleared clears returned
  have fits := staged.fits clear
  have by_clear : UnindexedBy pool.trace clear sessionId := by
    rcases swept with ⟨stage, -⟩ | stage | stage | stage
    · rw [stage] at fits
      exact fits
    · rw [stage] at fits
      exact fits
    · rw [stage] at fits
      exact fits
    · rw [stage] at fits
      exact fits
  obtain ⟨-, keys, called⟩ := by_clear
  rw [same] at called
  exact ⟨clear, keys, called⟩

theorem LocalSeal.cleared (closed : LocalSeal session pool ledgers) (staged : Staged layer keyPrefix pool ledgers)
    {clear : Nat} (clears : Clears session pool.trace clear) (returned : .returned clear .cleared ∈ pool.trace)
    {key : Str} (own : Own session key) : pool.world.maps.inner key = none := by
  by_contra present
  obtain ⟨other, otherSession, keys, stage, same, member⟩ :=
    closed.removing (staged.unindexed clears returned) key own present
  obtain ⟨sessionId, started, own, swept⟩ := staged.cleared clears returned
  have fits := staged.fits other
  rw [stage] at fits
  obtain rfl := staged.alone other clear otherSession sessionId fits.1 started (same.trans own.symm)
  rcases swept with ⟨now, -⟩ | now | now | now
  · cases stage.symm.trans now
    cases member
  · cases stage.symm.trans now
  · cases stage.symm.trans now
  · cases stage.symm.trans now

theorem RedisSeal.cleared (closed : RedisSeal keyPrefix session pool ledgers)
    (staged : Staged layer keyPrefix pool ledgers) (client : layer.redisClient = true) {clear : Nat}
    (clears : Clears session pool.trace clear) (returned : .returned clear .cleared ∈ pool.trace)
    {key : Str} (own : Own session key) : ¬InRedis keyPrefix pool.world.redis key := by
  intro present
  obtain ⟨sessionId, -, same, swept⟩ := staged.cleared clears returned
  have knows := closed.knows clear
  rcases swept with ⟨-, without⟩ | stage | stage | stage
  · cases client.symm.trans without
  · rw [stage] at knows
    cases knows same key own present
  · rw [stage] at knows
    exact knows same key own present
  · rw [stage] at knows
    exact knows same

/-! ### The calls keep it -/

section Calls

variable {call : SuppressionCall} {answer : SuppressionAnswer call} {world : SuppressionWorld}
  {next : SuppressionAnswer call → SuppressionProgram SuppressionResult}

/-- A lookup of the session finds nothing in Redis once the local removal has begun. -/
theorem fetched_none (staged : Staged layer keyPrefix pool ledgers) (shared : RedisSeal keyPrefix session pool ledgers)
    {sessionId repoPath : Str} {answer : Except Str (Option Str)} {after : RedisState}
    (client : layer.redisClient = true) (now : ledgers id = .missed sessionId repoPath)
    (met : CalmStep layer session pool.trace
      (.called id (.redis (.get (redisKey keyPrefix sessionId repoPath))) answer))
    (answered : RedisAnswers id (.get (redisKey keyPrefix sessionId repoPath)) pool.world.redis answer after)
    (same : Str.trim sessionId = session) (begun : Unindexed session pool.trace) : fetched layer answer = none := by
  have fits := staged.fits id
  rw [now] at fits
  by_cases clearing : Clearing session pool.trace
  · exact met ⟨sessionId, repoPath, fits.1, same⟩ clearing
  · obtain ⟨clear, keys, called⟩ := begun
    have returned : .returned clear .cleared ∈ pool.trace := by
      by_contra notYet
      exact clearing ⟨clear, keys, called, notYet⟩
    have absent := shared.cleared staged client (staged.unindexes clear session keys called) returned
      (own_localKey same repoPath)
    obtain ⟨gone, rfl, ⟨error, rfl⟩ | rfl⟩ := answered
    · rfl
    · have empty : (pool.world.redis.delete gone).keyspace.get (redisKey keyPrefix sessionId repoPath) = none := by
        rw [RedisState.keyspace_delete, Keyspace.get_delete, redisKey_eq]
        split
        · rfl
        · exact Option.not_isSome_iff_eq_none.mp absent
      rw [empty]
      rfl

theorem LocalSeal.called (closed : LocalSeal session pool ledgers) (staged : Staged layer keyPrefix pool ledgers)
    (shared : RedisSeal keyPrefix session pool ledgers) (calm : Calm layer session pool.trace)
    (kept : ¬Reopened session pool.trace) (met : CalmStep layer session pool.trace (.called id call answer))
    (allowed : (ledgers id).Allows layer keyPrefix call) (answered : SuppressionAnswers id call pool.world answer world) :
    LocalSeal session (pool.answer id task call answer (next answer) world)
      (Function.update ledgers id ((discipline layer keyPrefix).after (ledgers id) call answer)) := by
  obtain ⟨stage, now⟩ : ∃ stage, ledgers id = stage := ⟨_, rfl⟩
  rw [now] at allowed ⊢
  cases allowed with
  | look sessionId repoPath =>
    obtain ⟨maps, ⟨-, rfl⟩, same⟩ := answered
    cases answer <;> apply closed.elsewhere now ⟨_, same⟩ <;> simp [discipline]
  | fetch sessionId repoPath client =>
    obtain ⟨redis, answered, same⟩ := answered
    apply closed.elsewhere now ⟨_, same⟩
    · simp
    · simp
    · simp
    · intro begun recording otherSession otherPath bringing
      cases parsed : fetched layer answer with
      | none =>
        simp only [discipline, parsed] at bringing
        rcases bringing with bringing | bringing <;> cases bringing
      | some entry =>
        simp only [discipline, parsed] at bringing
        rcases bringing with bringing | bringing
        · cases bringing
          intro same
          cases (fetched_none staged shared client now met answered same begun).symm.trans parsed
        · cases bringing
  | insert recording sessionId repoPath entry =>
    obtain ⟨maps, answered, rfl⟩ := answered
    exact closed.insert staged calm kept now answered
  | index recording sessionId repoPath =>
    obtain ⟨maps, answered, rfl⟩ := answered
    exact closed.index staged calm kept now answered
  | unindex sessionId =>
    obtain ⟨maps, ⟨all, same⟩, rfl⟩ := answered
    exact closed.unindex staged calm kept now met all same
  | evict sessionId key keys =>
    obtain ⟨maps, answered, rfl⟩ := answered
    exact closed.evict now answered
  | save sessionId repoPath value ttlSecs =>
    obtain ⟨redis, -, same⟩ := answered
    apply closed.elsewhere now ⟨_, same⟩ <;> simp [discipline]
  | scan sessionId =>
    obtain ⟨redis, -, same⟩ := answered
    cases answer <;> apply closed.elsewhere now ⟨_, same⟩ <;> simp [discipline]
  | list sessionId =>
    obtain ⟨redis, -, same⟩ := answered
    cases answer <;> apply closed.elsewhere now ⟨_, same⟩ <;> simp [discipline]
  | delete sessionId keys =>
    obtain ⟨redis, -, same⟩ := answered
    cases answer <;> apply closed.elsewhere now ⟨_, same⟩ <;> simp [discipline]

/-- No key of the session is written once the clear of it has begun to scan. -/
theorem RedisSeal.shrinks (closed : RedisSeal keyPrefix session pool ledgers)
    (staged : Staged layer keyPrefix pool ledgers) (calm : Calm layer session pool.trace)
    (kept : ¬Reopened session pool.trace) {request : RedisCall} {answer : RedisAnswer request} {after : RedisState}
    (allowed : (ledgers id).Allows layer keyPrefix (.redis request))
    (answered : RedisAnswers id request pool.world.redis answer after) {clear : Nat}
    (scanned : (ledgers clear).Scanned session) {key : Str} (own : Own session key)
    (present : InRedis keyPrefix after key) : InRedis keyPrefix pool.world.redis key ∧
      ((∀ pattern, request = .scanBegin pattern → clear ≠ id) →
        pool.world.redis.steady clear (keyPrefix ++ "suppression:" ++ key) →
        after.steady clear (keyPrefix ++ "suppression:" ++ key)) := by
  have unwritten (value : Str) (ttlSecs : Nat) :
      request ≠ .setEx (keyPrefix ++ "suppression:" ++ key) value ttlSecs := by
    rintro rfl
    have fits := staged.fits id
    obtain ⟨stage, now⟩ : ∃ stage, ledgers id = stage := ⟨_, rfl⟩
    rw [now] at fits
    generalize target : keyPrefix ++ "suppression:" ++ key = full at allowed
    rw [now] at allowed
    cases allowed with
    | save sessionId repoPath =>
      rw [redisKey_eq] at target
      obtain rfl := List.append_cancel_left target
      apply closed.written clear id scanned
      rw [now]
      exact fits.1.belongs calm kept own
  obtain ⟨text, there⟩ := Option.isSome_iff_exists.mp present
  constructor
  · rcases get_answers answered there with before | ⟨ttlSecs, written⟩
    · exact Option.isSome_iff_exists.mpr ⟨text, before⟩
    · exact absurd written (unwritten text ttlSecs)
  · intro scan steady
    exact steady_answers answered unwritten scan steady present

/-- The stage after a call, for a clear of the session whose call succeeded. -/
theorem RedisSeal.called (closed : RedisSeal keyPrefix session pool ledgers)
    (staged : Staged layer keyPrefix pool ledgers) (plain : ∀ c ∈ keyPrefix, isGlobSpecial c = false)
    (calm : Calm layer session pool.trace) (kept : ¬Reopened session pool.trace)
    (met : CalmStep layer session pool.trace (.called id call answer))
    (allowed : (ledgers id).Allows layer keyPrefix call) (answered : SuppressionAnswers id call pool.world answer world) :
    RedisSeal keyPrefix session (pool.answer id task call answer (next answer) world)
      (Function.update ledgers id ((discipline layer keyPrefix).after (ledgers id) call answer)) := by
  have shrinks (clear : Nat) (scanned : (ledgers clear).Scanned session) (key : Str) (own : Own session key)
      (present : InRedis keyPrefix world.redis key) : InRedis keyPrefix pool.world.redis key ∧
      ((clear ≠ id ∨ ∀ pattern, call ≠ .redis (.scanBegin pattern)) →
        pool.world.redis.steady clear (keyPrefix ++ "suppression:" ++ key) →
        world.redis.steady clear (keyPrefix ++ "suppression:" ++ key)) := by
    cases call with
    | maps request =>
      obtain ⟨maps, -, rfl⟩ := answered
      exact ⟨present, fun _ steady => steady⟩
    | redis request =>
      obtain ⟨redis, answered, rfl⟩ := answered
      obtain ⟨there, stays⟩ := closed.shrinks staged calm kept allowed answered scanned own present
      refine ⟨there, fun scan => stays fun pattern same => ?_⟩
      rcases scan with apart | other
      · exact apart
      · subst same
        exact absurd rfl (other pattern)
  obtain ⟨stage, now⟩ : ∃ stage, ledgers id = stage := ⟨_, rfl⟩
  have fits := staged.fits id
  have knows := closed.knows id
  have others (clear : Nat) (scanned : (ledgers clear).Scanned session) (key : Str) (own : Own session key)
      (present : InRedis keyPrefix world.redis key) : InRedis keyPrefix pool.world.redis key ∧
      (clear ≠ id → pool.world.redis.steady clear (keyPrefix ++ "suppression:" ++ key) →
        world.redis.steady clear (keyPrefix ++ "suppression:" ++ key)) := by
    obtain ⟨there, steady⟩ := shrinks clear scanned key own present
    exact ⟨there, fun apart => steady (.inl apart)⟩
  rw [now] at allowed fits knows ⊢
  cases allowed with
  | look sessionId repoPath => cases answer <;> exact closed.frame others trivial False.elim False.elim
  | fetch sessionId repoPath client =>
    cases parsed : fetched layer answer with
    | none =>
      simp only [discipline, parsed]
      exact closed.frame others trivial False.elim False.elim
    | some entry =>
      simp only [discipline, parsed]
      exact closed.frame others trivial False.elim fun pending => Bool.noConfusion pending.1
  | insert recording sessionId repoPath entry =>
    refine closed.frame others trivial False.elim fun pending => .inl ?_
    rw [now]
    exact pending
  | index recording sessionId repoPath =>
    cases recording with
    | true =>
      refine closed.frame others trivial False.elim fun pending => .inl ?_
      rw [now]
      exact ⟨rfl, pending⟩
    | false => exact closed.frame others trivial False.elim False.elim
  | unindex sessionId => exact closed.frame others trivial False.elim False.elim
  | evict sessionId key keys => exact closed.frame others trivial False.elim False.elim
  | save sessionId repoPath value ttlSecs => exact closed.frame others trivial False.elim False.elim
  | scan sessionId =>
    by_cases mine : Str.trim sessionId = session
    · obtain ⟨rfl, saved⟩ := met ⟨sessionId, fits.1, mine⟩
      obtain ⟨redis, ⟨gone, rfl⟩, rfl⟩ := answered
      refine closed.frame others ?_ (fun _ => ⟨not_false, .inr ?_⟩) False.elim
      · intro _ key own present
        rw [Pool.world_answer, RedisState.steady_observe]
        exact present
      · intro other pending
        exact saved other ((staged.fits other).unsaved pending)
    · cases answer with
      | ok _ => exact closed.frame others (fun same => absurd same mine) (fun same => absurd same mine) False.elim
      | error error => exact closed.frame others mine False.elim False.elim
  | list sessionId =>
    by_cases mine : Str.trim sessionId = session
    · obtain ⟨keys, rfl⟩ := met ⟨sessionId, fits.1, mine⟩
      obtain ⟨redis, ⟨gone, same, listed⟩, rfl⟩ := answered
      obtain ⟨-, all⟩ := listed keys rfl
      have began : (ledgers id).Scanned session := by
        rw [now]
        exact mine
      refine closed.frame others ?_ (fun _ => ⟨not_false, .inl began⟩) False.elim
      intro _ key own present
      obtain ⟨there, steady⟩ := shrinks id began key own present
      apply all
      · exact steady (.inr (by simp)) (knows mine key own there)
      · obtain ⟨rest, rfl⟩ := own
        rw [matches_suppressionPattern plain, mine]
        exact ⟨rest, by simp⟩
    · cases answer with
      | ok _ => exact closed.frame others (fun same => absurd same mine) (fun same => absurd same mine) False.elim
      | error error => exact closed.frame others mine False.elim False.elim
  | delete sessionId keys =>
    by_cases mine : Str.trim sessionId = session
    · obtain rfl := met ⟨sessionId, fits.1, mine⟩
      have began : (ledgers id).Scanned session := by
        rw [now]
        exact mine
      refine closed.frame others ?_ (fun _ => ⟨not_false, .inl began⟩) False.elim
      intro _ key own present
      have listed := knows mine key own (shrinks id began key own present).1
      obtain ⟨redis, ⟨gone, rfl | ⟨-, error, failed⟩⟩, rfl⟩ := answered
      · change ((((pool.world.redis.delete gone).delete fun key => keys.contains key).keyspace.get _).isSome) = true
          at present
        rw [RedisState.keyspace_delete, Keyspace.get_delete, if_pos (List.contains_iff_mem.mpr listed)] at present
        cases present
      · cases failed
    · cases answer with
      | ok _ => exact closed.frame others (fun same => absurd same mine) (fun same => absurd same mine) False.elim
      | error error => exact closed.frame others mine False.elim False.elim

end Calls

/-! ### Calm runs -/

/-- A lookup of the session was started after the clear of it had returned. -/
def Late (session : Str) (trace : List SuppressionMoment) (id : Nat) : Prop :=
  ∃ clear cleared sessionId repoPath, Str.trim cleared = session ∧ Str.trim sessionId = session ∧
    [.started clear (.clear cleared), .returned clear .cleared, .started id (.lookup sessionId repoPath)] <+ trace

structure Closed (keyPrefix session : Str) (pool : SuppressionPool) (ledgers : SuppressionLedgers) : Prop where
  locally : LocalSeal session pool ledgers
  shared : RedisSeal keyPrefix session pool ledgers
  late : ∀ id, Late session pool.trace id → ledgers id ≠ .found

/-- A run that met the condition and did not reopen the session. -/
def Shut (layer : RedisLayer SuppressionEntry) (keyPrefix session : Str) (pool : SuppressionPool)
    (ledgers : SuppressionLedgers) : Prop :=
  Staged layer keyPrefix pool ledgers ∧
    (Calm layer session pool.trace → ¬Reopened session pool.trace → Closed keyPrefix session pool ledgers)

theorem late_append {moment : SuppressionMoment} (late : Late session (trace ++ [moment]) id) :
    Late session trace id ∨ ∃ task, moment = .started id task := by
  obtain ⟨clear, cleared, sessionId, repoPath, clears, same, ordered⟩ := late
  rcases sublist_concat [_, _] ordered with before | ⟨-, now⟩
  · exact .inl ⟨clear, cleared, sessionId, repoPath, clears, same, before⟩
  · exact .inr ⟨_, now.symm⟩

/-- What was there before a lookup that came late. -/
theorem Late.facts (late : Late session trace id) : ∃ clear sessionId repoPath, Clears session trace clear ∧
    .returned clear .cleared ∈ trace ∧ .started id (.lookup sessionId repoPath) ∈ trace ∧
    Str.trim sessionId = session := by
  obtain ⟨clear, cleared, sessionId, repoPath, clears, same, ordered⟩ := late
  exact ⟨clear, sessionId, repoPath, ⟨cleared, ordered.subset (by simp), clears⟩, ordered.subset (by simp),
    ordered.subset (by simp), same⟩

theorem Closed.start (closed : Closed keyPrefix session pool ledgers) (staged : Staged layer keyPrefix pool ledgers)
    (fresh : pool.Fresh id) (kept : ¬Reopened session (pool.trace ++ [.started id task])) :
    Closed keyPrefix session (pool.start id task (task.program layer keyPrefix))
      (Function.update ledgers id (opening task)) := by
  have unstarted : ledgers id = .unstarted := by
    by_contra other
    obtain ⟨before, started⟩ := (staged.fits id).started other
    exact fresh.2 before started
  have unrecorded (clear : Nat) (clears : Clears session pool.trace clear) {sessionId repoPath : Str}
      {graphVersion : Int} {scopesConsidered : List Str}
      (records : task = .record sessionId repoPath graphVersion scopesConsidered) : Str.trim sessionId ≠ session := by
    subst records
    intro same
    exact kept ⟨_, _, clear, id, rfl, clears,
      ⟨sessionId, repoPath, graphVersion, scopesConsidered, List.mem_singleton_self _, same⟩⟩
  refine ⟨?_, ?_, ?_⟩
  · apply closed.locally.frame
    · exact fun _ _ present => present
    · exact fun _ listed => listed
    · exact unindexed_append nofun
    · rw [unstarted]
      nofun
    · rw [unstarted]
      nofun
    · intro begun recording sessionId repoPath carries
      obtain ⟨clear, keys, called⟩ := begun
      cases task with
      | lookup | clear => rcases carries with carries | carries <;> cases carries
      | record =>
        rcases carries with carries | carries
        · cases carries
          exact unrecorded clear (staged.unindexes clear session keys called) rfl
        · cases carries
  · apply closed.shared.frame
    · exact fun _ _ _ _ present => ⟨present, fun _ steady => steady⟩
    · cases task <;> trivial
    · cases task <;> nofun
    · intro pending
      right
      intro clear scanned
      have clears : Clears session pool.trace clear := by
        have fits := staged.fits clear
        obtain ⟨stage, now⟩ : ∃ stage, ledgers clear = stage := ⟨_, rfl⟩
        rw [now] at fits scanned
        cases stage with
        | listing sessionId => exact ⟨sessionId, fits.1, scanned⟩
        | deleting sessionId keys => exact ⟨sessionId, fits.1, scanned⟩
        | swept sessionId => exact ⟨sessionId, fits.1, scanned⟩
        | _ => cases scanned
      cases task with
      | lookup | clear => cases pending
      | record => exact unrecorded clear clears rfl pending.2
  · intro other late
    by_cases same : other = id
    · rw [same, Function.update_self]
      cases task <;> nofun
    · rw [Function.update_of_ne same]
      rcases late_append late with before | ⟨_, now⟩
      · exact closed.late other before
      · cases now
        exact absurd rfl same

theorem Closed.finish (closed : Closed keyPrefix session pool ledgers) {result : SuppressionResult} :
    Closed keyPrefix session (pool.finish id result) ledgers := by
  have unindexed : Unindexed session (pool.finish id result).trace ↔ Unindexed session pool.trace :=
    unindexed_append nofun
  refine ⟨⟨?_, ?_, ?_⟩, ⟨closed.shared.knows, closed.shared.written⟩, ?_⟩
  · intro notBegun
    exact closed.locally.covered fun begun => notBegun (unindexed.mpr begun)
  · intro begun
    exact closed.locally.removing (unindexed.mp begun)
  · intro begun
    exact closed.locally.quiet (unindexed.mp begun)
  · intro other late
    rcases late_append late with before | ⟨_, now⟩
    · exact closed.late other before
    · cases now

/-- A late lookup finds nothing, whatever it calls. -/
theorem Closed.finds_none (closed : Closed keyPrefix session pool ledgers)
    (staged : Staged layer keyPrefix pool ledgers) (late : Late session pool.trace id) {call : SuppressionCall}
    {answer : SuppressionAnswer call} {world : SuppressionWorld} (allowed : (ledgers id).Allows layer keyPrefix call)
    (answered : SuppressionAnswers id call pool.world answer world) :
    (discipline layer keyPrefix).after (ledgers id) call answer ≠ .found := by
  obtain ⟨clear, lateSession, latePath, clears, returned, looks, same⟩ := late.facts
  have fits := staged.fits id
  obtain ⟨stage, now⟩ : ∃ stage, ledgers id = stage := ⟨_, rfl⟩
  rw [now] at allowed fits ⊢
  cases allowed with
  | look sessionId repoPath =>
    obtain ⟨maps, ⟨entry, -⟩, -⟩ := answered
    cases Threads.started_unique staged.reached looks fits.1
    rw [closed.locally.cleared staged clears returned (own_localKey same latePath)] at entry
    subst entry
    simp [discipline]
  | fetch sessionId repoPath client =>
    cases parsed : fetched layer answer with
    | none => simp only [discipline, parsed, ne_eq, reduceCtorEq, not_false_eq_true]
    | some entry => simp only [discipline, parsed, ne_eq, reduceCtorEq, not_false_eq_true]
  | index recording sessionId repoPath =>
    cases recording with
    | true => simp [discipline, indexed]
    | false =>
      cases Threads.started_unique staged.reached looks fits.1.1
      exact absurd same (closed.locally.quiet (staged.unindexed clears returned) id false lateSession latePath
        (.inr now))
  | insert | unindex | evict | save => simp [discipline]
  | scan | list | delete => cases answer <;> simp [discipline]

theorem closed_started (empty : pool.world.maps = .empty) (trace : pool.trace = []) :
    Closed keyPrefix session pool fun _ => .unstarted := by
  refine ⟨⟨?_, ?_, ?_⟩, ⟨fun _ => trivial, nofun⟩, nofun⟩
  · intro _ key _ present
    rw [empty] at present
    exact absurd rfl present
  · intro begun
    obtain ⟨id, keys, called⟩ := begun
    rw [trace] at called
    cases called
  · nofun

theorem shut_reachable (plain : ∀ c ∈ keyPrefix, isGlobSpecial c = false)
    (reached : (suppressionThreads layer keyPrefix).runs.Reachable pool) :
    ∃ ledgers, Shut layer keyPrefix session pool ledgers ∧
      Threads.Keeps (discipline layer keyPrefix) (ends layer) pool ledgers := by
  apply Threads.invariant opening (Shut layer keyPrefix session) obeys_suppression _ _ _ _ reached
  · intro pool start
    obtain ⟨empty, idle, trace⟩ := id start
    refine ⟨fun _ => .unstarted, ⟨.start start, fun _ => trivial, ?_, ?_, ?_⟩, ?_⟩
    · rw [trace]
      nofun
    · rw [trace]
      nofun
    · rw [trace]
      nofun
    · intro _ _
      exact closed_started empty trace
  · intro pool ledgers id task shut fresh may
    obtain ⟨staged, closed⟩ := shut
    refine ⟨staged.start fresh may, fun calm kept => ?_⟩
    have before : ¬Reopened session pool.trace := fun reopened => kept (reopened.append _)
    exact (closed calm.before before).start staged fresh kept
  · intro pool ledgers id task call next answer world shut here allowed answered
    obtain ⟨staged, closed⟩ := shut
    refine ⟨staged.answer here allowed answered, fun calm kept => ?_⟩
    have before : ¬Reopened session pool.trace := fun reopened => kept (reopened.append _)
    have closed := closed calm.before before
    have met : CalmStep layer session pool.trace (.called id call answer) := calm.met kept
    refine ⟨closed.locally.called staged closed.shared calm.before before met allowed answered,
      closed.shared.called staged plain calm.before before met allowed answered, ?_⟩
    intro other late
    rcases late_append late with late | ⟨_, now⟩
    · by_cases same : other = id
      · rw [same, Function.update_self]
        exact closed.finds_none staged (same ▸ late) allowed answered
      · rw [Function.update_of_ne same]
        exact closed.late other late
    · cases now
  · intro pool ledgers id task result shut here ended
    obtain ⟨staged, closed⟩ := shut
    refine ⟨staged.finish here ended, fun calm kept => ?_⟩
    exact (closed calm.before fun reopened => kept (reopened.append _)).finish

/-! ### Finality -/

/-- In a calm run a cleared session that was not recorded again has no entry left, and no
later lookup of it finds one. -/
theorem clear_final (plain : ∀ c ∈ keyPrefix, isGlobSpecial c = false)
    (reached : (suppressionThreads layer keyPrefix).runs.Reachable pool) (calm : Calm layer session pool.trace)
    {clear : Nat} {cleared : Str} (same : Str.trim cleared = session)
    (began : .started clear (.clear cleared) ∈ pool.trace) (returned : .returned clear .cleared ∈ pool.trace) :
    Reopened session pool.trace ∨
      ((∀ repoPath, pool.world.maps.inner (localKey cleared repoPath) = none) ∧
      (layer.redisClient = true →
        ∀ repoPath, pool.world.redis.keyspace.get (redisKey keyPrefix cleared repoPath) = none) ∧
      ∀ lookup sessionId repoPath found, Str.trim sessionId = session →
        [.started clear (.clear cleared), .returned clear .cleared, .started lookup (.lookup sessionId repoPath)] <+
          pool.trace → .returned lookup (.found found) ∈ pool.trace → found = none) := by
  by_cases reopened : Reopened session pool.trace
  · exact .inl reopened
  · obtain ⟨ledgers, ⟨staged, closed⟩, -⟩ := shut_reachable plain reached
    have closed := closed calm reopened
    have clears : Clears session pool.trace clear := ⟨cleared, began, same⟩
    refine .inr ⟨?_, ?_, ?_⟩
    · intro repoPath
      exact closed.locally.cleared staged clears returned (own_localKey same repoPath)
    · intro client repoPath
      rw [redisKey_eq]
      exact Option.not_isSome_iff_eq_none.mp
        (closed.shared.cleared staged client clears returned (own_localKey same repoPath))
    · intro lookup sessionId repoPath found own ordered returned
      obtain ⟨task, started, ended⟩ := staged.ended lookup (.found found) returned
      have looks : .started lookup (.lookup sessionId repoPath) ∈ pool.trace := ordered.subset (by simp)
      cases Threads.started_unique reached started looks
      rcases ended with ⟨stage, -⟩ | ⟨-, none⟩
      · exact absurd stage (closed.late lookup ⟨clear, cleared, sessionId, repoPath, same, own, ordered⟩)
      · cases none
        rfl

/-! ### Two runs -/

def storeLayer (json : EntryJson SuppressionEntry) : RedisLayer SuppressionEntry := ⟨true, 3600, json⟩

/-- One entry of a session. -/
def storedRedis (text : Str) : RedisState := ⟨⟨[("suppression:s::r", text)]⟩, fun _ _ => False⟩

/-- What is left of it when a scan has begun, and what when it is deleted. -/
def scannedRedis (text : Str) : RedisState := (storedRedis text).observe 1

def emptiedRedis (text : Str) : RedisState :=
  (scannedRedis text).delete fun key => ["suppression:s::r".toList].contains key

theorem steady_stored {text key : Str} (steady : ((storedRedis text).observe 1).steady 1 key) :
    key ∈ ["suppression:s::r".toList] := by
  rw [RedisState.steady_observe] at steady
  exact Keyspace.isSome_get.mp steady

theorem scanEnd_stored (text : Str) : RedisAnswers 1 (.scanEnd "suppression:s::*") (scannedRedis text)
    (.ok ["suppression:s::r"]) (scannedRedis text) := by
  refine ⟨fun _ => false, (RedisState.delete_none _).symm, fun keys same => ?_⟩
  cases same
  exact ⟨by decide, fun key steady _ => steady_stored steady⟩

theorem del_stored (text : Str) : RedisAnswers 1 (.del ["suppression:s::r"]) (scannedRedis text) (.ok ())
    (emptiedRedis text) := by
  refine ⟨fun _ => false, .inl ?_⟩
  rw [RedisState.delete_none]
  rfl

/-- What a lookup of the session still does once its read of Redis has found this. -/
def resumed (found : Option SuppressionEntry) : SuppressionProgram SuppressionResult := do
  let entry ← (match found with
    | some entry => do
      recordLocal askMaps "s" (localKey "s" "r") entry
      return some entry
    | none => return none : SuppressionProgram (Option SuppressionEntry))
  return .found entry

/-- A lookup that reads Redis before a clear and writes back after it. -/
theorem restored_run (json : EntryJson SuppressionEntry) (entry : SuppressionEntry) : ∃ pool : SuppressionPool,
    (suppressionThreads (storeLayer json) []).runs.Reachable pool ∧
    [.started 1 (.clear "s"), .returned 1 .cleared, .started 2 (.lookup "s" "r")] <+ pool.trace ∧
    .returned 2 (.found (some entry)) ∈ pool.trace ∧ ∀ id, ¬Records "s" pool.trace id := by
  let text := json.toString entry
  let removed : SessionMaps SuppressionEntry := SessionMaps.empty.unindex "s"
  let restored : SessionMaps SuppressionEntry := (removed.insert "s::r" entry).index "s" "s::r"
  have parsed : json.fromStr text = some entry := json.round_trip entry
  have start : (suppressionThreads (storeLayer json) []).runs.Reachable
      ⟨⟨.empty, storedRedis text⟩, fun _ => none, []⟩ := .start ⟨rfl, fun _ => rfl, rfl⟩
  have looks := Threads.next_started start 0 (.lookup "s" "r") ⟨rfl, by simp⟩ trivial
  have missed := Threads.next_called looks 0 (.maps (.get "s::r")) none ⟨.empty, storedRedis text⟩
    ⟨_, ⟨rfl, rfl⟩, rfl⟩ rfl
  have fetched := Threads.next_called missed 0 (.redis (.get "suppression:s::r")) (.ok (some text))
    ⟨.empty, storedRedis text⟩ ⟨_, ⟨fun _ => false, (RedisState.delete_none _).symm, .inr rfl⟩, rfl⟩ rfl
  have begins := Threads.next_started fetched 1 (.clear "s") ⟨rfl, by simp⟩ (by simp [suppressionThreads])
  have unindexed := Threads.next_called begins 1 (.maps (.unindex "s")) none ⟨removed, storedRedis text⟩
    ⟨_, ⟨fun _ => Iff.rfl, rfl⟩, rfl⟩ rfl
  have scans := Threads.next_called unindexed 1 (.redis (.scanBegin "suppression:s::*")) (.ok ())
    ⟨removed, scannedRedis text⟩ ⟨_, ⟨fun _ => false, by rw [RedisState.delete_none]; rfl⟩, rfl⟩ rfl
  have listing := Threads.next_called scans 1 (.redis (.scanEnd "suppression:s::*")) (.ok ["suppression:s::r"])
    ⟨removed, scannedRedis text⟩ ⟨_, scanEnd_stored text, rfl⟩ rfl
  have deleted := Threads.next_called listing 1 (.redis (.del ["suppression:s::r"])) (.ok ())
    ⟨removed, emptiedRedis text⟩ ⟨_, del_stored text, rfl⟩ rfl
  have cleared := Threads.next_returned deleted 1 .cleared rfl
  have inserted := Threads.next_called cleared 0 (.maps (.insert "s::r" entry)) ()
    ⟨removed.insert "s::r" entry, emptiedRedis text⟩ ⟨_, rfl, rfl⟩
    (congrArg (fun found => some (SuppressionTask.lookup "s" "r", resumed found)) parsed)
  have indexed := Threads.next_called inserted 0 (.maps (.index "s" "s::r")) () ⟨restored, emptiedRedis text⟩
    ⟨_, rfl, rfl⟩ rfl
  have answered := Threads.next_returned indexed 0 (.found (some entry)) rfl
  have again := Threads.next_started answered 2 (.lookup "s" "r") ⟨rfl, by simp⟩ trivial
  have found := Threads.next_called again 2 (.maps (.get "s::r")) (some entry) ⟨restored, emptiedRedis text⟩
    ⟨_, ⟨rfl, rfl⟩, rfl⟩ rfl
  have last := Threads.next_returned found 2 (.found (some entry)) rfl
  refine ⟨_, last, ?_, by simp, ?_⟩
  · simp only [List.nil_append, List.cons_append]
    repeat (first | apply List.Sublist.cons_cons | apply List.Sublist.cons | apply List.nil_sublist)
  · intro id records
    obtain ⟨sessionId, repoPath, graphVersion, scopesConsidered, started, -⟩ := records
    simp at started

/-- An entry that was there only before the clear of its session is found after it. -/
theorem cleared_restored : ∃ (layer : RedisLayer SuppressionEntry) (entry : SuppressionEntry) (pool : SuppressionPool),
    (suppressionThreads layer []).runs.Reachable pool ∧
    [.started 1 (.clear "s"), .returned 1 .cleared, .started 2 (.lookup "s" "r")] <+ pool.trace ∧
    .returned 2 (.found (some entry)) ∈ pool.trace ∧ ∀ id, ¬Records "s" pool.trace id :=
  ⟨storeLayer (unaryJson SuppressionEntry), ⟨true, 1, []⟩, restored_run (unaryJson SuppressionEntry) ⟨true, 1, []⟩⟩

theorem Calm.append (calm : Calm layer session trace) {moment : SuppressionMoment}
    (met : CalmStep layer session trace moment) : Calm layer session (trace ++ [moment]) := by
  intro before next begins
  rcases List.prefix_concat_iff.mp begins with same | begins
  · obtain ⟨rfl, last⟩ := List.append_inj' same rfl
    obtain rfl := List.singleton_inj.mp last
    exact .inr met
  · exact calm before next begins

/-- A stored entry that is gone after the clear. -/
theorem clear_final_stored : ∃ (layer : RedisLayer SuppressionEntry) (pool : SuppressionPool),
    (suppressionThreads layer []).runs.Reachable pool ∧ .returned 1 .cleared ∈ pool.trace ∧
    .returned 2 (.found none) ∈ pool.trace ∧
    (Reopened "s" pool.trace ∨
      ((∀ repoPath, pool.world.maps.inner (localKey "s" repoPath) = none) ∧
      (layer.redisClient = true →
        ∀ repoPath, pool.world.redis.keyspace.get (redisKey [] "s" repoPath) = none) ∧
      ∀ lookup sessionId repoPath found, Str.trim sessionId = "s" →
        [.started 1 (.clear "s"), .returned 1 .cleared, .started lookup (.lookup sessionId repoPath)] <+
          pool.trace → .returned lookup (.found found) ∈ pool.trace → found = none)) := by
  let text : Str := []
  let removed : SessionMaps SuppressionEntry := SessionMaps.empty.unindex "s"
  have start : (suppressionThreads (storeLayer (unaryJson _)) []).runs.Reachable
      ⟨⟨.empty, storedRedis text⟩, fun _ => none, []⟩ := .start ⟨rfl, fun _ => rfl, rfl⟩
  have begins := Threads.next_started start 1 (.clear "s") ⟨rfl, nofun⟩ nofun
  have unindexed := Threads.next_called begins 1 (.maps (.unindex "s")) none ⟨removed, storedRedis text⟩
    ⟨_, ⟨fun _ => Iff.rfl, rfl⟩, rfl⟩ rfl
  have scans := Threads.next_called unindexed 1 (.redis (.scanBegin "suppression:s::*")) (.ok ())
    ⟨removed, scannedRedis text⟩ ⟨_, ⟨fun _ => false, by rw [RedisState.delete_none]; rfl⟩, rfl⟩ rfl
  have listing := Threads.next_called scans 1 (.redis (.scanEnd "suppression:s::*")) (.ok ["suppression:s::r"])
    ⟨removed, scannedRedis text⟩ ⟨_, scanEnd_stored text, rfl⟩ rfl
  have deleted := Threads.next_called listing 1 (.redis (.del ["suppression:s::r"])) (.ok ())
    ⟨removed, emptiedRedis text⟩ ⟨_, del_stored text, rfl⟩ rfl
  have cleared := Threads.next_returned deleted 1 .cleared rfl
  have looks := Threads.next_started cleared 2 (.lookup "s" "r") ⟨rfl, by simp⟩ trivial
  have missed := Threads.next_called looks 2 (.maps (.get "s::r")) none ⟨removed, emptiedRedis text⟩
    ⟨_, ⟨rfl, rfl⟩, rfl⟩ rfl
  have fetched := Threads.next_called missed 2 (.redis (.get "suppression:s::r")) (.ok none)
    ⟨removed, emptiedRedis text⟩ ⟨_, ⟨fun _ => false, (RedisState.delete_none _).symm, .inr rfl⟩, rfl⟩ rfl
  have last := Threads.next_returned fetched 2 (.found none) rfl
  refine ⟨_, _, last, by simp, by simp, ?_⟩
  have idle {trace : List SuppressionMoment} (clears : ∀ id task, .started id task ∈ trace → task = .clear "s")
      (id : Nat) : ¬LooksUp "s" trace id ∧ ¬Records "s" trace id := by
    constructor
    · intro looks
      obtain ⟨sessionId, repoPath, started, -⟩ := looks
      cases clears id _ started
    · intro records
      obtain ⟨sessionId, repoPath, graphVersion, scopesConsidered, started, -⟩ := records
      cases clears id _ started
  have same : Str.trim "s" = ("s" : Str) := rfl
  apply clear_final (List.forall_mem_nil _) last _ same
  · simp
  · simp
  · refine Calm.append ?_ trivial
    refine Calm.append ?_ fun _ _ => rfl
    refine Calm.append ?_ trivial
    refine Calm.append ?_ fun apart => absurd rfl apart
    refine Calm.append ?_ trivial
    refine Calm.append ?_ fun _ => rfl
    refine Calm.append ?_ fun _ => ⟨_, rfl⟩
    refine Calm.append ?_ fun _ => ⟨rfl, fun id unsaved => (idle (by simp) id).2 unsaved.1⟩
    refine Calm.append ?_ fun _ id carrying => ?_
    · refine Calm.append ?_ trivial
      intro before moment begins
      simp at begins
    · rcases carrying.1 with records | looks
      · exact (idle (by simp) id).2 records
      · exact (idle (by simp) id).1 looks.1

end SkillLayer.McpServer

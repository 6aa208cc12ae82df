import SkillLayer.McpServer.ServerLedger

/-! Whatever the stores hold comes from a retrieval of the run that was not degraded. -/

namespace SkillLayer.McpServer

open Retrieval

variable {engine : SearchEngine}

/-! ### Where entries come from -/

section Sources

variable (tool : CompileContextTool engine) (trace : List (ServerMoment engine)) (id : Nat)

/-- The call retrieved the outcome for its request. -/
def Retrieved (request : CompileContextRequest) (outcome : RetrievalOutcome engine) : Prop :=
  .started id (.compile request) ∈ trace ∧
    .called id (.retrieve request.prompt (some request.repoPath)) outcome ∈ trace

/-- The call read the version at its start. -/
def Asked (request : CompileContextRequest) (version : Int) : Prop :=
  .started id (.compile request) ∈ trace ∧ .called id .currentGraphVersion version ∈ trace

/-- The entry is the mark of a healthy retrieval for the key. -/
def MarkSource (key : Str) (entry : SuppressionEntry) : Prop :=
  ∃ id request outcome, Retrieved trace id request outcome ∧ outcome.isDegraded = false ∧
    request.key = key ∧ markOf outcome = entry

/-- The entry is the context of a healthy retrieval for the key. -/
def ContextSource (key : Str) (entry : CachedContext) : Prop :=
  ∃ id request outcome, Retrieved trace id request outcome ∧ outcome.isDegraded = false ∧
    tool.contextKey request = key ∧ tool.contextOf request outcome = entry

/-- What a stage has behind it. -/
def ServerLedger.Sound : ServerLedger engine → Prop
  | .asking request => .started id (.compile request) ∈ trace
  | .looking request version => request.trigger ≠ some .compact ∧ Asked trace id request version
  | .restoring request entry next => MarkSource trace request.key entry ∧ next.Sound
  | .restored _ next => next.Sound
  | .suppressed request version => request.trigger ≠ some .compact ∧ Asked trace id request version
  | .searching request version => Asked trace id request version
  | .sharing request version entry =>
    Asked trace id request version ∧ ContextSource tool trace (tool.contextKey request) entry ∧
      entry.graphVersion = version
  | .found request version entry =>
    Asked trace id request version ∧ ContextSource tool trace (tool.contextKey request) entry ∧
      entry.graphVersion = version
  | .retrieved request outcome => Retrieved trace id request outcome
  | .inserted request outcome => Retrieved trace id request outcome ∧ outcome.isDegraded = false
  | .marked request outcome => Retrieved trace id request outcome ∧ outcome.isDegraded = false
  | _ => True

end Sources

variable {tool : CompileContextTool engine} {trace later : List (ServerMoment engine)} {id : Nat} {key : Str}
  {request : CompileContextRequest} {version : Int} {outcome : RetrievalOutcome engine}
  {ledger : ServerLedger engine}

theorem Retrieved.mono (grown : trace ⊆ later) (retrieved : Retrieved trace id request outcome) :
    Retrieved later id request outcome :=
  ⟨grown retrieved.1, grown retrieved.2⟩

theorem Asked.mono (grown : trace ⊆ later) (asked : Asked trace id request version) :
    Asked later id request version :=
  ⟨grown asked.1, grown asked.2⟩

theorem MarkSource.mono (grown : trace ⊆ later) {entry : SuppressionEntry} (source : MarkSource trace key entry) :
    MarkSource later key entry := by
  obtain ⟨id, request, outcome, retrieved, rest⟩ := source
  exact ⟨id, request, outcome, retrieved.mono grown, rest⟩

theorem ContextSource.mono (grown : trace ⊆ later) {entry : CachedContext}
    (source : ContextSource tool trace key entry) : ContextSource tool later key entry := by
  obtain ⟨id, request, outcome, retrieved, rest⟩ := source
  exact ⟨id, request, outcome, retrieved.mono grown, rest⟩

theorem ServerLedger.Sound.mono (grown : trace ⊆ later) (sound : ledger.Sound tool trace id) :
    ledger.Sound tool later id := by
  induction ledger with
  | asking request => exact grown sound
  | looking request version => exact ⟨sound.1, sound.2.mono grown⟩
  | restoring request entry next ih => exact ⟨sound.1.mono grown, ih sound.2⟩
  | restored request next ih => exact ih sound
  | suppressed request version => exact ⟨sound.1, sound.2.mono grown⟩
  | searching request version => exact Asked.mono grown sound
  | sharing request version entry => exact ⟨sound.1.mono grown, sound.2.1.mono grown, sound.2.2⟩
  | found request version entry => exact ⟨sound.1.mono grown, sound.2.1.mono grown, sound.2.2⟩
  | retrieved request outcome => exact Retrieved.mono grown sound
  | inserted request outcome => exact ⟨sound.1.mono grown, sound.2⟩
  | marked request outcome => exact ⟨sound.1.mono grown, sound.2⟩
  | clearing | evicting | uncaching | swapping => trivial

/-! ### What a call changes -/

/-- Entries only appear where they are written. -/
structure Frames (request : ServerCall engine) (before after : ServerWorld engine) : Prop where
  marks : ∀ key entry, after.suppression.inner key = some entry →
    before.suppression.inner key = some entry ∨ request = .suppression (.insert key entry)
  contexts : ∀ key entry, after.cache.inner key = some entry →
    before.cache.inner key = some entry ∨ request = .cache (.insert key entry)
  shared : ∀ key text, after.redis.keyspace.get key = some text →
    before.redis.keyspace.get key = some text ∨ ∃ ttlSecs, request = .redis (.setEx key text ttlSecs)

theorem frames_rfl (request : ServerCall engine) (world : ServerWorld engine) : Frames request world world :=
  ⟨fun _ _ => .inl, fun _ _ => .inl, fun _ _ => .inl⟩

theorem inner_answers {Entry : Type} {request : MapCall Entry} {before after : SessionMaps Entry}
    {answer : MapAnswer Entry request} (answered : MapAnswers request before answer after) {entry : Entry}
    (present : after.inner key = some entry) :
    before.inner key = some entry ∨ request = .insert key entry := by
  cases request with
  | get other =>
    obtain ⟨-, rfl⟩ := answered
    exact .inl present
  | insert other new =>
    obtain rfl : after = before.insert other new := answered
    by_cases same : key = other
    · subst same
      rw [SessionMaps.inner_insert, Function.update_self] at present
      cases present
      exact .inr rfl
    · rw [SessionMaps.inner_insert, Function.update_of_ne same] at present
      exact .inl present
  | index session other =>
    obtain rfl : after = before.index session other := answered
    exact .inl present
  | unindex session =>
    obtain ⟨-, rfl⟩ := answered
    exact .inl present
  | remove other =>
    obtain rfl : after = before.remove other := answered
    by_cases same : key = other
    · subst same
      rw [SessionMaps.inner_remove, Function.update_self] at present
      cases present
    · rw [SessionMaps.inner_remove, Function.update_of_ne same] at present
      exact .inl present

theorem frames_answers {environments : Nat → Environment engine} {request : ServerCall engine}
    {before after : ServerWorld engine} {answer : ServerAnswer engine request}
    (answered : ServerAnswers tool environments id request before answer after) :
    Frames request before after := by
  cases request with
  | currentGraphVersion => exact answered.2 ▸ frames_rfl _ _
  | retrieve prompt repoPath => exact answered.2 ▸ frames_rfl _ _
  | elapsedMillis => exact (show after = before from answered) ▸ frames_rfl _ _
  | suppression request =>
    obtain ⟨maps, given, rfl⟩ := answered
    refine ⟨fun key entry present => ?_, fun _ _ => .inl, fun _ _ => .inl⟩
    exact (inner_answers given present).imp_right (congrArg ServerCall.suppression)
  | cache request =>
    obtain ⟨maps, given, rfl⟩ := answered
    refine ⟨fun _ _ => .inl, fun key entry present => ?_, fun _ _ => .inl⟩
    exact (inner_answers given present).imp_right (congrArg ServerCall.cache)
  | redis request =>
    obtain ⟨redis, given, rfl⟩ := answered
    refine ⟨fun _ _ => .inl, fun _ _ => .inl, fun key text present => ?_⟩
    refine (get_answers given present).imp_right fun written => ?_
    obtain ⟨ttlSecs, rfl⟩ := written
    exact ⟨ttlSecs, rfl⟩
  | swapGraph incoming =>
    obtain ⟨-, rfl⟩ := answered
    exact ⟨fun _ _ => .inl, fun _ _ => .inl, fun _ _ => .inl⟩

/-! ### The invariant -/

namespace CompileContextTool

variable (tool : CompileContextTool engine)

def markSpace : Str := tool.names.keyPrefix ++ "suppression:"

def contextSpace : Str := tool.names.keyPrefix ++ "cache:"

theorem sharedKey_eq (request : CompileContextRequest) : tool.sharedKey request = tool.markSpace ++ request.key :=
  redisKey_eq ..

theorem contextKey_eq (request : CompileContextRequest) : ∃ rest, tool.contextKey request = tool.contextSpace ++ rest :=
  ⟨_, by simp only [contextKey, cacheKey, contextSpace, List.append_assoc]; rfl⟩

theorem markSpace_ne (key rest : Str) : tool.markSpace ++ key ≠ tool.contextSpace ++ rest := by
  intro same
  simp [markSpace, contextSpace] at same

end CompileContextTool

/-- All entries have their sources, and all running calls what their stages say. -/
structure Sourced (tool : CompileContextTool engine) (pool : ServerPool engine)
    (ledgers : Nat → ServerLedger engine) : Prop where
  marks : ∀ key entry, pool.world.suppression.inner key = some entry → MarkSource pool.trace key entry
  contexts : ∀ key entry, pool.world.cache.inner key = some entry → ContextSource tool pool.trace key entry
  sharedMarks : ∀ key text entry, pool.world.redis.keyspace.get (tool.markSpace ++ key) = some text →
    tool.state.json.fromStr text = some entry → MarkSource pool.trace key entry
  sharedContexts : ∀ rest text entry, pool.world.redis.keyspace.get (tool.contextSpace ++ rest) = some text →
    tool.cache.json.fromStr text = some entry → ContextSource tool pool.trace (tool.contextSpace ++ rest) entry
  stages : ∀ id task rest, pool.running id = some (task, rest) → (ledgers id).Sound tool pool.trace id

/-- What a stage inserts as a mark is one. -/
theorem ServerLedger.Sound.mark {entry : SuppressionEntry} (sound : ledger.Sound tool trace id)
    (allowed : ledger.Allows tool (.suppression (.insert key entry))) : MarkSource trace key entry := by
  cases allowed with
  | restore => exact sound.1
  | @mark request outcome healthy => exact ⟨id, request, outcome, sound, healthy, rfl, rfl⟩

theorem ServerLedger.Sound.context {entry : CachedContext} (sound : ledger.Sound tool trace id)
    (allowed : ledger.Allows tool (.cache (.insert key entry))) : ContextSource tool trace key entry := by
  cases allowed with
  | share => exact sound.2.1
  | @cache request outcome => exact ⟨id, request, outcome, sound.1, sound.2, rfl, rfl⟩

/-- What a stage writes to Redis is a mark under a key for marks, or a context under its own. -/
theorem ServerLedger.Sound.shared {text : Str} {ttlSecs : Nat} (sound : ledger.Sound tool trace id)
    (allowed : ledger.Allows tool (.redis (.setEx key text ttlSecs))) :
    (∃ own entry, key = tool.markSpace ++ own ∧ text = tool.state.json.toString entry ∧
      MarkSource trace own entry) ∨
    ∃ rest entry, key = tool.contextSpace ++ rest ∧ text = tool.cache.json.toString entry ∧
      ContextSource tool trace (tool.contextSpace ++ rest) entry := by
  cases allowed with
  | @shareMark request outcome =>
    exact .inl ⟨request.key, markOf outcome, tool.sharedKey_eq request, rfl, id, request, outcome, sound.1,
      sound.2, rfl, rfl⟩
  | @shareContext request outcome =>
    obtain ⟨rest, same⟩ := tool.contextKey_eq request
    exact .inr ⟨rest, _, same, rfl, id, request, outcome, sound.1, sound.2, same, rfl⟩

variable {pool : ServerPool engine} {ledgers : Nat → ServerLedger engine}
  {environments : Nat → Environment engine} {world : ServerWorld engine}

/-- What is read from Redis is what was there. -/
theorem readEntry_answers {Entry : Type} {json : EntryJson Entry} {before after : RedisState}
    {answer : RedisAnswer (.get key)} (answered : RedisAnswers id (.get key) before answer after) {entry : Entry}
    (read : readEntry json answer = some entry) :
    ∃ text, before.keyspace.get key = some text ∧ json.fromStr text = some entry := by
  obtain ⟨gone, rfl, failed | given⟩ := answered
  · obtain ⟨error, rfl⟩ := failed
    cases read
  · subst given
    cases present : (before.delete gone).keyspace.get key with
    | none =>
      rw [present] at read
      cases read
    | some text =>
      rw [present] at read
      exact ⟨text, get_delete_some present, read⟩

theorem sound_past {entry : SuppressionEntry} (sound : request.trigger ≠ some .compact ∧ Asked trace id request version) :
    (ServerLedger.past request version entry : ServerLedger engine).Sound tool trace id := by
  unfold ServerLedger.past
  split
  · exact sound
  · exact sound.2

/-- Each allowed call takes a stage to one that is sound as well. -/
theorem Sourced.after (sourced : Sourced tool pool ledgers) {call : ServerCall engine}
    {answer : ServerAnswer engine call} (sound : ledger.Sound tool pool.trace id) (allowed : ledger.Allows tool call)
    (answered : ServerAnswers tool environments id call pool.world answer world) :
    (ledger.after tool call answer).Sound tool (pool.trace ++ [.called id call answer]) id := by
  have grown : pool.trace ⊆ pool.trace ++ [.called id call answer] := List.subset_append_left ..
  have now : .called id call answer ∈ pool.trace ++ [.called id call answer] :=
    List.mem_append_right _ (List.mem_singleton_self _)
  have kept := ServerLedger.Sound.mono grown sound
  cases allowed with
  | @ask request =>
    change ServerLedger.Sound tool _ id (if request.trigger = some .compact then .searching request answer
      else .looking request answer)
    split
    · exact ⟨kept, now⟩
    · rename_i ordinary
      exact ⟨ordinary, kept, now⟩
  | @look request version =>
    cases answer with
    | some entry => exact sound_past kept
    | none =>
      change ServerLedger.Sound tool _ id
        (if tool.state.redisClient then .looking request version else .searching request version)
      split
      · exact kept
      · exact kept.2
  | @lookShared request version client =>
    obtain ⟨redis, given, -⟩ := answered
    change ServerLedger.Sound tool _ id (.restore request (readEntry tool.state.json answer)
      (.past request version) (.searching request version))
    cases read : readEntry tool.state.json answer with
    | none => exact kept.2
    | some entry =>
      obtain ⟨text, present, parsed⟩ := readEntry_answers given read
      rw [tool.sharedKey_eq] at present
      exact ⟨(sourced.sharedMarks _ _ _ present parsed).mono grown, sound_past kept⟩
  | lookAgain => cases answer <;> exact kept
  | @lookSharedAgain request version client =>
    obtain ⟨redis, given, -⟩ := answered
    change ServerLedger.Sound tool _ id (.restore request (readEntry tool.state.json answer)
      (fun _ => .suppressed request version) (.suppressed request version))
    cases read : readEntry tool.state.json answer with
    | none => exact kept
    | some entry =>
      obtain ⟨text, present, parsed⟩ := readEntry_answers given read
      rw [tool.sharedKey_eq] at present
      exact ⟨(sourced.sharedMarks _ _ _ present parsed).mono grown, kept⟩
  | restore => exact kept.2
  | indexRestored => exact kept
  | @search request version =>
    obtain ⟨maps, given, -⟩ := answered
    have present : answer = pool.world.cache.inner (tool.contextKey request) := given.1
    cases answer with
    | none => exact kept
    | some entry =>
      change ServerLedger.Sound tool _ id
        (if entry.graphVersion = version then .found request version entry else .searching request version)
      split
      · rename_i wanted
        exact ⟨kept, (sourced.contexts _ _ present.symm).mono grown, wanted⟩
      · exact kept
  | @searchShared request version client =>
    obtain ⟨redis, given, -⟩ := answered
    change ServerLedger.Sound tool _ id (.share request version (readEntry tool.cache.json answer))
    cases read : readEntry tool.cache.json answer with
    | none => exact kept
    | some entry =>
      change ServerLedger.Sound tool _ id
        (if entry.graphVersion = version then .sharing request version entry else .searching request version)
      split
      · rename_i wanted
        obtain ⟨text, present, parsed⟩ := readEntry_answers given read
        obtain ⟨rest, same⟩ := tool.contextKey_eq request
        have source : ContextSource tool pool.trace (tool.contextKey request) entry := by
          rw [same] at present ⊢
          exact sourced.sharedContexts _ _ _ present parsed
        exact ⟨kept, source.mono grown, wanted⟩
      · exact kept
  | retrieve => exact ⟨kept.1, now⟩
  | share => exact kept
  | mark healthy => exact ⟨kept, healthy⟩
  | indexMarked => exact kept
  | unindex => trivial
  | evict => trivial
  | _ => exact kept

/-! ### Every step keeps it -/

variable {server : Server engine}

theorem sourced_started {first : GraphSnapshot engine.Graph}
    (start : pool.world = .started first ∧ pool.Idle ∧ pool.trace = []) : Sourced tool pool ledgers := by
  obtain ⟨world, idle, -⟩ := start
  refine ⟨?_, ?_, ?_, ?_, ?_⟩
  · rw [world]
    exact nofun
  · rw [world]
    exact nofun
  · rw [world]
    exact nofun
  · rw [world]
    exact nofun
  · intro id task rest here
    cases (idle id).symm.trans here

/-- A step that leaves the world alone keeps the sources of all entries. -/
theorem Sourced.of_grown (sourced : Sourced tool pool ledgers) {next : ServerPool engine}
    {ledgersThen : Nat → ServerLedger engine} (unchanged : next.world = pool.world) (grown : pool.trace ⊆ next.trace)
    (stages : ∀ id task rest, next.running id = some (task, rest) → (ledgersThen id).Sound tool next.trace id) :
    Sourced tool next ledgersThen where
  marks key entry present := (sourced.marks key entry (unchanged ▸ present)).mono grown
  contexts key entry present := (sourced.contexts key entry (unchanged ▸ present)).mono grown
  sharedMarks key text entry present parsed :=
    (sourced.sharedMarks key text entry (unchanged ▸ present) parsed).mono grown
  sharedContexts rest text entry present parsed :=
    (sourced.sharedContexts rest text entry (unchanged ▸ present) parsed).mono grown
  stages := stages

theorem Sourced.start (sourced : Sourced tool pool ledgers) (task : ServerTask engine)
    {rest : ServerProgram engine (ServerResult engine)} :
    Sourced tool (pool.start id task rest) (Function.update ledgers id (.opening task)) := by
  have grown : pool.trace ⊆ (pool.start id task rest).trace := List.subset_append_left ..
  refine sourced.of_grown rfl grown fun other otherTask left here => ?_
  by_cases same : other = id
  · subst same
    rw [Function.update_self]
    cases task with
    | compile request => exact List.mem_append_right _ (List.mem_singleton_self _)
    | clearState | clearContexts | swap => trivial
  · rw [Pool.running_start, Function.update_of_ne same] at here
    rw [Function.update_of_ne same]
    exact (sourced.stages other otherTask left here).mono grown

theorem Sourced.answer (sourced : Sourced tool pool ledgers) {task : ServerTask engine}
    {call : ServerCall engine} {next : ServerAnswer engine call → ServerProgram engine (ServerResult engine)}
    (here : pool.running id = some (task, .call call next)) (allowed : (ledgers id).Allows tool call)
    {answer : ServerAnswer engine call}
    (answered : ServerAnswers tool environments id call pool.world answer world) :
    Sourced tool (pool.answer id task call answer (next answer) world)
      (Function.update ledgers id ((ledgers id).after tool call answer)) := by
  have grown : pool.trace ⊆ (pool.answer id task call answer (next answer) world).trace :=
    List.subset_append_left ..
  have sound := sourced.stages id task _ here
  have frames := frames_answers answered
  refine ⟨?_, ?_, ?_, ?_, ?_⟩
  · intro key entry present
    rcases frames.marks key entry present with old | rfl
    · exact (sourced.marks key entry old).mono grown
    · exact (sound.mark allowed).mono grown
  · intro key entry present
    rcases frames.contexts key entry present with old | rfl
    · exact (sourced.contexts key entry old).mono grown
    · exact (sound.context allowed).mono grown
  · intro key text entry present parsed
    rcases frames.shared _ text present with old | ⟨ttlSecs, rfl⟩
    · exact (sourced.sharedMarks key text entry old parsed).mono grown
    · rcases sound.shared allowed with ⟨own, written, same, rfl, source⟩ | ⟨rest, written, same, -, -⟩
      · obtain rfl := List.append_cancel_left same
        obtain rfl := Option.some.inj ((tool.state.json.round_trip written).symm.trans parsed)
        exact source.mono grown
      · exact absurd same (tool.markSpace_ne key rest)
  · intro rest text entry present parsed
    rcases frames.shared _ text present with old | ⟨ttlSecs, rfl⟩
    · exact (sourced.sharedContexts rest text entry old parsed).mono grown
    · rcases sound.shared allowed with ⟨own, written, same, -, -⟩ | ⟨own, written, same, rfl, source⟩
      · exact absurd same.symm (tool.markSpace_ne own rest)
      · obtain rfl := List.append_cancel_left same
        obtain rfl := Option.some.inj ((tool.cache.json.round_trip written).symm.trans parsed)
        exact source.mono grown
  · intro other otherTask left running
    by_cases same : other = id
    · subst same
      rw [Function.update_self]
      exact sourced.after sound allowed answered
    · rw [Pool.running_answer, Function.update_of_ne same] at running
      rw [Function.update_of_ne same]
      exact (sourced.stages other otherTask left running).mono grown

theorem Sourced.finish (sourced : Sourced tool pool ledgers) {result : ServerResult engine} :
    Sourced tool (pool.finish id result) ledgers := by
  have grown : pool.trace ⊆ (pool.finish id result).trace := List.subset_append_left ..
  refine sourced.of_grown rfl grown fun other otherTask left here => ?_
  by_cases same : other = id
  · subst same
    rw [Pool.running_finish, Function.update_self] at here
    cases here
  · rw [Pool.running_finish, Function.update_of_ne same] at here
    exact (sourced.stages other otherTask left here).mono grown

/-- In every state of a run all entries have their sources. -/
theorem sourced_reachable (reached : server.threads.runs.Reachable pool) :
    ∃ ledgers, Sourced server.tool pool ledgers ∧
      Threads.Keeps (serverDiscipline server.tool) (Ended server.tool) pool ledgers := by
  apply Threads.invariant ServerLedger.opening (Sourced server.tool) obeys_task _ _ _ _ reached
  · intro pool start
    exact ⟨fun _ => .swapping, sourced_started start⟩
  · intro pool ledgers id task sourced fresh may
    exact sourced.start task
  · intro pool ledgers id task call next answer world sourced here allowed answered
    exact sourced.answer here allowed answered
  · intro pool ledgers id task result sourced here ended
    exact sourced.finish

/-- A returned task was at a sound last stage that its result fits. -/
theorem returned_stage (reached : server.threads.runs.Reachable pool) {before after : List (ServerMoment engine)}
    {result : ServerResult engine} (split : pool.trace = before ++ .returned id result :: after) :
    ∃ task ledger, Ended server.tool task ledger result ∧ ledger.Sound server.tool before id := by
  obtain ⟨earlier, next, reachedThen, step, same, extended⟩ := Threads.stepped reached split
  obtain ⟨ledgers, sourced, keeps⟩ := sourced_reachable reachedThen
  rw [← same] at extended
  cases step with
  | started => cases (List.append_inj' extended rfl).2
  | called => cases (List.append_inj' extended rfl).2
  | @returned other task value here =>
    cases (List.append_inj' extended rfl).2
    obtain ⟨_, ⟨⟩, ended⟩ := keeps _ task _ here
    exact ⟨task, ledgers id, ended, same ▸ sourced.stages id task _ here⟩

end SkillLayer.McpServer

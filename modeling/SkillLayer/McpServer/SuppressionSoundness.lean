import SkillLayer.McpServer.DegradedAnswers

/-! A suppressed request was answered before: at its version, for its key, and with no clear
of the session in between. -/

namespace SkillLayer.McpServer

open Retrieval
open scoped List

variable {engine : SearchEngine} {tool : CompileContextTool engine} {trace : List (ServerMoment engine)}
  {id : Nat} {request : CompileContextRequest} {outcome : RetrievalOutcome engine} {key : Str}

/-- The moment at which a mark is complete. -/
def markedMoment (id : Nat) (request : CompileContextRequest) : ServerMoment engine :=
  .called id (.suppression (.index request.session request.key)) ()

/-! ### The invariant -/

/-- No stage of a write-back. -/
def ServerLedger.Direct : ServerLedger engine → Prop
  | .restoring _ _ _ => False
  | .restored _ _ => False
  | _ => True

/-- A clear of the session that will still remove the key. -/
structure Pending (pool : ServerPool engine) (ledgers : Nat → ServerLedger engine) (clear : Nat)
    (sessionId session key : Str) : Prop where
  running : pool.running clear ≠ none
  stage : (ledgers clear = .clearing sessionId ∧ key ∈ pool.world.suppression.indexed session) ∨
    ∃ keys, ledgers clear = .evicting sessionId keys ∧ key ∈ keys

/-- The index lists the key for the session, or a clear of the session holds it. -/
def Held (pool : ServerPool engine) (ledgers : Nat → ServerLedger engine) (session key : Str) : Prop :=
  key ∈ pool.world.suppression.indexed session ∨ ∃ clear sessionId keys, pool.running clear ≠ none ∧
    ledgers clear = .evicting sessionId keys ∧ Str.trim sessionId = session ∧ key ∈ keys

/-- The mark is complete, and every clear that was started after it will still remove it. -/
structure Standing (pool : ServerPool engine) (ledgers : Nat → ServerLedger engine) (producer : Nat)
    (origin : CompileContextRequest) : Prop where
  marked : markedMoment producer origin ∈ pool.trace
  held : Held pool ledgers origin.session origin.key
  spared : ∀ clear sessionId, Str.trim sessionId = origin.session →
    [markedMoment producer origin, .started clear (.clearState sessionId)] <+ pool.trace →
    Pending pool ledgers clear sessionId origin.session origin.key

/-- The lookup at which a request was suppressed. -/
def LookedUp (trace : List (ServerMoment engine)) (id : Nat) (request : CompileContextRequest) (version : Int) :
    Prop :=
  ∃ (before : List (ServerMoment engine)) (entry : SuppressionEntry) (after : List (ServerMoment engine)),
    trace = before ++ .called id (.suppression (.get request.key)) (some entry) :: after ∧
      .called id .currentGraphVersion version ∈ before ∧ entry.suppresses version = true

structure Kept (tool : CompileContextTool engine) (pool : ServerPool engine) (ledgers : Nat → ServerLedger engine) :
    Prop extends Sourced tool pool ledgers where
  direct : ∀ id task rest, pool.running id = some (task, rest) → (ledgers id).Direct
  clears : ∀ id task rest sessionId, pool.running id = some (task, rest) →
    (ledgers id = .clearing sessionId ∨ ∃ keys, ledgers id = .evicting sessionId keys) → task = .clearState sessionId
  alone : ∀ one two oneSession twoSession oneRest twoRest,
    pool.running one = some (.clearState oneSession, oneRest) →
    pool.running two = some (.clearState twoSession, twoRest) → Str.trim oneSession = Str.trim twoSession → one = two
  indexed : ∀ id session key, .called id (.suppression (.index session key)) () ∈ pool.trace →
    ∃ request outcome, ledgers id = .marked request outcome ∧ .started id (.compile request) ∈ pool.trace
  lookups : ∀ id task rest request version, pool.running id = some (task, rest) →
    ledgers id = .suppressed request version → LookedUp pool.trace id request version
  standing : ∀ key entry, pool.world.suppression.inner key = some entry → ∃ producer origin outcome,
    Retrieved pool.trace producer origin outcome ∧ outcome.isDegraded = false ∧ origin.key = key ∧
    markOf outcome = entry ∧ (ledgers producer = .inserted origin outcome ∨ Standing pool ledgers producer origin)

variable {pool after : ServerPool engine} {ledgers later : Nat → ServerLedger engine} {version : Int}
  {producer : Nat} {origin : CompileContextRequest} {session : Str}

theorem LookedUp.append (looked : LookedUp trace id request version) (moment : ServerMoment engine) :
    LookedUp (trace ++ [moment]) id request version := by
  obtain ⟨before, entry, rest, rfl, facts⟩ := looked
  exact ⟨before, entry, rest ++ [moment], by simp, facts⟩

/-! ### What keeps a complete mark -/

/-- A step after which the same clears are under way, and all held keys still are. -/
structure StillHeld (pool : ServerPool engine) (ledgers : Nat → ServerLedger engine) (after : ServerPool engine)
    (later : Nat → ServerLedger engine) (session key : Str) : Prop where
  held : Held pool ledgers session key → Held after later session key
  pending : ∀ clear sessionId, Str.trim sessionId = session → Pending pool ledgers clear sessionId session key →
    Pending after later clear sessionId session key

theorem Standing.step (standing : Standing pool ledgers producer origin) {moment : ServerMoment engine}
    (extended : after.trace = pool.trace ++ [moment])
    (holds : StillHeld pool ledgers after later origin.session origin.key)
    (started : ∀ clear sessionId, moment = .started clear (.clearState sessionId) →
      Str.trim sessionId = origin.session → Pending after later clear sessionId origin.session origin.key) :
    Standing after later producer origin where
  marked := extended ▸ List.mem_append_left _ standing.marked
  held := holds.held standing.held
  spared clear sessionId same ordered := by
    rw [extended] at ordered
    rcases sublist_concat [_] ordered with before | ⟨-, now⟩
    · exact holds.pending clear sessionId same (standing.spared clear sessionId same before)
    · exact started clear sessionId now.symm same

/-- A thread that is in no clear, or stays where it is in one, and an index that keeps the key. -/
theorem StillHeld.answer {task : ServerTask engine} {call : ServerCall engine} {answer : ServerAnswer engine call}
    {rest : ServerProgram engine (ServerResult engine)} {world : ServerWorld engine} {stage : ServerLedger engine}
    (grown : key ∈ pool.world.suppression.indexed session → key ∈ world.suppression.indexed session)
    (clearing : ∀ sessionId, ledgers id ≠ .clearing sessionId)
    (evicting : ∀ sessionId keys, ledgers id = .evicting sessionId keys → key ∈ keys →
      ∃ left, stage = .evicting sessionId left ∧ key ∈ left) :
    StillHeld pool ledgers (pool.answer id task call answer rest world) (Function.update ledgers id stage) session key := by
  have running (clear : Nat) (was : pool.running clear ≠ none) :
      (pool.answer id task call answer rest world).running clear ≠ none := by
    rw [Pool.running_answer]
    by_cases same : clear = id
    · rw [same, Function.update_self]
      exact Option.some_ne_none _
    · rwa [Function.update_of_ne same]
  have holder (clear : Nat) (sessionId : Str) (keys : List Str) (stageThen : ledgers clear = .evicting sessionId keys)
      (member : key ∈ keys) :
      ∃ left, Function.update ledgers id stage clear = .evicting sessionId left ∧ key ∈ left := by
    by_cases same : clear = id
    · subst same
      rw [Function.update_self]
      exact evicting sessionId keys stageThen member
    · exact ⟨keys, by rw [Function.update_of_ne same, stageThen], member⟩
  constructor
  · intro held
    rcases held with listed | ⟨clear, sessionId, keys, was, stageThen, same, member⟩
    · exact .inl (grown listed)
    · obtain ⟨left, now, still⟩ := holder clear sessionId keys stageThen member
      exact .inr ⟨clear, sessionId, left, running clear was, now, same, still⟩
  · intro clear sessionId same pending
    refine ⟨running clear pending.running, ?_⟩
    rcases pending.stage with ⟨stageThen, listed⟩ | ⟨keys, stageThen, member⟩
    · left
      have apart : clear ≠ id := by
        rintro rfl
        exact clearing sessionId stageThen
      exact ⟨by rw [Function.update_of_ne apart, stageThen], grown listed⟩
    · exact .inr (holder clear sessionId keys stageThen member)

/-- Only the removal of an index entry takes keys out of the index. -/
theorem indexed_answers {environments : Nat → Environment engine} {call : ServerCall engine}
    {answer : ServerAnswer engine call} {before world : ServerWorld engine}
    (answered : ServerAnswers tool environments id call before answer world)
    (keeps : ∀ other, call ≠ .suppression (.unindex other)) (listed : key ∈ before.suppression.indexed session) :
    key ∈ world.suppression.indexed session := by
  cases call with
  | currentGraphVersion => exact answered.2 ▸ listed
  | retrieve prompt repoPath => exact answered.2 ▸ listed
  | elapsedMillis => exact (show world = before from answered) ▸ listed
  | cache request =>
    obtain ⟨maps, -, rfl⟩ := answered
    exact listed
  | redis request =>
    obtain ⟨redis, -, rfl⟩ := answered
    exact listed
  | swapGraph incoming =>
    obtain ⟨-, rfl⟩ := answered
    exact listed
  | suppression request =>
    obtain ⟨maps, given, rfl⟩ := answered
    cases request with
    | get other =>
      obtain ⟨-, rfl⟩ := given
      exact listed
    | insert other entry =>
      obtain rfl : maps = before.suppression.insert other entry := given
      exact listed
    | index other otherKey =>
      obtain rfl : maps = before.suppression.index other otherKey := given
      exact SessionMaps.mem_indexed_index.mpr (.inr listed)
    | unindex other => exact absurd rfl (keeps other)
    | remove other =>
      obtain rfl : maps = before.suppression.remove other := given
      exact listed

section Steps

variable {environments : Nat → Environment engine} {call : ServerCall engine} {answer : ServerAnswer engine call}
  {world : ServerWorld engine} {task : ServerTask engine}
  {next : ServerAnswer engine call → ServerProgram engine (ServerResult engine)}

/-- A clear that takes the index entry of its session holds all keys of it. -/
theorem Kept.holds_unindex (kept : Kept tool pool ledgers) {sessionId : Str} {keys : Option (List Str)}
    {rest : ServerProgram engine (ServerResult engine)} {left : ServerProgram engine (ServerResult engine)}
    (here : pool.running id = some (task, left)) (stage : ledgers id = .clearing sessionId)
    (all : ∀ key, key ∈ keys.getD [] ↔ key ∈ pool.world.suppression.indexed (Str.trim sessionId))
    (maps : world.suppression = pool.world.suppression.unindex (Str.trim sessionId)) :
    StillHeld pool ledgers
      (pool.answer id task (.suppression (.unindex (Str.trim sessionId))) keys rest world)
      (Function.update ledgers id (.evicting sessionId (keys.getD []))) session key := by
  have own := kept.clears id task left sessionId here (.inl stage)
  subst own
  have running (clear : Nat) (was : pool.running clear ≠ none) :
      (pool.answer id (.clearState sessionId) (.suppression (.unindex (Str.trim sessionId))) keys rest
        world).running clear ≠ none := by
    rw [Pool.running_answer]
    by_cases same : clear = id
    · rw [same, Function.update_self]
      exact Option.some_ne_none _
    · rwa [Function.update_of_ne same]
  have stays {clear : Nat} (apart : clear ≠ id) :
      Function.update ledgers id (.evicting sessionId (keys.getD [])) clear = ledgers clear :=
    Function.update_of_ne apart ..
  constructor
  · intro held
    rcases held with listed | ⟨clear, clearSession, held, was, stageThen, same, member⟩
    · by_cases mine : session = Str.trim sessionId
      · subst mine
        refine .inr ⟨id, sessionId, keys.getD [], running id (by rw [here]; exact Option.some_ne_none _),
          Function.update_self .., rfl, (all key).mpr listed⟩
      · left
        rw [Pool.world_answer, maps]
        exact SessionMaps.mem_indexed_unindex.mpr ⟨mine, listed⟩
    · have apart : clear ≠ id := by
        rintro rfl
        cases stage.symm.trans stageThen
      exact .inr ⟨clear, clearSession, held, running clear was, (stays apart).trans stageThen, same, member⟩
  · intro clear clearSession same pending
    refine ⟨running clear pending.running, ?_⟩
    by_cases mine : clear = id
    · subst mine
      rcases pending.stage with ⟨stageThen, listed⟩ | ⟨held, stageThen, -⟩
      · cases stage.symm.trans stageThen
        refine .inr ⟨keys.getD [], Function.update_self .., ?_⟩
        rw [all]
        exact same ▸ listed
      · cases stage.symm.trans stageThen
    · rcases pending.stage with ⟨stageThen, listed⟩ | ⟨held, stageThen, member⟩
      · refine .inl ⟨(stays mine).trans stageThen, ?_⟩
        obtain ⟨⟨otherTask, otherRest⟩, was⟩ := Option.ne_none_iff_exists'.mp pending.running
        have other := kept.clears clear otherTask otherRest clearSession was (.inl stageThen)
        subst other
        have sessions : session ≠ Str.trim sessionId := by
          intro equal
          exact mine (kept.alone clear id clearSession sessionId otherRest left was here (same.trans equal))
        rw [Pool.world_answer, maps]
        exact SessionMaps.mem_indexed_unindex.mpr ⟨sessions, listed⟩
      · exact .inr ⟨held, (stays mine).trans stageThen, member⟩

/-- Every call holds the keys that are present after it. -/
theorem Kept.holds (kept : Kept tool pool ledgers) (here : pool.running id = some (task, .call call next))
    (allowed : (ledgers id).Allows tool call)
    (answered : ServerAnswers tool environments id call pool.world answer world)
    (present : world.suppression.inner key ≠ none) :
    StillHeld pool ledgers (pool.answer id task call answer (next answer) world)
      (Function.update ledgers id ((ledgers id).after tool call answer)) session key := by
  obtain ⟨ledger, stage⟩ : ∃ ledger, ledgers id = ledger := ⟨_, rfl⟩
  rw [stage] at allowed ⊢
  cases allowed with
  | unindex =>
    obtain ⟨maps, given, rfl⟩ := answered
    exact kept.holds_unindex here stage given.1 given.2
  | @evict sessionId removed keys =>
    apply StillHeld.answer (indexed_answers answered nofun)
    · intro other clearing
      cases stage.symm.trans clearing
    · intro other others evicting member
      cases stage.symm.trans evicting
      obtain ⟨maps, given, rfl⟩ := answered
      obtain rfl : maps = pool.world.suppression.remove removed := given
      rcases List.mem_cons.mp member with rfl | still
      · rw [SessionMaps.inner_remove, Function.update_self] at present
        exact absurd rfl present
      · exact ⟨keys, rfl, still⟩
  | scanState | scannedState | delState =>
    apply StillHeld.answer (indexed_answers answered nofun)
    · intro other clearing
      cases stage.symm.trans clearing
    · intro other others evicting member
      cases stage.symm.trans evicting
      cases member
  | _ =>
    apply StillHeld.answer (indexed_answers answered nofun)
    · intro other clearing
      cases stage.symm.trans clearing
    · intro other others evicting
      cases stage.symm.trans evicting

/-! ### Every step keeps the invariant -/

theorem Kept.start (kept : Kept tool pool ledgers) (task : ServerTask engine) (fresh : pool.Fresh id)
    (apart : ∀ sessionId, task = .clearState sessionId → ∀ other otherSession rest,
      pool.running other = some (.clearState otherSession, rest) → Str.trim otherSession ≠ Str.trim sessionId)
    {rest : ServerProgram engine (ServerResult engine)} :
    Kept tool (pool.start id task rest) (Function.update ledgers id (.opening task)) := by
  have other {thread : Nat} (used : pool.running thread ≠ none) : thread ≠ id := by
    rintro rfl
    exact used fresh.1
  have known {thread : Nat} {started : ServerTask engine} (member : .started thread started ∈ pool.trace) :
      thread ≠ id := by
    rintro rfl
    exact fresh.2 started member
  have stays {thread : Nat} (differs : thread ≠ id) :
      Function.update ledgers id (.opening task) thread = ledgers thread := Function.update_of_ne differs ..
  have runs {thread : Nat} (differs : thread ≠ id) : (pool.start id task rest).running thread = pool.running thread :=
    Function.update_of_ne differs ..
  have holds (session key : Str) : StillHeld pool ledgers (pool.start id task rest)
      (Function.update ledgers id (.opening task)) session key := by
    constructor
    · intro held
      rcases held with listed | ⟨clear, sessionId, keys, was, stage, same, member⟩
      · exact .inl listed
      · have differs := other was
        exact .inr ⟨clear, sessionId, keys, runs differs ▸ was, (stays differs).trans stage, same, member⟩
    · intro clear sessionId same pending
      have differs := other pending.running
      refine ⟨runs differs ▸ pending.running, ?_⟩
      rw [stays differs]
      exact pending.stage
  refine ⟨kept.toSourced.start task, ?_, ?_, ?_, ?_, ?_, ?_⟩
  · intro thread threadTask left here
    by_cases same : thread = id
    · subst same
      rw [Function.update_self]
      cases task <;> trivial
    · rw [stays same]
      exact kept.direct thread threadTask left (runs same ▸ here)
  · intro thread threadTask left sessionId here clearing
    by_cases same : thread = id
    · subst same
      rw [Pool.running_start, Function.update_self] at here
      cases here
      rw [Function.update_self] at clearing
      cases task with
      | clearState own =>
        rcases clearing with stage | ⟨keys, stage⟩
        · cases stage
          rfl
        · cases stage
      | compile | clearContexts | swap =>
        rcases clearing with stage | ⟨keys, stage⟩ <;> cases stage
    · rw [stays same] at clearing
      exact kept.clears thread threadTask left sessionId (runs same ▸ here) clearing
  · intro one two oneSession twoSession oneRest twoRest oneHere twoHere same
    by_cases oneNew : one = id
    · by_cases twoNew : two = id
      · exact oneNew.trans twoNew.symm
      · subst oneNew
        rw [Pool.running_start, Function.update_self] at oneHere
        cases oneHere
        exact absurd same.symm (apart oneSession rfl two twoSession twoRest (runs twoNew ▸ twoHere))
    · by_cases twoNew : two = id
      · subst twoNew
        rw [Pool.running_start, Function.update_self] at twoHere
        cases twoHere
        exact absurd same (apart twoSession rfl one oneSession oneRest (runs oneNew ▸ oneHere))
      · exact kept.alone one two oneSession twoSession oneRest twoRest (runs oneNew ▸ oneHere)
          (runs twoNew ▸ twoHere) same
  · intro thread session key called
    rcases List.mem_append.mp called with old | last
    · obtain ⟨request, outcome, stage, started⟩ := kept.indexed thread session key old
      exact ⟨request, outcome, (stays (known started)).trans stage, List.mem_append_left _ started⟩
    · cases List.mem_singleton.mp last
  · intro thread threadTask left request version here stage
    by_cases same : thread = id
    · subst same
      rw [Function.update_self] at stage
      cases task <;> cases stage
    · rw [stays same] at stage
      exact (kept.lookups thread threadTask left request version (runs same ▸ here) stage).append _
  · intro key entry present
    obtain ⟨producer, origin, outcome, retrieved, healthy, keys, marks, state⟩ := kept.standing key entry present
    refine ⟨producer, origin, outcome, retrieved.mono (List.subset_append_left ..), healthy, keys, marks, ?_⟩
    rcases state with stage | standing
    · exact .inl ((stays (known retrieved.1)).trans stage)
    · right
      apply standing.step rfl (holds _ _)
      intro clear sessionId now same
      obtain ⟨rfl, rfl⟩ := Moment.started.inj now
      refine ⟨?_, .inl ⟨Function.update_self .., ?_⟩⟩
      · rw [Pool.running_start, Function.update_self]
        exact Option.some_ne_none _
      · rcases standing.held with listed | ⟨holder, held, others, was, stage, sameSession, -⟩
        · exact listed
        · obtain ⟨⟨holderTask, holderRest⟩, running⟩ := Option.ne_none_iff_exists'.mp was
          have clears := kept.clears holder holderTask holderRest held running (.inr ⟨others, stage⟩)
          subst clears
          exact absurd (sameSession.trans same.symm) (apart sessionId rfl holder held holderRest running)

theorem Kept.finish (kept : Kept tool pool ledgers) {result : ServerResult engine}
    (here : pool.running id = some (task, .done result)) (ended : Ended tool task (ledgers id) result) :
    Kept tool (pool.finish id result) ledgers := by
  have runs {thread : Nat} (used : (pool.finish id result).running thread ≠ none) :
      thread ≠ id ∧ (pool.finish id result).running thread = pool.running thread := by
    have differs : thread ≠ id := by
      rintro rfl
      rw [Pool.running_finish, Function.update_self] at used
      exact used rfl
    exact ⟨differs, Function.update_of_ne differs ..⟩
  have before {thread : Nat} {found : ServerTask engine × ServerProgram engine (ServerResult engine)}
      (running : (pool.finish id result).running thread = some found) : pool.running thread = some found :=
    (runs (running ▸ Option.some_ne_none _)).2 ▸ running
  have after {thread : Nat} (differs : thread ≠ id) (was : pool.running thread ≠ none) :
      (pool.finish id result).running thread ≠ none := by
    rwa [Pool.running_finish, Function.update_of_ne differs]
  -- A clear returns with no key left.
  have busy {clear : Nat} {sessionId key : Str} {keys : List Str} (stage : ledgers clear = .evicting sessionId keys)
      (member : key ∈ keys) : clear ≠ id := by
    rintro rfl
    rw [stage] at ended
    cases ended
    cases member
  have holds (session key : Str) : StillHeld pool ledgers (pool.finish id result) ledgers session key := by
    constructor
    · intro held
      rcases held with listed | ⟨clear, sessionId, keys, was, stage, same, member⟩
      · exact .inl listed
      · exact .inr ⟨clear, sessionId, keys, after (busy stage member) was, stage, same, member⟩
    · intro clear sessionId same pending
      have differs : clear ≠ id := by
        rcases pending.stage with ⟨stage, -⟩ | ⟨keys, stage, member⟩
        · rintro rfl
          rw [stage] at ended
          cases ended
        · exact busy stage member
      exact ⟨after differs pending.running, pending.stage⟩
  refine ⟨kept.toSourced.finish, ?_, ?_, ?_, ?_, ?_, ?_⟩
  · intro thread threadTask left running
    exact kept.direct thread threadTask left (before running)
  · intro thread threadTask left sessionId running clearing
    exact kept.clears thread threadTask left sessionId (before running) clearing
  · intro one two oneSession twoSession oneRest twoRest oneHere twoHere same
    exact kept.alone one two oneSession twoSession oneRest twoRest (before oneHere) (before twoHere) same
  · intro thread session key called
    rcases List.mem_append.mp called with old | last
    · obtain ⟨request, outcome, stage, started⟩ := kept.indexed thread session key old
      exact ⟨request, outcome, stage, List.mem_append_left _ started⟩
    · cases List.mem_singleton.mp last
  · intro thread threadTask left request version running stage
    exact (kept.lookups thread threadTask left request version (before running) stage).append _
  · intro key entry present
    obtain ⟨producer, origin, outcome, retrieved, healthy, keys, marks, state⟩ := kept.standing key entry present
    refine ⟨producer, origin, outcome, retrieved.mono (List.subset_append_left ..), healthy, keys, marks, ?_⟩
    rcases state with stage | standing
    · exact .inl stage
    · exact .inr (standing.step rfl (holds _ _) (fun _ _ now => by cases now))

section Stages

variable {ledger : ServerLedger engine}

/-- The session that a stage of a clear is clearing. -/
def ServerLedger.clearOf : ServerLedger engine → Option Str
  | .clearing sessionId => some sessionId
  | .evicting sessionId _ => some sessionId
  | _ => none

theorem clearOf_iff {sessionId : Str} : ledger.clearOf = some sessionId ↔
    (ledger = .clearing sessionId ∨ ∃ keys, ledger = .evicting sessionId keys) := by
  constructor
  · intro same
    cases ledger with
    | clearing other =>
      obtain rfl := Option.some.inj same
      exact .inl rfl
    | evicting other keys =>
      obtain rfl := Option.some.inj same
      exact .inr ⟨keys, rfl⟩
    | _ => cases same
  · intro clearing
    rcases clearing with rfl | ⟨keys, rfl⟩ <;> rfl

/-- A stage that is reached from another one: it writes nothing back, and belongs to the same
clear. -/
structure Follows (ledger next : ServerLedger engine) : Prop where
  direct : next.Direct
  clearOf : next.clearOf = ledger.clearOf

theorem follows_ite {condition : Prop} [Decidable condition] {one two : ServerLedger engine}
    (first : Follows ledger one) (second : Follows ledger two) :
    Follows ledger (if condition then one else two) := by
  split
  · exact first
  · exact second

/-- Without Redis there is nothing to write back, and no call enters a clear or leaves one. -/
theorem ServerLedger.Allows.follows (allowed : ledger.Allows tool call) (direct : ledger.Direct)
    (noRedis : tool.state.redisClient = false) : Follows ledger (ledger.after tool call answer) := by
  cases allowed with
  | ask => exact follows_ite ⟨trivial, rfl⟩ ⟨trivial, rfl⟩
  | look =>
    cases answer with
    | some entry => exact follows_ite ⟨trivial, rfl⟩ ⟨trivial, rfl⟩
    | none => exact follows_ite ⟨trivial, rfl⟩ ⟨trivial, rfl⟩
  | lookShared client => cases noRedis.symm.trans client
  | lookAgain => cases answer <;> exact ⟨trivial, rfl⟩
  | lookSharedAgain client => cases noRedis.symm.trans client
  | restore => exact direct.elim
  | indexRestored => exact direct.elim
  | search =>
    cases answer with
    | none => exact ⟨trivial, rfl⟩
    | some entry => exact follows_ite ⟨trivial, rfl⟩ ⟨trivial, rfl⟩
  | @searchShared request version client =>
    change Follows _ (.share request version (readEntry tool.cache.json answer))
    unfold ServerLedger.share
    split
    · exact follows_ite ⟨trivial, rfl⟩ ⟨trivial, rfl⟩
    · exact ⟨trivial, rfl⟩
  | unindex => exact ⟨trivial, rfl⟩
  | _ => exact ⟨trivial, rfl⟩

/-- A complete mark stays one. -/
theorem ServerLedger.Allows.marked (allowed : ledger.Allows tool call) (stage : ledger = .marked request outcome) :
    ledger.after tool call answer = .marked request outcome := by
  subst stage
  cases allowed <;> rfl

/-- Without Redis the index is written when a mark is completed. -/
theorem ServerLedger.Allows.index {session : Str} (allowed : ledger.Allows tool (.suppression (.index session key)))
    (direct : ledger.Direct) : ∃ request outcome, ledger = .inserted request outcome ∧
      session = request.session ∧ key = request.key := by
  cases allowed with
  | indexRestored => exact direct.elim
  | @indexMarked request outcome => exact ⟨request, outcome, rfl, rfl, rfl⟩

/-- A request is suppressed at a lookup that finds an entry of its version. -/
theorem ServerLedger.Allows.lookup (allowed : ledger.Allows tool call) (direct : ledger.Direct)
    (noRedis : tool.state.redisClient = false) (sound : ledger.Sound tool trace id)
    (stage : ledger.after tool call answer = .suppressed request version) :
    ledger = .suppressed request version ∨ LookedUp (trace ++ [.called id call answer]) id request version := by
  cases allowed with
  | @ask other =>
    change (if other.trigger = some .compact then _ else _) = _ at stage
    split at stage <;> cases stage
  | @look other asked =>
    cases answer with
    | some entry =>
      change ServerLedger.past other asked entry = _ at stage
      unfold ServerLedger.past at stage
      split at stage
      · rename_i suppresses
        cases stage
        exact .inr ⟨trace, entry, [], rfl, sound.2.2, suppresses⟩
      · cases stage
    | none =>
      change (if tool.state.redisClient then _ else _) = _ at stage
      split at stage <;> cases stage
  | lookShared client => cases noRedis.symm.trans client
  | lookAgain => cases answer <;> exact .inl stage
  | lookSharedAgain client => cases noRedis.symm.trans client
  | timeSuppressed => exact .inl stage
  | restore => exact direct.elim
  | indexRestored => exact direct.elim
  | @search other asked =>
    cases answer with
    | none => cases stage
    | some entry =>
      change (if entry.graphVersion = asked then _ else _) = _ at stage
      split at stage <;> cases stage
  | @searchShared other asked client =>
    change ServerLedger.share other asked (readEntry tool.cache.json answer) = _ at stage
    unfold ServerLedger.share at stage
    split at stage
    · split at stage <;> cases stage
    · cases stage
  | _ => cases stage

end Stages

/-- A call leaves a complete mark standing, and completes the mark of its own insertion. -/
theorem Kept.standing_answer (kept : Kept tool pool ledgers)
    (here : pool.running id = some (task, .call call next)) (allowed : (ledgers id).Allows tool call)
    (answered : ServerAnswers tool environments id call pool.world answer world)
    (present : world.suppression.inner origin.key ≠ none)
    (state : ledgers producer = .inserted origin outcome ∨ Standing pool ledgers producer origin) :
    Function.update ledgers id ((ledgers id).after tool call answer) producer = .inserted origin outcome ∨
      Standing (pool.answer id task call answer (next answer) world)
        (Function.update ledgers id ((ledgers id).after tool call answer)) producer origin := by
  have holds : StillHeld pool ledgers (pool.answer id task call answer (next answer) world)
      (Function.update ledgers id ((ledgers id).after tool call answer)) origin.session origin.key :=
    kept.holds here allowed answered present
  rcases state with stage | standing
  · by_cases same : producer = id
    · subst same
      rw [stage] at allowed
      cases allowed with
      | indexMarked =>
        right
        obtain ⟨maps, given, rfl⟩ := answered
        obtain rfl : maps = pool.world.suppression.index origin.session origin.key := given
        refine ⟨List.mem_append_right _ (List.mem_singleton_self _), .inl ?_, ?_⟩
        · exact SessionMaps.mem_indexed_index.mpr (.inl ⟨rfl, rfl⟩)
        · intro clear sessionId sessions ordered
          -- The mark was not complete before this call.
          rcases sublist_concat [_] ordered with before | ⟨-, now⟩
          · obtain ⟨other, marked, late, -⟩ := kept.indexed producer _ _ (before.subset List.mem_cons_self)
            cases stage.symm.trans late
          · cases now
    · left
      rw [Function.update_of_ne same, stage]
  · exact .inr (standing.step rfl holds (fun _ _ now => by cases now))

theorem Kept.called (kept : Kept tool pool ledgers) (noRedis : tool.state.redisClient = false)
    (here : pool.running id = some (task, .call call next)) (allowed : (ledgers id).Allows tool call)
    (answered : ServerAnswers tool environments id call pool.world answer world) :
    Kept tool (pool.answer id task call answer (next answer) world)
      (Function.update ledgers id ((ledgers id).after tool call answer)) := by
  have direct := kept.direct id task _ here
  have sound := kept.stages id task _ here
  have follows : Follows (ledgers id) ((ledgers id).after tool call answer) := allowed.follows direct noRedis
  have stays {thread : Nat} (differs : thread ≠ id) :
      Function.update ledgers id ((ledgers id).after tool call answer) thread = ledgers thread :=
    Function.update_of_ne differs ..
  have runs {thread : Nat} (differs : thread ≠ id) :
      (pool.answer id task call answer (next answer) world).running thread = pool.running thread :=
    Function.update_of_ne differs ..
  have own {other : ServerTask engine} {left : ServerProgram engine (ServerResult engine)}
      (running : (pool.answer id task call answer (next answer) world).running id = some (other, left)) :
      other = task := by
    rw [Pool.running_answer, Function.update_self] at running
    cases running
    rfl
  have tasks {thread : Nat} {other : ServerTask engine} {left : ServerProgram engine (ServerResult engine)}
      (running : (pool.answer id task call answer (next answer) world).running thread = some (other, left)) :
      ∃ before, pool.running thread = some (other, before) := by
    by_cases same : thread = id
    · subst same
      obtain rfl := own running
      exact ⟨_, here⟩
    · exact ⟨left, runs same ▸ running⟩
  refine ⟨kept.toSourced.answer here allowed answered, ?_, ?_, ?_, ?_, ?_, ?_⟩
  · intro thread other left running
    by_cases same : thread = id
    · subst same
      rw [Function.update_self]
      exact follows.direct
    · rw [stays same]
      exact kept.direct thread other left (runs same ▸ running)
  · intro thread other left sessionId running clearing
    by_cases same : thread = id
    · subst same
      rw [Function.update_self] at clearing
      have before := clearOf_iff.mp (follows.clearOf ▸ clearOf_iff.mpr clearing)
      exact (own running).trans (kept.clears thread task _ sessionId here before)
    · rw [stays same] at clearing
      exact kept.clears thread other left sessionId (runs same ▸ running) clearing
  · intro one two oneSession twoSession oneRest twoRest oneHere twoHere same
    obtain ⟨oneBefore, oneRunning⟩ := tasks oneHere
    obtain ⟨twoBefore, twoRunning⟩ := tasks twoHere
    exact kept.alone one two oneSession twoSession oneBefore twoBefore oneRunning twoRunning same
  · intro thread session key called
    rcases List.mem_append.mp called with old | last
    · obtain ⟨request, outcome, stage, started⟩ := kept.indexed thread session key old
      refine ⟨request, outcome, ?_, List.mem_append_left _ started⟩
      by_cases same : thread = id
      · subst same
        rw [Function.update_self]
        exact allowed.marked stage
      · exact (stays same).trans stage
    · obtain ⟨rfl, rfl, -⟩ := Moment.called.inj (List.mem_singleton.mp last)
      obtain ⟨request, outcome, stage, -, -⟩ := allowed.index direct
      refine ⟨request, outcome, ?_, List.mem_append_left _ ?_⟩
      · rw [Function.update_self, stage]
        rfl
      · rw [stage] at sound
        exact sound.1.1
  · intro thread other left request version running stage
    by_cases same : thread = id
    · subst same
      rw [Function.update_self] at stage
      rcases allowed.lookup direct noRedis sound stage with before | looked
      · exact (kept.lookups thread task _ request version here before).append _
      · exact looked
    · rw [stays same] at stage
      exact (kept.lookups thread other left request version (runs same ▸ running) stage).append _
  · intro key entry present
    have grown : pool.trace ⊆ (pool.answer id task call answer (next answer) world).trace :=
      List.subset_append_left ..
    rcases (frames_answers answered).marks key entry present with old | rfl
    · obtain ⟨producer, origin, outcome, retrieved, healthy, rfl, marks, state⟩ := kept.standing key entry old
      refine ⟨producer, origin, outcome, retrieved.mono grown, healthy, rfl, marks, ?_⟩
      exact kept.standing_answer here allowed answered (present ▸ Option.some_ne_none _) state
    · -- The new entry is the mark of this call.
      obtain ⟨ledger, stage⟩ : ∃ ledger, ledgers id = ledger := ⟨_, rfl⟩
      rw [stage] at allowed direct sound ⊢
      cases allowed with
      | restore => exact direct.elim
      | @mark request outcome healthy =>
        refine ⟨id, request, outcome, sound.mono grown, healthy, rfl, rfl, .inl ?_⟩
        rw [Function.update_self]
        rfl

end Steps

/-! ### Suppression in any run -/

variable {server : Server engine}

/-- The clears of one session do not overlap. -/
def Server.ClearsApart (server : Server engine) : Prop :=
  ∀ pool sessionId, server.mayStart pool (.clearState sessionId) → ∀ other otherSession rest,
    pool.running other = some (.clearState otherSession, rest) → Str.trim otherSession ≠ Str.trim sessionId

theorem kept_reachable (noRedis : server.tool.state.redisClient = false) (apart : server.ClearsApart)
    (reached : server.threads.runs.Reachable pool) : ∃ ledgers, Kept server.tool pool ledgers ∧
      Threads.Keeps (serverDiscipline server.tool) (Ended server.tool) pool ledgers := by
  apply Threads.invariant ServerLedger.opening (Kept server.tool) obeys_task _ _ _ _ reached
  · intro pool start
    have idle (id : Nat) : pool.running id = none := start.2.1 id
    refine ⟨fun _ => .swapping, sourced_started start, ?_, ?_, ?_, ?_, ?_, ?_⟩
    · intro id task rest here
      cases (idle id).symm.trans here
    · intro id task rest sessionId here
      cases (idle id).symm.trans here
    · intro one two oneSession twoSession oneRest twoRest here
      cases (idle one).symm.trans here
    · rw [start.2.2]
      exact nofun
    · intro id task rest request version here
      cases (idle id).symm.trans here
    · rw [start.1]
      exact nofun
  · intro pool ledgers id task kept fresh may
    apply kept.start task fresh
    intro sessionId same
    subst same
    exact apart pool sessionId may
  · intro pool ledgers id task call next answer world kept here allowed answered
    exact kept.called noRedis here allowed answered
  · intro pool ledgers id task result kept here ended
    exact kept.finish here ended

/-- What stands behind an entry: a healthy retrieval for its key, and no clear of that session
that began after the mark was complete and has returned. -/
theorem Kept.behind (kept : Kept server.tool pool ledgers) (reached : server.threads.runs.Reachable pool)
    {entry : SuppressionEntry} (present : pool.world.suppression.inner key = some entry) :
    ∃ producer origin outcome, Retrieved pool.trace producer origin outcome ∧ outcome.isDegraded = false ∧
      origin.key = key ∧ markOf outcome = entry ∧ ∀ clear sessionId, Str.trim sessionId = origin.session →
        ¬ [markedMoment producer origin, .started clear (.clearState sessionId), .returned clear .cleared] <+
          pool.trace := by
  obtain ⟨producer, origin, outcome, retrieved, healthy, keys, marks, state⟩ := kept.standing key entry present
  refine ⟨producer, origin, outcome, retrieved, healthy, keys, marks, ?_⟩
  intro clear sessionId same ordered
  rcases state with stage | standing
  · obtain ⟨other, late, marked, -⟩ := kept.indexed producer _ _ (ordered.subset List.mem_cons_self)
    cases stage.symm.trans marked
  · have began : [markedMoment producer origin, .started clear (.clearState sessionId)] <+ pool.trace :=
      .trans (List.sublist_append_left [_, _] [_]) ordered
    have idle := Threads.returned_idle reached (ordered.subset (by simp :
      Moment.returned clear ServerResult.cleared ∈ _))
    exact (standing.spared clear sessionId same began).running idle

theorem not_healthy_suppressed : ¬ CompileContextStatus.Healthy .duplicateSuppressed := by
  intro healthy
  rcases healthy with healthy | healthy <;> cases healthy

/-- A suppressed answer was looked up, and is no answer to a compaction. -/
theorem suppressed_lookup (noRedis : server.tool.state.redisClient = false) (apart : server.ClearsApart)
    (reached : server.threads.runs.Reachable pool) {response : CompileContextResponse}
    {found : Option (RetrievalOutcome engine)} (started : .started id (.compile request) ∈ pool.trace)
    (returned : .returned id (.compiled response found) ∈ pool.trace)
    (suppressed : response.status = .duplicateSuppressed) :
    request.trigger ≠ some .compact ∧ ∃ version, LookedUp pool.trace id request version := by
  obtain ⟨between, rest, split⟩ := List.append_of_mem returned
  obtain ⟨earlier, after, reachedThen, step, same, extended⟩ := Threads.stepped reached split
  obtain ⟨ledgers, kept, keeps⟩ := kept_reachable noRedis apart reachedThen
  rw [← same] at extended
  cases step with
  | started => cases (List.append_inj' extended rfl).2
  | called => cases (List.append_inj' extended rfl).2
  | @returned _ task value here =>
    cases (List.append_inj' extended rfl).2
    obtain ⟨_, ⟨⟩, ended⟩ := keeps _ task _ here
    have sound := kept.stages id task _ here
    obtain ⟨ledger, stage⟩ : ∃ ledger, ledgers id = ledger := ⟨_, rfl⟩
    rw [stage] at ended sound
    cases ended with
    | @suppressed other version _ status =>
      have startedThen : .started id (.compile other) ∈ pool.trace :=
        split ▸ List.mem_append_left _ (same ▸ sound.2.1)
      obtain rfl := ServerTask.compile.inj (Threads.started_unique reached started startedThen)
      obtain ⟨before, entry, later, looked, facts⟩ := kept.lookups id _ _ _ version here stage
      refine ⟨sound.1, version, before, entry, later ++ .returned id (.compiled response none) :: rest, ?_, facts⟩
      rw [split, ← same, looked]
      simp
    | @found _ version entry latencyMs =>
      obtain ⟨-, ⟨_, _, _, -, -, -, rfl⟩, -⟩ := sound
      have healthy := healthy_contextOf server.tool
      exact absurd (suppressed ▸ healthy _ _) not_healthy_suppressed
    | @degraded _ outcome degraded =>
      rw [CompileContextTool.responseOf, if_pos degraded] at suppressed
      cases suppressed
    | @marked _ outcome healthy =>
      have scopes : outcome.degradedScopes = [] :=
        not_not.mp (mt isDegraded_iff.mpr (Bool.eq_false_iff.mp healthy))
      exact absurd (suppressed ▸ healthy_responseOf.mpr scopes) not_healthy_suppressed

/-- Without Redis, for any calls, clears and swaps in any interleaving in which the clears of
one session do not overlap: a request that is suppressed has not the trigger `compact`, and at
its lookup there was an entry of the version that it had read. That entry comes from an earlier
retrieval for the same key at this version that was not degraded, and no clear of its session
began after its mark was complete and returned before the lookup. -/
theorem suppression_sound (noRedis : server.tool.state.redisClient = false) (apart : server.ClearsApart)
    (reached : server.threads.runs.Reachable pool) {response : CompileContextResponse}
    {found : Option (RetrievalOutcome engine)} (started : .started id (.compile request) ∈ pool.trace)
    (returned : .returned id (.compiled response found) ∈ pool.trace)
    (suppressed : response.status = .duplicateSuppressed) :
    request.trigger ≠ some .compact ∧ ∃ before entry after version,
      pool.trace = before ++ .called id (.suppression (.get request.key)) (some entry) :: after ∧
      .called id .currentGraphVersion version ∈ before ∧
      ∃ producer origin outcome, Retrieved before producer origin outcome ∧ outcome.isDegraded = false ∧
        (server.tool.responseOf origin outcome).status.Healthy ∧ outcome.graphVersion = version ∧
        origin.key = request.key ∧ ∀ clear sessionId, Str.trim sessionId = origin.session →
          ¬ [markedMoment producer origin, .started clear (.clearState sessionId), .returned clear .cleared] <+
            before := by
  obtain ⟨trigger, version, before, entry, after, split, asked, suppresses⟩ :=
    suppressed_lookup noRedis apart reached started returned suppressed
  refine ⟨trigger, before, entry, after, version, split, asked, ?_⟩
  obtain ⟨earlier, task, next, world, reachedThen, rfl, -, maps, given, -⟩ := Threads.answered reached split
  obtain ⟨ledgers, kept, -⟩ := kept_reachable noRedis apart reachedThen
  obtain ⟨producer, origin, outcome, retrieved, healthy, keys, rfl, spared⟩ := kept.behind reachedThen given.1.symm
  have scopes : outcome.degradedScopes = [] :=
    not_not.mp (mt isDegraded_iff.mpr (Bool.eq_false_iff.mp healthy))
  refine ⟨producer, origin, outcome, retrieved, healthy, healthy_responseOf.mpr scopes, ?_, keys, spared⟩
  simpa [SuppressionEntry.suppresses, markOf] using suppresses

/-- A server without Redis on which a clear waits for those of its session. -/
def calmServer : Server textEngine :=
  { pairServer (fun repoPath => repoPath.getD []) (textEnvironment fun repoPath => repoPath.getD []) with
    mayStart := fun pool task => ∀ sessionId, task = .clearState sessionId → ∀ other otherSession rest,
      pool.running other = some (.clearState otherSession, rest) → Str.trim otherSession ≠ Str.trim sessionId }

def repeatedResponse : CompileContextResponse where
  status := .duplicateSuppressed
  reasonCode := some "already_compiled_for_session"
  additionalContext := none
  health := []
  scopesConsidered := ["project", "global"]
  graphVersion := 1
  latencyMs := 0
  source := "suppression"

theorem repeated_run : ((calmServer.threads.program (.compile firstRequest)).run (calmServer.serve 1) 0
    (pairWorld fun repoPath => repoPath.getD [])).outcome = .ok (.compiled repeatedResponse none) := rfl

theorem suppression_sound_repeated : ∃ (pool : ServerPool textEngine) (before after : List (ServerMoment textEngine))
    (entry : SuppressionEntry) (producer : Nat) (origin : CompileContextRequest)
    (outcome : RetrievalOutcome textEngine), calmServer.threads.runs.Reachable pool ∧
    pool.trace = before ++ .called 1 (.suppression (.get firstRequest.key)) (some entry) :: after ∧
    Retrieved before producer origin outcome ∧ outcome.isDegraded = false ∧ origin.key = firstRequest.key := by
  have start : calmServer.threads.runs.Reachable ⟨.started ⟨(), 1⟩, fun _ => none, []⟩ :=
    .start ⟨rfl, fun _ => rfl, rfl⟩
  have unused (id : Nat) : Pool.Fresh (⟨.started ⟨(), 1⟩, fun _ => none, []⟩ : ServerPool textEngine) id :=
    ⟨rfl, fun _ => List.not_mem_nil⟩
  obtain ⟨between, first, world, -, -, -, others⟩ := Threads.turn (server_serves calmServer 0) start
    (.compile firstRequest) (unused 0) nofun (first_run _ (textEnvironment fun repoPath => repoPath.getD [])) rfl
  obtain ⟨pool, second, -, -, started, returned, -⟩ := Threads.turn (server_serves calmServer 1) first
    (.compile firstRequest) (others 1 Nat.one_ne_zero (unused 1)) nofun (congrArg _ world) repeated_run
  have apart : calmServer.ClearsApart := fun pool sessionId may => may sessionId rfl
  obtain ⟨-, before, entry, after, version, split, -, producer, origin, outcome, retrieved, healthy, -, -, keys, -⟩ :=
    suppression_sound rfl apart second started returned rfl
  exact ⟨pool, before, after, entry, producer, origin, outcome, second, split, retrieved, healthy, keys⟩

end SkillLayer.McpServer

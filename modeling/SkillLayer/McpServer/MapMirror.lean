import SkillLayer.Threads
import SkillLayer.McpServer.SessionMaps

/-! Whatever is in the entry map of a store can be cleared, over any records and clears in
any interleaving. -/

namespace SkillLayer.McpServer

variable {Entry : Type}

/-! ### Concurrent records and clears -/

inductive MirrorTask (Entry : Type) where
  | record (sessionId localKey : Str) (entry : Entry)
  | clear (sessionId : Str)

abbrev MirrorPool (Entry : Type) :=
  Pool (MirrorTask Entry) (MapCall Entry) (MapAnswer Entry) Unit (SessionMaps Entry)

def MirrorTask.program : MirrorTask Entry → Program (MapCall Entry) (MapAnswer Entry) Empty Unit
  | .record sessionId localKey entry => recordLocal Program.ask sessionId localKey entry
  | .clear sessionId => clearLocal Program.ask sessionId

/-- Any tasks, on the maps of a started server. -/
def mirrorThreads (Entry : Type) :
    Threads (MirrorTask Entry) (MapCall Entry) (MapAnswer Entry) Unit (SessionMaps Entry) where
  initial maps := maps = .empty
  program := MirrorTask.program
  mayStart _ _ := True
  answers _ := MapAnswers

/-! ### Who recorded a key last -/

section Trace

variable (trace : List (Moment (MirrorTask Entry) (MapCall Entry) (MapAnswer Entry) Unit))

/-- The record that inserted the entry of a key last. -/
def insertedBy (key : Str) : Option Nat :=
  (trace.filterMap fun
    | .called id (.insert other _) _ => if other = key then some id else none
    | _ => none).getLast?

/-- The record that indexed a key last. -/
def indexedBy (key : Str) : Option Nat :=
  (trace.filterMap fun
    | .called id (.index _ other) _ => if other = key then some id else none
    | _ => none).getLast?

/-- The task was started for a record of this session. -/
def Recorder (id : Nat) (sessionId : Str) : Prop :=
  ∃ localKey entry, Moment.started id (.record sessionId localKey entry) ∈ trace

end Trace

/-! ### What a task has still to do -/

inductive MirrorLedger where
  | opened (sessionId localKey : Str)
  | inserted (sessionId localKey : Str)
  | clearing (sessionId : Str)
  | evicting (sessionId : Str) (keys : List Str)
  | settled

def MirrorLedger.opening : MirrorTask Entry → MirrorLedger
  | .record sessionId localKey _ => .opened sessionId localKey
  | .clear sessionId => .clearing sessionId

def mirrorDiscipline : Discipline (MapCall Entry) (MapAnswer Entry) MirrorLedger where
  allows
    | .opened _ localKey, .insert key _ => key = localKey
    | .inserted sessionId localKey, .index session key => session = Str.trim sessionId ∧ key = localKey
    | .clearing sessionId, .unindex session => session = Str.trim sessionId
    | .evicting _ keys, .remove key => keys.head? = some key
    | _, _ => False
  after
    | .opened sessionId localKey, .insert _ _, _ => .inserted sessionId localKey
    | .clearing sessionId, .unindex _, keys => .evicting sessionId (keys.getD [])
    | .evicting sessionId keys, .remove _, _ => .evicting sessionId keys.tail
    | _, _, _ => .settled

/-- Nothing is left to do. -/
def MirrorLedger.Done (ledger : MirrorLedger) : Prop :=
  ledger = .settled ∨ ∃ sessionId, ledger = .evicting sessionId []

theorem obeys_evict {sessionId : Str} {keys : List Str} :
    (evict Program.ask keys : Program (MapCall Entry) (MapAnswer Entry) Empty Unit).Obeys mirrorDiscipline
      (fun left outcome => ∃ result, outcome = .ok result ∧ left.Done) (.evicting sessionId keys) := by
  induction keys with
  | nil => exact ⟨(), rfl, .inr ⟨sessionId, rfl⟩⟩
  | cons key keys ih => exact ⟨rfl, fun _ => ih⟩

theorem obeys_program (task : MirrorTask Entry) :
    task.program.Obeys mirrorDiscipline (fun left outcome => ∃ result, outcome = .ok result ∧ left.Done)
      (.opening task) := by
  cases task with
  | record sessionId localKey entry =>
    exact ⟨rfl, fun _ => ⟨⟨rfl, rfl⟩, fun _ => ⟨(), rfl, .inl rfl⟩⟩⟩
  | clear sessionId =>
    refine ⟨rfl, fun keys => ?_⟩
    cases keys with
    | none => exact ⟨(), rfl, .inr ⟨sessionId, rfl⟩⟩
    | some keys => exact obeys_evict

/-! ### The invariant -/

section Invariant

variable {maps after : SessionMaps Entry} {ledgers : Nat → MirrorLedger} {id : Nat} {session key : Str}
  {trace : List (Moment (MirrorTask Entry) (MapCall Entry) (MapAnswer Entry) Unit)}

/-- The index lists the key for the session, or a clear of the session will still remove it. -/
def Covered (maps : SessionMaps Entry) (ledgers : Nat → MirrorLedger) (session key : Str) : Prop :=
  key ∈ maps.indexed session ∨
    ∃ id sessionId keys, ledgers id = .evicting sessionId keys ∧ Str.trim sessionId = session ∧ key ∈ keys

structure Mirrored (pool : MirrorPool Entry) (ledgers : Nat → MirrorLedger) : Prop where
  ended : ∀ id, pool.running id = none → (ledgers id).Done
  recorders : ∀ id sessionId key,
    ledgers id = .opened sessionId key ∨ ledgers id = .inserted sessionId key →
      Recorder pool.trace id sessionId
  inserted : ∀ key, pool.world.inner key ≠ none → ∃ id sessionId,
    insertedBy pool.trace key = some id ∧ Recorder pool.trace id sessionId ∧
      (ledgers id = .inserted sessionId key ∨ Covered pool.world ledgers (Str.trim sessionId) key)
  indexed : ∀ key, pool.world.inner key ≠ none →
    (∃ id sessionId, ledgers id = .inserted sessionId key) ∨
      ∃ id sessionId, indexedBy pool.trace key = some id ∧ Recorder pool.trace id sessionId ∧
        Covered pool.world ledgers (Str.trim sessionId) key

theorem Recorder.append {sessionId : Str} (recorder : Recorder trace id sessionId)
    (moment : Moment (MirrorTask Entry) (MapCall Entry) (MapAnswer Entry) Unit) :
    Recorder (trace ++ [moment]) id sessionId := by
  obtain ⟨localKey, entry, member⟩ := recorder
  exact ⟨localKey, entry, List.mem_append_left _ member⟩

theorem insertedBy_insert {entry : Entry} {answer : Unit} {other : Str} :
    insertedBy (trace ++ [.called id (.insert other entry) answer]) key =
      if other = key then some id else insertedBy trace key := by
  unfold insertedBy
  rw [List.filterMap_append]
  split
  · rename_i same
    simp [same]
  · rename_i apart
    simp [apart]

theorem indexedBy_index {answer : Unit} {other : Str} :
    indexedBy (trace ++ [.called id (.index session other) answer]) key =
      if other = key then some id else indexedBy trace key := by
  unfold indexedBy
  rw [List.filterMap_append]
  split
  · rename_i same
    simp [same]
  · rename_i apart
    simp [apart]

theorem insertedBy_append {moment : Moment (MirrorTask Entry) (MapCall Entry) (MapAnswer Entry) Unit}
    (silent : ∀ id other entry answer, moment ≠ .called id (.insert other entry) answer) :
    insertedBy (trace ++ [moment]) key = insertedBy trace key := by
  unfold insertedBy
  rw [List.filterMap_append]
  cases moment with
  | called id request answer =>
    cases request with
    | insert other entry => exact absurd rfl (silent id other entry answer)
    | _ => simp
  | _ => simp

theorem indexedBy_append {moment : Moment (MirrorTask Entry) (MapCall Entry) (MapAnswer Entry) Unit}
    (silent : ∀ id session other answer, moment ≠ .called id (.index session other) answer) :
    indexedBy (trace ++ [moment]) key = indexedBy trace key := by
  unfold indexedBy
  rw [List.filterMap_append]
  cases moment with
  | called id request answer =>
    cases request with
    | index session other => exact absurd rfl (silent id session other answer)
    | _ => simp
  | _ => simp

/-- A step that keeps the index entries of a key, and what its thread will still remove. -/
theorem Covered.step (covered : Covered maps ledgers session key) {ledger : MirrorLedger}
    (grown : ∀ session, key ∈ maps.indexed session → key ∈ after.indexed session)
    (kept : ∀ sessionId keys, ledgers id = .evicting sessionId keys → key ∈ keys →
      ∃ rest, ledger = .evicting sessionId rest ∧ key ∈ rest) :
    Covered after (Function.update ledgers id ledger) session key := by
  rcases covered with listed | ⟨other, sessionId, keys, evicting, trimmed, member⟩
  · exact .inl (grown session listed)
  · right
    by_cases same : other = id
    · subst same
      obtain ⟨rest, now, still⟩ := kept sessionId keys evicting member
      exact ⟨other, sessionId, rest, by rw [Function.update_self, now], trimmed, still⟩
    · exact ⟨other, sessionId, keys, by rw [Function.update_of_ne same, evicting], trimmed, member⟩

section Kept

variable {pool next : MirrorPool Entry} {ledgersThen : Nat → MirrorLedger}

/-- What the last insert of a key promises, after a step that inserts nothing under it. -/
theorem Mirrored.inserted_kept (mirrored : Mirrored pool ledgers) (present : pool.world.inner key ≠ none)
    (last : insertedBy next.trace key = insertedBy pool.trace key)
    (recorded : ∀ id sessionId, Recorder pool.trace id sessionId → Recorder next.trace id sessionId)
    (pending : ∀ id sessionId, ledgers id = .inserted sessionId key →
      ledgersThen id = .inserted sessionId key ∨ Covered next.world ledgersThen (Str.trim sessionId) key)
    (covered : ∀ session, Covered pool.world ledgers session key → Covered next.world ledgersThen session key) :
    ∃ id sessionId, insertedBy next.trace key = some id ∧ Recorder next.trace id sessionId ∧
      (ledgersThen id = .inserted sessionId key ∨ Covered next.world ledgersThen (Str.trim sessionId) key) := by
  obtain ⟨writer, sessionId, wrote, recorder, standing⟩ := mirrored.inserted key present
  refine ⟨writer, sessionId, last.trans wrote, recorded writer sessionId recorder, ?_⟩
  rcases standing with waiting | listed
  · exact pending writer sessionId waiting
  · exact .inr (covered _ listed)

/-- What the last index entry of a key promises, after a step that indexes nothing under it. -/
theorem Mirrored.indexed_kept (mirrored : Mirrored pool ledgers) (present : pool.world.inner key ≠ none)
    (last : indexedBy next.trace key = indexedBy pool.trace key)
    (recorded : ∀ id sessionId, Recorder pool.trace id sessionId → Recorder next.trace id sessionId)
    (pending : ∀ id sessionId, ledgers id = .inserted sessionId key → ledgersThen id = .inserted sessionId key)
    (covered : ∀ session, Covered pool.world ledgers session key → Covered next.world ledgersThen session key) :
    (∃ id sessionId, ledgersThen id = .inserted sessionId key) ∨
      ∃ id sessionId, indexedBy next.trace key = some id ∧ Recorder next.trace id sessionId ∧
        Covered next.world ledgersThen (Str.trim sessionId) key := by
  rcases mirrored.indexed key present with ⟨writer, sessionId, waiting⟩ |
    ⟨writer, sessionId, wrote, recorder, listed⟩
  · exact .inl ⟨writer, sessionId, pending writer sessionId waiting⟩
  · exact .inr ⟨writer, sessionId, last.trans wrote, recorded writer sessionId recorder, covered _ listed⟩

end Kept

/-! ### The steps keep it -/

variable {pool : MirrorPool Entry} {task : MirrorTask Entry} {rest : Program (MapCall Entry) (MapAnswer Entry) Empty Unit}
  {sessionId : Str} {entry : Entry} {ledger : MirrorLedger}

/-- A thread that goes on keeps the others' records, and its own if it has one. -/
theorem Mirrored.recorders_answer (mirrored : Mirrored pool ledgers) {request : MapCall Entry}
    {answer : MapAnswer Entry request} (own : ∀ sessionId key,
      ledger = .opened sessionId key ∨ ledger = .inserted sessionId key → Recorder pool.trace id sessionId)
    (other : Nat) (sessionId key : Str)
    (holds : Function.update ledgers id ledger other = .opened sessionId key ∨
      Function.update ledgers id ledger other = .inserted sessionId key) :
    Recorder (pool.answer id task request answer rest after).trace other sessionId := by
  apply Recorder.append
  by_cases same : other = id
  · subst same
    rw [Function.update_self] at holds
    exact own sessionId key holds
  · rw [Function.update_of_ne same] at holds
    exact mirrored.recorders other sessionId key holds

theorem Mirrored.ended_answer (mirrored : Mirrored pool ledgers) {request : MapCall Entry}
    {answer : MapAnswer Entry request} (other : Nat)
    (idle : (pool.answer id task request answer rest after).running other = none) :
    (Function.update ledgers id ledger other).Done := by
  by_cases same : other = id
  · subst same
    rw [Pool.running_answer, Function.update_self] at idle
    cases idle
  · rw [Pool.running_answer, Function.update_of_ne same] at idle
    rw [Function.update_of_ne same]
    exact mirrored.ended other idle

theorem Mirrored.insert (mirrored : Mirrored pool ledgers) (before : ledgers id = .opened sessionId key) :
    Mirrored (pool.answer id task (.insert key entry) () rest (pool.world.insert key entry))
      (Function.update ledgers id (.inserted sessionId key)) := by
  have covered {session other : Str} (covered : Covered pool.world ledgers session other) :
      Covered (pool.world.insert key entry) (Function.update ledgers id (.inserted sessionId key))
        session other := by
    apply covered.step (fun _ listed => listed)
    intro _ _ evicting
    cases before.symm.trans evicting
  have recorder := mirrored.recorders id sessionId key (.inl before)
  refine ⟨mirrored.ended_answer, mirrored.recorders_answer ?_, ?_, ?_⟩
  · intro _ _ holds
    rcases holds with holds | holds
    · cases holds
    · cases holds
      exact recorder
  · intro other present
    rw [Pool.trace_answer, insertedBy_insert]
    split
    · rename_i same
      subst same
      exact ⟨id, sessionId, rfl, recorder.append _, .inl (Function.update_self ..)⟩
    · rename_i apart
      have presentBefore : pool.world.inner other ≠ none := by
        simpa [Function.update_of_ne (Ne.symm apart)] using present
      obtain ⟨writer, session, last, recorded, pending | listed⟩ := mirrored.inserted other presentBefore
      · have different : writer ≠ id := by
          rintro rfl
          cases before.symm.trans pending
        refine ⟨writer, session, last, recorded.append _, .inl ?_⟩
        rw [Function.update_of_ne different, pending]
      · exact ⟨writer, session, last, recorded.append _, .inr (covered listed)⟩
  · intro other present
    by_cases same : other = key
    · subst same
      exact .inl ⟨id, sessionId, Function.update_self ..⟩
    · have presentBefore : pool.world.inner other ≠ none := by
        simpa [Function.update_of_ne same] using present
      exact mirrored.indexed_kept presentBefore (indexedBy_append nofun) (fun _ _ recorded => recorded.append _)
        (fun _ _ => Threads.ledger_kept (by simp [before])) fun _ => covered

theorem Mirrored.index (mirrored : Mirrored pool ledgers) (before : ledgers id = .inserted sessionId key) :
    Mirrored (pool.answer id task (.index (Str.trim sessionId) key) () rest
      (pool.world.index (Str.trim sessionId) key)) (Function.update ledgers id .settled) := by
  have covered {session other : Str} (covered : Covered pool.world ledgers session other) :
      Covered (pool.world.index (Str.trim sessionId) key) (Function.update ledgers id .settled)
        session other := by
    apply covered.step (fun _ listed => SessionMaps.mem_indexed_index.mpr (.inr listed))
    intro _ _ evicting
    cases before.symm.trans evicting
  have now : Covered (pool.world.index (Str.trim sessionId) key) (Function.update ledgers id .settled)
      (Str.trim sessionId) key :=
    .inl (SessionMaps.mem_indexed_index.mpr (.inl ⟨rfl, rfl⟩))
  have recorder := mirrored.recorders id sessionId key (.inr before)
  refine ⟨mirrored.ended_answer, mirrored.recorders_answer ?_, ?_, ?_⟩
  · intro _ _ holds
    rcases holds with holds | holds <;> cases holds
  · intro other present
    refine mirrored.inserted_kept present (insertedBy_append nofun) (fun _ _ recorded => recorded.append _) ?_
      fun _ => covered
    intro writer session pending
    by_cases same : writer = id
    · subst same
      obtain ⟨rfl, rfl⟩ := MirrorLedger.inserted.inj (before.symm.trans pending)
      exact .inr now
    · exact .inl (by rw [Function.update_of_ne same, pending])
  · intro other present
    rw [Pool.trace_answer, indexedBy_index]
    split
    · rename_i same
      subst same
      exact .inr ⟨id, sessionId, rfl, recorder.append _, now⟩
    · rename_i apart
      rcases mirrored.indexed other present with ⟨writer, session, pending⟩ |
        ⟨writer, session, last, recorded, listed⟩
      · have different : writer ≠ id := by
          rintro rfl
          exact apart (MirrorLedger.inserted.inj (before.symm.trans pending)).2
        exact .inl ⟨writer, session, by rw [Function.update_of_ne different, pending]⟩
      · exact .inr ⟨writer, session, last, recorded.append _, covered listed⟩

theorem Mirrored.unindex (mirrored : Mirrored pool ledgers) (before : ledgers id = .clearing sessionId)
    {keys : Option (List Str)}
    (all : ∀ key, key ∈ keys.getD [] ↔ key ∈ pool.world.indexed (Str.trim sessionId)) :
    Mirrored (pool.answer id task (.unindex (Str.trim sessionId)) keys rest
      (pool.world.unindex (Str.trim sessionId)))
      (Function.update ledgers id (.evicting sessionId (keys.getD []))) := by
  have covered {session other : Str} (covered : Covered pool.world ledgers session other) :
      Covered (pool.world.unindex (Str.trim sessionId))
        (Function.update ledgers id (.evicting sessionId (keys.getD []))) session other := by
    rcases covered with listed | ⟨evictor, cleared, left, evicting, trimmed, member⟩
    · by_cases same : session = Str.trim sessionId
      · subst same
        exact .inr ⟨id, sessionId, _, Function.update_self .., rfl, (all other).mpr listed⟩
      · exact .inl (SessionMaps.mem_indexed_unindex.mpr ⟨same, listed⟩)
    · have different : evictor ≠ id := by
        rintro rfl
        cases before.symm.trans evicting
      refine .inr ⟨evictor, cleared, left, ?_, trimmed, member⟩
      rw [Function.update_of_ne different, evicting]
  have idle (session other : Str) : ledgers id ≠ .inserted session other := by simp [before]
  refine ⟨mirrored.ended_answer, mirrored.recorders_answer ?_, ?_, ?_⟩
  · intro _ _ holds
    rcases holds with holds | holds <;> cases holds
  · intro other present
    exact mirrored.inserted_kept present (insertedBy_append nofun) (fun _ _ recorded => recorded.append _)
      (fun _ session pending => .inl (Threads.ledger_kept (idle session other) pending)) fun _ => covered
  · intro other present
    exact mirrored.indexed_kept present (indexedBy_append nofun) (fun _ _ recorded => recorded.append _)
      (fun _ session => Threads.ledger_kept (idle session other)) fun _ => covered

theorem Mirrored.remove (mirrored : Mirrored pool ledgers) {keys : List Str}
    (before : ledgers id = .evicting sessionId keys) (first : keys.head? = some key) :
    Mirrored (pool.answer id task (.remove key) () rest (pool.world.remove key))
      (Function.update ledgers id (.evicting sessionId keys.tail)) := by
  obtain ⟨rest, rfl⟩ := List.head?_eq_some_iff.mp first
  have covered {session other : Str} (apart : other ≠ key)
      (covered : Covered pool.world ledgers session other) :
      Covered (pool.world.remove key) (Function.update ledgers id (.evicting sessionId rest))
        session other := by
    apply covered.step (fun _ listed => listed)
    intro cleared left evicting member
    obtain ⟨rfl, rfl⟩ := MirrorLedger.evicting.inj (before.symm.trans evicting)
    exact ⟨rest, rfl, (List.mem_cons.mp member).resolve_left apart⟩
  have idle (session other : Str) : ledgers id ≠ .inserted session other := by simp [before]
  have presentBefore {other : Str} (present : (pool.world.remove key).inner other ≠ none) :
      other ≠ key ∧ pool.world.inner other ≠ none := by
    by_cases same : other = key
    · subst same
      simp at present
    · exact ⟨same, by simpa [Function.update_of_ne same] using present⟩
  refine ⟨mirrored.ended_answer, mirrored.recorders_answer ?_, ?_, ?_⟩
  · intro _ _ holds
    rcases holds with holds | holds <;> cases holds
  · intro other present
    obtain ⟨apart, there⟩ := presentBefore present
    exact mirrored.inserted_kept there (insertedBy_append nofun) (fun _ _ recorded => recorded.append _)
      (fun _ session pending => .inl (Threads.ledger_kept (idle session other) pending)) fun _ => covered apart
  · intro other present
    obtain ⟨apart, there⟩ := presentBefore present
    exact mirrored.indexed_kept there (indexedBy_append nofun) (fun _ _ recorded => recorded.append _)
      (fun _ session => Threads.ledger_kept (idle session other)) fun _ => covered apart

end Invariant

/-! ### Every run -/

section Runs

variable {pool : MirrorPool Entry} {ledgers : Nat → MirrorLedger} {id : Nat}

/-- What a thread that has nothing left to do contributes. -/
theorem MirrorLedger.Done.spent {ledger : MirrorLedger} (done : ledger.Done) {sessionId key : Str} :
    ledger ≠ .inserted sessionId key ∧ ∀ keys, ledger = .evicting sessionId keys → key ∉ keys := by
  rcases done with rfl | ⟨cleared, rfl⟩
  · exact ⟨nofun, nofun⟩
  · refine ⟨nofun, ?_⟩
    intro keys same
    cases same
    exact List.not_mem_nil

theorem Mirrored.start (mirrored : Mirrored pool ledgers) {task : MirrorTask Entry} (fresh : pool.Fresh id) :
    Mirrored (pool.start id task task.program) (Function.update ledgers id (.opening task)) := by
  have done := mirrored.ended id fresh.1
  have covered {session key : Str} (covered : Covered pool.world ledgers session key) :
      Covered pool.world (Function.update ledgers id (.opening task)) session key := by
    apply covered.step (fun _ listed => listed)
    intro sessionId keys evicting member
    exact absurd member (done.spent.2 keys evicting)
  refine ⟨?_, ?_, ?_, ?_⟩
  · intro other idle
    by_cases same : other = id
    · subst same
      rw [Pool.running_start, Function.update_self] at idle
      cases idle
    · rw [Pool.running_start, Function.update_of_ne same] at idle
      rw [Function.update_of_ne same]
      exact mirrored.ended other idle
  · intro other sessionId key holds
    by_cases same : other = id
    · subst same
      rw [Function.update_self] at holds
      cases task with
      | record session localKey entry =>
        rcases holds with holds | holds
        · cases holds
          exact ⟨_, entry, List.mem_append_right _ (List.mem_singleton_self _)⟩
        · cases holds
      | clear session => rcases holds with holds | holds <;> cases holds
    · rw [Function.update_of_ne same] at holds
      exact (mirrored.recorders other sessionId key holds).append _
  · intro key present
    exact mirrored.inserted_kept present (insertedBy_append nofun) (fun _ _ recorded => recorded.append _)
      (fun _ _ pending => .inl (Threads.ledger_kept done.spent.1 pending)) fun _ => covered
  · intro key present
    exact mirrored.indexed_kept present (indexedBy_append nofun) (fun _ _ recorded => recorded.append _)
      (fun _ _ => Threads.ledger_kept done.spent.1) fun _ => covered

theorem Mirrored.finish (mirrored : Mirrored pool ledgers) (done : (ledgers id).Done) :
    Mirrored (pool.finish id ()) ledgers := by
  refine ⟨?_, ?_, ?_, ?_⟩
  · intro other idle
    by_cases same : other = id
    · exact same ▸ done
    · rw [Pool.running_finish, Function.update_of_ne same] at idle
      exact mirrored.ended other idle
  · intro other sessionId key holds
    exact (mirrored.recorders other sessionId key holds).append _
  · intro key present
    exact mirrored.inserted_kept present (insertedBy_append nofun) (fun _ _ recorded => recorded.append _)
      (fun _ _ pending => .inl pending) fun _ covered => covered
  · intro key present
    exact mirrored.indexed_kept present (indexedBy_append nofun) (fun _ _ recorded => recorded.append _)
      (fun _ _ pending => pending) fun _ covered => covered

/-- Every allowed call is one of the four steps. -/
theorem Mirrored.answer (mirrored : Mirrored pool ledgers) {task : MirrorTask Entry} {request : MapCall Entry}
    {answer : MapAnswer Entry request} {rest : Program (MapCall Entry) (MapAnswer Entry) Empty Unit}
    {world : SessionMaps Entry} (allowed : mirrorDiscipline.allows (ledgers id) request)
    (answered : MapAnswers request pool.world answer world) :
    Mirrored (pool.answer id task request answer rest world)
      (Function.update ledgers id (mirrorDiscipline.after (ledgers id) request answer)) := by
  cases before : ledgers id with
  | opened sessionId localKey =>
    rw [before] at allowed
    cases request with
    | insert key entry =>
      obtain rfl : key = localKey := allowed
      obtain rfl : world = _ := answered
      exact mirrored.insert before
    | _ => exact allowed.elim
  | inserted sessionId localKey =>
    rw [before] at allowed
    cases request with
    | index session key =>
      obtain ⟨rfl, rfl⟩ : session = _ ∧ key = localKey := allowed
      obtain rfl : world = _ := answered
      exact mirrored.index before
    | _ => exact allowed.elim
  | clearing sessionId =>
    rw [before] at allowed
    cases request with
    | unindex session =>
      obtain rfl : session = _ := allowed
      obtain ⟨all, rfl⟩ := answered
      exact mirrored.unindex before all
    | _ => exact allowed.elim
  | evicting sessionId keys =>
    rw [before] at allowed
    cases request with
    | remove key =>
      obtain rfl : world = _ := answered
      exact mirrored.remove before allowed
    | _ => cases keys <;> exact allowed.elim
  | settled =>
    rw [before] at allowed
    cases request <;> exact allowed.elim

theorem mirrored_reachable (reached : (mirrorThreads Entry).runs.Reachable pool) :
    ∃ ledgers, Mirrored pool ledgers := by
  have invariant : ∃ ledgers, Mirrored pool ledgers ∧
      Threads.Keeps mirrorDiscipline (fun _ left _ => left.Done) pool ledgers := by
    apply Threads.invariant MirrorLedger.opening Mirrored _ _ _ _ _ reached
    · intro task
      exact (obeys_program task).mono fun _ _ ended => ended
    · intro pool start
      obtain ⟨empty, idle, trace⟩ := start
      refine ⟨fun _ => .settled, fun _ _ => .inl rfl, ?_, ?_, ?_⟩
      · intro _ _ _ holds
        rcases holds with holds | holds <;> cases holds
      · intro key present
        rw [empty] at present
        exact absurd rfl present
      · intro key present
        rw [empty] at present
        exact absurd rfl present
    · intro pool ledgers id task mirrored fresh may
      exact mirrored.start fresh
    · intro pool ledgers id task request next answer world mirrored here allowed answered
      exact mirrored.answer allowed answered
    · intro pool ledgers id task result mirrored here ended
      exact mirrored.finish ended
  obtain ⟨ledgers, mirrored, -⟩ := invariant
  exact ⟨ledgers, mirrored⟩

theorem run_evict {maps : SessionMaps Entry} {keys : List Str} {calls : Nat} {key : Str}
    (gone : key ∈ keys ∨ maps.inner key = none) :
    ((evict Program.ask keys : Program (MapCall Entry) (MapAnswer Entry) Empty Unit).run (fun _ => serveMaps)
      calls maps).world.inner key = none := by
  induction keys generalizing maps calls with
  | nil => exact gone.resolve_left List.not_mem_nil
  | cons first rest ih =>
    apply ih
    by_cases same : key = first
    · subst same
      exact .inr (Function.update_self ..)
    · rcases gone with member | absent
      · exact .inl ((List.mem_cons.mp member).resolve_left same)
      · exact .inr ((Function.update_of_ne same _ _).trans absent)

/-- A clear that runs alone removes every key that the index lists for its session. -/
theorem run_clearLocal {maps : SessionMaps Entry} {sessionId key : Str}
    (listed : key ∈ maps.indexed (Str.trim sessionId)) :
    ((clearLocal Program.ask sessionId : Program (MapCall Entry) (MapAnswer Entry) Empty Unit).run
      (fun _ => serveMaps) 0 maps).world.inner key = none := by
  cases found : maps.sessionIndex (Str.trim sessionId) with
  | none =>
    rw [SessionMaps.indexed, found] at listed
    cases listed
  | some keys =>
    rw [SessionMaps.indexed, found] at listed
    simp only [clearLocal, Program.ask_bind, Program.run_call, serveMaps, found]
    exact run_evict (.inl listed)

/-- When no task is running, every key of the entry map is listed in the index of the session
that recorded it last, whether the last insertion or the last indexing counts, and a clear of
that session removes it. -/
theorem entries_clearable (reached : (mirrorThreads Entry).runs.Reachable pool) (idle : pool.Idle)
    {key : Str} (present : pool.world.inner key ≠ none) :
    (∃ id sessionId, insertedBy pool.trace key = some id ∧ Recorder pool.trace id sessionId) ∧
    ∀ id sessionId, (insertedBy pool.trace key = some id ∨ indexedBy pool.trace key = some id) →
      Recorder pool.trace id sessionId →
      key ∈ pool.world.indexed (Str.trim sessionId) ∧
        ((clearLocal Program.ask sessionId : Program (MapCall Entry) (MapAnswer Entry) Empty Unit).run
          (fun _ => serveMaps) 0 pool.world).world.inner key = none := by
  obtain ⟨ledgers, mirrored⟩ := mirrored_reachable reached
  have listed {session : Str} (covered : Covered pool.world ledgers session key) :
      key ∈ pool.world.indexed session := by
    rcases covered with listed | ⟨id, sessionId, keys, evicting, -, member⟩
    · exact listed
    · exact absurd member ((mirrored.ended id (idle id)).spent.2 keys evicting)
  have same {id : Nat} {sessionId other : Str} (one : Recorder pool.trace id sessionId)
      (two : Recorder pool.trace id other) : sessionId = other := by
    obtain ⟨localKey, entry, first⟩ := one
    obtain ⟨otherKey, otherEntry, second⟩ := two
    cases Threads.started_unique reached first second
    rfl
  obtain ⟨writer, session, last, recorded, standing⟩ := mirrored.inserted key present
  have insertedListed := standing.resolve_left fun pending => (mirrored.ended writer (idle writer)).spent.1 pending
  refine ⟨⟨writer, session, last, recorded⟩, ?_⟩
  intro id sessionId lastly recorder
  have listedHere : key ∈ pool.world.indexed (Str.trim sessionId) := by
    rcases lastly with insertedLast | indexedLast
    · obtain rfl := Option.some.inj (last.symm.trans insertedLast)
      exact same recorded recorder ▸ listed insertedListed
    · rcases mirrored.indexed key present with ⟨other, otherSession, pending⟩ |
        ⟨other, otherSession, indexedThen, recordedThen, covered⟩
      · exact absurd pending (mirrored.ended other (idle other)).spent.1
      · obtain rfl := Option.some.inj (indexedThen.symm.trans indexedLast)
        exact same recordedThen recorder ▸ listed covered
  exact ⟨listedHere, run_clearLocal listedHere⟩

/-- A record that has returned leaves its key where a clear of its session finds it. -/
theorem entries_clearable_once : ∃ (pool : MirrorPool Unit) (id : Nat) (sessionId : Str),
    (mirrorThreads Unit).runs.Reachable pool ∧ insertedBy pool.trace "s::/repo" = some id ∧
    Recorder pool.trace id sessionId ∧ "s::/repo".toList ∈ pool.world.indexed (Str.trim sessionId) := by
  have start : (mirrorThreads Unit).runs.Reachable ⟨.empty, fun _ => none, []⟩ :=
    .start ⟨rfl, fun _ => rfl, rfl⟩
  have served (calls : Nat) (request : MapCall Unit) (world : SessionMaps Unit) :
      (mirrorThreads Unit).answers 0 request world (serveMaps request world).1 (serveMaps request world).2 :=
    mapAnswers_serveMaps request world
  have ran : ((mirrorThreads Unit).program (.record "s" "s::/repo" ())).run (fun _ => serveMaps) 0 .empty =
      ⟨.ok (), 2, (SessionMaps.empty.insert "s::/repo" ()).index (Str.trim "s") "s::/repo"⟩ := rfl
  obtain ⟨moments, -, recorded⟩ := Threads.starts_alone served start _ ⟨rfl, fun _ => List.not_mem_nil⟩
    trivial ran rfl
  have present : ((SessionMaps.empty.insert "s::/repo" ()).index (Str.trim "s") "s::/repo").inner
      "s::/repo" ≠ none := by
    rw [SessionMaps.inner_index, SessionMaps.inner_insert, Function.update_self]
    exact Option.some_ne_none ()
  obtain ⟨⟨id, sessionId, last, recorder⟩, listed⟩ := entries_clearable recorded (fun _ => rfl) present
  exact ⟨_, id, sessionId, recorded, last, recorder, (listed id sessionId (.inl last) recorder).1⟩

end Runs
end SkillLayer.McpServer

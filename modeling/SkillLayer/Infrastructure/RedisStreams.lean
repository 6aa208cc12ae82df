import SkillLayer.Collect
import SkillLayer.EventStream
import SkillLayer.GraphBuilder.MainLoop
import SkillLayer.Program

/-! The adapter of the event bus: reads through the consumer group with recovery of a lost group,
acknowledgements, and what Redis answers. -/

namespace SkillLayer.Infrastructure

open GraphBuilder

abbrev EntryFields := List (Str × Str)

/-- The value of a field; a later field of the same name replaces an earlier one. -/
def EntryFields.get (fields : EntryFields) (name : Str) : Option Str := fields.reverse.lookup name

structure StreamMessage where
  streamId : Nat
  envelope : EventEnvelope

structure RedisError where
  code : Option Str
  detail : Str

inductive RedisStreamError where
  | consumerGroupInitialization (code detail : Str)
  | unexpectedAckCount (streamId : Nat) (actual : Int)
  | redis (error : RedisError)
  | serialization (error : Str)

/-! ### Calls -/

inductive StreamCall where
  | connect
  | readPending (count : Nat)
  | readFresh (count blockMs : Nat)
  | createGroup
  | ack (streamId : Nat)

@[reducible] def StreamAnswer : StreamCall → Type
  | .connect => Except RedisError Unit
  | .readPending _ => Except RedisError (List (Nat × EntryFields))
  | .readFresh _ _ => Except RedisError (List (Nat × EntryFields))
  | .createGroup => Except RedisError Unit
  | .ack _ => Except RedisError Int

abbrev StreamProgram (Result : Type) := Program StreamCall StreamAnswer RedisStreamError Result

/-- Go on with an answer, or fail with the error of Redis. -/
def answered {Result : Type} : Except RedisError Result → StreamProgram Result
  | .ok result => .done result
  | .error error => .fail (.redis error)

/-! ### The adapter

Decoding an envelope is a parameter. -/

section Adapter

variable (decode : Str → Except Str EventEnvelope)

def parseEntry (entry : Nat × EntryFields) : Except RedisStreamError (List StreamMessage) :=
  match entry.2.get "envelope" with
  | none => .ok []
  | some raw =>
    match decode raw with
    | .ok envelope => .ok [⟨entry.1, envelope⟩]
    | .error error => .error (.serialization error)

/-- Entries without an envelope are passed over; one that does not decode fails the whole reply. -/
def parseStreamReply (reply : List (Nat × EntryFields)) : Except RedisStreamError (List StreamMessage) :=
  collect (parseEntry decode) reply

def connection : StreamProgram Unit := do answered (← Program.ask .connect)

def validateAckCount (streamId : Nat) (ackCount : Int) : Except RedisStreamError Unit :=
  if ackCount = 1 then .ok () else .error (.unexpectedAckCount streamId ackCount)

def ensureConsumerGroup : StreamProgram Unit := do
  connection
  let created : Except RedisError Unit ← Program.ask StreamCall.createGroup
  match created with
  | .ok _ => return ()
  | .error error =>
    if error.code = some ("BUSYGROUP" : Str) then return ()
    else .fail (.consumerGroupInitialization (error.code.getD "UNKNOWN") error.detail)

/-- The pending entries of this consumer first, then fresh ones. -/
def readGroupOnce (count blockMs : Nat) : StreamProgram (List StreamMessage) := do
  connection
  let pendingReply ← answered (← Program.ask (.readPending count))
  let pending ← Program.ofExcept (parseStreamReply decode pendingReply)
  if !pending.isEmpty then return pending
  let freshReply ← answered (← Program.ask (.readFresh count blockMs))
  Program.ofExcept (parseStreamReply decode freshReply)

def RedisStreamError.isNoGroup : RedisStreamError → Bool
  | .redis error => error.code = some ("NOGROUP" : Str)
  | _ => false

/-- Where the group is gone it is created again, and the read retried once. -/
def readGroup (count blockMs : Nat) : StreamProgram (List StreamMessage) := do
  match ← (readGroupOnce decode count blockMs).outcome with
  | .ok messages => return messages
  | .error error =>
    if error.isNoGroup then do
      ensureConsumerGroup
      readGroupOnce decode count blockMs
    else .fail error

def ack (streamId : Nat) : StreamProgram Unit := do
  connection
  let ackCount ← answered (← Program.ask (.ack streamId))
  Program.ofExcept (validateAckCount streamId ackCount)

end Adapter

/-! ### Redis -/

def noGroup : RedisError := ⟨some "NOGROUP", "No such key or consumer group"⟩

def busyGroup : RedisError := ⟨some "BUSYGROUP", "Consumer Group name already exists"⟩

/-- What a reply says of an entry; one that is gone comes without fields. -/
def replyEntry (stream : EventStream EntryFields) (id : Nat) : Nat × EntryFields :=
  (id, (stream.entry id).getD [])

/-- The answer of Redis, and the stream after the command. -/
def serveStream : (request : StreamCall) → EventStream EntryFields → StreamAnswer request × EventStream EntryFields
  | .connect, stream => (.ok (), stream)
  | .readPending count, stream =>
    match stream.group with
    | none => (.error noGroup, stream)
    | some group => (.ok ((Backlog.window count group.pending).map (replyEntry stream)), stream)
  | .readFresh count _, stream =>
    match stream.group with
    | none => (.error noGroup, stream)
    | some group =>
      (.ok ((stream.nextFor count group).map (replyEntry stream)), stream.withGroup (stream.readFresh count group))
  | .createGroup, stream =>
    match stream.group with
    | none => (.ok (), stream.withGroup .atStart)
    | some _ => (.error busyGroup, stream)
  | .ack id, stream =>
    match stream.group with
    | none => (.ok 0, stream)
    | some group => (.ok (if id ∈ group.pending then 1 else 0), stream.withGroup (group.acknowledge id))

/-! ### Replies -/

section Replies

variable {decode : Str → Except Str EventEnvelope} {stream : EventStream EntryFields}

/-- What becomes of an entry when it is read. -/
def entryKind (decode : Str → Except Str EventEnvelope) (stream : EventStream EntryFields) (id : Nat) : ItemKind :=
  match parseEntry decode (replyEntry stream id) with
  | .ok [] => .skipped
  | .ok _ => .good
  | .error _ => .poison

def parsed (decode : Str → Except Str EventEnvelope) (stream : EventStream EntryFields) (ids : List Nat) :
    Except RedisStreamError (List StreamMessage) :=
  parseStreamReply decode (ids.map (replyEntry stream))

theorem parsed_of_poisoned {ids : List Nat}
    (poisoned : Backlog.poisoned (entryKind decode stream) ids = true) :
    ∃ error, parsed decode stream ids = .error error := by
  obtain ⟨id, member, isPoison⟩ := List.any_eq_true.mp poisoned
  cases result : parsed decode stream ids with
  | error error => exact ⟨error, rfl⟩
  | ok messages =>
    obtain ⟨each, -⟩ := collect_eq_ok.mp result
    obtain ⟨more, decoded⟩ := each _ (List.mem_map_of_mem member)
    rw [decide_eq_true_eq, entryKind, decoded] at isPoison
    cases more <;> cases isPoison

theorem ids_of_parseEntry {entry : Nat × EntryFields} {messages : List StreamMessage}
    (result : parseEntry decode entry = .ok messages) :
    messages.map StreamMessage.streamId = if messages.isEmpty then [] else [entry.1] := by
  unfold parseEntry at result
  split at result
  · cases result
    rfl
  · split at result
    · cases result
      rfl
    · cases result

theorem parsed_of_clean {ids : List Nat}
    (clean : Backlog.poisoned (entryKind decode stream) ids = false) :
    ∃ messages, parsed decode stream ids = .ok messages ∧
      messages.map StreamMessage.streamId = Backlog.goods (entryKind decode stream) ids := by
  have each (id : Nat) (member : id ∈ ids) : ∃ more, parseEntry decode (replyEntry stream id) = .ok more := by
    have notPoison := List.any_eq_false.mp clean id member
    rw [decide_eq_true_eq, entryKind] at notPoison
    cases result : parseEntry decode (replyEntry stream id) with
    | ok more => exact ⟨more, rfl⟩
    | error error =>
      rw [result] at notPoison
      exact absurd rfl notPoison
  refine ⟨_, collect_eq_ok.mpr ⟨fun entry member => ?_, rfl⟩, ?_⟩
  · obtain ⟨id, listed, rfl⟩ := List.mem_map.mp member
    exact each id listed
  · clear clean
    induction ids with
    | nil => rfl
    | cons id rest ih =>
      obtain ⟨more, result⟩ := each id List.mem_cons_self
      have here : more.map StreamMessage.streamId = Backlog.goods (entryKind decode stream) [id] := by
        rw [ids_of_parseEntry result, Backlog.goods, List.filter_singleton, entryKind, result]
        cases more <;> rfl
      rw [List.map_cons, List.flatMap_cons, List.map_append, yielded, result, here,
        ih fun other member => each other (List.mem_cons_of_mem _ member), ← Backlog.goods_append]
      rfl

end Replies

/-! ### Reads against Redis -/

section Reads

variable {decode : Str → Except Str EventEnvelope} {count blockMs : Nat} {stream : EventStream EntryFields}

/-- What a read of the group yields, and the stream after it. -/
def readOnce (decode : Str → Except Str EventEnvelope) (count : Nat) (stream : EventStream EntryFields)
    (group : ConsumerGroup) : Except RedisStreamError (List StreamMessage) × EventStream EntryFields :=
  match parsed decode stream (Backlog.window count group.pending) with
  | .error error => (.error error, stream)
  | .ok (message :: rest) => (.ok (message :: rest), stream)
  | .ok [] =>
    (parsed decode stream (stream.nextFor count group), stream.withGroup (stream.readFresh count group))

theorem readOnce_stuck {group : ConsumerGroup}
    (stuck : Backlog.poisoned (entryKind decode stream) (Backlog.window count group.pending) = true) :
    ∃ error, readOnce decode count stream group = (.error error, stream) := by
  obtain ⟨error, failed⟩ := parsed_of_poisoned stuck
  exact ⟨error, by rw [readOnce, failed]⟩

theorem readOnce_pending {group : ConsumerGroup}
    (clean : Backlog.poisoned (entryKind decode stream) (Backlog.window count group.pending) = false)
    (busy : Backlog.goods (entryKind decode stream) (Backlog.window count group.pending) ≠ []) :
    ∃ messages, readOnce decode count stream group = (.ok messages, stream) ∧
      messages.map StreamMessage.streamId =
        Backlog.goods (entryKind decode stream) (Backlog.window count group.pending) := by
  obtain ⟨messages, read, ids⟩ := parsed_of_clean clean
  refine ⟨messages, ?_, ids⟩
  cases messages with
  | nil => exact absurd ids.symm busy
  | cons message rest => rw [readOnce, read]

theorem readOnce_fresh {group : ConsumerGroup}
    (clean : Backlog.poisoned (entryKind decode stream) (Backlog.window count group.pending) = false)
    (idle : Backlog.goods (entryKind decode stream) (Backlog.window count group.pending) = []) :
    readOnce decode count stream group =
      (parsed decode stream (stream.nextFor count group), stream.withGroup (stream.readFresh count group)) := by
  obtain ⟨messages, read, ids⟩ := parsed_of_clean clean
  rw [idle, List.map_eq_nil_iff] at ids
  rw [readOnce, read, ids]

theorem run_readGroupOnce {group : ConsumerGroup} (here : stream.group = some group) (calls : Nat) :
    ∃ later, (readGroupOnce decode count blockMs).run (fun _ => serveStream) calls stream =
      ⟨(readOnce decode count stream group).1, later, (readOnce decode count stream group).2⟩ := by
  have pendingReply : serveStream (.readPending count) stream =
      (.ok ((Backlog.window count group.pending).map (replyEntry stream)), stream) := by
    simp only [serveStream, here]
  have freshReply : serveStream (.readFresh count blockMs) stream =
      (.ok ((stream.nextFor count group).map (replyEntry stream)),
        stream.withGroup (stream.readFresh count group)) := by
    simp only [serveStream, here]
  have connected : serveStream .connect stream = (.ok (), stream) := rfl
  unfold readGroupOnce connection readOnce
  simp only [Program.ask_bind, Program.bind_call, Program.run_call, connected, answered, Program.bind_done, pendingReply]
  change ∃ later, Program.run _ (Program.ofExcept (parsed decode stream (Backlog.window count group.pending)) >>= _)
    (calls + 2) stream = _
  cases parsed decode stream (Backlog.window count group.pending) with
  | error error => exact ⟨_, rfl⟩
  | ok messages =>
    cases messages with
    | cons message rest => exact ⟨_, rfl⟩
    | nil =>
      change ∃ later, Program.run _ (Program.call (.readFresh count blockMs) fun freshReply =>
        answered freshReply >>= fun reply => Program.ofExcept (parseStreamReply decode reply)) (calls + 2) stream = _
      rw [Program.run_call, freshReply]
      change ∃ later, Program.run _ (Program.ofExcept (parsed decode stream (stream.nextFor count group)))
        (calls + 3) _ = _
      cases parsed decode stream (stream.nextFor count group) with
      | error error => exact ⟨_, rfl⟩
      | ok messages => exact ⟨_, rfl⟩

theorem isNoGroup_parseEntry {entry : Nat × EntryFields} {error : RedisStreamError}
    (failed : parseEntry decode entry = .error error) : error.isNoGroup = false := by
  unfold parseEntry at failed
  split at failed
  · cases failed
  · split at failed
    · cases failed
    · cases failed
      rfl

theorem isNoGroup_parsed {ids : List Nat} {error : RedisStreamError}
    (failed : parsed decode stream ids = .error error) : error.isNoGroup = false := by
  obtain ⟨entry, -, state, broken⟩ := foldlM_fails failed
  cases result : parseEntry decode entry with
  | error other =>
    rw [result] at broken
    cases broken
    exact isNoGroup_parseEntry result
  | ok more =>
    rw [result] at broken
    cases broken

theorem isNoGroup_readOnce {group : ConsumerGroup} {error : RedisStreamError}
    (failed : (readOnce decode count stream group).1 = .error error) : error.isNoGroup = false := by
  unfold readOnce at failed
  split at failed
  · rename_i other broken
    cases failed
    exact isNoGroup_parsed broken
  · cases failed
  · exact isNoGroup_parsed failed

/-- A read of the group, which is created at the start of the stream where it is missing. -/
theorem run_readGroup (calls : Nat) :
    ∃ later, (readGroup decode count blockMs).run (fun _ => serveStream) calls stream =
      ⟨(readOnce decode count stream.ensureGroup (stream.group.getD .atStart)).1, later,
        (readOnce decode count stream.ensureGroup (stream.group.getD .atStart)).2⟩ := by
  unfold readGroup
  cases here : stream.group with
  | some group =>
    have same : stream.ensureGroup = stream := by simp only [EventStream.ensureGroup, here]
    obtain ⟨later, ran⟩ := run_readGroupOnce here calls
    rw [same, Option.getD_some, Program.run_bind, Program.run_outcome, ran]
    dsimp only
    cases read : (readOnce decode count stream group).1 with
    | ok messages => exact ⟨later, rfl⟩
    | error error =>
      dsimp only
      rw [isNoGroup_readOnce read]
      exact ⟨later, rfl⟩
  | none =>
    have lost : serveStream (.readPending count) stream = (.error noGroup, stream) := by
      simp only [serveStream, here]
    have created : serveStream .createGroup stream = (.ok (), stream.ensureGroup) := by
      simp only [serveStream, here, EventStream.ensureGroup]
    have failed : (readGroupOnce decode count blockMs).run (fun _ => serveStream) calls stream =
        ⟨.error (.redis noGroup), calls + 2, stream⟩ := by
      have connected : serveStream .connect stream = (.ok (), stream) := rfl
      unfold readGroupOnce connection
      simp only [Program.ask_bind, Program.bind_call, Program.run_call, connected, answered, Program.bind_done, lost,
        Program.bind_fail, Program.run_fail]
    have ensured : ensureConsumerGroup.run (fun _ => serveStream) (calls + 2) stream =
        ⟨.ok (), calls + 4, stream.ensureGroup⟩ := by
      have connected : serveStream .connect stream = (.ok (), stream) := rfl
      unfold ensureConsumerGroup connection
      simp only [Program.ask_bind, Program.bind_call, Program.run_call, connected, answered, Program.bind_done, created]
      rfl
    have grouped : stream.ensureGroup.group = some .atStart := by
      simp only [EventStream.ensureGroup, here]
      rfl
    obtain ⟨later, ran⟩ := run_readGroupOnce grouped (calls + 4)
    refine ⟨later, ?_⟩
    rw [Option.getD_none, Program.run_bind, Program.run_outcome, failed]
    change Program.run _ (ensureConsumerGroup >>= fun _ => readGroupOnce decode count blockMs) (calls + 2) stream = _
    rw [Program.run_bind, ensured]
    exact ran

theorem run_ack (id calls : Nat) :
    ∃ outcome later, (ack id).run (fun _ => serveStream) calls stream =
      ⟨outcome, later, (serveStream (.ack id) stream).2⟩ := by
  have connected : serveStream .connect stream = (.ok (), stream) := rfl
  unfold ack connection
  simp only [Program.ask_bind, Program.bind_call, Program.run_call, connected, answered, Program.bind_done]
  cases (serveStream (.ack id) stream).1 with
  | error error => exact ⟨_, _, rfl⟩
  | ok ackCount =>
    rw [Program.bind_done]
    cases validateAckCount id ackCount with
    | ok nothing => exact ⟨_, _, rfl⟩
    | error error => exact ⟨_, _, rfl⟩

end Reads

end SkillLayer.Infrastructure

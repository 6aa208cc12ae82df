import SkillLayer.McpServer.GraphRefresh

/-! Turns of the subscriber while Redis answers and every reload succeeds: each is one read of the
backlog of unacknowledged entries. -/

namespace SkillLayer.McpServer

open Infrastructure GraphBuilder

variable {decode : Str → Except Str EventEnvelope} {size : Nat} {version : Nat → Int}

/-- Redis answers every command, and every reload succeeds. -/
def serveCalm (version : Nat → Int) (calls : Nat) :
    (request : RefreshCall) → EventStream EntryFields → RefreshAnswer request × EventStream EntryFields
  | .stream request, stream => serveStream request stream
  | .reloadAndSwap, stream => (.ok (version calls), stream)
  | .sleep _, stream => ((), stream)

/-- The group of the subscriber; a missing one is created at the start of the stream. -/
def refreshGroup (stream : EventStream EntryFields) : ConsumerGroup := stream.group.getD .atStart

/-- The entries that the subscriber has not acknowledged. -/
def refreshBacklog (stream : EventStream EntryFields) : Backlog Nat :=
  ⟨(refreshGroup stream).pending, stream.upcoming (refreshGroup stream)⟩

/-! ### Acknowledgements -/

def acknowledged (stream : EventStream EntryFields) (ids : List Nat) : EventStream EntryFields :=
  ids.foldl (fun left id => (serveStream (.ack id) left).2) stream

theorem acknowledged_withGroup (stream : EventStream EntryFields) (group : ConsumerGroup) (ids : List Nat) :
    ∃ left, acknowledged (stream.withGroup group) ids = stream.withGroup left ∧ left.cursor = group.cursor ∧
      left.pending = group.pending.filter fun id => id ∉ ids := by
  induction ids generalizing group with
  | nil => exact ⟨group, rfl, rfl, by simp⟩
  | cons id rest ih =>
    obtain ⟨left, same, cursor, pending⟩ := ih (group.acknowledge id)
    refine ⟨left, same, cursor, ?_⟩
    rw [pending, ConsumerGroup.acknowledge, List.filter_filter]
    exact List.filter_congr fun other _ => by simp [Bool.and_comm]

theorem run_onStream {Result : Type} {program : StreamProgram Result} {stream left : EventStream EntryFields}
    {calls later : Nat} {outcome : Except RedisStreamError Result}
    (ran : program.run (fun _ => serveStream) calls stream = ⟨outcome, later, left⟩) :
    (onStream program).run (serveCalm version) calls stream = ⟨.ok outcome, later, left⟩ := by
  rw [onStream, Program.run_embed]
  change Program.run (fun _ => serveStream) program.outcome calls stream = _
  rw [Program.run_outcome, ran]

theorem run_ackEach (outcome : BatchOutcome) (reloaded : outcome.reloadSucceeded = true)
    (messages : List StreamMessage) (stream : EventStream EntryFields) (calls : Nat) :
    ∃ later, (ackEach outcome messages).run (serveCalm version) calls stream =
      ⟨.ok (), later, acknowledged stream (messages.map StreamMessage.streamId)⟩ := by
  induction messages generalizing stream calls with
  | nil => exact ⟨calls, rfl⟩
  | cons message rest ih =>
    obtain ⟨answer, later, ran⟩ := run_ack message.streamId calls
    obtain ⟨last, done⟩ := ih (serveStream (.ack message.streamId) stream).2 later
    refine ⟨last, ?_⟩
    rw [ackEach, reloaded, Bool.not_true, Bool.and_false, if_neg Bool.false_ne_true, Program.run_bind, run_onStream ran]
    exact done

theorem run_processBatch (messages : List StreamMessage) (stream : EventStream EntryFields) (calls : Nat) :
    ∃ later, (processBatch messages).run (serveCalm version) calls stream =
      ⟨.ok (), later, acknowledged stream (messages.map StreamMessage.streamId)⟩ := by
  unfold processBatch coalescedReload
  split
  · exact run_ackEach ⟨true, true⟩ rfl messages stream (calls + 1)
  · exact run_ackEach ⟨false, true⟩ rfl messages stream calls

/-! ### Turns as reads of the backlog -/

def handedOver : Except RedisStreamError (List StreamMessage) → Option (List Nat)
  | .ok messages => some (messages.map StreamMessage.streamId)
  | .error _ => none

/-- What a calm turn yields and leaves. -/
def calmTurn (decode : Str → Except Str EventEnvelope) (size : Nat) (stream : EventStream EntryFields) :
    Except RedisStreamError (List StreamMessage) × EventStream EntryFields :=
  let read := readOnce decode size (stream.withGroup (refreshGroup stream)) (refreshGroup stream)
  (read.1, acknowledged read.2 ((handedOver read.1).getD []))

theorem turn_calm (subscriber : Subscriber (EventStream EntryFields)) :
    ∃ backoff later, turn decode size (serveCalm version) subscriber =
      ((calmTurn decode size subscriber.world).1, ⟨backoff, later, (calmTurn decode size subscriber.world).2⟩) := by
  obtain ⟨later, ran⟩ := @run_readGroup decode size readBlockMs subscriber.world subscriber.calls
  unfold turn refreshTurn
  rw [Program.run_bind, run_onStream ran, EventStream.ensureGroup_eq, calmTurn, refreshGroup]
  generalize readOnce decode size _ _ = read
  obtain ⟨result, left⟩ := read
  cases result with
  | error error => exact ⟨_, _, rfl⟩
  | ok messages =>
    cases messages with
    | nil => exact ⟨_, _, rfl⟩
    | cons message rest =>
      obtain ⟨last, done⟩ := @run_processBatch version (message :: rest) left later
      refine ⟨backoffInitial, last, ?_⟩
      dsimp only
      rw [List.isEmpty_cons, Bool.not_false, if_pos rfl, Program.run_bind, done]
      rfl

theorem nodup_refreshBacklog (stream : EventStream EntryFields) :
    ((refreshBacklog stream).pending ++ (refreshBacklog stream).fresh).Nodup := by
  refine List.Pairwise.imp Nat.ne_of_lt (List.pairwise_append.mpr
    ⟨(refreshGroup stream).ascending, stream.ascending_upcoming _, fun old pending new fresh => ?_⟩)
  exact Nat.lt_of_lt_of_le ((refreshGroup stream).bounded old pending) (stream.behind_upcoming _ new fresh)

/-- Acknowledging the good ones among some entries of a group leaves the unsettled ones. -/
theorem pending_settled {stream : EventStream EntryFields} {group left : ConsumerGroup} {before items rest : List Nat}
    (whole : group.pending = before ++ (items ++ rest))
    (settled : left.pending = group.pending.filter fun id => id ∉ Backlog.goods (entryKind decode stream) items) :
    left.pending = before ++ (Backlog.unsettled (entryKind decode stream) items ++ rest) := by
  rw [settled, whole]
  refine Backlog.filter_settled (fun id => by simp) ?_
  rw [← whole]
  exact group.ascending.imp Nat.ne_of_lt

/-- A calm turn is a read of the backlog. -/
theorem calmTurn_reads (stream : EventStream EntryFields) :
    handedOver (calmTurn decode size stream).1 = ((refreshBacklog stream).read (entryKind decode stream) size).1 ∧
      ∃ left, (calmTurn decode size stream).2 = stream.withGroup left ∧
        refreshBacklog (stream.withGroup left) = ((refreshBacklog stream).read (entryKind decode stream) size).2 := by
  unfold calmTurn
  cases clean : Backlog.poisoned (entryKind decode stream) (Backlog.window size (refreshBacklog stream).pending) with
  | true =>
    obtain ⟨error, read⟩ := @readOnce_stuck decode size (stream.withGroup (refreshGroup stream)) _ clean
    rw [Backlog.read_stuck clean, read]
    exact ⟨rfl, refreshGroup stream, rfl, rfl⟩
  | false =>
    by_cases idle : Backlog.goods (entryKind decode stream) (Backlog.window size (refreshBacklog stream).pending) = []
    · rw [Backlog.read_fresh clean idle, @readOnce_fresh decode size (stream.withGroup (refreshGroup stream)) _ clean idle]
      have next : (stream.withGroup (refreshGroup stream)).nextFor size (refreshGroup stream) =
          Backlog.window size (refreshBacklog stream).fresh := rfl
      have rest := stream.upcoming_readFresh size (refreshGroup stream)
      dsimp only
      rw [next]
      cases clear : Backlog.poisoned (entryKind decode stream) (Backlog.window size (refreshBacklog stream).fresh) with
      | true =>
        obtain ⟨error, failed⟩ := @parsed_of_poisoned decode (stream.withGroup (refreshGroup stream)) _ clear
        rw [failed, if_pos rfl]
        refine ⟨rfl, stream.readFresh size (refreshGroup stream), rfl, ?_⟩
        exact congrArg (Backlog.mk _) rest
      | false =>
        obtain ⟨messages, read, ids⟩ := @parsed_of_clean decode (stream.withGroup (refreshGroup stream)) _ clear
        obtain ⟨left, same, cursor, pending⟩ := acknowledged_withGroup (stream.withGroup (refreshGroup stream))
          (stream.readFresh size (refreshGroup stream)) (messages.map StreamMessage.streamId)
        rw [read, if_neg Bool.false_ne_true]
        refine ⟨congrArg some ids, left, same, ?_⟩
        have settled := @pending_settled decode stream (stream.readFresh size (refreshGroup stream)) left
          (refreshBacklog stream).pending (Backlog.window size (refreshBacklog stream).fresh) []
          (by rw [List.append_nil]; rfl) (by rw [pending, ids]; rfl)
        rw [List.append_nil] at settled
        exact congrArg₂ Backlog.mk settled ((stream.upcoming_congr cursor).trans rest)
    · obtain ⟨messages, read, ids⟩ := @readOnce_pending decode size (stream.withGroup (refreshGroup stream)) _ clean idle
      obtain ⟨left, same, cursor, pending⟩ := acknowledged_withGroup stream (refreshGroup stream)
        (messages.map StreamMessage.streamId)
      rw [Backlog.read_pending clean idle, read]
      refine ⟨congrArg some ids, left, same, ?_⟩
      have settled := @pending_settled decode stream (refreshGroup stream) left []
        (Backlog.window size (refreshBacklog stream).pending) _
        (Backlog.window_append_drop size _).symm (by rw [pending, ids]; rfl)
      exact congrArg₂ Backlog.mk settled (stream.upcoming_congr cursor)

theorem refreshBacklog_afterTurns (turns : Nat) (subscriber : Subscriber (EventStream EntryFields)) :
    ∃ group, refreshBacklog (afterTurns decode size (serveCalm version) turns subscriber).world =
        (refreshBacklog subscriber.world).after (entryKind decode subscriber.world) size turns ∧
      (afterTurns decode size (serveCalm version) turns subscriber).world =
        { subscriber.world with group := group } := by
  induction turns with
  | zero => exact ⟨subscriber.world.group, rfl, rfl⟩
  | succ turns ih =>
    obtain ⟨group, backlog, world⟩ := ih
    have next : afterTurns decode size (serveCalm version) (turns + 1) subscriber =
        (turn decode size (serveCalm version) (afterTurns decode size (serveCalm version) turns subscriber)).2 :=
      Function.iterate_succ_apply' _ _ _
    have read : (refreshBacklog subscriber.world).after (entryKind decode subscriber.world) size (turns + 1) =
        (((refreshBacklog subscriber.world).after (entryKind decode subscriber.world) size turns).read
          (entryKind decode subscriber.world) size).2 :=
      Function.iterate_succ_apply' _ _ _
    obtain ⟨backoff, later, turned⟩ := @turn_calm decode size version
      (afterTurns decode size (serveCalm version) turns subscriber)
    obtain ⟨-, left, same, reads⟩ := @calmTurn_reads decode size
      (afterTurns decode size (serveCalm version) turns subscriber).world
    have kinds : entryKind decode (afterTurns decode size (serveCalm version) turns subscriber).world =
        entryKind decode subscriber.world := by rw [world]; rfl
    refine ⟨some left, ?_, ?_⟩
    · rw [next, turned, read, ← backlog, ← kinds, ← reads, same]
    · rw [next, turned, same, world]
      rfl

theorem handedOver_turnReport (turns : Nat) (subscriber : Subscriber (EventStream EntryFields)) :
    handedOver (turnReport decode size (serveCalm version) turns subscriber) =
      (refreshBacklog subscriber.world).answer (entryKind decode subscriber.world) size turns := by
  obtain ⟨group, backlog, world⟩ := @refreshBacklog_afterTurns decode size version turns subscriber
  obtain ⟨backoff, later, turned⟩ := @turn_calm decode size version
    (afterTurns decode size (serveCalm version) turns subscriber)
  have kinds : entryKind decode (afterTurns decode size (serveCalm version) turns subscriber).world =
      entryKind decode subscriber.world := by rw [world]; rfl
  rw [turnReport, turned, (calmTurn_reads _).1, backlog, kinds]
  rfl

/-! ### Poisoned entries -/

/-- The entries that the subscriber has still to acknowledge. -/
def unacknowledged (stream : EventStream EntryFields) : List Nat :=
  (refreshBacklog stream).pending ++ (refreshBacklog stream).fresh

/-- A turn passes the entry to `process_batch`. -/
def Processes (report : Except RedisStreamError (List StreamMessage)) (id : Nat) : Prop :=
  ∃ messages, report = .ok messages ∧ id ∈ messages.map StreamMessage.streamId

/-- Finitely many turns process every well-formed entry, and reads do not fail for ever. -/
structure Progresses (decode : Str → Except Str EventEnvelope) (size : Nat) (version : Nat → Int)
    (subscriber : Subscriber (EventStream EntryFields)) : Prop where
  processed : ∃ enough, ∀ id ∈ unacknowledged subscriber.world, entryKind decode subscriber.world id = .good →
    ∃ turns < enough, Processes (turnReport decode size (serveCalm version) turns subscriber) id
  recovers : ∀ turns, ∃ later ≥ turns, ∃ messages,
    turnReport decode size (serveCalm version) later subscriber = .ok messages

theorem handedOver_eq_some {report : Except RedisStreamError (List StreamMessage)} {ids : List Nat} :
    handedOver report = some ids ↔ ∃ messages, report = .ok messages ∧ messages.map StreamMessage.streamId = ids := by
  cases report with
  | error error => simp [handedOver]
  | ok messages => simp [handedOver]

theorem progresses_iff_drains (subscriber : Subscriber (EventStream EntryFields)) :
    Progresses decode size version subscriber ↔
      (refreshBacklog subscriber.world).Drains (entryKind decode subscriber.world) size := by
  have answers := @handedOver_turnReport decode size version
  have processes (turns id : Nat) : Processes (turnReport decode size (serveCalm version) turns subscriber) id ↔
      ∃ ids, (refreshBacklog subscriber.world).answer (entryKind decode subscriber.world) size turns = some ids ∧
        id ∈ ids := by
    simp only [← answers, handedOver_eq_some, Processes]
    constructor
    · rintro ⟨messages, read, member⟩
      exact ⟨_, ⟨messages, read, rfl⟩, member⟩
    · rintro ⟨ids, ⟨messages, read, rfl⟩, member⟩
      exact ⟨messages, read, member⟩
  have reads (turns : Nat) : (∃ messages, turnReport decode size (serveCalm version) turns subscriber = .ok messages) ↔
      (refreshBacklog subscriber.world).answer (entryKind decode subscriber.world) size turns ≠ none := by
    rw [← answers]
    cases turnReport decode size (serveCalm version) turns subscriber <;> simp [handedOver]
  constructor
  · intro progresses
    obtain ⟨enough, processed⟩ := progresses.processed
    constructor
    · intro id member isGood
      obtain ⟨turns, -, done⟩ := processed id member isGood
      obtain ⟨ids, answered, given⟩ := (processes turns id).mp done
      exact ⟨turns, ids, answered, given⟩
    · intro turns
      obtain ⟨later, atLeast, read⟩ := progresses.recovers turns
      exact ⟨later, atLeast, (reads later).mp read⟩
  · intro drains
    constructor
    · obtain ⟨enough, covered⟩ := drains.enough
      refine ⟨enough, fun id member isGood => ?_⟩
      obtain ⟨turns, within, found⟩ := covered id member isGood
      exact ⟨turns, within, (processes turns id).mpr found⟩
    · intro turns
      obtain ⟨later, atLeast, answered⟩ := drains.recovers turns
      exact ⟨later, atLeast, (reads later).mpr answered⟩

/-- The subscriber gets through a stream exactly when its malformed entries leave the others within
reach of the reads. -/
theorem progresses_iff_clear (decode : Str → Except Str EventEnvelope) (size : Nat) (version : Nat → Int)
    (subscriber : Subscriber (EventStream EntryFields)) :
    Progresses decode size version subscriber ↔
      (refreshBacklog subscriber.world).Clear (entryKind decode subscriber.world) size := by
  rw [progresses_iff_drains, Backlog.drains_iff (nodup_refreshBacklog subscriber.world)]

/-- A rebuild event, in the form that the subscriber reads. -/
def rebuiltEvent : EventEnvelope := ⟨[], graphRebuiltEventType, [], "", 1, 0, .object [("graph_version", .number 1)]⟩

/-- A decoder that knows one envelope only. -/
def decodeEvent (raw : Str) : Except Str EventEnvelope :=
  if raw = ("event" : Str) then .ok rebuiltEvent else .error "expected value at line 1 column 1"

/-- An entry that does not decode, and a well-formed one behind it. -/
def poisonedStream : EventStream EntryFields where
  published := [[("envelope", "not json")], [("envelope", "event")]]
  removed := []
  group := none

/-- One entry that does not decode holds back the one behind it for ever. -/
theorem poisonedStream_stuck :
    entryKind decodeEvent poisonedStream 1 = .good ∧
      ¬ Progresses decodeEvent readBatchSize (fun _ => 1) ⟨backoffInitial, 0, poisonedStream⟩ := by
  refine ⟨rfl, fun progresses => ?_⟩
  rw [progresses_iff_drains, Backlog.drains_iff (nodup_refreshBacklog poisonedStream)] at progresses
  have surfaces : Backlog.Surfaces (entryKind decodeEvent poisonedStream) readBatchSize 0 [0, 1] :=
    progresses.fresh 0 rfl
  have reaches : Backlog.Reaches readBatchSize 0 := Or.inr (by decide)
  exact surfaces.1 reaches

end SkillLayer.McpServer

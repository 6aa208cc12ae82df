import SkillLayer.Cluster
import SkillLayer.Infrastructure.OutboxReconciler
import SkillLayer.Infrastructure.OutboxStatements

/-! What every outbox program keeps to, whatever it is answered: a relay claims with empty
hands, writes and marks the events it holds one after the other, and marks an event as
published only after the write for it was acknowledged. -/

namespace SkillLayer.Infrastructure

variable {F : Type} (format : VectorFormat F) (blake3 : Blake3)

/-- The records handed to a relay by a claim and not yet marked, whether the write for the
first one was acknowledged, whether this pass has claimed anything, and whether a mark
went wrong. -/
structure RelayLedger where
  held : List OutboxRecord
  wrote : Bool
  progressed : Bool
  broken : Bool

def OutboxRecord.eventId (record : OutboxRecord) : Uuid := record.event.eventId

/-- The point that the relay writes for an upsert. -/
def VectorUpsertRequest.point (upsert : VectorUpsertRequest F) : StoredPoint F :=
  ⟨qdrantPointIdFromContentHash blake3 upsert.contentHash, upsert.vector, upsert.payload⟩

namespace RelayLedger

def idle : RelayLedger := ⟨[], false, false, false⟩

def heldIds (ledger : RelayLedger) : List Uuid := ledger.held.map OutboxRecord.eventId

def took (ledger : RelayLedger) (records : List OutboxRecord) : RelayLedger where
  held := records
  wrote := false
  progressed := !records.isEmpty || ledger.progressed
  broken := ledger.broken

/-- The first record is marked and given away. -/
def settled (ledger : RelayLedger) : RelayLedger :=
  { ledger with held := ledger.held.tail, wrote := false }

def marked (ledger : RelayLedger) : Except SqlError Nat → RelayLedger
  | .ok rowsAffected => if rowsAffected = 1 then ledger.settled else { ledger with broken := true }
  | .error _ => { ledger with broken := true }

/-- An error text that a failure mark would reject counts as a mark gone wrong. -/
def answered (ledger : RelayLedger) : Except Str Unit → RelayLedger
  | .ok () => { ledger with wrote := true }
  | .error message => { ledger with broken := ledger.broken || (Str.trim message).isEmpty }

def Allows (ledger : RelayLedger) : OutboxCall F → Prop
  | .claim _ _ => ledger.held = []
  | .setPublished eventId _ => ledger.heldIds.head? = some eventId ∧ ledger.wrote = true
  | .setFailed eventId _ _ => ledger.heldIds.head? = some eventId
  | .upsertVector eventId pointId vector payload => ∃ record rest upsert,
      ledger.held = record :: rest ∧ record.event.eventId = eventId ∧
      upsertOf format record = .ok upsert ∧ upsert.point blake3 = ⟨pointId, vector, payload⟩
  | _ => True

def after (ledger : RelayLedger) : (request : OutboxCall F) → OutboxAnswer F request → RelayLedger
  | .claim _ _, .ok records => ledger.took records
  | .setPublished _ _, answer => ledger.marked answer
  | .setFailed _ _ _, answer => ledger.marked answer
  | .upsertVector _ _ _ _, answer => ledger.answered answer
  | _, _ => ledger

/-- Why a relay may stop with events in its hands: a mark went wrong, or its retry delay is
beyond what a mark accepts. -/
def Excused (delays : Nat → Prop) (ledger : RelayLedger) : Prop :=
  ledger.held = [] ∨ ledger.broken = true ∨ ∃ delay, delays delay ∧ 2 ^ 63 ≤ delay

/-- The ledger at the end of a pass: further passes follow only on a claim. -/
def Ends (delays : Nat → Prop) (ledger : RelayLedger) :
    Except OutboxRelayError (Option Unit) → Prop
  | .ok none => ledger.held = [] ∧ ledger.progressed = true
  | .ok (some _) => ledger.held = []
  | .error _ => ledger.Excused delays

end RelayLedger

def outboxDiscipline : Discipline (OutboxCall F) (OutboxAnswer F) RelayLedger where
  allows ledger request := ledger.Allows format blake3 request
  after := RelayLedger.after

variable {format blake3} {Next : Type} {delays : Nat → Prop} {ledger : RelayLedger}
  {ends : RelayLedger → Except OutboxRelayError Next → Prop}

/-- Any error is a possible end of an excused relay. -/
def ErrorsExcused (delays : Nat → Prop) (ends : RelayLedger → Except OutboxRelayError Next → Prop) :
    Prop :=
  ∀ left error, left.Excused delays → ends left (.error error)

/-- A text that begins with a visible character is not blank. -/
theorem trim_not_blank {first : Char} {rest : Str} (visible : Str.isWhitespace first = false) :
    (Str.trim (first :: rest)).isEmpty = false := by
  rw [List.isEmpty_eq_false_iff]
  intro blank
  rw [Str.trim, Str.trimEnd, List.rdropWhile_eq_nil_iff,
    List.dropWhile_cons_of_neg (by simp [visible])] at blank
  have first_ := blank first List.mem_cons_self
  rw [visible] at first_
  cases first_

theorem streamIdOf_not_blank (pointId : Nat) : (Str.trim (streamIdOf pointId)).isEmpty = false :=
  trim_not_blank (show Str.isWhitespace 'q' = false by decide)

theorem obeys_transitionError {eventId : Uuid} {expected : Str} {next : Unit → OutboxProgram F OutboxRelayError Next}
    (excused : ErrorsExcused delays ends) (broken : ledger.broken = true) :
    ((transitionError eventId expected).mapError .coordinator >>= next).Obeys
      (outboxDiscipline format blake3) ends ledger := by
  have fails (error : OutboxRelayError) : ends ledger (.error error) :=
    excused ledger error (.inr (.inl broken))
  simp only [transitionError, Program.ask_bind, Program.mapError_call, Program.bind_call,
    Program.obeys_call]
  refine ⟨trivial, fun answer => ?_⟩
  rcases answer with error | _ | status
  · exact fails _
  · exact fails _
  · exact fails _

/-- The check after a mark: the record is given away, or the mark went wrong. -/
theorem obeys_requireOne {eventId : Uuid} {answer : Except SqlError Nat}
    {next : Unit → OutboxProgram F OutboxRelayError Next} (excused : ErrorsExcused delays ends)
    (later : (next ()).Obeys (outboxDiscipline format blake3) ends ledger.settled) :
    ((requireOne eventId answer).mapError .coordinator >>= next).Obeys
      (outboxDiscipline format blake3) ends (ledger.marked answer) := by
  cases answer with
  | error error => exact excused _ _ (.inr (.inl rfl))
  | ok rowsAffected =>
    simp only [requireOne, fetched, Except.mapError, Program.ofExcept_ok, Program.bind_done]
    by_cases one : rowsAffected = 1
    · simp only [if_pos one, RelayLedger.marked, Program.pure_eq, Program.mapError_done,
        Program.bind_done]
      exact later
    · simp only [if_neg one, RelayLedger.marked]
      exact obeys_transitionError excused rfl

theorem obeys_markFailed {relay : OutboxRelay} {record : OutboxRecord} {rest : List OutboxRecord}
    {message : Str} {next : Bool → OutboxProgram F OutboxRelayError Next}
    (head : ledger.held = record :: rest) (delay : delays relay.retryAfterSeconds)
    (readable : (Str.trim message).isEmpty = true → ledger.broken = true)
    (excused : ErrorsExcused delays ends)
    (later : (next false).Obeys (outboxDiscipline format blake3) ends ledger.settled) :
    (relay.markFailed record message >>= next).Obeys (outboxDiscipline format blake3) ends ledger := by
  unfold OutboxRelay.markFailed markOutboxFailed
  by_cases blank : (Str.trim message).isEmpty = true
  · simp only [if_pos blank, Program.mapError_fail, Program.bind_fail, Program.obeys_fail]
    exact excused _ _ (.inr (.inl (readable blank)))
  · by_cases long : 2 ^ 63 ≤ relay.retryAfterSeconds
    · simp only [if_neg blank, if_pos long, Program.mapError_fail, Program.bind_fail,
        Program.obeys_fail]
      exact excused _ _ (.inr (.inr ⟨_, delay, long⟩))
    · simp only [if_neg blank, if_neg long, Program.ask_bind, Program.mapError_call,
        Program.bind_call, Program.obeys_call]
      refine ⟨trivial, fun now => ⟨?_, fun answer => ?_⟩⟩
      · simp [outboxDiscipline, RelayLedger.after, RelayLedger.Allows, RelayLedger.heldIds, head,
          OutboxRecord.eventId]
      · rw [Program.bind_assoc]
        exact obeys_requireOne excused later

theorem obeys_markPublished {record : OutboxRecord} {rest : List OutboxRecord} {pointId : Nat}
    {next : Bool → OutboxProgram F OutboxRelayError Next} (head : ledger.held = record :: rest)
    (wrote : ledger.wrote = true) (excused : ErrorsExcused delays ends)
    (later : (next true).Obeys (outboxDiscipline format blake3) ends ledger.settled) :
    (OutboxRelay.markPublished record pointId >>= next).Obeys (outboxDiscipline format blake3) ends
      ledger := by
  unfold OutboxRelay.markPublished markOutboxPublished
  simp only [streamIdOf_not_blank, Bool.false_eq_true, if_false, Program.ask_bind,
    Program.mapError_call, Program.bind_call, Program.obeys_call]
  refine ⟨?_, fun answer => ?_⟩
  · simp [outboxDiscipline, RelayLedger.Allows, RelayLedger.heldIds, head, wrote, OutboxRecord.eventId]
  · rw [Program.bind_assoc]
    exact obeys_requireOne excused later

theorem parse_error_readable {payload : Value} {error : OutboxRelayError}
    (failed : parseVectorUpsertRequest format payload = .error error) :
    error = missingContentHash ∨ error = missingVector ∨ error = nonNumericVector := by
  unfold parseVectorUpsertRequest at failed
  split at failed
  · cases failed
    exact .inl rfl
  · split at failed
    · cases failed
      exact .inr (.inl rfl)
    · split at failed
      · cases failed
        exact .inr (.inl rfl)
      · split at failed
        · cases failed
          exact .inr (.inr rfl)
        · cases failed

theorem upsertOf_error_readable {record : OutboxRecord} {message : Str}
    (failed : upsertOf format record = .error message) : (Str.trim message).isEmpty = false := by
  unfold upsertOf at failed
  split at failed
  · cases failed
    exact trim_not_blank (by decide)
  · cases parsed : parseVectorUpsertRequest format record.event.payload with
    | ok upsert =>
      rw [parsed] at failed
      cases failed
    | error error =>
      rw [parsed] at failed
      cases failed
      rcases parse_error_readable parsed with rfl | rfl | rfl
      · exact trim_not_blank (by decide)
      · exact trim_not_blank (by decide)
      · exact trim_not_blank (by decide)

/-- One record: it is written if it can be, and marked. -/
theorem obeys_processRecord {relay : OutboxRelay} {record : OutboxRecord} {rest : List OutboxRecord}
    {next : Bool → OutboxProgram F OutboxRelayError Next} (head : ledger.held = record :: rest)
    (delay : delays relay.retryAfterSeconds) (excused : ErrorsExcused delays ends)
    (later : ∀ published left, left.held = rest → left.progressed = ledger.progressed →
      (next published).Obeys (outboxDiscipline format blake3) ends left) :
    (relay.processRecord format blake3 record >>= next).Obeys (outboxDiscipline format blake3) ends
      ledger := by
  unfold OutboxRelay.processRecord
  cases asked : upsertOf format record with
  | error message =>
    refine obeys_markFailed head delay (fun blank => ?_) excused (later _ _ ?_ rfl)
    · rw [upsertOf_error_readable asked] at blank
      cases blank
    · simp [RelayLedger.settled, head]
  | ok upsert =>
    simp only [Program.ask_bind, Program.bind_call, Program.obeys_call]
    refine ⟨⟨record, rest, upsert, head, rfl, asked, rfl⟩, fun answer => ?_⟩
    cases answer with
    | ok written =>
      refine obeys_markPublished (show _ = record :: rest from head) rfl excused (later _ _ ?_ rfl)
      · simp [outboxDiscipline, RelayLedger.after, RelayLedger.answered, RelayLedger.settled, head]
    | error message =>
      refine obeys_markFailed (show _ = record :: rest from head) delay (fun blank => ?_) excused
        (later _ _ ?_ rfl)
      · simp [outboxDiscipline, RelayLedger.after, RelayLedger.answered, blank]
      · simp [outboxDiscipline, RelayLedger.after, RelayLedger.answered, RelayLedger.settled, head]

theorem obeys_processClaimedRecords {relay : OutboxRelay} (records : List OutboxRecord)
    {next : OutboxRelayRunReport → OutboxProgram F OutboxRelayError Next}
    (held : ledger.held = records) (delay : delays relay.retryAfterSeconds)
    (excused : ErrorsExcused delays ends)
    (later : ∀ report left, report.claimed = records.length → left.held = [] →
      left.progressed = ledger.progressed →
        (next report).Obeys (outboxDiscipline format blake3) ends left) :
    (relay.processClaimedRecords format blake3 records >>= next).Obeys
      (outboxDiscipline format blake3) ends ledger := by
  induction records generalizing ledger next with
  | nil => exact later _ _ rfl held rfl
  | cons record rest ih =>
    rw [OutboxRelay.processClaimedRecords, Program.bind_assoc]
    refine obeys_processRecord held delay excused fun published left leftHeld progressed => ?_
    rw [Program.bind_assoc]
    refine ih leftHeld fun report last count free same => ?_
    exact later _ _ (by simp [OutboxRelayRunReport.count, count]) free (same.trans progressed)

theorem obeys_claimOutbox {correlationId : Option Uuid} {limit : Int}
    {next : List OutboxRecord → OutboxProgram F OutboxRelayError Next} (free : ledger.held = [])
    (excused : ErrorsExcused delays ends)
    (later : ∀ records, (next records).Obeys (outboxDiscipline format blake3) ends
      (ledger.took records)) :
    ((claimOutbox correlationId limit).mapError .coordinator >>= next).Obeys
      (outboxDiscipline format blake3) ends ledger := by
  unfold claimOutbox
  cases validateClaimLimit limit with
  | error error => exact excused _ _ (.inl free)
  | ok valid =>
    simp only [Program.ofExcept_ok, Program.bind_done, Program.ask_bind, Program.mapError_call,
      Program.bind_call, Program.obeys_call]
    refine ⟨free, fun answer => ?_⟩
    cases answer with
    | error error => exact excused _ _ (.inl free)
    | ok records => exact later records

/-- One relay pass ends with empty hands; it has progressed if it reports a claim. -/
theorem obeys_relay {relay : OutboxRelay} {correlationId : Option Uuid}
    {next : OutboxRelayRunReport → OutboxProgram F OutboxRelayError Next} (free : ledger.held = [])
    (delay : delays relay.retryAfterSeconds) (excused : ErrorsExcused delays ends)
    (later : ∀ report left, left.held = [] → (report.claimed ≠ 0 → left.progressed = true) →
      (next report).Obeys (outboxDiscipline format blake3) ends left) :
    (((claimOutbox correlationId relay.claimLimit).mapError .coordinator >>=
      relay.processClaimedRecords format blake3) >>= next).Obeys
        (outboxDiscipline format blake3) ends ledger := by
  rw [Program.bind_assoc]
  refine obeys_claimOutbox free excused fun records => ?_
  refine obeys_processClaimedRecords records rfl delay excused fun report left count done same => ?_
  refine later report left done fun some_ => ?_
  rw [same]
  cases records with
  | nil => exact absurd count some_
  | cons record rest => rfl

/-! ### The programs of the site -/

/-- A program that is run once. -/
def once {Result : Type} (program : OutboxProgram F OutboxRelayError Result) :
    OutboxProgram F OutboxRelayError (Option Unit) := do
  let _ ← program
  return some ()

/-- Calls that neither claim nor mark nor write a vector. -/
def OutboxCall.Passive : OutboxCall F → Prop
  | .claim _ _ => False
  | .setPublished _ _ => False
  | .setFailed _ _ _ => False
  | .upsertVector _ _ _ _ => False
  | _ => True

theorem OutboxCall.Passive.neutral {request : OutboxCall F} (passive : request.Passive)
    (ledger : RelayLedger) :
    (outboxDiscipline format blake3).allows ledger request ∧
      ∀ answer, (outboxDiscipline format blake3).after ledger request answer = ledger := by
  cases request <;> first | exact ⟨trivial, fun _ => rfl⟩ | cases passive

theorem calls_appendOutboxEvent (event : OutboxEvent) :
    (appendOutboxEvent event : OutboxProgram F OutboxError Unit).Calls (· = .insert event) := by
  refine Program.calls_ofExcept.bind fun _ => (Program.Calls.ask (by rfl)).bind fun answer => ?_
  rcases answer with (constraint | message) | _
  · dsimp only
    split
    · trivial
    · trivial
  · trivial
  · trivial

theorem calls_appendOutboxEventIdempotent (event : OutboxEvent) :
    (appendOutboxEventIdempotent event : OutboxProgram F OutboxError Bool).Calls (· = .insertIfNew event) :=
  Program.calls_ofExcept.bind fun _ => (Program.Calls.ask (by rfl)).bind fun _ =>
    Program.calls_ofExcept.bind fun _ => trivial

theorem calls_missingRecords (expected : List (Nat × OutboxRecord)) :
    (missingRecords expected : OutboxProgram F OutboxRelayError (List OutboxRecord)).Calls
      fun request => ∃ pointId, request = .hasVector pointId := by
  induction expected with
  | nil => trivial
  | cons entry rest ih =>
    exact (Program.Calls.ask ⟨_, rfl⟩).bind fun _ => Program.calls_ofExcept.bind fun _ =>
      ih.bind fun _ => trivial

/-- The calls of a repair: a fresh id, the time, a strict append. -/
def OutboxCall.Repairs (request : OutboxCall F) : Prop :=
  request = .newEventId ∨ request = .utcNow ∨ ∃ event, request = .insert event

theorem calls_enqueueRepairs (records : List OutboxRecord) :
    (enqueueRepairs format blake3 records).Calls OutboxCall.Repairs := by
  induction records with
  | nil => trivial
  | cons record rest ih =>
    refine Program.calls_ofExcept.bind fun pointId =>
      (Program.Calls.ask (.inl rfl)).bind fun eventId =>
      (Program.Calls.ask (.inr (.inl rfl))).bind fun now =>
      Program.Calls.bind ?_ fun _ => ih.bind fun _ => trivial
    have append := (calls_appendOutboxEvent (F := F) (repairEvent record pointId eventId now)).mono
      fun request same => (.inr (.inr ⟨_, same⟩) : request.Repairs)
    refine append.outcome.bind fun appended => ?_
    rcases appended with error | _
    · cases error <;> trivial
    · trivial

theorem calls_deleteOrphans (orphaned : List Nat) :
    (deleteOrphans orphaned : OutboxProgram F OutboxRelayError Unit).Calls
      (· = .deletePoints orphaned) := by
  unfold deleteOrphans
  split
  · trivial
  · exact (Program.Calls.ask (by rfl)).bind fun _ => Program.calls_ofExcept

theorem OutboxCall.Repairs.passive {request : OutboxCall F} (repairs : request.Repairs) :
    request.Passive := by
  rcases repairs with rfl | rfl | ⟨event, rfl⟩ <;> trivial

theorem passive_reconcileOnce (reconciler : OutboxReconciler) (pointOrder : HashOrder (Nat × OutboxRecord)) :
    (reconciler.reconcileOnce format blake3 pointOrder).Calls OutboxCall.Passive := by
  refine Program.Calls.bind ?_ fun records => Program.calls_ofExcept.bind fun expected =>
    ((calls_missingRecords _).mono ?_).bind fun missing =>
    ((calls_enqueueRepairs _).mono fun _ repairs => repairs.passive).bind fun enqueued =>
    (Program.Calls.ask trivial).bind fun answer => Program.calls_ofExcept.bind fun listing =>
    Program.Calls.bind ?_ fun _ => trivial
  · refine Program.Calls.mapError ?_
    unfold listPublishedEventsByType
    split
    · trivial
    · split
      · trivial
      · exact (Program.Calls.ask trivial).bind fun _ => Program.calls_ofExcept
  · rintro _ ⟨pointId, rfl⟩
    trivial
  · exact (calls_deleteOrphans _).mono fun _ same => same ▸ trivial

variable (format blake3)

/-- The programs that work on one outbox: the loops and single passes of relays with the
given retry delays, appends, and reconciler passes. -/
inductive OutboxTask (delays : Nat → Prop) : OutboxProgram F OutboxRelayError (Option Unit) → Prop where
  | drainCorrelationOutbox {relay : OutboxRelay} (delay : delays relay.retryAfterSeconds)
      (correlationId : Uuid) : OutboxTask delays (relay.drainPass format blake3 correlationId)
  | relayAllPendingToCompletion {relay : OutboxRelay} (delay : delays relay.retryAfterSeconds) :
      OutboxTask delays (relay.relayAllPass format blake3)
  | relayOnce {relay : OutboxRelay} (delay : delays relay.retryAfterSeconds) :
      OutboxTask delays (once (relay.relayOnce format blake3))
  | relayOnceForCorrelation {relay : OutboxRelay} (delay : delays relay.retryAfterSeconds)
      (correlationId : Uuid) :
      OutboxTask delays (once (relay.relayOnceForCorrelation format blake3 correlationId))
  | appendOutboxEvent (event : OutboxEvent) :
      OutboxTask delays (once ((appendOutboxEvent event).mapError .coordinator))
  | appendOutboxEventIdempotent (event : OutboxEvent) :
      OutboxTask delays (once ((appendOutboxEventIdempotent event).mapError .coordinator))
  | reconcileOnce (reconciler : OutboxReconciler) (pointOrder : HashOrder (Nat × OutboxRecord)) :
      OutboxTask delays (once (reconciler.reconcileOnce format blake3 pointOrder))

variable {format blake3}

theorem errorsExcused_ends : ErrorsExcused delays (RelayLedger.Ends delays) :=
  fun _ _ excused => excused

/-- Every program of the site obeys the discipline from an idle ledger on. -/
theorem OutboxTask.obeys {body : OutboxProgram F OutboxRelayError (Option Unit)}
    (task : OutboxTask format blake3 delays body) :
    body.Obeys (outboxDiscipline format blake3) (RelayLedger.Ends delays) RelayLedger.idle := by
  have passive {Result : Type} {program : OutboxProgram F OutboxRelayError Result}
      (calls : program.Calls OutboxCall.Passive) :
      (once program).Obeys (outboxDiscipline format blake3) (RelayLedger.Ends delays)
        RelayLedger.idle := by
    refine Program.Obeys.bind (calls.obeys (fun request here => here.neutral _) fun outcome => ?_)
    cases outcome with
    | ok result => rfl
    | error error => exact .inl rfl
  cases task with
  | @drainCorrelationOutbox relay delay correlationId =>
    unfold OutboxRelay.drainPass hasPendingForCorrelation
    simp only [Program.ask_bind, Program.mapError_call, Program.bind_call, Program.obeys_call]
    refine ⟨trivial, fun answer => ?_⟩
    rcases answer with error | pending
    · exact .inl rfl
    · cases pending with
      | false => rfl
      | true =>
        refine obeys_relay rfl delay errorsExcused_ends
          fun report left free progressed => ?_
        split
        · exact .inl free
        · rename_i some_
          exact ⟨free, progressed some_⟩
  | @relayAllPendingToCompletion relay delay =>
    refine obeys_relay rfl delay errorsExcused_ends
      fun report left free progressed => ?_
    split
    · exact free
    · rename_i some_
      exact ⟨free, progressed some_⟩
  | @relayOnce relay delay =>
    exact obeys_relay rfl delay errorsExcused_ends
      fun report left free _ => free
  | @relayOnceForCorrelation relay delay correlationId =>
    exact obeys_relay rfl delay errorsExcused_ends
      fun report left free _ => free
  | appendOutboxEvent event => exact passive ((calls_appendOutboxEvent event).mono fun _ same => same ▸ trivial).mapError
  | appendOutboxEventIdempotent event =>
    exact passive
      ((calls_appendOutboxEventIdempotent event).mono fun _ same => same ▸ trivial).mapError
  | reconcileOnce reconciler pointOrder => exact passive (passive_reconcileOnce reconciler pointOrder)

end SkillLayer.Infrastructure

import SkillLayer.Program
import SkillLayer.Infrastructure.Outbox
import SkillLayer.Infrastructure.Rebuild

/-! The programs of the outbox: appends, claims, marks, and the relay that carries events
to the vector store. -/

namespace SkillLayer.Infrastructure

/-- The hyphenated text of an id. -/
def Uuid.display (id : Uuid) : Str :=
  let hex (byte : UInt8) : Str := [Nat.digitChar (byte.toNat / 16), Nat.digitChar (byte.toNat % 16)]
  let part (first size : Nat) : Str := ((id.drop first).take size).flatMap hex
  Str.join "-" [part 0 4, part 4 2, part 6 2, part 8 2, part 10 6]

inductive OutboxError where
  | invalidContract (message : Str)
  | idempotencyConflict (idempotencyKey : Str)
  | eventNotFound (eventId : Uuid)
  | illegalTransition (eventId : Uuid) (expected actual : Str)
  | persistence (error : SqlError)
deriving DecidableEq

def OutboxError.display : OutboxError → Str
  | .invalidContract message => "invalid outbox contract: " ++ message
  | .idempotencyConflict key => "outbox idempotency conflict for key `" ++ key ++ "`"
  | .eventNotFound eventId => "outbox event `" ++ Uuid.display eventId ++ "` was not found"
  | .illegalTransition eventId expected actual =>
    "outbox transition requires `" ++ expected ++ "` state for `" ++ Uuid.display eventId ++
      "`, got `" ++ actual ++ "`"
  | .persistence error => "outbox persistence error: " ++ error.display

inductive OutboxRelayError where
  | invalidPayload (message : Str)
  | coordinator (error : OutboxError)
  | vectorStore (message : Str)
deriving DecidableEq

def OutboxRelayError.display : OutboxRelayError → Str
  | .invalidPayload message => "invalid vector payload contract: " ++ message
  | .coordinator error => "outbox coordinator failure: " ++ error.display
  | .vectorStore message => "vector store failure: " ++ message

structure VectorUpsertRequest (F : Type) where
  contentHash : Str
  vector : List F
  payload : Value

/-- How vector components travel in a payload: as JSON values, and back from JSON numbers. -/
structure VectorFormat (F : Type) where
  toJson : F → Value
  ofNumber : Rat → F

variable {F : Type} (format : VectorFormat F) (blake3 : Blake3)

/-- The first eight bytes of the digest, big-endian. -/
def qdrantPointIdFromContentHash (contentHash : Str) : Nat :=
  ((blake3 (Str.utf8 contentHash)).take 8).foldl (fun id byte => id * 256 + byte.toNat) 0

def missingContentHash : OutboxRelayError :=
  .invalidPayload "payload.content_hash must be a non-empty string"

def missingVector : OutboxRelayError :=
  .invalidPayload "payload.vector must be a non-empty numeric array"

def nonNumericVector : OutboxRelayError :=
  .invalidPayload "payload.vector must contain only numeric values"

def vectorComponent? : Value → Option F
  | .number value => some (format.ofNumber value)
  | _ => none

def parseVectorUpsertRequest (payload : Value) : Except OutboxRelayError (VectorUpsertRequest F) :=
  match (((payload.get? "content_hash").bind Value.asStr?).map Str.trim).filter (!·.isEmpty) with
  | none => .error missingContentHash
  | some contentHash =>
    match (payload.get? "vector").bind Value.asArray? with
    | none => .error missingVector
    | some items =>
      if items.isEmpty then .error missingVector
      else
        match items.mapM (vectorComponent? format) with
        | none => .error nonNumericVector
        | some vector => .ok ⟨contentHash, vector, (payload.get? "payload").getD .null⟩

abbrev OutboxProgram (F Err Result : Type) := Program (OutboxCall F) (OutboxAnswer F) Err Result

/-! ### The coordinator -/

def fetched {Value : Type} (answer : Except SqlError Value) : OutboxProgram F OutboxError Value :=
  .ofExcept (answer.mapError .persistence)

def validateOutboxEvent (event : OutboxEvent) : Except OutboxError Unit :=
  if (Str.trim event.eventType).isEmpty || (Str.trim event.idempotencyKey).isEmpty then
    .error (.invalidContract "event_type and idempotency_key must not be blank")
  else if 2 ^ 31 ≤ event.schemaVersion then
    .error (.invalidContract "schema_version exceeds i32 storage limit")
  else .ok ()

def insertOutboxEvent (event : OutboxEvent) : OutboxProgram F OutboxError Unit := do
  let answer ← Program.ask (.insert event)
  match (answer : Except SqlError Unit) with
  | .ok () => return ()
  | .error (.uniqueViolation constraint) =>
    if constraint = idempotencyKeyConstraint then .fail (.idempotencyConflict event.idempotencyKey)
    else
      .fail (.invalidContract
        ("outbox event already exists for event_id ".toList ++ Uuid.display event.eventId))
  | .error error => .fail (.persistence error)

/-- The strict append: a key that exists is an error. -/
def appendOutboxEvent (event : OutboxEvent) : OutboxProgram F OutboxError Unit := do
  Program.ofExcept (validateOutboxEvent event)
  insertOutboxEvent event

/-- Whether a row was written; a key that exists is skipped. -/
def appendOutboxEventIdempotent (event : OutboxEvent) : OutboxProgram F OutboxError Bool := do
  Program.ofExcept (validateOutboxEvent event)
  let answer ← Program.ask (.insertIfNew event)
  let rowsAffected ← fetched (answer : Except SqlError Nat)
  return decide (0 < rowsAffected)

def validateClaimLimit (limit : Int) : Except OutboxError Unit :=
  if limit ≤ 0 then .error (.invalidContract "claim limit must be greater than zero") else .ok ()

/-- The two claims differ in the correlation they are limited to, if any. -/
def claimOutbox (correlationId : Option Uuid) (limit : Int) :
    OutboxProgram F OutboxError (List OutboxRecord) := do
  Program.ofExcept (validateClaimLimit limit)
  let answer ← Program.ask (.claim correlationId limit)
  fetched (answer : Except SqlError (List OutboxRecord))

def claimPendingOutbox (limit : Int) : OutboxProgram F OutboxError (List OutboxRecord) :=
  claimOutbox none limit

def claimPendingOutboxForCorrelation (correlationId : Uuid) (limit : Int) :
    OutboxProgram F OutboxError (List OutboxRecord) :=
  claimOutbox (some correlationId) limit

def transitionError (eventId : Uuid) (expected : Str) : OutboxProgram F OutboxError Unit := do
  let answer ← Program.ask (.statusOf eventId)
  match ← fetched (answer : Except SqlError (Option OutboxStatus)) with
  | some status => .fail (.illegalTransition eventId expected status.text)
  | none => .fail (.eventNotFound eventId)

/-- A mark must have changed its row. -/
def requireOne (eventId : Uuid) (answer : Except SqlError Nat) : OutboxProgram F OutboxError Unit := do
  let rowsAffected ← fetched answer
  if rowsAffected = 1 then return () else transitionError eventId "processing"

def markOutboxPublished (eventId : Uuid) (streamId : Str) : OutboxProgram F OutboxError Unit :=
  if (Str.trim streamId).isEmpty then .fail (.invalidContract "stream_id must not be blank")
  else do
    let answer ← Program.ask (.setPublished eventId streamId)
    requireOne eventId (answer : Except SqlError Nat)

/-- Microseconds in a second. -/
def second : Int := 1000000

def markOutboxFailed (eventId : Uuid) (errorMessage : Str) (retryAfterSeconds : Nat) :
    OutboxProgram F OutboxError Unit :=
  if (Str.trim errorMessage).isEmpty then .fail (.invalidContract "error_message must not be blank")
  else if 2 ^ 63 ≤ retryAfterSeconds then
    .fail (.invalidContract "retry_after_seconds exceeds i64 range for scheduling")
  else do
    let now ← Program.ask .utcNow
    let answer ← Program.ask
      (.setFailed eventId errorMessage ((now : Timestamp) + retryAfterSeconds * second))
    requireOne eventId (answer : Except SqlError Nat)

def hasPendingForCorrelation (correlationId : Uuid) : OutboxProgram F OutboxError Bool := do
  let answer ← Program.ask (.hasPending correlationId)
  fetched (answer : Except SqlError Bool)

def listPublishedEventsByType (eventType : Str) (limit : Int) :
    OutboxProgram F OutboxError (List OutboxRecord) :=
  if (Str.trim eventType).isEmpty then .fail (.invalidContract "event_type must not be blank")
  else if limit ≤ 0 then .fail (.invalidContract "limit must be greater than zero")
  else do
    let answer ← Program.ask (.listPublished eventType limit)
    fetched (answer : Except SqlError (List OutboxRecord))

/-! ### The relay -/

structure OutboxRelay where
  claimLimit : Int
  retryAfterSeconds : Nat
  positive : 0 < claimLimit

def OutboxRelay.new (claimLimit : Int) (retryAfterSeconds : Nat) : Except OutboxRelayError OutboxRelay :=
  if positive : claimLimit ≤ 0 then .error (.invalidPayload "claim_limit must be greater than zero")
  else .ok ⟨claimLimit, retryAfterSeconds, Int.not_le.mp positive⟩

structure OutboxRelayRunReport where
  claimed : Nat
  published : Nat
  failed : Nat
deriving DecidableEq

/-- The report with one more record in front. -/
def OutboxRelayRunReport.count (report : OutboxRelayRunReport) (published : Bool) :
    OutboxRelayRunReport where
  claimed := report.claimed + 1
  published := report.published + if published then 1 else 0
  failed := report.failed + if published then 0 else 1

def unsupportedType (eventType : Str) : Str := "unsupported outbox event type `" ++ eventType ++ "`"

/-- What a record asks to be written, or why it cannot be. -/
def upsertOf (record : OutboxRecord) : Except Str (VectorUpsertRequest F) :=
  if record.event.eventType ≠ vectorUpsertEventType then .error (unsupportedType record.event.eventType)
  else (parseVectorUpsertRequest format record.event.payload).mapError OutboxRelayError.display

def streamIdOf (pointId : Nat) : Str := "qdrant:".toList ++ Str.ofNat pointId

namespace OutboxRelay

def markPublished (record : OutboxRecord) (pointId : Nat) : OutboxProgram F OutboxRelayError Bool := do
  (markOutboxPublished record.event.eventId (streamIdOf pointId)).mapError .coordinator
  return true

variable (relay : OutboxRelay)

def markFailed (record : OutboxRecord) (errorMessage : Str) : OutboxProgram F OutboxRelayError Bool := do
  (markOutboxFailed record.event.eventId errorMessage relay.retryAfterSeconds).mapError .coordinator
  return false

/-- Whether the record was published. -/
def processRecord (record : OutboxRecord) : OutboxProgram F OutboxRelayError Bool :=
  match upsertOf format record with
  | .error message => relay.markFailed record message
  | .ok upsert => do
    let pointId := qdrantPointIdFromContentHash blake3 upsert.contentHash
    let answer ← Program.ask
      (.upsertVector record.event.eventId pointId upsert.vector upsert.payload)
    match (answer : Except Str Unit) with
    | .ok () => markPublished record pointId
    | .error message => relay.markFailed record message

def processClaimedRecords : List OutboxRecord → OutboxProgram F OutboxRelayError OutboxRelayRunReport
  | [] => return ⟨0, 0, 0⟩
  | record :: rest => do
    let published ← relay.processRecord format blake3 record
    let report ← processClaimedRecords rest
    return report.count published

def relayOnce : OutboxProgram F OutboxRelayError OutboxRelayRunReport := do
  let claimedRecords ← (claimPendingOutbox relay.claimLimit).mapError .coordinator
  relay.processClaimedRecords format blake3 claimedRecords

def relayOnceForCorrelation (correlationId : Uuid) :
    OutboxProgram F OutboxRelayError OutboxRelayRunReport := do
  let claimedRecords ←
    (claimPendingOutboxForCorrelation correlationId relay.claimLimit).mapError .coordinator
  relay.processClaimedRecords format blake3 claimedRecords

def stuck (correlationId : Uuid) : OutboxRelayError :=
  .invalidPayload ("outbox for correlation `".toList ++ Uuid.display correlationId ++
    ("` has pending events that could not be claimed or relayed (stuck or in retry backoff); " ++
      "drain made no progress").toList)

/-- One round of the loop of `drain_correlation_outbox`; it ends the loop with a result. -/
def drainPass (correlationId : Uuid) : OutboxProgram F OutboxRelayError (Option Unit) := do
  let pending ← (hasPendingForCorrelation correlationId).mapError .coordinator
  if !pending then return some ()
  let report ← relay.relayOnceForCorrelation format blake3 correlationId
  if report.claimed = 0 then .fail (stuck correlationId) else return none

/-- One round of the loop of `relay_all_pending_to_completion`. -/
def relayAllPass : OutboxProgram F OutboxRelayError (Option Unit) := do
  let report ← relay.relayOnce format blake3
  if report.claimed = 0 then return some () else return none

end OutboxRelay

/-! ### The calls of a relay pass after its claim -/

/-- The call is about one of the events, or asks for the time. -/
def OutboxCall.Concerns (eventIds : List Uuid) : OutboxCall F → Prop
  | .setPublished eventId _ => eventId ∈ eventIds
  | .setFailed eventId _ _ => eventId ∈ eventIds
  | .statusOf eventId => eventId ∈ eventIds
  | .upsertVector eventId _ _ _ => eventId ∈ eventIds
  | .utcNow => True
  | _ => False

variable {format blake3} {eventIds : List Uuid}

theorem concerns_requireOne {eventId : Uuid} (member : eventId ∈ eventIds) (answer : Except SqlError Nat) :
    (requireOne eventId answer : OutboxProgram F OutboxError Unit).Calls (OutboxCall.Concerns eventIds) := by
  apply Program.calls_ofExcept.bind
  intro rowsAffected
  split
  · trivial
  · refine Program.Calls.bind (.ask member) fun answer => ?_
    apply Program.calls_ofExcept.bind
    intro status
    cases status <;> trivial

theorem concerns_markPublished {record : OutboxRecord} (member : record.event.eventId ∈ eventIds)
    (pointId : Nat) : (OutboxRelay.markPublished record pointId : OutboxProgram F OutboxRelayError Bool).Calls
      (OutboxCall.Concerns eventIds) := by
  refine Program.Calls.bind (Program.Calls.mapError ?_) fun _ => trivial
  unfold markOutboxPublished
  split
  · trivial
  · exact Program.Calls.bind (.ask member) fun answer => concerns_requireOne member _

theorem concerns_markFailed (relay : OutboxRelay) {record : OutboxRecord}
    (member : record.event.eventId ∈ eventIds) (message : Str) :
    (relay.markFailed record message : OutboxProgram F OutboxRelayError Bool).Calls
      (OutboxCall.Concerns eventIds) := by
  refine Program.Calls.bind (Program.Calls.mapError ?_) fun _ => trivial
  unfold markOutboxFailed
  split
  · trivial
  · split
    · trivial
    · apply (Program.Calls.ask trivial).bind
      intro now
      exact Program.Calls.bind (.ask member) fun answer => concerns_requireOne member _

theorem concerns_processRecord (relay : OutboxRelay) {record : OutboxRecord}
    (member : record.event.eventId ∈ eventIds) :
    (relay.processRecord format blake3 record).Calls (OutboxCall.Concerns eventIds) := by
  unfold OutboxRelay.processRecord
  split
  · exact concerns_markFailed _ member _
  · refine Program.Calls.bind (.ask member) fun answer => ?_
    cases answer with
    | ok written => exact concerns_markPublished member _
    | error message => exact concerns_markFailed _ member _

/-- A pass is only about the events that it claimed. -/
theorem concerns_processClaimedRecords (relay : OutboxRelay) {records : List OutboxRecord}
    (inside : ∀ record ∈ records, record.event.eventId ∈ eventIds) :
    (relay.processClaimedRecords format blake3 records).Calls (OutboxCall.Concerns eventIds) := by
  induction records with
  | nil => trivial
  | cons record rest ih =>
    apply (concerns_processRecord relay (inside record List.mem_cons_self)).bind
    intro published
    apply (ih fun other member => inside other (List.mem_cons_of_mem _ member)).bind
    intro report
    trivial

end SkillLayer.Infrastructure

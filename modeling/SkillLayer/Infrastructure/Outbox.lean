import Mathlib.Data.List.Sort
import SkillLayer.Grouping
import SkillLayer.Json
import SkillLayer.WorkPool
import SkillLayer.Infrastructure.Database

/-! The outbox table and the vector store, and how they serve the calls of relays,
rebuilds and reconcilers. -/

namespace SkillLayer.Infrastructure

inductive OutboxStatus where
  | pending
  | processing
  | published
  | failed
deriving DecidableEq

def OutboxStatus.text : OutboxStatus → Str
  | .pending => "pending"
  | .processing => "processing"
  | .published => "published"
  | .failed => "failed"

def OutboxStatus.standing : OutboxStatus → Standing
  | .pending => .pending
  | .processing => .processing
  | .published => .done
  | .failed => .failed

structure OutboxEvent where
  eventId : Uuid
  eventType : Str
  correlationId : Uuid
  idempotencyKey : Str
  schemaVersion : Nat
  timestamp : Timestamp
  payload : Value

/-- An event as it is read back from its row. -/
structure OutboxRecord where
  event : OutboxEvent
  attempts : Nat
  streamId : Option Str
  lastError : Option Str
  availableAt : Timestamp

structure OutboxRow extends OutboxRecord where
  status : OutboxStatus

def maxOutboxRetries : Nat := 3
def vectorUpsertEventType : Str := "vector.upsert"

def OutboxRow.eventId (row : OutboxRow) : Uuid := row.event.eventId
def OutboxRow.idempotencyKey (row : OutboxRow) : Str := row.event.idempotencyKey
def OutboxRow.progress (row : OutboxRow) : Progress := ⟨row.status.standing, row.attempts⟩

/-- The table `outbox_events`, with its two unique keys. -/
structure Outbox where
  table : Keyed OutboxRow OutboxRow.eventId
  distinctKeys : (table.rows.map OutboxRow.idempotencyKey).Nodup

namespace Outbox

def empty : Outbox := ⟨.empty, List.nodup_nil⟩

def rows (outbox : Outbox) : List OutboxRow := outbox.table.rows

def find? (outbox : Outbox) (eventId : Uuid) : Option OutboxRow := outbox.table.find? eventId

def holdsKey (outbox : Outbox) (idempotencyKey : Str) : Bool :=
  outbox.rows.any fun row => row.idempotencyKey = idempotencyKey

def insertRow (outbox : Outbox) (row : OutboxRow) (fresh : row.eventId ∉ outbox.table.keys)
    (freshKey : outbox.holdsKey row.idempotencyKey = false) : Outbox where
  table := outbox.table.insert row fresh
  distinctKeys := by
    rw [Keyed.insert_rows, List.map_append, List.map_singleton, List.nodup_append]
    refine ⟨outbox.distinctKeys, List.nodup_singleton _, ?_⟩
    intro key member last inLast same
    obtain rfl := List.mem_singleton.mp inLast
    obtain ⟨other, inRows, equal⟩ := List.mem_map.mp member
    have absent := List.any_eq_false.mp freshKey other inRows
    exact absent (decide_eq_true (equal.trans same))

theorem keepsId {selects : OutboxRow → Bool} {change : OutboxRow → OutboxRow}
    (keepsEvent : ∀ row, (change row).event = row.event) (row : OutboxRow) :
    (if selects row then change row else row).eventId = row.eventId := by
  split
  · exact congrArg OutboxEvent.eventId (keepsEvent row)
  · rfl

/-- Change the rows that a test selects, without touching their events. -/
def modify (outbox : Outbox) (selects : OutboxRow → Bool) (change : OutboxRow → OutboxRow)
    (keepsEvent : ∀ row, (change row).event = row.event) : Outbox where
  table := outbox.table.update (fun row => if selects row then change row else row) (keepsId keepsEvent)
  distinctKeys := by
    rw [Keyed.update_rows, List.map_map]
    have same : OutboxRow.idempotencyKey ∘ (fun row => if selects row then change row else row) =
        OutboxRow.idempotencyKey := by
      funext row
      simp only [Function.comp_apply]
      split
      · exact congrArg OutboxEvent.idempotencyKey (keepsEvent row)
      · rfl
    rw [same]
    exact outbox.distinctKeys

end Outbox

/-! ### Statements -/

inductive SqlError where
  | uniqueViolation (constraint : Str)
  | refused (message : Str)
deriving DecidableEq

def SqlError.display : SqlError → Str
  | .uniqueViolation constraint =>
    "error returned from database: duplicate key value violates unique constraint \"" ++ constraint ++
      "\""
  | .refused message => message

def eventIdConstraint : Str := "outbox_events_pkey"
def idempotencyKeyConstraint : Str := "outbox_events_idempotency_key_key"

def schemaVersionCheck : SqlError :=
  .refused ("error returned from database: new row for relation \"outbox_events\" violates check " ++
    "constraint \"outbox_events_schema_version_check\"")

def OutboxEvent.pendingRow (event : OutboxEvent) (now : Timestamp) : OutboxRow where
  event := event
  attempts := 0
  streamId := none
  lastError := none
  availableAt := now
  status := .pending

namespace Outbox

/-- `INSERT INTO outbox_events`. -/
def insert (now : Timestamp) (event : OutboxEvent) (outbox : Outbox) : Except SqlError Outbox :=
  if event.schemaVersion = 0 then .error schemaVersionCheck
  else if fresh : (event.pendingRow now).eventId ∉ outbox.table.keys then
    match freshKey : outbox.holdsKey (event.pendingRow now).idempotencyKey with
    | false => .ok (outbox.insertRow (event.pendingRow now) fresh freshKey)
    | true => .error (.uniqueViolation idempotencyKeyConstraint)
  else .error (.uniqueViolation eventIdConstraint)

/-- `INSERT ... ON CONFLICT (idempotency_key) DO NOTHING`, with the rows affected. -/
def insertIfNew (now : Timestamp) (event : OutboxEvent) (outbox : Outbox) :
    Except SqlError (Nat × Outbox) :=
  if event.schemaVersion = 0 then .error schemaVersionCheck
  else
    match freshKey : outbox.holdsKey (event.pendingRow now).idempotencyKey with
    | true => .ok (0, outbox)
    | false =>
      if fresh : (event.pendingRow now).eventId ∉ outbox.table.keys then
        .ok (1, outbox.insertRow (event.pendingRow now) fresh freshKey)
      else .error (.uniqueViolation eventIdConstraint)

def claimable (now : Timestamp) (correlationId : Option Uuid) (row : OutboxRow) : Bool :=
  row.status = .pending && row.availableAt ≤ now &&
    correlationId.all fun wanted => row.event.correlationId = wanted

/-- `ORDER BY available_at ASC, occurred_at ASC`. -/
def claimsFirst (left right : OutboxRow) : Bool :=
  left.availableAt < right.availableAt ||
    (left.availableAt = right.availableAt && left.event.timestamp ≤ right.event.timestamp)

/-- The rows that a claim selects; rows that tie come in any order. -/
def claimed (order : HashOrder OutboxRow) (now : Timestamp) (correlationId : Option Uuid) (limit : Int)
    (outbox : Outbox) : List OutboxRow :=
  ((order.arrange (outbox.rows.filter (claimable now correlationId))).insertionSort
    fun left right => claimsFirst left right = true).take limit.toNat

def setProcessing (eventIds : List Uuid) (outbox : Outbox) : Outbox :=
  outbox.modify (fun row => row.eventId ∈ eventIds) (fun row => { row with status := .processing })
    fun _ => rfl

/-- `UPDATE ... SET status = 'processing' ... RETURNING`, in any order. -/
def claim (order : HashOrder OutboxRow) (now : Timestamp) (correlationId : Option Uuid) (limit : Int)
    (outbox : Outbox) : List OutboxRecord × Outbox :=
  let selected := claimed order now correlationId limit outbox
  ((order.arrange selected).map OutboxRow.toOutboxRecord,
    outbox.setProcessing (selected.map OutboxRow.eventId))

def inProcessing (eventId : Uuid) (row : OutboxRow) : Bool :=
  row.eventId = eventId && row.status = .processing

def affected (eventId : Uuid) (outbox : Outbox) : Nat :=
  (outbox.rows.filter (inProcessing eventId)).length

def setPublished (eventId : Uuid) (streamId : Str) (outbox : Outbox) : Outbox :=
  outbox.modify (inProcessing eventId)
    (fun row => { row with status := .published, streamId := some streamId }) fun _ => rfl

def setFailed (eventId : Uuid) (errorMessage : Str) (availableAt : Timestamp) (outbox : Outbox) :
    Outbox :=
  outbox.modify (inProcessing eventId)
    (fun row =>
      { row with
        status := if maxOutboxRetries ≤ row.attempts + 1 then .failed else .pending
        attempts := row.attempts + 1
        lastError := some errorMessage
        availableAt := if maxOutboxRetries ≤ row.attempts + 1 then row.availableAt else availableAt })
    fun _ => rfl

def hasPending (correlationId : Uuid) (outbox : Outbox) : Bool :=
  outbox.rows.any fun row => row.event.correlationId = correlationId &&
    (row.status = .pending || row.status = .processing)

/-- `ORDER BY occurred_at DESC LIMIT`; rows that tie come in any order. -/
def listPublished (order : HashOrder OutboxRow) (eventType : Str) (limit : Int) (outbox : Outbox) :
    List OutboxRecord :=
  (((order.arrange (outbox.rows.filter fun row =>
    row.status = .published && row.event.eventType = eventType)).insertionSort
      fun left right => right.event.timestamp ≤ left.event.timestamp).take limit.toNat).map
    OutboxRow.toOutboxRecord

end Outbox

/-! ### The vector store -/

structure StoredPoint (F : Type) where
  id : Nat
  vector : List F
  payload : Value

/-- The visible point ids and whether the listing is complete. -/
structure VectorPointListing where
  pointIds : List Nat
  isComplete : Bool

variable {F : Type}

def upsertPoint (point : StoredPoint F) (points : List (StoredPoint F)) : List (StoredPoint F) :=
  point :: points.filter fun other => other.id ≠ point.id

def deletePoints (pointIds : List Nat) (points : List (StoredPoint F)) : List (StoredPoint F) :=
  points.filter fun point => point.id ∉ pointIds

def pointAt? (pointId : Nat) (points : List (StoredPoint F)) : Option (StoredPoint F) :=
  points.find? fun point => point.id = pointId

/-! ### Calls -/

/-- What the programs ask of the database, the vector store, the clock and the id source. A
write carries the id of its event for the record of the run only. -/
inductive OutboxCall (F : Type) where
  | hasPending (correlationId : Uuid)
  | claim (correlationId : Option Uuid) (limit : Int)
  | insert (event : OutboxEvent)
  | insertIfNew (event : OutboxEvent)
  | setPublished (eventId : Uuid) (streamId : Str)
  | setFailed (eventId : Uuid) (errorMessage : Str) (availableAt : Timestamp)
  | statusOf (eventId : Uuid)
  | listPublished (eventType : Str) (limit : Int)
  | upsertVector (eventId : Uuid) (pointId : Nat) (vector : List F) (payload : Value)
  | hasVector (pointId : Nat)
  | listPointIds
  | deletePoints (pointIds : List Nat)
  | utcNow
  | newEventId

@[reducible] def OutboxAnswer (F : Type) : OutboxCall F → Type
  | .hasPending _ => Except SqlError Bool
  | .claim _ _ => Except SqlError (List OutboxRecord)
  | .insert _ => Except SqlError Unit
  | .insertIfNew _ => Except SqlError Nat
  | .setPublished _ _ => Except SqlError Nat
  | .setFailed _ _ _ => Except SqlError Nat
  | .statusOf _ => Except SqlError (Option OutboxStatus)
  | .listPublished _ _ => Except SqlError (List OutboxRecord)
  | .upsertVector _ _ _ _ => Except Str Unit
  | .hasVector _ => Except Str Bool
  | .listPointIds => Except Str VectorPointListing
  | .deletePoints _ => Except Str Unit
  | .utcNow => Timestamp
  | .newEventId => Uuid

/-- The outbox and the vector store. For the record of the run only: the acknowledged
vector writes with their events, and the events of the successful failure marks. -/
structure OutboxWorld (F : Type) where
  outbox : Outbox
  points : List (StoredPoint F)
  written : List (Uuid × StoredPoint F)
  failures : List Uuid

/-- What decides about a call besides the tables: the time, a lost connection or a refusing
store, the order of rows, a fresh id, and whether a listing is complete. -/
structure Weather where
  now : Timestamp
  refused : Option Str
  storeRefused : Option Str
  order : HashOrder OutboxRow
  eventId : Uuid
  listingComplete : Bool

/-- An answer, unless the connection is lost. -/
def Weather.sql (weather : Weather) {Value World : Type} (world : World)
    (answered : Except SqlError (Value × World)) : Except SqlError Value × World :=
  match weather.refused with
  | some message => (.error (.refused message), world)
  | none =>
    match answered with
    | .ok (value, after) => (.ok value, after)
    | .error error => (.error error, world)

def Weather.store (weather : Weather) {Value World : Type} (world : World) (answered : Value × World) :
    Except Str Value × World :=
  match weather.storeRefused with
  | some message => (.error message, world)
  | none => (.ok answered.1, answered.2)

def OutboxWorld.withOutbox (world : OutboxWorld F) (outbox : Outbox) : OutboxWorld F :=
  { world with outbox }

def OutboxWorld.published (world : OutboxWorld F) (eventId : Uuid) (streamId : Str) :
    Nat × OutboxWorld F :=
  (world.outbox.affected eventId, world.withOutbox (world.outbox.setPublished eventId streamId))

def OutboxWorld.failed (world : OutboxWorld F) (eventId : Uuid) (errorMessage : Str)
    (availableAt : Timestamp) : Nat × OutboxWorld F :=
  (world.outbox.affected eventId,
    { world with
      outbox := world.outbox.setFailed eventId errorMessage availableAt
      failures := List.replicate (world.outbox.affected eventId) eventId ++ world.failures })

def OutboxWorld.wrote (world : OutboxWorld F) (eventId : Uuid) (point : StoredPoint F) : OutboxWorld F :=
  { world with points := upsertPoint point world.points, written := (eventId, point) :: world.written }

/-- How a call is served. -/
def serveOutbox (weather : Weather) :
    (request : OutboxCall F) → OutboxWorld F → OutboxAnswer F request × OutboxWorld F
  | .hasPending correlationId, world =>
    weather.sql world (.ok (world.outbox.hasPending correlationId, world))
  | .claim correlationId limit, world =>
    let claimed := world.outbox.claim weather.order weather.now correlationId limit
    weather.sql world (.ok (claimed.1, world.withOutbox claimed.2))
  | .insert event, world =>
    weather.sql world ((world.outbox.insert weather.now event).map fun after =>
      ((), world.withOutbox after))
  | .insertIfNew event, world =>
    weather.sql world ((world.outbox.insertIfNew weather.now event).map fun after =>
      (after.1, world.withOutbox after.2))
  | .setPublished eventId streamId, world =>
    weather.sql world (.ok (world.published eventId streamId))
  | .setFailed eventId errorMessage availableAt, world =>
    weather.sql world (.ok (world.failed eventId errorMessage availableAt))
  | .statusOf eventId, world =>
    weather.sql world (.ok ((world.outbox.find? eventId).map OutboxRow.status, world))
  | .listPublished eventType limit, world =>
    weather.sql world (.ok (world.outbox.listPublished weather.order eventType limit, world))
  | .upsertVector eventId pointId vector payload, world =>
    weather.store world ((), world.wrote eventId ⟨pointId, vector, payload⟩)
  | .hasVector pointId, world => weather.store world ((pointAt? pointId world.points).isSome, world)
  | .listPointIds, world =>
    weather.store world (⟨world.points.map StoredPoint.id, weather.listingComplete⟩, world)
  | .deletePoints pointIds, world =>
    weather.store world ((), { world with points := deletePoints pointIds world.points })
  | .utcNow, world => (weather.now, world)
  | .newEventId, world => (weather.eventId, world)

end SkillLayer.Infrastructure

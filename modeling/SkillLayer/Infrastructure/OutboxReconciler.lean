import SkillLayer.Infrastructure.OutboxRelay

/-! The reconciler, which compares the published events with the stored points. -/

namespace SkillLayer.Infrastructure

structure OutboxReconciliationReport where
  scanned : Nat
  missingVectors : Nat
  repairEnqueued : Nat
  orphanedVectorsDeleted : Nat
deriving DecidableEq

variable {F : Type} (format : VectorFormat F) (blake3 : Blake3)

/-- Ids compare byte by byte. -/
def Uuid.before : Uuid → Uuid → Bool
  | [], [] => false
  | [], _ :: _ => true
  | _ :: _, [] => false
  | byte :: rest, other :: others => byte < other || (byte = other && Uuid.before rest others)

def outboxRecordIsNewer (candidate current : OutboxRecord) : Bool :=
  current.event.timestamp < candidate.event.timestamp ||
    (current.event.timestamp = candidate.event.timestamp &&
      Uuid.before current.event.eventId candidate.event.eventId)

/-- The point that a record asks for. -/
def recordPoint (record : OutboxRecord) : Except OutboxRelayError Nat :=
  (parseVectorUpsertRequest format record.event.payload).map fun upsert =>
    qdrantPointIdFromContentHash blake3 upsert.contentHash

/-- The point that an event asks for, if it is a well-formed vector upsert. -/
def eventPoint? (event : OutboxEvent) : Option Nat :=
  if event.eventType = vectorUpsertEventType then
    match parseVectorUpsertRequest format event.payload with
    | .ok upsert => some (qdrantPointIdFromContentHash blake3 upsert.contentHash)
    | .error _ => none
  else none

/-- The newest record of a point replaces the others. -/
def insertNewest (pointId : Nat) (record : OutboxRecord) :
    List (Nat × OutboxRecord) → List (Nat × OutboxRecord)
  | [] => [(pointId, record)]
  | entry :: rest =>
    if entry.1 = pointId then
      (pointId, if outboxRecordIsNewer record entry.2 then record else entry.2) :: rest
    else entry :: insertNewest pointId record rest

def expectedPointsByEvent (records : List OutboxRecord) :
    Except OutboxRelayError (List (Nat × OutboxRecord)) :=
  records.foldlM (fun expected record => do
    let pointId ← recordPoint format blake3 record
    return insertNewest pointId record expected) []

section Expected

variable {format blake3}

theorem mem_insertNewest {pointId wanted : Nat} {record : OutboxRecord} {expected : List (Nat × OutboxRecord)} :
    wanted ∈ (insertNewest pointId record expected).map Prod.fst ↔
      wanted = pointId ∨ wanted ∈ expected.map Prod.fst := by
  induction expected with
  | nil => simp [insertNewest]
  | cons entry rest ih =>
    rw [insertNewest]
    by_cases same : entry.1 = pointId
    · rw [if_pos same, List.map_cons, List.map_cons, List.mem_cons, List.mem_cons, same]
      exact ⟨.inr, fun either => either.elim .inl id⟩
    · rw [if_neg same, List.map_cons, List.mem_cons, ih, List.map_cons, List.mem_cons]
      exact or_left_comm

theorem expected_fold {records : List OutboxRecord} {before after : List (Nat × OutboxRecord)}
    (folded : records.foldlM (fun expected record => do
      let pointId ← recordPoint format blake3 record
      return insertNewest pointId record expected) before = .ok after) (wanted : Nat) :
    wanted ∈ after.map Prod.fst ↔ wanted ∈ before.map Prod.fst ∨
      ∃ record ∈ records, recordPoint format blake3 record = .ok wanted := by
  induction records generalizing before with
  | nil =>
    cases folded
    simp
  | cons record rest ih =>
    rw [List.foldlM_cons] at folded
    cases point : recordPoint format blake3 record with
    | error error =>
      rw [point] at folded
      cases folded
    | ok pointId =>
      rw [point] at folded
      rw [ih folded, mem_insertNewest]
      constructor
      · rintro ((rfl | old) | ⟨other, member, same⟩)
        · exact .inr ⟨record, List.mem_cons_self, point⟩
        · exact .inl old
        · exact .inr ⟨other, List.mem_cons_of_mem _ member, same⟩
      · rintro (old | ⟨other, member, same⟩)
        · exact .inl (.inr old)
        · rcases List.mem_cons.mp member with rfl | inRest
          · exact .inl (.inl (Except.ok.inj (same.symm.trans point)))
          · exact .inr ⟨other, inRest, same⟩

/-- The expected points are those that some record asks for. -/
theorem mem_expectedPoints {records : List OutboxRecord} {expected : List (Nat × OutboxRecord)}
    (built : expectedPointsByEvent format blake3 records = .ok expected) (wanted : Nat) :
    wanted ∈ expected.map Prod.fst ↔ ∃ record ∈ records, recordPoint format blake3 record = .ok wanted := by
  rw [expected_fold built wanted]
  simp

end Expected

def missingRecords :
    List (Nat × OutboxRecord) → OutboxProgram F OutboxRelayError (List OutboxRecord)
  | [] => return []
  | (pointId, record) :: rest => do
    let answer ← Program.ask (.hasVector pointId)
    let isPresent ← Program.ofExcept ((answer : Except Str Bool).mapError .vectorStore)
    let missing ← missingRecords rest
    return if isPresent then missing else record :: missing

def repairKey (eventId : Uuid) (pointId : Nat) : Str :=
  "reconcile:" ++ Uuid.display eventId ++ ":" ++ Str.ofNat pointId

def repairEvent (record : OutboxRecord) (pointId : Nat) (eventId : Uuid) (now : Timestamp) :
    OutboxEvent where
  eventId := eventId
  eventType := vectorUpsertEventType
  correlationId := record.event.correlationId
  idempotencyKey := repairKey record.event.eventId pointId
  schemaVersion := record.event.schemaVersion
  timestamp := now
  payload := record.event.payload

/-- A repair whose key exists is skipped; other errors end the pass. -/
def enqueueRepair (event : OutboxEvent) : OutboxProgram F OutboxRelayError Bool := do
  match ← (appendOutboxEvent event).outcome with
  | .ok () => return true
  | .error (.idempotencyConflict _) => return false
  | .error error => .fail (.coordinator error)

def enqueueRepairs : List OutboxRecord → OutboxProgram F OutboxRelayError Nat
  | [] => return 0
  | record :: rest => do
    let pointId ← Program.ofExcept (recordPoint format blake3 record)
    let eventId ← Program.ask .newEventId
    let now ← Program.ask .utcNow
    let enqueued ← enqueueRepair (repairEvent record pointId eventId now)
    let repaired ← enqueueRepairs rest
    return repaired + if enqueued then 1 else 0

/-- Delete the stored points that are not expected. -/
def deleteOrphans (orphaned : List Nat) : OutboxProgram F OutboxRelayError Unit :=
  if orphaned.isEmpty then return ()
  else do
    let answer ← Program.ask (.deletePoints orphaned)
    Program.ofExcept ((answer : Except Str Unit).mapError .vectorStore)

structure OutboxReconciler where
  scanLimit : Int
  positive : 0 < scanLimit

def OutboxReconciler.new (scanLimit : Int) : Except OutboxRelayError OutboxReconciler :=
  if positive : 0 < scanLimit then .ok ⟨scanLimit, positive⟩
  else .error (.invalidPayload "scan_limit must be greater than zero")

/-- The expected points come in the order of their hash map. -/
def OutboxReconciler.reconcileOnce (reconciler : OutboxReconciler)
    (pointOrder : HashOrder (Nat × OutboxRecord)) :
    OutboxProgram F OutboxRelayError OutboxReconciliationReport := do
  let publishedRecords ←
    (listPublishedEventsByType vectorUpsertEventType reconciler.scanLimit).mapError .coordinator
  let expected ← Program.ofExcept (expectedPointsByEvent format blake3 publishedRecords)
  let missing ← missingRecords (pointOrder.arrange expected)
  let repairEnqueued ← enqueueRepairs format blake3 missing
  let answer ← Program.ask .listPointIds
  let listing ← Program.ofExcept ((answer : Except Str VectorPointListing).mapError .vectorStore)
  let orphaned :=
    if (publishedRecords.length : Int) < reconciler.scanLimit ∧ listing.isComplete then
      listing.pointIds.filter fun pointId => pointId ∉ expected.map Prod.fst
    else []
  deleteOrphans orphaned
  return ⟨publishedRecords.length, missing.length, repairEnqueued, orphaned.length⟩

end SkillLayer.Infrastructure

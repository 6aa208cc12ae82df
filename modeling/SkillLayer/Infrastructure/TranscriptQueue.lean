import SkillLayer.Path
import SkillLayer.Program
import SkillLayer.WorkTable
import SkillLayer.Infrastructure.Outbox

/-! The queue of captured transcripts, and how it serves the calls of capture hooks and
maintenance workers. -/

namespace SkillLayer.Infrastructure

/-- Ten mebibytes. -/
def maxTranscriptIngestBytes : Nat := 10 * 1024 * 1024

def maxTranscriptDrainAttempts : Nat := 3

inductive TranscriptSource where
  | sessionEnd
  | preCompact
  | reconcile
deriving DecidableEq

def TranscriptSource.asStr : TranscriptSource → Str
  | .sessionEnd => "session_end"
  | .preCompact => "pre_compact"
  | .reconcile => "reconcile"

inductive TranscriptQueueError where
  | emptyContent
  | contentTooLarge (limit actual : Nat)
  | invalidContract (message : Str)
  | persistence (error : SqlError)
deriving DecidableEq

def TranscriptQueueError.display : TranscriptQueueError → Str
  | .emptyContent => "transcript content must not be empty"
  | .contentTooLarge limit actual =>
    "transcript content exceeds ".toList ++ Str.ofNat limit ++ " bytes (got ".toList ++ Str.ofNat actual ++
      ")".toList
  | .invalidContract message => "invalid transcript ingest contract: " ++ message
  | .persistence error => "transcript queue persistence error: " ++ error.display

def TranscriptSource.parse (raw : Str) : Except TranscriptQueueError TranscriptSource :=
  let other := Str.trim raw
  if other = "session_end".toList then .ok .sessionEnd
  else if other = "pre_compact".toList then .ok .preCompact
  else if other = "reconcile".toList then .ok .reconcile
  else .error (.invalidContract ("unsupported transcript source `" ++ other ++ "`"))

theorem TranscriptSource.parse_asStr (source : TranscriptSource) : parse source.asStr = .ok source := by
  cases source <;> decide

structure TranscriptIngestRequest where
  sessionId : Str
  repoPath : Option Str
  source : TranscriptSource
  content : Str
deriving DecidableEq

inductive EnqueueOutcome where
  | enqueued (id : Uuid) (contentHash : Str)
  | duplicate (contentHash : Str)
deriving DecidableEq

structure TranscriptQueueRecord where
  id : Uuid
  sessionId : Str
  contentHash : Str
  content : Str
  source : TranscriptSource
  repoPath : Option Str
  attempts : Nat
deriving DecidableEq

inductive TranscriptStatus where
  | pending
  | processing
  | processed
  | failed
deriving DecidableEq

def TranscriptStatus.standing : TranscriptStatus → Standing
  | .pending => .pending
  | .processing => .processing
  | .processed => .done
  | .failed => .failed

/-- A row of `transcript_ingest_queue`; the check constraint allows the known sources only. -/
structure TranscriptRow where
  id : Uuid
  sessionId : Str
  contentHash : Str
  content : Str
  source : Str
  repoPath : Option Str
  status : TranscriptStatus
  attempts : Nat
  error : Option Str
  enqueuedAt : Timestamp
  sourceCheck : ∃ known : TranscriptSource, source = known.asStr

def TranscriptRow.progress (row : TranscriptRow) : Progress := ⟨row.status.standing, row.attempts⟩

/-- A returned row as a record. -/
def TranscriptRow.decode (row : TranscriptRow) : Except TranscriptQueueError TranscriptQueueRecord := do
  let source ← TranscriptSource.parse row.source
  return ⟨row.id, row.sessionId, row.contentHash, row.content, source, row.repoPath, row.attempts⟩

theorem TranscriptRow.exists_decode (row : TranscriptRow) : ∃ record, row.decode = .ok record ∧
    record.id = row.id ∧ record.sessionId = row.sessionId ∧ record.content = row.content ∧
      record.repoPath = row.repoPath := by
  obtain ⟨known, text⟩ := row.sourceCheck
  refine ⟨⟨row.id, row.sessionId, row.contentHash, row.content, known, row.repoPath, row.attempts⟩, ?_,
    rfl, rfl, rfl, rfl⟩
  rw [decode, text, TranscriptSource.parse_asStr]
  rfl

/-- The queue table, with its two unique keys. -/
structure TranscriptTable where
  table : Keyed TranscriptRow TranscriptRow.id
  distinctHashes : (table.rows.map TranscriptRow.contentHash).Nodup

namespace TranscriptTable

def empty : TranscriptTable := ⟨.empty, List.nodup_nil⟩

def rows (queue : TranscriptTable) : List TranscriptRow := queue.table.rows

def progress (queue : TranscriptTable) : Uuid → Option Progress :=
  queue.table.progressOf TranscriptRow.progress

def holdsHash (queue : TranscriptTable) (contentHash : Str) : Bool :=
  queue.rows.any fun row => row.contentHash = contentHash

def insertRow (queue : TranscriptTable) (row : TranscriptRow) (fresh : row.id ∉ queue.table.keys)
    (freshHash : queue.holdsHash row.contentHash = false) : TranscriptTable where
  table := queue.table.insert row fresh
  distinctHashes := by
    rw [Keyed.insert_rows, List.map_append, List.map_singleton, List.nodup_append]
    refine ⟨queue.distinctHashes, List.nodup_singleton _, ?_⟩
    intro hash member last inLast same
    obtain rfl := List.mem_singleton.mp inLast
    obtain ⟨other, inRows, equal⟩ := List.mem_map.mp member
    exact List.any_eq_false.mp freshHash other inRows (decide_eq_true (equal.trans same))

/-- What a statement may change of a row: its status, its attempts and its error. -/
structure RowChange where
  status : TranscriptRow → TranscriptStatus
  attempts : TranscriptRow → Nat
  error : TranscriptRow → Option Str

def RowChange.apply (change : RowChange) (row : TranscriptRow) : TranscriptRow :=
  { row with status := change.status row, attempts := change.attempts row, error := change.error row }

theorem keepsId (selects : TranscriptRow → Bool) (change : RowChange) (row : TranscriptRow) :
    (if selects row then change.apply row else row).id = row.id := by
  split <;> rfl

/-- Change the rows that a test selects. -/
def modify (queue : TranscriptTable) (selects : TranscriptRow → Bool) (change : RowChange) :
    TranscriptTable where
  table := queue.table.update (fun row => if selects row then change.apply row else row)
    (keepsId selects change)
  distinctHashes := by
    rw [Keyed.update_rows, List.map_map]
    have same : TranscriptRow.contentHash ∘ (fun row => if selects row then change.apply row else row) =
        TranscriptRow.contentHash := by
      funext row
      simp only [Function.comp_apply]
      split <;> rfl
    rw [same]
    exact queue.distinctHashes

/-! ### Statements -/

def pendingRow (id : Uuid) (request : TranscriptIngestRequest) (contentHash : Str) (repoPath : Option Str)
    (now : Timestamp) : TranscriptRow where
  id := id
  sessionId := request.sessionId
  contentHash := contentHash
  content := request.content
  source := request.source.asStr
  repoPath := repoPath
  status := .pending
  attempts := 0
  error := none
  enqueuedAt := now
  sourceCheck := ⟨request.source, rfl⟩

def primaryKey : Str := "transcript_ingest_queue_pkey"

/-- `INSERT ... ON CONFLICT (content_hash) DO NOTHING RETURNING id`. -/
def insertIfNew (row : TranscriptRow) (queue : TranscriptTable) :
    Except SqlError (Option Uuid × TranscriptTable) :=
  match freshHash : queue.holdsHash row.contentHash with
  | true => .ok (none, queue)
  | false =>
    if fresh : row.id ∉ queue.table.keys then .ok (some row.id, queue.insertRow row fresh freshHash)
    else .error (.uniqueViolation primaryKey)

def claimable (row : TranscriptRow) : Bool := row.status = .pending

/-- `ORDER BY enqueued_at ASC LIMIT ... FOR UPDATE SKIP LOCKED`. -/
def claimed (order : HashOrder TranscriptRow) (limit : Int) (queue : TranscriptTable) :
    List TranscriptRow :=
  queue.table.batch order claimable (fun left right => left.enqueuedAt ≤ right.enqueuedAt) limit.toNat

def setProcessing : RowChange := ⟨fun _ => .processing, TranscriptRow.attempts, TranscriptRow.error⟩

/-- `UPDATE ... SET status = 'processing' ... RETURNING`, in any order. -/
def claim (order : HashOrder TranscriptRow) (limit : Int) (queue : TranscriptTable) :
    List TranscriptRow × TranscriptTable :=
  let selected := queue.claimed order limit
  ((order.arrange selected).map setProcessing.apply,
    queue.modify (fun row => row.id ∈ selected.map TranscriptRow.id) setProcessing)

def inProcessing (id : Uuid) (row : TranscriptRow) : Bool := row.id = id && row.status = .processing

def setProcessed : RowChange := ⟨fun _ => .processed, TranscriptRow.attempts, fun _ => none⟩

def markProcessed (id : Uuid) (queue : TranscriptTable) : TranscriptTable :=
  queue.modify (inProcessing id) setProcessed

def setFailed (errorMessage : Str) (maxAttempts : Nat) : RowChange where
  status row := if maxAttempts ≤ row.attempts + 1 then .failed else .pending
  attempts row := row.attempts + 1
  error _ := some errorMessage

def markFailed (id : Uuid) (errorMessage : Str) (maxAttempts : Nat) (queue : TranscriptTable) :
    TranscriptTable :=
  queue.modify (inProcessing id) (setFailed errorMessage maxAttempts)

end TranscriptTable

/-! ### Calls -/

/-- The request of an extraction. -/
structure ExtractSessionRequest where
  transcriptRef : Str
  transcriptInline : Option Str
  sessionId : Str
  repoPath : Option Str
deriving DecidableEq

/-- What the programs ask of the database, the id source and the extractor. -/
inductive TranscriptCall where
  | newId
  | insertIfNew (id : Uuid) (request : TranscriptIngestRequest) (contentHash : Str) (repoPath : Option Str)
  | claim (limit : Int)
  | markProcessed (id : Uuid)
  | markFailed (id : Uuid) (errorMessage : Str) (maxAttempts : Nat)
  | extractBlocking (request : ExtractSessionRequest)

@[reducible] def TranscriptAnswer : TranscriptCall → Type
  | .newId => Uuid
  | .insertIfNew _ _ _ _ => Except SqlError (Option Uuid)
  | .claim _ => Except SqlError (List TranscriptRow)
  | .markProcessed _ => Except SqlError Unit
  | .markFailed _ _ _ => Except SqlError Unit
  | .extractBlocking _ => Except Str (List Path)

/-- The queue and, for the record of the run only, the requests whose extraction returned Ok. -/
structure TranscriptWorld where
  queue : TranscriptTable
  extracted : List ExtractSessionRequest

/-- What decides about a call besides the queue: the time, a lost connection, the order of
rows, a fresh id, and the outcome of an extraction. -/
structure TranscriptWeather where
  now : Timestamp
  refused : Option Str
  order : HashOrder TranscriptRow
  id : Uuid
  extraction : Except Str (List Path)

def TranscriptWorld.withQueue (world : TranscriptWorld) (queue : TranscriptTable) : TranscriptWorld :=
  { world with queue }

/-- An answer, unless the connection is lost. -/
def TranscriptWeather.sql (weather : TranscriptWeather) {Value : Type} (world : TranscriptWorld)
    (answered : Except SqlError (Value × TranscriptTable)) : Except SqlError Value × TranscriptWorld :=
  match weather.refused with
  | some message => (.error (.refused message), world)
  | none =>
    match answered with
    | .ok (value, queue) => (.ok value, world.withQueue queue)
    | .error error => (.error error, world)

/-- How a call is served. -/
def serveTranscripts (weather : TranscriptWeather) :
    (request : TranscriptCall) → TranscriptWorld → TranscriptAnswer request × TranscriptWorld
  | .newId, world => (weather.id, world)
  | .insertIfNew id request contentHash repoPath, world =>
    weather.sql world
      (world.queue.insertIfNew (TranscriptTable.pendingRow id request contentHash repoPath weather.now))
  | .claim limit, world => weather.sql world (.ok (world.queue.claim weather.order limit))
  | .markProcessed id, world => weather.sql world (.ok ((), world.queue.markProcessed id))
  | .markFailed id errorMessage maxAttempts, world =>
    weather.sql world (.ok ((), world.queue.markFailed id errorMessage maxAttempts))
  | .extractBlocking request, world =>
    match weather.extraction with
    | .ok draftPaths => (.ok draftPaths, { world with extracted := request :: world.extracted })
    | .error reasonCode => (.error reasonCode, world)

/-! ### The queue's operations -/

abbrev TranscriptProgram (Err Result : Type) := Program TranscriptCall TranscriptAnswer Err Result

def persisted {Value : Type} (answer : Except SqlError Value) : TranscriptProgram TranscriptQueueError Value :=
  .ofExcept (answer.mapError .persistence)

variable (hash : List UInt8 → Str)

def enqueue (request : TranscriptIngestRequest) : TranscriptProgram TranscriptQueueError EnqueueOutcome :=
  if (Str.trim request.sessionId).isEmpty then .fail (.invalidContract "session_id must not be blank")
  else if (Str.trim request.content).isEmpty then .fail .emptyContent
  else if maxTranscriptIngestBytes < (Str.utf8 request.content).length then
    .fail (.contentTooLarge maxTranscriptIngestBytes (Str.utf8 request.content).length)
  else do
    let contentHash := hash (Str.utf8 request.content)
    let id ← Program.ask .newId
    let repoPath := (request.repoPath.map Str.trim).filter (!·.isEmpty)
    let answer ← Program.ask (.insertIfNew id request contentHash repoPath)
    match ← persisted (answer : Except SqlError (Option Uuid)) with
    | some id => return .enqueued id contentHash
    | none => return .duplicate contentHash

def claimPending (limit : Int) : TranscriptProgram TranscriptQueueError (List TranscriptQueueRecord) :=
  if limit ≤ 0 then .fail (.invalidContract "claim limit must be greater than zero")
  else do
    let answer ← Program.ask (.claim limit)
    let rows ← persisted (answer : Except SqlError (List TranscriptRow))
    Program.ofExcept (rows.mapM TranscriptRow.decode)

def markProcessed (id : Uuid) : TranscriptProgram TranscriptQueueError Unit := do
  let answer ← Program.ask (.markProcessed id)
  persisted (answer : Except SqlError Unit)

def markFailed (id : Uuid) (errorMessage : Str) (maxAttempts : Nat) :
    TranscriptProgram TranscriptQueueError Unit := do
  let answer ← Program.ask (.markFailed id errorMessage maxAttempts)
  persisted (answer : Except SqlError Unit)

end SkillLayer.Infrastructure

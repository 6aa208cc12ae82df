import SkillLayer.Maintenance.TranscriptSafety
import SkillLayer.McpServer.TranscriptIngest

/-! What the replies of the ingest endpoint promise in any interleaving of posts and drains. -/

namespace SkillLayer.McpServer

open Infrastructure Maintenance

variable {server : IngestServer} {headers : HeaderMap} {request : TranscriptIngestHttpRequest}

/-! ### What a post may write -/

def contentHash (server : IngestServer) (request : TranscriptIngestHttpRequest) : Str :=
  server.hash (Str.utf8 request.content)

/-- What the queue keeps of a post: everything but the id, which is drawn for it. -/
structure RowOf (server : IngestServer) (request : TranscriptIngestHttpRequest) (row : TranscriptRow) : Prop where
  sessionId : row.sessionId = request.sessionId
  content : row.content = request.content
  contentHash : row.contentHash = McpServer.contentHash server request
  repoPath : row.repoPath = (request.repoPath.map Str.trim).filter (!·.isEmpty)
  source : TranscriptSource.parse request.source = TranscriptSource.parse row.source

/-- The posts that the queue takes. -/
structure Admitted (server : IngestServer) (headers : HeaderMap) (request : TranscriptIngestHttpRequest) : Prop where
  authorized : Authorized (ingestSecretFrom server.environment) headers
  configured : server.transcriptIngest = true
  session : ¬ Str.trim request.sessionId = []
  content : ¬ Str.trim request.content = []
  size : (Str.utf8 request.content).length ≤ maxTranscriptIngestBytes
  source : ∃ source, TranscriptSource.parse request.source = .ok source

/-- The row that a post writes. -/
def Writes (server : IngestServer) (headers : HeaderMap) (request : TranscriptIngestHttpRequest) : TranscriptCall → Prop
  | .newId => True
  | .insertIfNew _ taken contentHash repoPath =>
    Admitted server headers request ∧ taken.sessionId = request.sessionId ∧ taken.content = request.content ∧
      TranscriptSource.parse request.source = .ok taken.source ∧ contentHash = McpServer.contentHash server request ∧
        repoPath = (request.repoPath.map Str.trim).filter (!·.isEmpty)
  | _ => False

/-! ### The ledger of a thread -/

/-- The task of a thread, and the answer to its insert. -/
structure IngestLedger where
  task : Option IngestTask
  inserted : Option (Except SqlError (Option Uuid))

namespace IngestLedger

def opening (task : IngestTask) : IngestLedger := ⟨some task, none⟩

def Allows (server : IngestServer) (ledger : IngestLedger) (call : TranscriptCall) : Prop :=
  match ledger.task with
  | some (.post headers request) => ledger.inserted = none ∧ Writes server headers request call
  | some (.drain _) => ¬ Captures call
  | none => False

def after (ledger : IngestLedger) : (call : TranscriptCall) → TranscriptAnswer call → IngestLedger
  | .insertIfNew _ _ _ _, answer => { ledger with inserted := some answer }
  | _, _ => ledger

end IngestLedger

def ingestDiscipline (server : IngestServer) : Discipline TranscriptCall TranscriptAnswer IngestLedger where
  allows := IngestLedger.Allows server
  after := IngestLedger.after

/-- The reply of a post, from the answer to its insert. -/
def Replies (server : IngestServer) (request : TranscriptIngestHttpRequest) (reply : IngestReply) :
    Option (Except SqlError (Option Uuid)) → Prop
  | some (.ok (some id)) => reply = enqueuedReply id (contentHash server request)
  | some (.ok none) => reply = duplicateReply (contentHash server request)
  | some (.error _) => reply.status = 503
  | none => 400 ≤ reply.status

/-- A thread ends with the ledger of its task, and a post replies as the ledger says. -/
def Ends (server : IngestServer) (task : IngestTask) (ledger : IngestLedger) (result : IngestResult) : Prop :=
  ledger.task = some task ∧ ∀ headers request reply, task = .post headers request → result = .replied reply →
    Replies server request reply ledger.inserted

/-- How an enqueue ends, from the answer to its insert. -/
def Enqueued (contentHash : Str) (inserted : Option (Except SqlError (Option Uuid))) :
    Except TranscriptQueueError EnqueueOutcome → Prop
  | .ok (.enqueued id other) => inserted = some (.ok (some id)) ∧ other = contentHash
  | .ok (.duplicate other) => inserted = some (.ok none) ∧ other = contentHash
  | .error (.persistence error) => inserted = some (.error error)
  | .error _ => inserted = none

theorem obeys_enqueue {source : TranscriptSource} (authorized : Authorized (ingestSecretFrom server.environment) headers)
    (configured : server.transcriptIngest = true) (parsed : TranscriptSource.parse request.source = .ok source) :
    (enqueue server.hash ⟨request.sessionId, request.repoPath, source, request.content⟩).Obeys (ingestDiscipline server)
      (fun left outcome => left.task = some (.post headers request) ∧
        Enqueued (contentHash server request) left.inserted outcome)
      (.opening (.post headers request)) := by
  unfold enqueue
  split
  · exact ⟨rfl, rfl⟩
  rename_i session
  split
  · exact ⟨rfl, rfl⟩
  rename_i content
  split
  · exact ⟨rfl, rfl⟩
  rename_i size
  have admitted : Admitted server headers request :=
    ⟨authorized, configured, by simpa using session, by simpa using content, Nat.not_lt.mp size, source, parsed⟩
  refine ⟨⟨rfl, trivial⟩, fun id => ⟨⟨rfl, admitted, rfl, rfl, parsed, rfl, rfl⟩, fun answer => ?_⟩⟩
  cases answer with
  | error error => exact ⟨rfl, rfl⟩
  | ok inserted =>
    cases inserted with
    | none => exact ⟨rfl, rfl, rfl⟩
    | some id => exact ⟨rfl, rfl, rfl⟩

theorem replies_of_enqueued {inserted : Option (Except SqlError (Option Uuid))}
    {outcome : Except TranscriptQueueError EnqueueOutcome} (ended : Enqueued (contentHash server request) inserted outcome) :
    Replies server request (ingestReply (ingestOutcome outcome)) inserted := by
  cases outcome with
  | ok accepted =>
    cases accepted with
    | enqueued id other =>
      obtain ⟨rfl, rfl⟩ := ended
      rfl
    | duplicate other =>
      obtain ⟨rfl, rfl⟩ := ended
      rfl
  | error error =>
    have rejected (known : inserted = none) (reply : IngestReply) (status : 400 ≤ reply.status) :
        Replies server request reply inserted := by
      rw [known]
      exact status
    cases error with
    | emptyContent => exact rejected ended _ (Nat.le_refl 400)
    | contentTooLarge limit actual => exact rejected ended _ (show 400 ≤ 413 by decide)
    | invalidContract message => exact rejected ended _ (Nat.le_refl 400)
    | persistence sql =>
      rw [show inserted = some (.error sql) from ended]
      rfl

/-- What a post ends with. -/
def Answered (server : IngestServer) (headers : HeaderMap) (request : TranscriptIngestHttpRequest) (left : IngestLedger)
    (outcome : Except Empty IngestReply) : Prop :=
  left.task = some (.post headers request) ∧ ∃ reply, outcome = .ok reply ∧ Replies server request reply left.inserted

theorem obeys_handler : (ingestTranscriptHandler server headers request).Obeys (ingestDiscipline server)
    (Answered server headers request) (.opening (.post headers request)) := by
  have refused (reply : IngestReply) (status : 400 ≤ reply.status) :
      Answered server headers request (.opening (.post headers request)) (.ok reply) := ⟨rfl, reply, rfl, status⟩
  unfold ingestTranscriptHandler
  split
  · rename_i rejection checked
    refine refused rejection ?_
    unfold checkIngestSecret at checked
    split at checked
    · cases checked
    · split at checked
      · cases checked
      · cases checked
        exact (show 400 ≤ 401 by decide)
  · rename_i checked
    have authorized := authorized_of_checkIngestSecret checked
    unfold ingestTranscript
    split
    · exact refused _ (show 400 ≤ 503 by decide)
    · rename_i configured
      split
      · rename_i error parsed
        refine refused _ ?_
        unfold ingestReply
        dsimp only
        split
        · exact (show 400 ≤ 413 by decide)
        · exact Nat.le_refl 400
      · rename_i source parsed
        have wired : server.transcriptIngest = true := by simpa using configured
        refine Program.Obeys.bind (Program.Obeys.bind (Program.Obeys.outcome ?_))
        refine (obeys_enqueue authorized wired parsed).mono ?_
        rintro left outcome ⟨task, ended⟩
        exact ⟨task, _, rfl, replies_of_enqueued ended⟩

/-- The calls of a drain. -/
theorem calls_drainRows {report : TranscriptDrainReport} {rows : List TranscriptQueueRecord} :
    (drainRows report rows).Calls fun call => ¬ Captures call := by
  induction rows generalizing report with
  | nil => trivial
  | cons row rest ih =>
    unfold drainRows
    refine (Program.Calls.ask (fun captures => captures)).bind fun answer => ?_
    cases answer with
    | ok paths =>
      refine Program.Calls.bind ?_ fun _ => ih
      exact ((Program.Calls.ask (fun captures => captures)).bind fun _ => Program.calls_ofExcept).mapError
    | error reasonCode =>
      refine Program.Calls.bind ?_ fun _ => ih
      exact ((Program.Calls.ask (fun captures => captures)).bind fun _ => Program.calls_ofExcept).mapError

theorem calls_drainOnce (drain : TranscriptQueueDrain) : drain.drainOnce.Calls fun call => ¬ Captures call := by
  refine Program.Calls.bind ?_ fun _ => calls_drainRows
  refine Program.Calls.mapError ?_
  unfold claimPending
  split
  · trivial
  · exact (Program.Calls.ask (fun captures => captures)).bind fun _ =>
      Program.calls_ofExcept.bind fun _ => Program.calls_ofExcept

theorem obeys_ingestProgram (task : IngestTask) :
    (ingestProgram server task).Obeys (ingestDiscipline server)
      (fun left outcome => ∃ result, outcome = .ok result ∧ Ends server task left result) (.opening task) := by
  cases task with
  | post headers request =>
    refine Program.Obeys.bind (obeys_handler.mono ?_)
    rintro left outcome ⟨task, reply, rfl, replied⟩
    refine ⟨_, rfl, task, ?_⟩
    rintro _ _ _ ⟨⟩ ⟨⟩
    exact replied
  | drain drain =>
    refine Program.Calls.obeys (Program.Calls.bind (calls_drainOnce drain).outcome fun _ => ?_) ?_ ?_
    · trivial
    · intro call outside
      refine ⟨outside, fun answer => ?_⟩
      cases call with
      | insertIfNew => exact absurd trivial outside
      | _ => rfl
    · intro outcome
      cases outcome with
      | error never => cases never
      | ok result => exact ⟨result, rfl, rfl, fun _ _ _ never => nomatch never⟩

/-! ### What the statements do to rows -/

/-- A row that differs in its status, its attempts and its error only. -/
def SameCapture (one two : TranscriptRow) : Prop := one.capture = two.capture ∧ one.source = two.source

theorem RowOf.congr {one two : TranscriptRow} (written : RowOf server request one) (same : SameCapture one two) :
    RowOf server request two := by
  obtain ⟨capture, source⟩ := same
  obtain ⟨-, hash, sessionId, content, repoPath⟩ :
      one.id = two.id ∧ one.contentHash = two.contentHash ∧ one.sessionId = two.sessionId ∧
        one.content = two.content ∧ one.repoPath = two.repoPath := by
    simpa [TranscriptRow.capture] using capture
  exact ⟨sessionId ▸ written.sessionId, content ▸ written.content, hash ▸ written.contentHash,
    repoPath ▸ written.repoPath, source ▸ written.source⟩

/-- The rows are the same, up to what statements of a drain change. -/
structure RowsKept (before after : TranscriptTable) : Prop where
  back : ∀ row ∈ after.rows, ∃ old ∈ before.rows, SameCapture old row
  forth : ∀ old ∈ before.rows, ∃ row ∈ after.rows, SameCapture old row

theorem RowsKept.refl (queue : TranscriptTable) : RowsKept queue queue :=
  ⟨fun row member => ⟨row, member, rfl, rfl⟩, fun old member => ⟨old, member, rfl, rfl⟩⟩

theorem rowsKept_modify (queue : TranscriptTable) (selects : TranscriptRow → Bool) (change : TranscriptTable.RowChange) :
    RowsKept queue (queue.modify selects change) := by
  have same (row : TranscriptRow) : SameCapture row (if selects row then change.apply row else row) := by
    refine ⟨(TranscriptTable.capture_change selects change row).symm, ?_⟩
    split <;> rfl
  constructor
  · intro row member
    obtain ⟨old, inRows, rfl⟩ := List.mem_map.mp member
    exact ⟨old, inRows, same old⟩
  · intro old member
    exact ⟨_, List.mem_map_of_mem member, same old⟩

theorem rowsKept_sql {Value : Type} (weather : TranscriptWeather) (world : TranscriptWorld) (value : Value)
    {queue : TranscriptTable} (kept : RowsKept world.queue queue) :
    RowsKept world.queue (weather.sql world (.ok (value, queue))).2.queue := by
  unfold TranscriptWeather.sql
  split
  · exact .refl _
  · exact kept

theorem rowsKept_serve {call : TranscriptCall} (outside : ¬ Captures call) (weather : TranscriptWeather)
    (world : TranscriptWorld) : RowsKept world.queue (serveTranscripts weather call world).2.queue := by
  cases call with
  | newId => exact absurd trivial outside
  | insertIfNew => exact absurd trivial outside
  | claim limit => exact rowsKept_sql weather world _ (rowsKept_modify _ _ _)
  | markProcessed id => exact rowsKept_sql weather world _ (rowsKept_modify _ _ _)
  | markFailed id errorMessage maxAttempts => exact rowsKept_sql weather world _ (rowsKept_modify _ _ _)
  | extractBlocking asked =>
    unfold serveTranscripts
    split <;> exact .refl _

variable {world after : TranscriptWorld}

theorem rowsKept_answered {call : TranscriptCall} {answer : TranscriptAnswer call} (outside : ¬ Captures call)
    (answered : (∃ weather, serveTranscripts weather call world = (answer, after)) ∨ Unheard world call answer after) :
    RowsKept world.queue after.queue := by
  obtain ⟨weather, served⟩ | unheard := answered
  · have kept := rowsKept_serve outside weather world
    rwa [served] at kept
  · cases call with
    | newId => cases unheard
    | insertIfNew => exact absurd trivial outside
    | extractBlocking => cases unheard
    | claim limit =>
      obtain ⟨weather, message, -, rfl⟩ := unheard
      exact rowsKept_serve outside weather world
    | markProcessed id =>
      obtain ⟨weather, message, -, rfl⟩ := unheard
      exact rowsKept_serve outside weather world
    | markFailed id errorMessage maxAttempts =>
      obtain ⟨weather, message, -, rfl⟩ := unheard
      exact rowsKept_serve outside weather world

/-- An insert leaves the rows alone, or writes its row; it says so when it is heard. -/
inductive InsertEffect (before : TranscriptTable) (row : TranscriptRow) (answer : Except SqlError (Option Uuid))
    (after : TranscriptTable) : Prop where
  | unchanged (same : after = before) (silent : ∀ id, answer ≠ .ok (some id))
      (taken : answer = .ok none → before.holdsHash row.contentHash = true)
  | written (fresh : row.id ∉ before.table.keys) (freshHash : before.holdsHash row.contentHash = false)
      (inserted : after = before.insertRow row fresh freshHash)
      (told : ∀ outcome, answer = .ok outcome → outcome = some row.id)

namespace InsertEffect

variable {before queue : TranscriptTable} {row : TranscriptRow} {answer : Except SqlError (Option Uuid)}

theorem kept (effect : InsertEffect before row answer queue) {old : TranscriptRow} (member : old ∈ before.rows) :
    old ∈ queue.rows := by
  cases effect with
  | unchanged same => rwa [same]
  | written fresh freshHash inserted =>
    rw [inserted]
    exact List.mem_append_left _ member

theorem mem_rows (effect : InsertEffect before row answer queue) {found : TranscriptRow} (member : found ∈ queue.rows) :
    found ∈ before.rows ∨ found = row := by
  cases effect with
  | unchanged same => exact .inl (same ▸ member)
  | written fresh freshHash inserted =>
    rw [inserted] at member
    exact (List.mem_append.mp member).imp id List.mem_singleton.mp

/-- An id that is heard is the id of the row, which is new. -/
theorem told_id {id : Uuid} (effect : InsertEffect before row (.ok (some id)) queue) :
    id = row.id ∧ row.id ∉ before.table.keys ∧ row ∈ queue.rows := by
  cases effect with
  | unchanged same silent => exact absurd rfl (silent id)
  | written fresh freshHash inserted told =>
    refine ⟨Option.some.inj (told _ rfl), fresh, ?_⟩
    rw [inserted]
    exact List.mem_append_right _ (List.mem_singleton_self _)

theorem told_taken (effect : InsertEffect before row (.ok none) queue) :
    ∃ other ∈ queue.rows, other.contentHash = row.contentHash := by
  cases effect with
  | unchanged same silent taken =>
    obtain ⟨other, member, equal⟩ := List.any_eq_true.mp (taken rfl)
    exact ⟨other, same ▸ member, of_decide_eq_true equal⟩
  | written fresh freshHash inserted told => cases told _ rfl

end InsertEffect

theorem insertEffect_served {weather : TranscriptWeather} {id : Uuid} {taken : TranscriptIngestRequest}
    {hash : Str} {repoPath : Option Str} {answer : Except SqlError (Option Uuid)}
    (served : serveTranscripts weather (.insertIfNew id taken hash repoPath) world = (answer, after)) :
    InsertEffect world.queue (TranscriptTable.pendingRow id taken hash repoPath weather.now) answer after.queue := by
  change weather.sql world (world.queue.insertIfNew (TranscriptTable.pendingRow id taken hash repoPath weather.now)) =
    (answer, after) at served
  unfold TranscriptWeather.sql at served
  split at served
  · cases served
    exact .unchanged rfl (fun _ never => nomatch never) fun never => nomatch never
  · split at served
    · rename_i value queue found
      cases served
      obtain ⟨rfl, rfl, held⟩ | ⟨rfl, fresh, freshHash, rfl⟩ := TranscriptTable.insertIfNew_eq_ok.mp found
      · exact .unchanged rfl (fun _ never => nomatch never) fun _ => held
      · refine .written fresh freshHash rfl ?_
        rintro outcome ⟨⟩
        rfl
    · cases served
      exact .unchanged rfl (fun _ never => nomatch never) fun never => nomatch never

theorem insertEffect_answered {id : Uuid} {taken : TranscriptIngestRequest} {hash : Str} {repoPath : Option Str}
    {answer : Except SqlError (Option Uuid)}
    (answered : (∃ weather, serveTranscripts weather (.insertIfNew id taken hash repoPath) world = (answer, after)) ∨
      Unheard world (.insertIfNew id taken hash repoPath) answer after) :
    ∃ now, InsertEffect world.queue (TranscriptTable.pendingRow id taken hash repoPath now) answer after.queue := by
  obtain ⟨weather, served⟩ | ⟨weather, message, rfl, rfl⟩ := answered
  · exact ⟨weather.now, insertEffect_served served⟩
  · refine ⟨weather.now, ?_⟩
    cases insertEffect_served (rfl : serveTranscripts weather (.insertIfNew id taken hash repoPath) world = _) with
    | unchanged same silent held => exact .unchanged same (fun _ never => nomatch never) fun never => nomatch never
    | written fresh freshHash inserted told => exact .written fresh freshHash inserted fun _ never => nomatch never

/-! ### The invariant -/

abbrev IngestPool := Pool IngestTask TranscriptCall TranscriptAnswer IngestResult TranscriptWorld

/-- An admitted post, with a row that it has written or found. -/
def Posted (server : IngestServer) (pool : IngestPool) (ledger : IngestLedger)
    (test : TranscriptIngestHttpRequest → TranscriptRow → Prop) : Prop :=
  ∃ headers request, ledger.task = some (.post headers request) ∧ Admitted server headers request ∧
    ∃ row ∈ pool.world.queue.rows, test request row

structure IngestSound (server : IngestServer) (pool : IngestPool) (ledgers : Nat → IngestLedger) : Prop where
  running : ∀ id task rest, pool.running id = some (task, rest) →
    (ledgers id).task = some task ∧ .started id task ∈ pool.trace
  rows : ∀ row ∈ pool.world.queue.rows, ∃ id headers request, .started id (.post headers request) ∈ pool.trace ∧
    Admitted server headers request ∧ RowOf server request row
  written : ∀ id rowId, (ledgers id).inserted = some (.ok (some rowId)) →
    Posted server pool (ledgers id) fun request row => row.id = rowId ∧ RowOf server request row
  found : ∀ id, (ledgers id).inserted = some (.ok none) →
    Posted server pool (ledgers id) fun request row => row.contentHash = contentHash server request
  once : ∀ id other rowId, (ledgers id).inserted = some (.ok (some rowId)) →
    (ledgers other).inserted = some (.ok (some rowId)) → id = other
  returned : ∀ id result, .returned id result ∈ pool.trace → ∃ task, .started id task ∈ pool.trace ∧
    Ends server task (ledgers id) result

variable {pool : IngestPool} {ledgers : Nat → IngestLedger}

theorem Posted.kept {test : TranscriptIngestHttpRequest → TranscriptRow → Prop} {ledger : IngestLedger} {next : IngestPool}
    (posted : Posted server pool ledger test)
    (forth : ∀ old ∈ pool.world.queue.rows, ∃ row ∈ next.world.queue.rows, SameCapture old row)
    (congr : ∀ request old row, SameCapture old row → test request old → test request row) :
    Posted server next ledger test := by
  obtain ⟨headers, request, task, admitted, old, member, holds⟩ := posted
  obtain ⟨row, inRows, same⟩ := forth old member
  exact ⟨headers, request, task, admitted, row, inRows, congr request old row same holds⟩

theorem written_congr {rowId : Uuid} (request : TranscriptIngestHttpRequest) (old row : TranscriptRow)
    (same : SameCapture old row) (holds : old.id = rowId ∧ RowOf server request old) :
    row.id = rowId ∧ RowOf server request row :=
  ⟨(TranscriptTable.id_of_capture same.1).symm.trans holds.1, holds.2.congr same⟩

theorem found_congr {hash : TranscriptIngestHttpRequest → Str} (request : TranscriptIngestHttpRequest)
    (old row : TranscriptRow) (same : SameCapture old row) (holds : old.contentHash = hash request) :
    row.contentHash = hash request := by
  have captured : old.contentHash = row.contentHash := congrArg (fun capture => capture.2.1) same.1
  exact captured.symm.trans holds

/-- A step that leaves the rows and the thread's answers as they are. -/
theorem IngestSound.quiet {next : IngestPool} (sound : IngestSound server pool ledgers)
    (rows : RowsKept pool.world.queue next.world.queue)
    (trace : ∀ moment ∈ pool.trace, moment ∈ next.trace)
    (running : ∀ id task rest, next.running id = some (task, rest) →
      (ledgers id).task = some task ∧ .started id task ∈ next.trace)
    (returned : ∀ id result, .returned id result ∈ next.trace → .returned id result ∈ pool.trace ∨
      ∃ task, .started id task ∈ next.trace ∧ Ends server task (ledgers id) result) :
    IngestSound server next ledgers where
  running := running
  rows row member := by
    obtain ⟨old, inRows, same⟩ := rows.back row member
    obtain ⟨id, headers, request, begun, admitted, writtenBy⟩ := sound.rows old inRows
    exact ⟨id, headers, request, trace _ begun, admitted, writtenBy.congr same⟩
  written id rowId inserted := (sound.written id rowId inserted).kept rows.forth written_congr
  found id inserted := (sound.found id inserted).kept rows.forth found_congr
  once := sound.once
  returned id result member := by
    obtain before | now := returned id result member
    · obtain ⟨task, begun, ended⟩ := sound.returned id result before
      exact ⟨task, trace _ begun, ended⟩
    · exact now

theorem IngestSound.start (sound : IngestSound server pool ledgers) {id : Nat} {task : IngestTask} (fresh : pool.Fresh id) :
    IngestSound server (pool.start id task (ingestProgram server task)) (Function.update ledgers id (.opening task)) := by
  have unanswered {other : Nat} {answer : Except SqlError (Option Uuid)}
      (inserted : (Function.update ledgers id (.opening task) other).inserted = some answer) :
      other ≠ id ∧ (ledgers other).inserted = some answer := by
    by_cases same : other = id
    · subst same
      rw [Function.update_self] at inserted
      cases inserted
    · rw [Function.update_of_ne same] at inserted
      exact ⟨same, inserted⟩
  have before {moment : Moment IngestTask TranscriptCall TranscriptAnswer IngestResult} (member : moment ∈ pool.trace) :
      moment ∈ (pool.start id task (ingestProgram server task)).trace := List.mem_append_left _ member
  refine ⟨?_, ?_, ?_, ?_, ?_, ?_⟩
  · intro other found rest here
    rw [Pool.running_start] at here
    by_cases same : other = id
    · subst same
      rw [Function.update_self] at here ⊢
      cases here
      exact ⟨rfl, List.mem_append_right _ (List.mem_singleton_self _)⟩
    · rw [Function.update_of_ne same] at here ⊢
      obtain ⟨known, begun⟩ := sound.running other found rest here
      exact ⟨known, before begun⟩
  · intro row member
    obtain ⟨other, headers, request, begun, rest⟩ := sound.rows row member
    exact ⟨other, headers, request, before begun, rest⟩
  · intro other rowId inserted
    obtain ⟨apart, known⟩ := unanswered inserted
    rw [Function.update_of_ne apart]
    exact sound.written other rowId known
  · intro other inserted
    obtain ⟨apart, known⟩ := unanswered inserted
    rw [Function.update_of_ne apart]
    exact sound.found other known
  · intro one two rowId first second
    exact sound.once one two rowId (unanswered first).2 (unanswered second).2
  · intro other result member
    rcases List.mem_append.mp member with old | new
    · obtain ⟨found, begun, ended⟩ := sound.returned other result old
      have apart : other ≠ id := by
        rintro rfl
        exact fresh.2 found begun
      rw [Function.update_of_ne apart]
      exact ⟨found, before begun, ended⟩
    · cases List.mem_singleton.mp new

/-- The ledgers when a thread has got the answer to its insert. -/
def told (ledgers : Nat → IngestLedger) (id : Nat) (answer : Except SqlError (Option Uuid)) : Nat → IngestLedger :=
  Function.update ledgers id { ledgers id with inserted := some answer }

theorem told_self {id : Nat} {answer : Except SqlError (Option Uuid)} :
    told ledgers id answer id = { ledgers id with inserted := some answer } := Function.update_self ..

theorem told_of_ne {id other : Nat} {answer : Except SqlError (Option Uuid)} (apart : other ≠ id) :
    told ledgers id answer other = ledgers other := Function.update_of_ne apart ..

theorem task_told {id : Nat} {answer : Except SqlError (Option Uuid)} (other : Nat) :
    (told ledgers id answer other).task = (ledgers other).task := by
  by_cases same : other = id
  · rw [same, told_self]
  · rw [told_of_ne same]

theorem inserted_told {id other : Nat} {answer given : Except SqlError (Option Uuid)}
    (inserted : (told ledgers id answer other).inserted = some given) :
    other = id ∧ answer = given ∨ other ≠ id ∧ (ledgers other).inserted = some given := by
  by_cases same : other = id
  · rw [same, told_self] at inserted
    exact .inl ⟨same, Option.some.inj inserted⟩
  · rw [told_of_ne same] at inserted
    exact .inr ⟨same, inserted⟩

theorem Posted.told {test : TranscriptIngestHttpRequest → TranscriptRow → Prop} {id other : Nat}
    {answer : Except SqlError (Option Uuid)} (posted : Posted server pool (ledgers other) test) :
    Posted server pool (told ledgers id answer other) test := by
  rw [Posted, task_told]
  exact posted

/-- A new id has not been heard before. -/
theorem IngestSound.unheard (sound : IngestSound server pool ledgers) {id : Nat} {rowId : Uuid}
    (fresh : rowId ∉ pool.world.queue.table.keys) : (ledgers id).inserted ≠ some (.ok (some rowId)) := by
  intro inserted
  obtain ⟨_, _, _, _, row, member, rfl, _⟩ := sound.written id rowId inserted
  exact fresh (List.mem_map_of_mem member)

/-- The answer to an insert, as its effect on the rows allows. -/
theorem IngestSound.insert (sound : IngestSound server pool ledgers) {id : Nat} {headers : HeaderMap}
    {request : TranscriptIngestHttpRequest} {rowId : Uuid} {taken : TranscriptIngestRequest} {hash : Str}
    {repoPath : Option Str} {now : Timestamp} {answer : Except SqlError (Option Uuid)} {next : IngestPool}
    (task : (ledgers id).task = some (.post headers request)) (begun : .started id (.post headers request) ∈ pool.trace)
    (unreturned : ∀ result, .returned id result ∉ pool.trace)
    (writes : Writes server headers request (.insertIfNew rowId taken hash repoPath))
    (effect : InsertEffect pool.world.queue (TranscriptTable.pendingRow rowId taken hash repoPath now) answer
      next.world.queue)
    (trace : next.trace = pool.trace ++ [.called id (.insertIfNew rowId taken hash repoPath) answer])
    (running : ∀ other task rest, next.running other = some (task, rest) →
      (ledgers other).task = some task ∧ .started other task ∈ pool.trace) :
    IngestSound server next (told ledgers id answer) := by
  obtain ⟨admitted, sessionId, content, source, hashed, path⟩ := writes
  have written : RowOf server request (TranscriptTable.pendingRow rowId taken hash repoPath now) :=
    ⟨sessionId, content, hashed, path, source.trans (TranscriptSource.parse_asStr _).symm⟩
  have before {moment : Moment IngestTask TranscriptCall TranscriptAnswer IngestResult} (member : moment ∈ pool.trace) :
      moment ∈ next.trace := trace ▸ List.mem_append_left _ member
  have kept : ∀ old ∈ pool.world.queue.rows, ∃ row ∈ next.world.queue.rows, SameCapture old row :=
    fun old member => ⟨old, effect.kept member, rfl, rfl⟩
  refine ⟨?_, ?_, ?_, ?_, ?_, ?_⟩
  · intro other found rest here
    obtain ⟨known, begun⟩ := running other found rest here
    exact ⟨(task_told other).trans known, before begun⟩
  · intro row member
    obtain old | rfl := effect.mem_rows member
    · obtain ⟨other, headers, request, begun, rest⟩ := sound.rows row old
      exact ⟨other, headers, request, before begun, rest⟩
    · exact ⟨id, headers, request, before begun, admitted, written⟩
  · intro other found inserted
    obtain ⟨rfl, rfl⟩ | ⟨apart, known⟩ := inserted_told inserted
    · obtain ⟨rfl, -, member⟩ := effect.told_id
      exact ⟨headers, request, (task_told other).trans task, admitted, _, member, rfl, written⟩
    · exact ((sound.written other found known).kept kept written_congr).told
  · intro other inserted
    obtain ⟨rfl, rfl⟩ | ⟨apart, known⟩ := inserted_told inserted
    · obtain ⟨row, member, same⟩ := effect.told_taken
      exact ⟨headers, request, (task_told other).trans task, admitted, row, member, same.trans hashed⟩
    · exact ((sound.found other known).kept kept found_congr).told
  · intro one two found first second
    obtain ⟨rfl, rfl⟩ | ⟨apart, known⟩ := inserted_told first
    · obtain ⟨same, -⟩ | ⟨apart, known⟩ := inserted_told second
      · exact same.symm
      · obtain ⟨rfl, fresh, -⟩ := effect.told_id
        exact absurd known (sound.unheard fresh)
    · obtain ⟨rfl, rfl⟩ | ⟨apart', known'⟩ := inserted_told second
      · obtain ⟨rfl, fresh, -⟩ := effect.told_id
        exact absurd known (sound.unheard fresh)
      · exact sound.once one two found known known'
  · intro other result member
    rw [trace] at member
    rcases List.mem_append.mp member with old | new
    · have apart : other ≠ id := by
        rintro rfl
        exact unreturned result old
      obtain ⟨found, begun, ended⟩ := sound.returned other result old
      rw [told_of_ne apart]
      exact ⟨found, before begun, ended⟩
    · cases List.mem_singleton.mp new

theorem running_answer_or {id : Nat} {task : IngestTask} {call : TranscriptCall} {answer : TranscriptAnswer call}
    {rest : IngestProgram IngestResult} {world : TranscriptWorld} {next : TranscriptAnswer call → IngestProgram IngestResult}
    (sound : IngestSound server pool ledgers) (here : pool.running id = some (task, .call call next)) (other : Nat)
    (found : IngestTask) (left : IngestProgram IngestResult)
    (runs : (pool.answer id task call answer rest world).running other = some (found, left)) :
    (ledgers other).task = some found ∧ .started other found ∈ pool.trace := by
  rw [Pool.running_answer] at runs
  by_cases same : other = id
  · subst same
    rw [Function.update_self] at runs
    cases runs
    exact sound.running other _ _ here
  · rw [Function.update_of_ne same] at runs
    exact sound.running other found left runs

theorem IngestSound.answer {id : Nat} {task : IngestTask} {call : TranscriptCall} {answer : TranscriptAnswer call}
    {next : TranscriptAnswer call → IngestProgram IngestResult} {world : TranscriptWorld}
    (reached : (ingestThreads server).runs.Reachable pool) (sound : IngestSound server pool ledgers)
    (here : pool.running id = some (task, .call call next)) (allowed : (ledgers id).Allows server call)
    (answered : (∃ weather, serveTranscripts weather call pool.world = (answer, world)) ∨
      Unheard pool.world call answer world) :
    IngestSound server (pool.answer id task call answer (next answer) world)
      (Function.update ledgers id ((ledgers id).after call answer)) := by
  obtain ⟨known, begun⟩ := sound.running id task _ here
  -- a call that is no insert tells the thread nothing that its ledger keeps
  have quiet (same : (ledgers id).after call answer = ledgers id) (rows : RowsKept pool.world.queue world.queue) :
      IngestSound server (pool.answer id task call answer (next answer) world)
        (Function.update ledgers id ((ledgers id).after call answer)) := by
    rw [same, Function.update_eq_self]
    refine sound.quiet rows (fun _ member => List.mem_append_left _ member) ?_ ?_
    · intro other found rest runs
      obtain ⟨known, begun⟩ := running_answer_or sound here other found rest runs
      exact ⟨known, List.mem_append_left _ begun⟩
    · intro other result member
      rcases List.mem_append.mp member with old | new
      · exact .inl old
      · cases List.mem_singleton.mp new
  unfold IngestLedger.Allows at allowed
  rw [known] at allowed
  cases task with
  | post headers request =>
    obtain ⟨-, writes⟩ := allowed
    cases call with
    | newId =>
      refine quiet rfl ?_
      obtain ⟨weather, served⟩ | never := answered
      · cases served
        exact .refl _
      · cases never
    | insertIfNew rowId taken hash repoPath =>
      obtain ⟨now, effect⟩ := insertEffect_answered answered
      refine sound.insert known begun ?_ writes effect rfl (running_answer_or sound here)
      intro result member
      cases here.symm.trans (Threads.returned_idle reached member)
    | _ => cases writes
  | drain drain =>
    refine quiet ?_ (rowsKept_answered allowed answered)
    cases call with
    | insertIfNew => exact absurd trivial allowed
    | _ => rfl

theorem IngestSound.finish {id : Nat} {task : IngestTask} {result : IngestResult} (sound : IngestSound server pool ledgers)
    (here : pool.running id = some (task, .done result)) (ended : Ends server task (ledgers id) result) :
    IngestSound server (pool.finish id result) ledgers := by
  refine sound.quiet (.refl _) (fun _ member => List.mem_append_left _ member) ?_ ?_
  · intro other found rest runs
    rw [Pool.running_finish] at runs
    by_cases same : other = id
    · subst same
      rw [Function.update_self] at runs
      cases runs
    · rw [Function.update_of_ne same] at runs
      obtain ⟨known, begun⟩ := sound.running other found rest runs
      exact ⟨known, List.mem_append_left _ begun⟩
  · intro other outcome member
    rcases List.mem_append.mp member with old | new
    · exact .inl old
    · obtain ⟨rfl, rfl⟩ := Moment.returned.inj (List.mem_singleton.mp new)
      exact .inr ⟨task, List.mem_append_left _ (sound.running other task _ here).2, ended⟩

theorem ingestSound_of_reachable (reached : (ingestThreads server).runs.Reachable pool) :
    ∃ ledgers, IngestSound server pool ledgers := by
  obtain ⟨ledgers, ⟨-, sound⟩, -⟩ := Threads.invariant IngestLedger.opening
    (fun pool ledgers => (ingestThreads server).runs.Reachable pool ∧ IngestSound server pool ledgers)
    obeys_ingestProgram
    (by
      intro pool start
      obtain ⟨empty, idle, silent⟩ := id start
      refine ⟨fun _ => ⟨none, none⟩, .start start, ?_, ?_, ?_, ?_, ?_, ?_⟩
      · intro id task rest here
        cases (idle id).symm.trans here
      · intro row member
        rw [show pool.world.queue.rows = [] from empty] at member
        cases member
      · exact fun _ _ never => nomatch never
      · exact fun _ never => nomatch never
      · exact fun _ _ _ never => nomatch never
      · intro id result member
        rw [silent] at member
        cases member)
    (fun pool ledgers id task sound fresh may => ⟨sound.1.next (.started id task fresh may), sound.2.start fresh⟩)
    (fun pool ledgers id task request next answer world sound here allowed answered =>
      ⟨sound.1.next (.called id here answered), sound.2.answer sound.1 here allowed answered⟩)
    (fun pool ledgers id task result sound here ended =>
      ⟨sound.1.next (.returned id here), sound.2.finish here ended⟩)
    reached
  exact ⟨ledgers, sound⟩

/-! ### Replies -/

/-- A post of the run and the reply it got. -/
def Got (pool : IngestPool) (id : Nat) (headers : HeaderMap) (request : TranscriptIngestHttpRequest) (reply : IngestReply) :
    Prop :=
  .started id (.post headers request) ∈ pool.trace ∧ .returned id (.replied reply) ∈ pool.trace

/-- What a reply says about the queue, and what a row says about the posts. -/
structure IngestAccounted (server : IngestServer) (pool : IngestPool) : Prop where
  rows : ∀ row ∈ pool.world.queue.rows, ∃ id headers request, .started id (.post headers request) ∈ pool.trace ∧
    Admitted server headers request ∧ RowOf server request row
  enqueued : ∀ id headers request reply, Got pool id headers request reply → reply.status = 202 →
    Admitted server headers request ∧ ∃ row ∈ pool.world.queue.rows, RowOf server request row ∧
      reply = enqueuedReply row.id row.contentHash
  duplicate : ∀ id headers request reply, Got pool id headers request reply → reply.status = 200 →
    Admitted server headers request ∧ ∃ row ∈ pool.world.queue.rows, row.contentHash = contentHash server request ∧
      reply = duplicateReply row.contentHash
  once : ∀ id headers request reply other headers' request' reply', Got pool id headers request reply →
    Got pool other headers' request' reply' → reply.status = 202 → reply'.status = 202 →
      contentHash server request = contentHash server request' → id = other
  otherwise : ∀ id headers request reply, Got pool id headers request reply →
    reply.status = 202 ∨ reply.status = 200 ∨ 400 ≤ reply.status

theorem ends_of_got (reached : (ingestThreads server).runs.Reachable pool) (sound : IngestSound server pool ledgers) {id : Nat}
    {reply : IngestReply} (got : Got pool id headers request reply) :
    (ledgers id).task = some (.post headers request) ∧ Replies server request reply (ledgers id).inserted := by
  obtain ⟨task, begun, known, replied⟩ := sound.returned id _ got.2
  obtain rfl := Threads.started_unique reached begun got.1
  exact ⟨known, replied headers request reply rfl rfl⟩

theorem inserted_of_accepted {reply : IngestReply} {inserted : Option (Except SqlError (Option Uuid))}
    (replied : Replies server request reply inserted) (status : reply.status = 202) :
    ∃ rowId, inserted = some (.ok (some rowId)) ∧ reply = enqueuedReply rowId (contentHash server request) := by
  match inserted, replied with
  | some (.ok (some rowId)), same => exact ⟨rowId, rfl, same⟩
  | some (.ok none), same => rw [show reply = _ from same] at status; cases status
  | some (.error _), same => rw [show reply.status = 503 from same] at status; cases status
  | none, above =>
    have low : 400 ≤ reply.status := above
    omega

theorem inserted_of_duplicate {reply : IngestReply} {inserted : Option (Except SqlError (Option Uuid))}
    (replied : Replies server request reply inserted) (status : reply.status = 200) :
    inserted = some (.ok none) ∧ reply = duplicateReply (contentHash server request) := by
  match inserted, replied with
  | some (.ok none), same => exact ⟨rfl, same⟩
  | some (.ok (some rowId)), same => rw [show reply = _ from same] at status; cases status
  | some (.error _), same => rw [show reply.status = 503 from same] at status; cases status
  | none, above =>
    have low : 400 ≤ reply.status := above
    omega

theorem status_of_replies {reply : IngestReply} {inserted : Option (Except SqlError (Option Uuid))}
    (replied : Replies server request reply inserted) :
    reply.status = 202 ∨ reply.status = 200 ∨ 400 ≤ reply.status := by
  match inserted, replied with
  | some (.ok (some rowId)), same => exact .inl (congrArg IngestReply.status same)
  | some (.ok none), same => exact .inr (.inl (congrArg IngestReply.status same))
  | some (.error _), same => exact .inr (.inr (by rw [show reply.status = 503 from same]; decide))
  | none, above => exact .inr (.inr above)

/-- Rows with one content hash are one row. -/
theorem sameRow_of_contentHash {queue : TranscriptTable} {one two : TranscriptRow} (first : one ∈ queue.rows)
    (second : two ∈ queue.rows) (same : one.contentHash = two.contentHash) : one = two :=
  List.inj_on_of_nodup_map queue.distinctHashes first second same

/-- In any interleaving of posts and drains, with lost connections: the queue holds what admitted
posts have sent and nothing else; 202 names the row that the post has written, 200 a row with its
content hash; and of the posts with one content hash at most one gets 202. -/
theorem ingest_accounted (server : IngestServer) {pool : IngestPool}
    (reached : (ingestThreads server).runs.Reachable pool) : IngestAccounted server pool := by
  obtain ⟨ledgers, sound⟩ := ingestSound_of_reachable reached
  refine ⟨sound.rows, ?_, ?_, ?_, ?_⟩
  · intro id headers request reply got status
    obtain ⟨known, replied⟩ := ends_of_got reached sound got
    obtain ⟨rowId, inserted, same⟩ := inserted_of_accepted replied status
    obtain ⟨_, _, task, admitted, row, member, rfl, written⟩ := sound.written id rowId inserted
    cases known.symm.trans task
    exact ⟨admitted, row, member, written, written.contentHash ▸ same⟩
  · intro id headers request reply got status
    obtain ⟨known, replied⟩ := ends_of_got reached sound got
    obtain ⟨inserted, same⟩ := inserted_of_duplicate replied status
    obtain ⟨_, _, task, admitted, row, member, hashed⟩ := sound.found id inserted
    cases known.symm.trans task
    exact ⟨admitted, row, member, hashed, hashed ▸ same⟩
  · intro id headers request reply other headers' request' reply' got got' status status' same
    obtain ⟨known, replied⟩ := ends_of_got reached sound got
    obtain ⟨known', replied'⟩ := ends_of_got reached sound got'
    obtain ⟨rowId, inserted, -⟩ := inserted_of_accepted replied status
    obtain ⟨rowId', inserted', -⟩ := inserted_of_accepted replied' status'
    obtain ⟨_, _, task, -, row, member, rfl, written⟩ := sound.written id rowId inserted
    obtain ⟨_, _, task', -, row', member', rfl, written'⟩ := sound.written other rowId' inserted'
    cases known.symm.trans task
    cases known'.symm.trans task'
    have one : row = row' :=
      sameRow_of_contentHash member member' (written.contentHash.trans (same.trans written'.contentHash.symm))
    subst one
    exact sound.once id other row.id inserted inserted'
  · intro id headers request reply got
    exact status_of_replies (ends_of_got reached sound got).2

/-! The same transcript, posted twice. -/

def sampleIngest : IngestServer := ⟨some "token", true, sampleHash⟩

def samplePost : IngestTask :=
  .post [("x-ingest-secret", Str.utf8 "token")] ⟨"s1", some "/repo", "session_end", sampleCapture.content⟩

theorem ingest_serves (id calls : Nat) (call : TranscriptCall) (world : TranscriptWorld) :
    (ingestThreads sampleIngest).answers id call world (serveFairly calls call world).1 (serveFairly calls call world).2 :=
  .inl ⟨fairWeather, rfl⟩

theorem ingest_accounted_twice : ∃ pool : IngestPool, IngestAccounted sampleIngest pool ∧
    .returned 0 (.replied (enqueuedReply fairWeather.id (sampleHash (Str.utf8 sampleCapture.content)))) ∈ pool.trace ∧
      .returned 1 (.replied (duplicateReply (sampleHash (Str.utf8 sampleCapture.content)))) ∈ pool.trace := by
  have start : (ingestThreads sampleIngest).runs.Reachable ⟨emptyTranscripts, fun _ => none, []⟩ :=
    .start ⟨rfl, fun _ => rfl, rfl⟩
  have unused (id : Nat) : Pool.Fresh (⟨emptyTranscripts, fun _ => none, []⟩ : IngestPool) id :=
    ⟨rfl, fun _ never => nomatch never⟩
  obtain ⟨first, reached, world, -, -, enqueued, others⟩ :=
    Threads.turn (ingest_serves 0) start samplePost (unused 0) trivial rfl rfl
  obtain ⟨pool, reachedThen, -, grown, -, duplicate, -⟩ :=
    Threads.turn (ingest_serves 1) reached samplePost (others 1 (by decide) (unused 1)) trivial rfl (by rw [world]; rfl)
  exact ⟨pool, ingest_accounted sampleIngest reachedThen, grown.subset enqueued, duplicate⟩

end SkillLayer.McpServer

import SkillLayer.Cluster
import SkillLayer.Infrastructure.TranscriptQueue

/-! The drain of the transcript queue, and what every program on the queue keeps to: a
drain claims with empty hands, and marks the rows it holds one after the other, each after
its extraction. -/

namespace SkillLayer.Maintenance

open Infrastructure

structure TranscriptDrainReport where
  claimed : Nat
  processed : Nat
  failed : Nat
deriving DecidableEq

inductive TranscriptDrainError where
  | queue (error : TranscriptQueueError)
deriving DecidableEq

def TranscriptDrainError.display : TranscriptDrainError → Str
  | .queue error => "transcript queue access failed: " ++ error.display

structure TranscriptQueueDrain where
  batchLimit : Int
  positive : 0 < batchLimit

def TranscriptQueueDrain.new (batchLimit : Int) : TranscriptQueueDrain :=
  ⟨max batchLimit 1, by omega⟩

abbrev DrainProgram (Result : Type) := TranscriptProgram TranscriptDrainError Result

/-- The request of an extraction of queued content. -/
def inlineExtraction (sessionId content : Str) (repoPath : Option Str) : ExtractSessionRequest :=
  ⟨[], some content, sessionId, repoPath⟩

/-- The loop over the claimed rows. -/
def drainRows : TranscriptDrainReport → List TranscriptQueueRecord → DrainProgram TranscriptDrainReport
  | report, [] => return report
  | report, row :: rest => do
    let answer ← Program.ask (.extractBlocking (inlineExtraction row.sessionId row.content row.repoPath))
    match (answer : Except Str (List Path)) with
    | .ok _ =>
      (markProcessed row.id).mapError .queue
      drainRows { report with processed := report.processed + 1 } rest
    | .error reasonCode =>
      (markFailed row.id reasonCode maxTranscriptDrainAttempts).mapError .queue
      drainRows { report with failed := report.failed + 1 } rest

def TranscriptQueueDrain.drainOnce (drain : TranscriptQueueDrain) : DrainProgram TranscriptDrainReport := do
  let claimed ← (claimPending drain.batchLimit).mapError .queue
  drainRows ⟨claimed.length, 0, 0⟩ claimed

/-- One sweep of the worker's loop; its failure is logged and the loop goes on. -/
def drainTranscripts (drain : TranscriptQueueDrain) : DrainProgram (Option Unit) := do
  let _ ← (drain.drainOnce.outcome : DrainProgram (Except TranscriptDrainError TranscriptDrainReport))
  return none

/-! ### The discipline -/

/-- The rows handed to a drain by a claim and not yet marked, and whether the extraction of
the first one has returned Ok. -/
structure DrainLedger where
  held : List TranscriptRow
  extracted : Bool

namespace DrainLedger

def idle : DrainLedger := ⟨[], false⟩

def heldIds (ledger : DrainLedger) : List Uuid := ledger.held.map TranscriptRow.id

/-- The first row is marked and given away. -/
def settled (ledger : DrainLedger) : DrainLedger := ⟨ledger.held.tail, false⟩

/-- A drain whose mark fails gives up its batch. -/
def marked (ledger : DrainLedger) : Except SqlError Unit → DrainLedger
  | .ok () => ledger.settled
  | .error _ => idle

def Allows (ledger : DrainLedger) : TranscriptCall → Prop
  | .claim _ => ledger.held = []
  | .extractBlocking request => ∃ row rest, ledger.held = row :: rest ∧
      request = inlineExtraction row.sessionId row.content row.repoPath
  | .markProcessed id => ledger.heldIds.head? = some id ∧ ledger.extracted = true
  | .markFailed id _ maxAttempts =>
    ledger.heldIds.head? = some id ∧ maxAttempts = maxTranscriptDrainAttempts
  | _ => True

def after (ledger : DrainLedger) : (request : TranscriptCall) → TranscriptAnswer request → DrainLedger
  | .claim _, .ok rows => ⟨rows, false⟩
  | .extractBlocking _, answer => { ledger with extracted := answer.isOk }
  | .markProcessed _, answer => ledger.marked answer
  | .markFailed _ _ _, answer => ledger.marked answer
  | _, _ => ledger

end DrainLedger

def drainDiscipline : Discipline TranscriptCall TranscriptAnswer DrainLedger where
  allows := DrainLedger.Allows
  after := DrainLedger.after

/-- Nothing is held at the end of a sweep. -/
def EmptyHanded {Err Result : Type} (ledger : DrainLedger) (_ : Except Err Result) : Prop :=
  ledger.held = []

theorem exists_decoded (rows : List TranscriptRow) : ∃ records, rows.mapM TranscriptRow.decode = .ok records ∧
    List.Forall₂ (fun row record => row.decode = .ok record) rows records := by
  induction rows with
  | nil => exact ⟨[], rfl, .nil⟩
  | cons row rest ih =>
    obtain ⟨record, decoded, -⟩ := row.exists_decode
    obtain ⟨records, others, each⟩ := ih
    refine ⟨record :: records, ?_, .cons decoded each⟩
    rw [List.mapM_cons, decoded, others]
    rfl

theorem obeys_drainRows {report : TranscriptDrainReport} {rows : List TranscriptRow}
    {records : List TranscriptQueueRecord}
    (decoded : List.Forall₂ (fun row record => row.decode = .ok record) rows records) {ledger : DrainLedger}
    (held : ledger.held = rows) :
    (drainRows report records).Obeys drainDiscipline EmptyHanded ledger := by
  induction decoded generalizing report ledger with
  | nil => exact held
  | @cons row record rest records first _ ih =>
    obtain ⟨found, same, id, sessionId, content, repoPath⟩ := row.exists_decode
    obtain rfl : found = record := Except.ok.inj (same.symm.trans first)
    have head : ledger.heldIds.head? = some found.id := by
      rw [DrainLedger.heldIds, held, id]
      rfl
    have tail : ledger.held.tail = rest := by rw [held, List.tail_cons]
    refine ⟨⟨row, rest, held, by rw [sessionId, content, repoPath]⟩, fun answer => ?_⟩
    cases answer with
    | ok draftPaths =>
      refine ⟨⟨head, rfl⟩, fun marked => ?_⟩
      cases marked with
      | ok done => exact ih tail
      | error error => rfl
    | error reasonCode =>
      refine ⟨⟨head, rfl⟩, fun marked => ?_⟩
      cases marked with
      | ok done => exact ih tail
      | error error => rfl

theorem obeys_drainOnce (drain : TranscriptQueueDrain) :
    drain.drainOnce.Obeys drainDiscipline EmptyHanded DrainLedger.idle := by
  unfold TranscriptQueueDrain.drainOnce claimPending
  simp only [if_neg (Int.not_le.mpr drain.positive), Program.ask_bind, Program.mapError_call,
    Program.bind_call, Program.obeys_call]
  refine ⟨rfl, fun answer => ?_⟩
  cases answer with
  | error error => rfl
  | ok rows =>
    obtain ⟨records, decoded, each⟩ := exists_decoded rows
    simp only [persisted, Except.mapError, Program.ofExcept_ok, Program.bind_done, decoded,
      Program.mapError_done]
    exact obeys_drainRows each rfl

/-- The programs that work on one queue: captures, single sweeps and the worker's loop. -/
inductive TranscriptTask (hash : List UInt8 → Str) : DrainProgram (Option Unit) → Prop where
  | enqueue (request : TranscriptIngestRequest) :
      TranscriptTask hash ((Infrastructure.enqueue hash request).mapError .queue >>= fun _ => return some ())
  | drainOnce (drain : TranscriptQueueDrain) :
      TranscriptTask hash (drain.drainOnce >>= fun _ => return some ())
  | drainTranscripts (drain : TranscriptQueueDrain) : TranscriptTask hash (drainTranscripts drain)

/-- The calls of a capture. -/
def Captures : TranscriptCall → Prop
  | .newId => True
  | .insertIfNew _ _ _ _ => True
  | _ => False

theorem Captures.neutral {request : TranscriptCall} (captures : Captures request) (ledger : DrainLedger) :
    drainDiscipline.allows ledger request ∧ ∀ answer, drainDiscipline.after ledger request answer = ledger := by
  cases request <;> first | exact ⟨trivial, fun _ => rfl⟩ | cases captures

theorem calls_enqueue {hash : List UInt8 → Str} (request : TranscriptIngestRequest) :
    (Infrastructure.enqueue hash request).Calls Captures := by
  unfold Infrastructure.enqueue
  split
  · trivial
  · split
    · trivial
    · split
      · trivial
      · refine (Program.Calls.ask trivial).bind fun id => (Program.Calls.ask trivial).bind fun answer =>
          Program.calls_ofExcept.bind fun inserted => ?_
        cases inserted <;> trivial

/-- Every program of the queue obeys the discipline from an idle ledger on. -/
theorem TranscriptTask.obeys {hash : List UInt8 → Str} {body : DrainProgram (Option Unit)}
    (task : TranscriptTask hash body) : body.Obeys drainDiscipline EmptyHanded DrainLedger.idle := by
  cases task with
  | enqueue request =>
    refine Program.Calls.obeys (Program.Calls.bind (calls_enqueue request).mapError fun _ => ?_)
      (fun _ captures => captures.neutral _) fun _ => rfl
    trivial
  | drainOnce drain =>
    refine Program.Obeys.bind ((obeys_drainOnce drain).mono fun ledger outcome free => ?_)
    cases outcome <;> exact free
  | drainTranscripts drain =>
    refine Program.Obeys.bind (Program.Obeys.outcome ((obeys_drainOnce drain).mono fun ledger outcome free => ?_))
    exact free

end SkillLayer.Maintenance

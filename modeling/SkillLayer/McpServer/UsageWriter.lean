import Mathlib.Algebra.Group.Int.Defs
import Mathlib.Algebra.Group.Nat.Defs
import Mathlib.Data.List.Forall2
import SkillLayer.Infrastructure.Outbox
import SkillLayer.McpServer.CompileContext

/-! The usage of the selected skills: from the responses of `compile_context` through the bounded
channel and the writer's task to the tables, one transaction for each response. -/

namespace SkillLayer.McpServer

open Infrastructure Retrieval

variable {Score : Type}

/-! ### Records -/

structure SkillSelectionRecord (Score : Type) where
  skillId : Str
  relevanceScore : Score
  contextStatus : Str

structure SessionUsageRecord (Score : Type) where
  sessionId : Str
  promptHash : Str
  scope : Str
  latencyMs : Int
  status : Str
  selectedSkills : List (SkillSelectionRecord Score)

/-- A cast to `i64`. -/
def asI64 (n : Nat) : Int := if n % 2 ^ 64 < 2 ^ 63 then (n % 2 ^ 64 : Nat) else (n % 2 ^ 64 : Nat) - 2 ^ 64

def contextStatusText : CompileContextStatus → Str
  | .ok => "ok"
  | .noMatch => "no_match"
  | .degraded => "degraded"
  | .duplicateSuppressed => "duplicate_suppressed"

/-- The record of a response; `skills` are the ids and scores of the outcome's skills. -/
def buildSessionUsageRecord (parseUuid : Str → Option Uuid) (sessionId repoPath : Str) (response : CompileContextResponse)
    (skills : List (Str × Score)) (promptHash : Str) : SessionUsageRecord Score where
  sessionId := sessionId
  promptHash := promptHash
  scope := if repoPath.isEmpty then "global" else "project"
  latencyMs := asI64 response.latencyMs
  status := contextStatusText response.status
  selectedSkills := skills.filterMap fun retrieved =>
    if (parseUuid retrieved.1).isNone then none else some ⟨retrieved.1, retrieved.2, contextStatusText response.status⟩

/-! ### The transaction of a record -/

/-- A row of `session_logs`. -/
structure SessionLogRow where
  id : Uuid
  sessionId : Str
  scope : Str
  promptHash : Str
  latencyMs : Int
  status : Str

/-- A row of `skill_usage`; its count is 1 and its time that of the statement. -/
structure SelectionRow (Score : Type) where
  id : Uuid
  sessionId : Str
  skillId : Uuid
  contextStatus : Str
  relevanceScore : Score

inductive UsageWriteError where
  | database (error : SqlError)
  | invalidContract (message : Str)

inductive UsageCall (Score : Type) where
  | newId
  | begin
  | insertLog (row : SessionLogRow)
  | insertUsage (rows : List (SelectionRow Score))
  | commit

@[reducible] def UsageAnswer : UsageCall Score → Type
  | .newId => Uuid
  | _ => Except SqlError Unit

abbrev UsageProgram (Score : Type) (Result : Type) := Program (UsageCall Score) UsageAnswer UsageWriteError Result

def executed (answer : Except SqlError Unit) : UsageProgram Score Unit := .ofExcept (answer.mapError .database)

def allowedScopes : List Str := ["project", "global", "team"]

def allowedStatuses : List Str := ["ok", "no_match", "degraded", "duplicate_suppressed"]

/-- The rows of the selections, in order; each is checked before its id is drawn. -/
def selectionRows (parseUuid : Str → Option Uuid) (sessionId : Str) :
    List (SkillSelectionRecord Score) → UsageProgram Score (List (SelectionRow Score))
  | [] => return []
  | selection :: rest =>
    match parseUuid selection.skillId with
    | none => .fail (.invalidContract ("skill_id '".toList ++ selection.skillId ++ "' is not a valid UUID".toList))
    | some skillId =>
      if selection.contextStatus ∉ allowedStatuses then
        .fail (.invalidContract
          ("context_status must be one of ok/no_match/degraded/duplicate_suppressed; got '".toList ++
            selection.contextStatus ++ "'".toList))
      else do
        let id ← Program.ask .newId
        let rows ← selectionRows parseUuid sessionId rest
        return ⟨id, sessionId, skillId, selection.contextStatus, selection.relevanceScore⟩ :: rows

/-- All rows at once, if there are any. -/
def insertSelections (rows : List (SelectionRow Score)) : UsageProgram Score Unit :=
  if rows.isEmpty then return ()
  else do
    let inserted ← Program.ask (.insertUsage rows)
    executed inserted

def writeSessionUsage (parseUuid : Str → Option Uuid) (record : SessionUsageRecord Score) : UsageProgram Score Unit :=
  if record.scope ∉ allowedScopes then
    .fail (.invalidContract ("scope must be 'project', 'global', or 'team'; got '".toList ++ record.scope ++ "'".toList))
  else do
    let sessionLogId ← Program.ask .newId
    let begun ← Program.ask .begin
    executed begun
    let logged ← Program.ask (.insertLog
      ⟨sessionLogId, record.sessionId, record.scope, record.promptHash, record.latencyMs, record.status⟩)
    executed logged
    let rows ← selectionRows parseUuid record.sessionId record.selectedSkills
    insertSelections rows
    let committed ← Program.ask .commit
    executed committed

/-! ### The tables -/

/-- The rows of one transaction. -/
structure UsageBatch (Score : Type) where
  logs : List SessionLogRow
  usage : List (SelectionRow Score)

/-- The committed transactions, in order, and the open one of the writer's connection. -/
structure UsageTables (Score : Type) where
  committed : List (UsageBatch Score)
  pending : Option (UsageBatch Score)

/-- How the database serves a call, and the batch that the call commits. Any statement may be
refused, which ends the transaction; a commit may take effect although its answer is lost. -/
inductive UsageServed (tables : UsageTables Score) :
    (call : UsageCall Score) → UsageAnswer call → UsageTables Score → Option (UsageBatch Score) → Prop where
  | newId (id : Uuid) : UsageServed tables .newId id tables none
  | begin : UsageServed tables .begin (.ok ()) { tables with pending := some ⟨[], []⟩ } none
  | insertLog (row : SessionLogRow) (batch : UsageBatch Score) (opened : tables.pending = some batch) :
      UsageServed tables (.insertLog row) (.ok ())
        { tables with pending := some { batch with logs := batch.logs ++ [row] } } none
  | insertUsage (rows : List (SelectionRow Score)) (batch : UsageBatch Score) (opened : tables.pending = some batch) :
      UsageServed tables (.insertUsage rows) (.ok ())
        { tables with pending := some { batch with usage := batch.usage ++ rows } } none
  | commit (batch : UsageBatch Score) (opened : tables.pending = some batch) :
      UsageServed tables .commit (.ok ()) ⟨tables.committed ++ [batch], none⟩ (some batch)
  | commitUnheard (batch : UsageBatch Score) (error : SqlError) (opened : tables.pending = some batch) :
      UsageServed tables .commit (.error error) ⟨tables.committed ++ [batch], none⟩ (some batch)
  | refusedBegin (error : SqlError) : UsageServed tables .begin (.error error) { tables with pending := none } none
  | refusedLog (row : SessionLogRow) (error : SqlError) :
      UsageServed tables (.insertLog row) (.error error) { tables with pending := none } none
  | refusedUsage (rows : List (SelectionRow Score)) (error : SqlError) :
      UsageServed tables (.insertUsage rows) (.error error) { tables with pending := none } none
  | refusedCommit (error : SqlError) : UsageServed tables .commit (.error error) { tables with pending := none } none

/-! ### The channel and the writer -/

def usageWriteChannelCapacity : Nat := 128

/-- The record that the writer is at, what is left of its program, and what of it is committed. -/
structure Writing (Score : Type) where
  record : SessionUsageRecord Score
  program : UsageProgram Score Unit
  batch : Option (UsageBatch Score)

/-- A record that the writer is done with, and what of it is committed. -/
structure SettledUsage (Score : Type) where
  record : SessionUsageRecord Score
  outcome : Except UsageWriteError Unit
  batch : Option (UsageBatch Score)

/-- The channel, the writer's task, the health cell and the tables; and for the record of the run
only, the posted records that the channel took, and what became of them. -/
structure UsageWriter (Score : Type) where
  channel : List (SessionUsageRecord Score)
  writing : Option (Writing Score)
  failed : Bool
  tables : UsageTables Score
  accepted : List (SessionUsageRecord Score)
  settled : List (SettledUsage Score)

def readUsageWriteHealth (failed : Bool) : Str := if failed then "failed" else "ok"

namespace UsageWriter

/-- `post_usage_record`: a full channel drops the record and says so in the health cell. -/
def post (writer : UsageWriter Score) (record : SessionUsageRecord Score) : UsageWriter Score :=
  if writer.channel.length < usageWriteChannelCapacity then
    { writer with channel := writer.channel ++ [record], accepted := writer.accepted ++ [record] }
  else { writer with failed := true }

def finish (writer : UsageWriter Score) (writing : Writing Score) (outcome : Except UsageWriteError Unit) :
    UsageWriter Score :=
  { writer with
    writing := none
    failed := match outcome with
      | .ok () => false
      | .error _ => true
    settled := writer.settled ++ [⟨writing.record, outcome, writing.batch⟩] }

variable (parseUuid : Str → Option Uuid)

/-- Responses post their records at any time; the task takes one record after the other. -/
inductive Step : UsageWriter Score → UsageWriter Score → Prop where
  | post {writer : UsageWriter Score} (sessionId repoPath promptHash : Str) (response : CompileContextResponse)
      (skills : List (Str × Score)) :
      Step writer (writer.post (buildSessionUsageRecord parseUuid sessionId repoPath response skills promptHash))
  | receive {writer : UsageWriter Score} {record : SessionUsageRecord Score} {rest : List (SessionUsageRecord Score)}
      (idle : writer.writing = none) (waiting : writer.channel = record :: rest) :
      Step writer { writer with channel := rest, writing := some ⟨record, writeSessionUsage parseUuid record, none⟩ }
  | call {writer : UsageWriter Score} {writing : Writing Score} {request : UsageCall Score}
      {next : UsageAnswer request → UsageProgram Score Unit} {answer : UsageAnswer request}
      {tables : UsageTables Score} {batch : Option (UsageBatch Score)}
      (busy : writer.writing = some writing) (asks : writing.program = .call request next)
      (served : UsageServed writer.tables request answer tables batch) :
      Step writer { writer with
        writing := some ⟨writing.record, next answer, batch.or writing.batch⟩
        tables := tables }
  | written {writer : UsageWriter Score} {writing : Writing Score} (busy : writer.writing = some writing)
      (ended : writing.program = .done ()) : Step writer (writer.finish writing (.ok ()))
  | failed {writer : UsageWriter Score} {writing : Writing Score} {error : UsageWriteError}
      (busy : writer.writing = some writing) (ended : writing.program = .fail error) :
      Step writer (writer.finish writing (.error error))

def runs : Transitions (UsageWriter Score) where
  initial writer := writer.channel = [] ∧ writer.writing = none ∧ writer.tables.committed = [] ∧
    writer.accepted = [] ∧ writer.settled = []
  step := Step parseUuid

end UsageWriter

/-! ### What a transaction is about -/

variable {parseUuid : Str → Option Uuid} {record : SessionUsageRecord Score}

/-- The row of a selection. -/
structure RowOfSelection (parseUuid : Str → Option Uuid) (sessionId : Str) (selection : SkillSelectionRecord Score)
    (row : SelectionRow Score) : Prop where
  sessionId : row.sessionId = sessionId
  skillId : parseUuid selection.skillId = some row.skillId
  contextStatus : row.contextStatus = selection.contextStatus
  relevanceScore : row.relevanceScore = selection.relevanceScore

structure LogOf (record : SessionUsageRecord Score) (row : SessionLogRow) : Prop where
  sessionId : row.sessionId = record.sessionId
  scope : row.scope = record.scope
  promptHash : row.promptHash = record.promptHash
  latencyMs : row.latencyMs = record.latencyMs
  status : row.status = record.status

/-- The rows of a record: its log row, and one row for each selection, in order. -/
structure BatchOf (parseUuid : Str → Option Uuid) (record : SessionUsageRecord Score) (batch : UsageBatch Score) : Prop where
  logs : ∃ log, batch.logs = [log] ∧ LogOf record log
  usage : List.Forall₂ (RowOfSelection parseUuid record.sessionId) record.selectedSkills batch.usage

/-- The record passes the writer's checks. -/
structure Recordable (parseUuid : Str → Option Uuid) (record : SessionUsageRecord Score) : Prop where
  scope : record.scope ∈ allowedScopes
  selections : ∀ selection ∈ record.selectedSkills,
    (∃ skillId, parseUuid selection.skillId = some skillId) ∧ selection.contextStatus ∈ allowedStatuses

theorem contextStatusText_allowed (status : CompileContextStatus) : contextStatusText status ∈ allowedStatuses := by
  cases status <;> decide

/-- What the server records passes the writer's checks. -/
theorem buildSessionUsageRecord_recordable (sessionId repoPath : Str) (response : CompileContextResponse)
    (skills : List (Str × Score)) (promptHash : Str) :
    Recordable parseUuid (buildSessionUsageRecord parseUuid sessionId repoPath response skills promptHash) := by
  refine ⟨?_, ?_⟩
  · unfold buildSessionUsageRecord
    by_cases blank : repoPath.isEmpty = true
    · simp only [blank, if_true]
      decide
    · simp only [blank]
      decide
  · intro selection member
    obtain ⟨retrieved, -, kept⟩ := List.mem_filterMap.mp member
    by_cases known : (parseUuid retrieved.1).isNone = true
    · rw [if_pos known] at kept
      cases kept
    · rw [if_neg known] at kept
      cases kept
      exact ⟨Option.ne_none_iff_exists'.mp fun none => known (none ▸ rfl), contextStatusText_allowed _⟩

/-! ### The ledger of a write -/

/-- How far the transaction of a record is. -/
inductive WriteStage (Score : Type) where
  | idle
  | begun
  | logged (log : SessionLogRow)
  | used (log : SessionLogRow) (rows : List (SelectionRow Score))
  | committed
  | refused

namespace WriteStage

/-- The open transaction at a stage. -/
def pending : WriteStage Score → Option (UsageBatch Score)
  | .begun => some ⟨[], []⟩
  | .logged log => some ⟨[log], []⟩
  | .used log rows => some ⟨[log], rows⟩
  | _ => none

inductive Allows (parseUuid : Str → Option Uuid) (record : SessionUsageRecord Score) :
    WriteStage Score → UsageCall Score → Prop where
  | newId (stage : WriteStage Score) : Allows parseUuid record stage .newId
  | begin : Allows parseUuid record .idle .begin
  | insertLog (log : SessionLogRow) (ours : LogOf record log) : Allows parseUuid record .begun (.insertLog log)
  | insertUsage (log : SessionLogRow) (rows : List (SelectionRow Score)) (ours : BatchOf parseUuid record ⟨[log], rows⟩) :
      Allows parseUuid record (.logged log) (.insertUsage rows)
  | commitLog (log : SessionLogRow) (ours : BatchOf parseUuid record ⟨[log], []⟩) :
      Allows parseUuid record (.logged log) .commit
  | commit (log : SessionLogRow) (rows : List (SelectionRow Score)) (ours : BatchOf parseUuid record ⟨[log], rows⟩) :
      Allows parseUuid record (.used log rows) .commit

def after (stage : WriteStage Score) : (call : UsageCall Score) → UsageAnswer call → WriteStage Score
  | .newId, _ => stage
  | .begin, .ok () => .begun
  | .insertLog log, .ok () => .logged log
  | .insertUsage rows, .ok () =>
    match stage with
    | .logged log => .used log rows
    | _ => .refused
  | .commit, .ok () => .committed
  | _, _ => .refused

end WriteStage

def writeDiscipline (parseUuid : Str → Option Uuid) (record : SessionUsageRecord Score) :
    Discipline (UsageCall Score) UsageAnswer (WriteStage Score) where
  allows := WriteStage.Allows parseUuid record
  after := WriteStage.after

/-- A write ends well after its commit, and fails only after the database has refused a call. -/
def WriteEnds (stage : WriteStage Score) : Except UsageWriteError Unit → Prop
  | .ok () => stage = .committed
  | .error (.database _) => stage = .refused
  | .error (.invalidContract _) => False

/-- The rows are drawn up without a statement; a recordable record passes. -/
theorem obeys_selectionRows {log : SessionLogRow} {selections : List (SkillSelectionRecord Score)}
    (recordable : ∀ selection ∈ selections,
      (∃ skillId, parseUuid selection.skillId = some skillId) ∧ selection.contextStatus ∈ allowedStatuses) (sessionId : Str) :
    (selectionRows parseUuid sessionId selections).Obeys (writeDiscipline parseUuid record)
      (fun left outcome => left = .logged log ∧ ∃ rows, outcome = .ok rows ∧
        List.Forall₂ (RowOfSelection parseUuid sessionId) selections rows) (.logged log) := by
  induction selections with
  | nil => exact ⟨rfl, [], rfl, .nil⟩
  | cons selection rest ih =>
    obtain ⟨⟨skillId, parsed⟩, allowed⟩ := recordable selection List.mem_cons_self
    unfold selectionRows
    rw [parsed]
    simp only [allowed, not_true_eq_false, if_false]
    refine ⟨.newId _, fun id => ?_⟩
    change Program.Obeys _ _ _ (selectionRows parseUuid sessionId rest >>= _)
    refine Program.Obeys.bind ((ih fun other member => recordable other (List.mem_cons_of_mem _ member)).mono ?_)
    rintro left outcome ⟨rfl, rows, rfl, each⟩
    exact ⟨rfl, _, rfl, .cons ⟨rfl, parsed, rfl, rfl⟩ each⟩

/-- From the log row on: the rows of the selections, if there are any, and the commit. -/
theorem obeys_insertion {log : SessionLogRow} {rows : List (SelectionRow Score)}
    (ours : BatchOf parseUuid record ⟨[log], rows⟩) :
    (insertSelections rows >>= fun _ => (Program.ask .commit >>= executed : UsageProgram Score Unit)).Obeys
      (writeDiscipline parseUuid record) WriteEnds (.logged log) := by
  have committed (stage : WriteStage Score) (allowed : WriteStage.Allows parseUuid record stage .commit) :
      (Program.ask .commit >>= executed : UsageProgram Score Unit).Obeys (writeDiscipline parseUuid record) WriteEnds
        stage := by
    refine ⟨allowed, fun answer => ?_⟩
    cases answer with
    | error error => exact rfl
    | ok _ => exact rfl
  unfold insertSelections
  cases rows with
  | nil => exact committed _ (.commitLog log ours)
  | cons row rows =>
    refine ⟨.insertUsage log _ ours, fun inserted => ?_⟩
    cases inserted with
    | error error => exact rfl
    | ok _ => exact committed _ (.commit log _ ours)

theorem obeys_writeSessionUsage (recordable : Recordable parseUuid record) :
    (writeSessionUsage parseUuid record).Obeys (writeDiscipline parseUuid record) WriteEnds .idle := by
  unfold writeSessionUsage
  rw [if_neg (not_not.mpr recordable.scope)]
  refine ⟨.newId _, fun logId => ⟨.begin, fun begun => ?_⟩⟩
  cases begun with
  | error error => exact rfl
  | ok begun =>
    refine ⟨.insertLog _ ⟨rfl, rfl, rfl, rfl, rfl⟩, fun logged => ?_⟩
    cases logged with
    | error error => exact rfl
    | ok logged =>
      change Program.Obeys _ _ _ (selectionRows parseUuid record.sessionId record.selectedSkills >>= _)
      refine Program.Obeys.bind ((obeys_selectionRows recordable.selections _).mono ?_)
      rintro left outcome ⟨rfl, rows, rfl, each⟩
      exact obeys_insertion ⟨⟨_, rfl, rfl, rfl, rfl, rfl, rfl⟩, each⟩

/-! ### The invariant of the writer -/

/-- What the open transaction and the writer's record of it are at a stage. -/
structure StageOf (parseUuid : Str → Option Uuid) (tables : UsageTables Score) (writing : Writing Score)
    (stage : WriteStage Score) : Prop where
  pending : ∀ batch, stage.pending = some batch → tables.pending = some batch
  uncommitted : stage ≠ .committed → stage ≠ .refused → writing.batch = none
  committed : stage = .committed → writing.batch.isSome = true
  whole : ∀ batch, writing.batch = some batch → BatchOf parseUuid writing.record batch

variable {tables after : UsageTables Score} {writing : Writing Score} {stage : WriteStage Score}
variable {request : UsageCall Score} {answer : UsageAnswer request} {batch : Option (UsageBatch Score)}
variable {rest : UsageProgram Score Unit}

/-- A refused call ends the transaction, and nothing of it is committed. -/
theorem StageOf.refuse (sound : StageOf parseUuid tables writing stage) (open_ : stage ≠ .committed)
    (going : stage ≠ .refused) : StageOf parseUuid after ⟨writing.record, rest, writing.batch⟩ .refused where
  pending _ never := nomatch never
  uncommitted _ never := absurd rfl never
  committed never := nomatch never
  whole batch found := by
    have none := sound.uncommitted open_ going
    cases none.symm.trans found

/-- A statement moves the transaction on. -/
theorem StageOf.move (sound : StageOf parseUuid tables writing stage) {next : WriteStage Score} (open_ : stage ≠ .committed)
    (going : stage ≠ .refused) (moved : ∀ batch, next.pending = some batch → after.pending = some batch)
    (further : next ≠ .committed) : StageOf parseUuid after ⟨writing.record, rest, writing.batch⟩ next where
  pending := moved
  uncommitted _ _ := sound.uncommitted open_ going
  committed same := absurd same further
  whole := sound.whole

/-- A commit that takes effect, heard or not. -/
theorem StageOf.commit (sound : StageOf parseUuid tables writing stage) {found : UsageBatch Score}
    (allowed : WriteStage.Allows parseUuid writing.record stage .commit) (opened : tables.pending = some found)
    {next : WriteStage Score} (ended : next = .committed ∨ next = .refused) :
    StageOf parseUuid ⟨tables.committed ++ [found], none⟩ ⟨writing.record, rest, (some found).or writing.batch⟩ next ∧
      writing.batch = none := by
  have whole : BatchOf parseUuid writing.record found ∧ writing.batch = none := by
    cases allowed with
    | commitLog log ours =>
      have same := sound.pending _ rfl
      cases opened.symm.trans same
      exact ⟨ours, sound.uncommitted (by intro never; cases never) (by intro never; cases never)⟩
    | commit log rows ours =>
      have same := sound.pending _ rfl
      cases opened.symm.trans same
      exact ⟨ours, sound.uncommitted (by intro never; cases never) (by intro never; cases never)⟩
  refine ⟨⟨?_, ?_, fun _ => rfl, ?_⟩, whole.2⟩
  · intro batch pending
    obtain rfl | rfl := ended
    · cases pending
    · cases pending
  · intro notCommitted notRefused
    obtain same | same := ended
    · exact absurd same notCommitted
    · exact absurd same notRefused
  · rintro batch ⟨⟩
    exact whole.1

/-- One call of the writer. -/
theorem StageOf.call (sound : StageOf parseUuid tables writing stage)
    (allowed : WriteStage.Allows parseUuid writing.record stage request)
    (served : UsageServed tables request answer after batch) :
    StageOf parseUuid after ⟨writing.record, rest, batch.or writing.batch⟩ (stage.after request answer) ∧
      after.committed = tables.committed ++ batch.toList ∧ (batch.isSome = true → writing.batch = none) := by
  cases served with
  | newId id => exact ⟨⟨sound.pending, sound.uncommitted, sound.committed, sound.whole⟩, (List.append_nil _).symm, nofun⟩
  | begin =>
    cases allowed
    refine ⟨sound.move nofun nofun ?_ nofun, (List.append_nil _).symm, nofun⟩
    rintro batch ⟨⟩
    rfl
  | insertLog row batch opened =>
    cases allowed with
    | insertLog _ ours =>
      cases opened.symm.trans (sound.pending _ rfl)
      refine ⟨sound.move nofun nofun ?_ nofun, (List.append_nil _).symm, nofun⟩
      rintro batch ⟨⟩
      rfl
  | insertUsage rows batch opened =>
    cases allowed with
    | insertUsage log _ ours =>
      cases opened.symm.trans (sound.pending _ rfl)
      refine ⟨sound.move nofun nofun ?_ nofun, (List.append_nil _).symm, nofun⟩
      rintro batch ⟨⟩
      rfl
  | commit found opened =>
    obtain ⟨moved, none⟩ := sound.commit allowed opened (.inl rfl)
    exact ⟨moved, rfl, fun _ => none⟩
  | commitUnheard found error opened =>
    obtain ⟨moved, none⟩ := sound.commit allowed opened (.inr rfl)
    exact ⟨moved, rfl, fun _ => none⟩
  | refusedBegin error =>
    cases allowed
    exact ⟨sound.refuse nofun nofun, (List.append_nil _).symm, nofun⟩
  | refusedLog row error =>
    cases allowed
    exact ⟨sound.refuse nofun nofun, (List.append_nil _).symm, nofun⟩
  | refusedUsage rows error =>
    cases allowed
    exact ⟨sound.refuse nofun nofun, (List.append_nil _).symm, nofun⟩
  | refusedCommit error =>
    cases allowed with
    | commitLog => exact ⟨sound.refuse nofun nofun, (List.append_nil _).symm, nofun⟩
    | commit => exact ⟨sound.refuse nofun nofun, (List.append_nil _).symm, nofun⟩

/-- What is known of a record that the writer is done with. -/
structure SettledSound (parseUuid : Str → Option Uuid) (settled : SettledUsage Score) : Prop where
  written : settled.outcome = .ok () → settled.batch.isSome = true
  refused : ∀ error, settled.outcome = .error error → ∃ sql, error = .database sql
  whole : ∀ batch, settled.batch = some batch → BatchOf parseUuid settled.record batch

/-- The writer's program keeps to a stage that the tables agree with. -/
def WritingSound (parseUuid : Str → Option Uuid) (tables : UsageTables Score) (writing : Writing Score) : Prop :=
  ∃ stage, writing.program.Obeys (writeDiscipline parseUuid writing.record) WriteEnds stage ∧
    StageOf parseUuid tables writing stage

/-- The batches of the records so far, in order. -/
def UsageWriter.batches (writer : UsageWriter Score) : List (UsageBatch Score) :=
  writer.settled.filterMap SettledUsage.batch ++ (writer.writing.bind Writing.batch).toList

structure UsageSound (parseUuid : Str → Option Uuid) (writer : UsageWriter Score) : Prop where
  order : writer.accepted = writer.settled.map SettledUsage.record ++ (writer.writing.map Writing.record).toList ++ writer.channel
  bounded : writer.channel.length ≤ usageWriteChannelCapacity
  recordable : ∀ record ∈ writer.accepted, Recordable parseUuid record
  committed : writer.tables.committed = writer.batches
  settled : ∀ settled ∈ writer.settled, SettledSound parseUuid settled
  writing : ∀ writing, writer.writing = some writing → WritingSound parseUuid writer.tables writing

variable {writer next : UsageWriter Score}

theorem UsageSound.start (initial : (UsageWriter.runs parseUuid).initial writer) : UsageSound parseUuid writer := by
  obtain ⟨channel, idle, committed, accepted, settled⟩ := initial
  refine ⟨?_, ?_, ?_, ?_, ?_, ?_⟩
  · rw [accepted, settled, idle, channel]
    rfl
  · rw [channel]
    exact Nat.zero_le _
  · intro record member
    rw [accepted] at member
    cases member
  · rw [UsageWriter.batches, committed, settled, idle]
    rfl
  · intro done member
    rw [settled] at member
    cases member
  · intro writing busy
    cases idle.symm.trans busy

theorem UsageSound.post (sound : UsageSound parseUuid writer) {record : SessionUsageRecord Score}
    (recordable : Recordable parseUuid record) : UsageSound parseUuid (writer.post record) := by
  unfold UsageWriter.post
  split
  · rename_i room
    refine ⟨?_, ?_, ?_, sound.committed, sound.settled, sound.writing⟩
    · change writer.accepted ++ [record] = _ ++ (writer.channel ++ [record])
      rw [sound.order, List.append_assoc]
    · rw [List.length_append]
      exact room
    · intro other member
      obtain old | new := List.mem_append.mp member
      · exact sound.recordable other old
      · rw [List.mem_singleton.mp new]
        exact recordable
  · exact ⟨sound.order, sound.bounded, sound.recordable, sound.committed, sound.settled, sound.writing⟩

theorem UsageSound.receive (sound : UsageSound parseUuid writer) {record : SessionUsageRecord Score}
    {rest : List (SessionUsageRecord Score)} (idle : writer.writing = none) (waiting : writer.channel = record :: rest) :
    UsageSound parseUuid
      { writer with channel := rest, writing := some ⟨record, writeSessionUsage parseUuid record, none⟩ } := by
  have order := sound.order
  rw [idle, waiting] at order
  have bounded := sound.bounded
  rw [waiting, List.length_cons] at bounded
  refine ⟨?_, Nat.le_of_succ_le bounded, sound.recordable, ?_, sound.settled, ?_⟩
  · rw [order]
    simp
  · rw [sound.committed, UsageWriter.batches, UsageWriter.batches, idle]
    rfl
  · rintro writing ⟨⟩
    have recordable := sound.recordable record (order ▸ List.mem_append_right _ List.mem_cons_self)
    exact ⟨.idle, obeys_writeSessionUsage recordable, ⟨nofun, fun _ _ => rfl, nofun, nofun⟩⟩

theorem toList_or {Item : Type} {one two : Option Item} (fresh : one.isSome = true → two = none) :
    two.toList ++ one.toList = (one.or two).toList := by
  cases one with
  | none => exact List.append_nil _
  | some item =>
    rw [fresh rfl]
    rfl

theorem UsageSound.call (sound : UsageSound parseUuid writer) {next : UsageAnswer request → UsageProgram Score Unit}
    (busy : writer.writing = some writing) (asks : writing.program = .call request next)
    (served : UsageServed writer.tables request answer tables batch) :
    UsageSound parseUuid
      { writer with writing := some ⟨writing.record, next answer, batch.or writing.batch⟩, tables := tables } := by
  obtain ⟨stage, obeys, staged⟩ := sound.writing writing busy
  rw [asks] at obeys
  obtain ⟨allowed, later⟩ := obeys
  obtain ⟨moved, grown, fresh⟩ := staged.call allowed served
  have order := sound.order
  rw [busy] at order
  refine ⟨order, sound.bounded, sound.recordable, ?_, sound.settled, ?_⟩
  · have committed := sound.committed
    rw [UsageWriter.batches, busy] at committed
    rw [grown, committed, UsageWriter.batches, List.append_assoc]
    exact congrArg _ (toList_or fresh)
  · intro other same
    obtain rfl := Option.some.inj same
    exact ⟨_, later answer, moved⟩

/-- The writer is done with its record. -/
theorem UsageSound.finish (sound : UsageSound parseUuid writer) {outcome : Except UsageWriteError Unit}
    (busy : writer.writing = some writing) (settled : SettledSound parseUuid ⟨writing.record, outcome, writing.batch⟩) :
    UsageSound parseUuid (writer.finish writing outcome) := by
  have order := sound.order
  rw [busy] at order
  refine ⟨?_, sound.bounded, sound.recordable, ?_, ?_, nofun⟩
  · change writer.accepted = (writer.settled ++ [_]).map SettledUsage.record ++ [] ++ writer.channel
    rw [order]
    simp
  · have committed := sound.committed
    rw [UsageWriter.batches, busy] at committed
    change writer.tables.committed = (writer.settled ++ [_]).filterMap SettledUsage.batch ++ []
    rw [committed]
    cases found : writing.batch with
    | none => simp [found]
    | some batch => simp [found]
  · intro done member
    obtain old | new := List.mem_append.mp member
    · exact sound.settled done old
    · rw [List.mem_singleton.mp new]
      exact settled

theorem usageSound_step (sound : UsageSound parseUuid writer) (step : UsageWriter.Step parseUuid writer next) :
    UsageSound parseUuid next := by
  cases step with
  | post sessionId repoPath promptHash response skills =>
    exact sound.post (buildSessionUsageRecord_recordable sessionId repoPath response skills promptHash)
  | receive idle waiting => exact sound.receive idle waiting
  | call busy asks served => exact sound.call busy asks served
  | written busy ended =>
    obtain ⟨stage, obeys, staged⟩ := sound.writing _ busy
    rw [ended] at obeys
    exact sound.finish busy ⟨fun _ => staged.committed obeys, nofun, staged.whole⟩
  | @failed writing error busy ended =>
    obtain ⟨stage, obeys, staged⟩ := sound.writing _ busy
    rw [ended] at obeys
    refine sound.finish busy ⟨nofun, ?_, staged.whole⟩
    rintro _ ⟨⟩
    cases error with
    | database sql => exact ⟨sql, rfl⟩
    | invalidContract message => exact obeys.elim

theorem usageSound_of_reachable (reached : (UsageWriter.runs parseUuid).Reachable writer) : UsageSound parseUuid writer :=
  reached.invariant (fun _ => .start) fun _ _ => usageSound_step

/-! ### What the tables say of the responses -/

/-- The records with a committed transaction, in order. -/
def UsageWriter.recorded (writer : UsageWriter Score) : List (SessionUsageRecord Score) :=
  (writer.settled.filterMap fun settled => settled.batch.map fun _ => settled.record) ++
    (writer.writing.bind fun writing => writing.batch.map fun _ => writing.record).toList

/-- How the tables account for the records that the channel took. -/
structure UsageAccounted (parseUuid : Str → Option Uuid) (writer : UsageWriter Score) : Prop where
  order : writer.accepted = writer.settled.map SettledUsage.record ++ (writer.writing.map Writing.record).toList ++ writer.channel
  bounded : writer.channel.length ≤ usageWriteChannelCapacity
  whole : List.Forall₂ (BatchOf parseUuid) writer.recorded writer.tables.committed
  written : ∀ settled ∈ writer.settled, settled.outcome = .ok () → settled.batch.isSome = true
  refused : ∀ settled ∈ writer.settled, ∀ error, settled.outcome = .error error → ∃ sql, error = .database sql
  counted : ∀ skillId, (writer.tables.committed.flatMap UsageBatch.usage).countP (fun row => row.skillId = skillId) =
    (writer.recorded.flatMap SessionUsageRecord.selectedSkills).countP fun selection =>
      parseUuid selection.skillId = some skillId

theorem forall₂_settled {settled : List (SettledUsage Score)} (sound : ∀ done ∈ settled, SettledSound parseUuid done) :
    List.Forall₂ (BatchOf parseUuid) (settled.filterMap fun done => done.batch.map fun _ => done.record)
      (settled.filterMap SettledUsage.batch) := by
  induction settled with
  | nil => exact .nil
  | cons done rest ih =>
    have later := ih fun other member => sound other (List.mem_cons_of_mem _ member)
    have here := (sound done List.mem_cons_self).whole
    cases found : done.batch with
    | none => simpa [found] using later
    | some batch => simpa [found] using ⟨here batch found, later⟩

theorem forall₂_writing {current : Option (Writing Score)}
    (sound : ∀ writing, current = some writing → ∀ batch, writing.batch = some batch → BatchOf parseUuid writing.record batch) :
    List.Forall₂ (BatchOf parseUuid) (current.bind fun writing => writing.batch.map fun _ => writing.record).toList
      (current.bind Writing.batch).toList := by
  cases current with
  | none => exact .nil
  | some writing =>
    cases found : writing.batch with
    | none => simp [found]
    | some batch => simpa [found] using sound writing rfl batch found

theorem counted_rows {sessionId : Str} {selections : List (SkillSelectionRecord Score)} {rows : List (SelectionRow Score)}
    (each : List.Forall₂ (RowOfSelection parseUuid sessionId) selections rows) (skillId : Uuid) :
    rows.countP (fun row => row.skillId = skillId) =
      selections.countP fun selection => parseUuid selection.skillId = some skillId := by
  induction each with
  | nil => rfl
  | cons same _ ih =>
    rw [List.countP_cons, List.countP_cons, ih, same.skillId]
    simp only [Option.some.injEq]

theorem counted_batches {records : List (SessionUsageRecord Score)} {batches : List (UsageBatch Score)}
    (each : List.Forall₂ (BatchOf parseUuid) records batches) (skillId : Uuid) :
    (batches.flatMap UsageBatch.usage).countP (fun row => row.skillId = skillId) =
      (records.flatMap SessionUsageRecord.selectedSkills).countP fun selection =>
        parseUuid selection.skillId = some skillId := by
  induction each with
  | nil => rfl
  | cons ours _ ih =>
    rw [List.flatMap_cons, List.flatMap_cons, List.countP_append, List.countP_append, counted_rows ours.usage, ih]

/-- In every reachable state: the records that the channel took are settled, being written or
waiting, in the order of their posts; the committed transactions are those of the recorded ones, each
whole and once, so that a skill has as many usage rows as it has recorded selections; a record fails
only through the database, and counts as written only after its commit. -/
theorem usage_accounted (parseUuid : Str → Option Uuid) {writer : UsageWriter Score}
    (reached : (UsageWriter.runs parseUuid).Reachable writer) : UsageAccounted parseUuid writer := by
  have sound := usageSound_of_reachable reached
  have whole : List.Forall₂ (BatchOf parseUuid) writer.recorded writer.tables.committed := by
    rw [sound.committed]
    refine List.rel_append (forall₂_settled sound.settled) (forall₂_writing ?_)
    intro writing busy
    obtain ⟨stage, -, staged⟩ := sound.writing writing busy
    exact staged.whole
  exact ⟨sound.order, sound.bounded, whole, fun done member => (sound.settled done member).written,
    fun done member => (sound.settled done member).refused, counted_batches whole⟩

def sampleSkillId : Str := "01890a5d-ac96-774b-bcce-b302099a8057".toList

def sampleParseUuid (text : Str) : Option Uuid :=
  if text = sampleSkillId then
    some [0x01, 0x89, 0x0a, 0x5d, 0xac, 0x96, 0x77, 0x4b, 0xbc, 0xce, 0xb3, 0x02, 0x09, 0x9a, 0x80, 0x57]
  else none

def sampleUsage : SessionUsageRecord Nat :=
  buildSessionUsageRecord sampleParseUuid "session-1".toList "/repo".toList
    ⟨.ok, none, none, [], ["/repo".toList], 3, 12, "live".toList⟩ [(sampleSkillId, 87)] "hash".toList

theorem usage_accounted_written : ∃ writer : UsageWriter Nat, UsageAccounted sampleParseUuid writer ∧
    writer.recorded = [sampleUsage] ∧ writer.settled.map SettledUsage.outcome = [.ok ()] := by
  have start : (UsageWriter.runs sampleParseUuid).Reachable
      (⟨[], none, false, ⟨[], none⟩, [], []⟩ : UsageWriter Nat) :=
    .start ⟨rfl, rfl, rfl, rfl, rfl⟩
  have posted := start.next (.post "session-1".toList "/repo".toList "hash".toList
    ⟨.ok, none, none, [], ["/repo".toList], 3, 12, "live".toList⟩ [(sampleSkillId, 87)])
  have received := posted.next (.receive rfl rfl)
  have named := received.next (.call rfl rfl (.newId [1]))
  have begun := named.next (.call rfl rfl .begin)
  have logged := begun.next (.call rfl rfl (.insertLog _ _ rfl))
  have drawn := logged.next (.call rfl rfl (.newId [2]))
  have inserted := drawn.next (.call rfl rfl (.insertUsage _ _ rfl))
  have committed := inserted.next (.call rfl rfl (.commit _ rfl))
  have written := committed.next (.written rfl rfl)
  exact ⟨_, usage_accounted sampleParseUuid written, rfl, rfl⟩

end SkillLayer.McpServer

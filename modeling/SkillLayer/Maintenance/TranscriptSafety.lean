import SkillLayer.Infrastructure.TranscriptStatements
import SkillLayer.Maintenance.TranscriptDrain

/-! The transcript queue under any number of captures and drains: what holds in every
reachable state. -/

namespace SkillLayer.Maintenance

open Infrastructure

variable {Worker : Type} [DecidableEq Worker]

/-- Any number of programs on one queue, served in any weather. -/
def transcriptSite (hash : List UInt8 → Str) :
    Site TranscriptCall TranscriptAnswer TranscriptDrainError Unit DrainLedger TranscriptWorld where
  discipline := drainDiscipline
  idle := .idle
  starts := TranscriptTask hash
  serves request world answer after := ∃ weather, serveTranscripts weather request world = (answer, after)

abbrev TranscriptCluster (Worker : Type) :=
  Cluster TranscriptCall TranscriptAnswer TranscriptDrainError Unit DrainLedger TranscriptWorld Worker

abbrev TranscriptStep (Worker : Type) := Event TranscriptCall TranscriptAnswer Worker

/-- An empty queue, before any extraction. -/
def emptyTranscripts : TranscriptWorld := ⟨.empty, []⟩

/-- The extraction of this row's content has returned Ok. -/
def Extracted (world : TranscriptWorld) (row : TranscriptRow) : Prop :=
  inlineExtraction row.sessionId row.content row.repoPath ∈ world.extracted

/-- The invariant of the queue: the pool of rows is sound, what a drain holds has a row,
and processed rows were extracted before. -/
structure DrainSound (world : TranscriptWorld) (ledgers : Worker → DrainLedger) : Prop where
  pool : PoolSound maxTranscriptDrainAttempts world.queue.progress fun worker => (ledgers worker).heldIds
  known : ∀ worker, ∀ row ∈ (ledgers worker).held, ∃ current ∈ world.queue.rows, current.capture = row.capture
  processed : ∀ row ∈ world.queue.rows, row.status = .processed → Extracted world row
  extracted : ∀ worker row rest, (ledgers worker).held = row :: rest →
    (ledgers worker).extracted = true → Extracted world row

theorem extracted_congr {world after : TranscriptWorld} {row other : TranscriptRow}
    (extracted : Extracted world row) (more : world.extracted ⊆ after.extracted)
    (same : row.capture = other.capture) : Extracted after other := by
  obtain ⟨-, -, sessionId, content, repoPath⟩ :
      row.id = other.id ∧ row.contentHash = other.contentHash ∧ row.sessionId = other.sessionId ∧
        row.content = other.content ∧ row.repoPath = other.repoPath := by
    simpa [TranscriptRow.capture] using same
  have asked := more extracted
  rwa [sessionId, content, repoPath] at asked

omit [DecidableEq Worker] in
theorem DrainSound.start : DrainSound emptyTranscripts fun _ : Worker => DrainLedger.idle := by
  refine ⟨⟨?_, ?_, ?_, ?_⟩, ?_, ?_, ?_⟩
  · exact fun _ _ here => by cases here
  · exact fun _ _ member => by cases member
  · exact fun _ => List.nodup_nil
  · exact fun _ _ _ => List.disjoint_nil_left _
  · exact fun _ _ member => by cases member
  · exact fun _ member => by cases member
  · exact fun _ _ _ held => by cases held

/-! ### Effects of calls -/

/-- A mark that the database refused. -/
def MarkRefused : (request : TranscriptCall) → TranscriptAnswer request → Prop
  | .markProcessed _, answer => ∃ error, answer = .error error
  | .markFailed _ _ _, answer => ∃ error, answer = .error error
  | _, _ => False

/-- The effects of calls: a new row, a claim, a mark of a row in processing, an extraction,
or nothing. -/
inductive DrainEffect (world : TranscriptWorld) (ledger : DrainLedger) :
    TranscriptCall → TranscriptWorld → DrainLedger → Prop where
  | nothing (request : TranscriptCall) : DrainEffect world ledger request world ledger
  | captured {id : Uuid} {request : TranscriptIngestRequest} {contentHash : Str} {repoPath : Option Str}
      {row : TranscriptRow} (fresh : row.id ∉ world.queue.table.keys)
      (freshHash : world.queue.holdsHash row.contentHash = false) (new : row.progress = .fresh) :
      DrainEffect world ledger (.insertIfNew id request contentHash repoPath)
        (world.withQueue (world.queue.insertRow row fresh freshHash)) ledger
  | claimed (limit : Int) (order : HashOrder TranscriptRow) :
      DrainEffect world ledger (.claim limit) (world.withQueue (world.queue.claim order limit).2)
        ⟨(world.queue.claim order limit).1, false⟩
  | processed {id : Uuid} {item : Progress} (here : world.queue.progress id = some item)
      (processing : item.standing = .processing) :
      DrainEffect world ledger (.markProcessed id) (world.withQueue (world.queue.markProcessed id))
        ledger.settled
  | failed {id : Uuid} (errorMessage : Str) {item : Progress} (here : world.queue.progress id = some item)
      (processing : item.standing = .processing) :
      DrainEffect world ledger (.markFailed id errorMessage maxTranscriptDrainAttempts)
        (world.withQueue (world.queue.markFailed id errorMessage maxTranscriptDrainAttempts))
        ledger.settled
  | extracted (request : ExtractSessionRequest) :
      DrainEffect world ledger (.extractBlocking request)
        { world with extracted := request :: world.extracted } { ledger with extracted := true }
  | unextracted (request : ExtractSessionRequest) :
      DrainEffect world ledger (.extractBlocking request) world { ledger with extracted := false }

section Effect

variable {world after : TranscriptWorld} {ledgers : Worker → DrainLedger} {worker : Worker}
  {request : TranscriptCall} {left : DrainLedger}

theorem head_of_allowed {ledger : DrainLedger} {id : Uuid} (head : ledger.heldIds.head? = some id) :
    ∃ row rest, ledger.held = row :: rest ∧ row.id = id ∧
      ledger.heldIds = id :: rest.map TranscriptRow.id ∧
      ledger.settled.heldIds = rest.map TranscriptRow.id := by
  cases held : ledger.held with
  | nil => simp [DrainLedger.heldIds, held] at head
  | cons row rest =>
    have same : row.id = id := by simpa [DrainLedger.heldIds, held] using head
    refine ⟨row, rest, rfl, same, ?_, ?_⟩
    · rw [DrainLedger.heldIds, held, List.map_cons, same]
    · rw [DrainLedger.heldIds, DrainLedger.settled, held, List.tail_cons]

omit [DecidableEq Worker] in
/-- Every allowed call that is served has one of the effects, or it is a refused mark after
which the drain gives up its batch. -/
theorem DrainEffect.of_served (sound : DrainSound world ledgers) (allowed : (ledgers worker).Allows request)
    {weather : TranscriptWeather} {answer : TranscriptAnswer request}
    (served : serveTranscripts weather request world = (answer, after)) :
    DrainEffect world (ledgers worker) request after ((ledgers worker).after request answer) ∨
      MarkRefused request answer ∧ after = world ∧ (ledgers worker).after request answer = .idle := by
  have marked {id : Uuid} (head : (ledgers worker).heldIds.head? = some id) :
      ∃ item, world.queue.progress id = some item ∧ item.standing = .processing := by
    obtain ⟨_, _, -, -, held, -⟩ := head_of_allowed head
    exact sound.pool.held worker id (held ▸ List.mem_cons_self)
  obtain ⟨now, refused, order, freshId, extraction⟩ := weather
  cases request with
  | newId =>
    cases served
    exact .inl (.nothing _)
  | insertIfNew id request contentHash repoPath =>
    cases refused with
    | some message =>
      cases served
      exact .inl (.nothing _)
    | none =>
      cases inserted : world.queue.insertIfNew
          (TranscriptTable.pendingRow id request contentHash repoPath now) with
      | error error =>
        simp only [serveTranscripts, TranscriptWeather.sql, inserted] at served
        cases served
        exact .inl (.nothing _)
      | ok outcome =>
        obtain ⟨newId, queue⟩ := outcome
        simp only [serveTranscripts, TranscriptWeather.sql, inserted] at served
        cases served
        obtain ⟨rfl, rfl, -⟩ | ⟨rfl, fresh, freshHash, rfl⟩ :=
          TranscriptTable.insertIfNew_eq_ok.mp inserted
        · exact .inl (.nothing _)
        · exact .inl (.captured fresh freshHash rfl)
  | claim limit =>
    cases refused with
    | some message =>
      cases served
      exact .inl (.nothing _)
    | none =>
      cases served
      exact .inl (.claimed limit order)
  | markProcessed id =>
    cases refused with
    | some message =>
      cases served
      exact .inr ⟨⟨_, rfl⟩, rfl, rfl⟩
    | none =>
      cases served
      obtain ⟨item, here, processing⟩ := marked allowed.1
      exact .inl (.processed here processing)
  | markFailed id errorMessage maxAttempts =>
    obtain ⟨head, rfl⟩ := allowed
    cases refused with
    | some message =>
      cases served
      exact .inr ⟨⟨_, rfl⟩, rfl, rfl⟩
    | none =>
      cases served
      obtain ⟨item, here, processing⟩ := marked head
      exact .inl (.failed errorMessage here processing)
  | extractBlocking request =>
    cases extraction with
    | ok draftPaths =>
      cases served
      exact .inl (.extracted request)
    | error reasonCode =>
      cases served
      exact .inl (.unextracted request)

theorem heldIds_update (ledgers : Worker → DrainLedger) (worker : Worker) (left : DrainLedger) :
    (fun other => (Function.update ledgers worker left other).heldIds) =
      Function.update (fun other => (ledgers other).heldIds) worker left.heldIds :=
  Function.comp_update DrainLedger.heldIds ledgers worker left

theorem pool_effect
    (pool : PoolSound maxTranscriptDrainAttempts world.queue.progress fun worker => (ledgers worker).heldIds)
    (allowed : (ledgers worker).Allows request)
    (effect : DrainEffect world (ledgers worker) request after left) :
    PoolSound maxTranscriptDrainAttempts after.queue.progress
      fun other => (Function.update ledgers worker left other).heldIds := by
  rw [heldIds_update]
  have still (same : left.heldIds = (ledgers worker).heldIds) :
      Function.update (fun other => (ledgers other).heldIds) worker left.heldIds =
        fun other => (ledgers other).heldIds := by
    rw [same, Function.update_eq_self]
  cases effect with
  | nothing => rwa [still rfl]
  | captured fresh freshHash new =>
    rw [still rfl, TranscriptWorld.withQueue, TranscriptTable.progress_insertRow, new]
    exact pool.add (Keyed.progressOf_eq_none.mpr fresh) (by decide)
  | claimed limit order =>
    rw [TranscriptWorld.withQueue, TranscriptTable.progress_claim]
    exact pool.claim (TranscriptTable.claim_spec _ _ _).1 (TranscriptTable.claim_pending _ _ _)
  | processed here processing =>
    obtain ⟨row, rest, -, -, held, settled⟩ := head_of_allowed allowed.1
    rw [TranscriptWorld.withQueue, TranscriptTable.progress_markProcessed here processing, settled]
    exact pool.settle held here (.inl rfl)
  | failed errorMessage here processing =>
    obtain ⟨row, rest, -, -, held, settled⟩ := head_of_allowed allowed.1
    rw [TranscriptWorld.withQueue, TranscriptTable.progress_markFailed _ _ here processing, settled]
    exact pool.settle held here (.inr rfl)
  | extracted => rwa [still rfl]
  | unextracted => rwa [still rfl]

/-- Rows stay, with what was captured. -/
theorem DrainEffect.capture_kept {ledger : DrainLedger} (effect : DrainEffect world ledger request after left)
    {row : TranscriptRow} (member : row ∈ world.queue.rows) :
    ∃ next ∈ after.queue.rows, next.capture = row.capture := by
  cases effect with
  | captured => exact ⟨row, List.mem_append_left _ member, rfl⟩
  | claimed => exact TranscriptTable.kept_modify member
  | processed => exact TranscriptTable.kept_modify member
  | failed => exact TranscriptTable.kept_modify member
  | _ => exact ⟨row, member, rfl⟩

theorem known_effect
    (known : ∀ worker, ∀ row ∈ (ledgers worker).held,
      ∃ current ∈ world.queue.rows, current.capture = row.capture)
    (effect : DrainEffect world (ledgers worker) request after left) (other : Worker) :
    ∀ row ∈ (Function.update ledgers worker left other).held,
      ∃ current ∈ after.queue.rows, current.capture = row.capture := by
  intro row member
  suffices before : ∃ current ∈ world.queue.rows, current.capture = row.capture by
    obtain ⟨current, inRows, same⟩ := before
    obtain ⟨next, inAfter, kept⟩ := effect.capture_kept inRows
    exact ⟨next, inAfter, kept.trans same⟩
  by_cases same : other = worker
  · subst same
    rw [Function.update_self] at member
    cases effect with
    | claimed limit order =>
      obtain ⟨source, inRows, -, same⟩ := (TranscriptTable.claim_spec _ _ _).2 row member
      exact ⟨source, inRows, same⟩
    | processed => exact known other row (List.mem_of_mem_tail member)
    | failed => exact known other row (List.mem_of_mem_tail member)
    | _ => exact known other row member
  · rw [Function.update_of_ne same] at member
    exact known other row member

omit [DecidableEq Worker] in
theorem extracted_effect (effect : DrainEffect world (ledgers worker) request after left) :
    world.extracted ⊆ after.extracted := by
  cases effect with
  | extracted => exact List.subset_cons_self _ _
  | _ => exact List.Subset.refl _

omit [DecidableEq Worker] in
/-- A row that is processed was processed before, or it is the row that was just marked. -/
theorem processed_before (effect : DrainEffect world (ledgers worker) request after left)
    {row : TranscriptRow} (member : row ∈ after.queue.rows) (processed : row.status = .processed) :
    ∃ before ∈ world.queue.rows, before.capture = row.capture ∧
      (before.status = .processed ∨ request = .markProcessed row.id) := by
  have marked {selects : TranscriptRow → Bool} {change : TranscriptTable.RowChange}
      (other : ∀ row, change.status row ≠ .processed)
      (inside : row ∈ (world.queue.modify selects change).rows) :
      ∃ before ∈ world.queue.rows, before.capture = row.capture ∧ before.status = .processed := by
    obtain ⟨before, inRows, same, rfl⟩ := TranscriptTable.mem_rows_modify inside
    refine ⟨before, inRows, same, ?_⟩
    by_cases selected : selects before = true
    · rw [if_pos selected] at processed
      exact absurd processed (other before)
    · rwa [if_neg selected] at processed
  cases effect with
  | @captured _ _ _ _ new fresh freshHash progress =>
    rcases List.mem_append.mp member with old | inNew
    · exact ⟨row, old, rfl, .inl processed⟩
    · obtain rfl := List.mem_singleton.mp inNew
      have standing := congrArg Progress.standing progress
      rw [TranscriptRow.progress, processed] at standing
      cases standing
  | claimed =>
    obtain ⟨before, inRows, same, already⟩ := marked (fun _ => by simp [TranscriptTable.setProcessing]) member
    exact ⟨before, inRows, same, .inl already⟩
  | @processed id item here processing =>
    obtain ⟨before, inRows, same, changed⟩ := TranscriptTable.mem_rows_modify member
    refine ⟨before, inRows, same, ?_⟩
    by_cases selected : TranscriptTable.inProcessing id before = true
    · have own : before.id = id := of_decide_eq_true (Bool.and_eq_true_iff.mp selected).1
      exact .inr (by rw [← own, TranscriptTable.id_of_capture same])
    · rw [if_neg selected] at changed
      exact .inl (changed ▸ processed)
  | failed =>
    obtain ⟨before, inRows, same, already⟩ :=
      marked (fun row => by simp only [TranscriptTable.setFailed]; split <;> simp) member
    exact ⟨before, inRows, same, .inl already⟩
  | _ => exact ⟨row, member, rfl, .inl processed⟩

omit [DecidableEq Worker] in
theorem processed_effect (sound : DrainSound world ledgers) (allowed : (ledgers worker).Allows request)
    (effect : DrainEffect world (ledgers worker) request after left) :
    ∀ row ∈ after.queue.rows, row.status = .processed → Extracted after row := by
  intro row member processed
  obtain ⟨before, inRows, same, already | rfl⟩ := processed_before effect member processed
  · exact extracted_congr (sound.processed before inRows already) (extracted_effect effect) same
  · obtain ⟨head, rest, held, id, -, -⟩ := head_of_allowed allowed.1
    obtain ⟨source, found, from_⟩ := sound.known worker head (held ▸ List.mem_cons_self)
    obtain rfl : source = before := TranscriptTable.same_row found inRows
      ((TranscriptTable.id_of_capture from_).trans (id.trans (TranscriptTable.id_of_capture same).symm))
    exact extracted_congr (sound.extracted worker head rest held allowed.2) (extracted_effect effect)
      (from_.symm.trans same)

theorem extraction_effect (sound : DrainSound world ledgers) (allowed : (ledgers worker).Allows request)
    (effect : DrainEffect world (ledgers worker) request after left) (other : Worker) (row : TranscriptRow)
    (rest : List TranscriptRow) (held : (Function.update ledgers worker left other).held = row :: rest)
    (extracted : (Function.update ledgers worker left other).extracted = true) : Extracted after row := by
  have more := extracted_effect effect
  by_cases same : other = worker
  · subst same
    rw [Function.update_self] at held extracted
    cases effect with
    | nothing => exact extracted_congr (sound.extracted other row rest held extracted) more rfl
    | captured => exact extracted_congr (sound.extracted other row rest held extracted) more rfl
    | extracted request =>
      obtain ⟨first, others, holds, rfl⟩ := allowed
      obtain ⟨rfl, -⟩ := List.cons.inj (holds.symm.trans held)
      exact List.mem_cons_self
    | _ => cases extracted
  · rw [Function.update_of_ne same] at held extracted
    exact extracted_congr (sound.extracted other row rest held extracted) more rfl

/-- An allowed call keeps the invariant. -/
theorem DrainSound.effect (sound : DrainSound world ledgers) (allowed : (ledgers worker).Allows request)
    (effect : DrainEffect world (ledgers worker) request after left) :
    DrainSound after (Function.update ledgers worker left) where
  pool := pool_effect sound.pool allowed effect
  known := known_effect sound.known effect
  processed := processed_effect sound allowed effect
  extracted := extraction_effect sound allowed effect

/-- A drain that stops lets go of what it holds. -/
theorem DrainSound.release (sound : DrainSound world ledgers) (worker : Worker) :
    DrainSound world (Function.update ledgers worker .idle) where
  pool := by
    rw [heldIds_update]
    exact sound.pool.drop worker
  known := by
    intro other row member
    by_cases same : other = worker
    · subst same
      rw [Function.update_self] at member
      cases member
    · rw [Function.update_of_ne same] at member
      exact sound.known other row member
  processed := sound.processed
  extracted := by
    intro other row rest held extracted
    by_cases same : other = worker
    · subst same
      rw [Function.update_self] at extracted
      cases extracted
    · rw [Function.update_of_ne same] at held extracted
      exact sound.extracted other row rest held extracted

theorem DrainSound.served (sound : DrainSound world ledgers) (allowed : (ledgers worker).Allows request)
    {weather : TranscriptWeather} {answer : TranscriptAnswer request}
    (served : serveTranscripts weather request world = (answer, after)) :
    DrainSound after (Function.update ledgers worker ((ledgers worker).after request answer)) := by
  rcases DrainEffect.of_served sound allowed served with effect | ⟨-, rfl, idle⟩
  · exact sound.effect allowed effect
  · rw [idle]
    exact sound.release worker

end Effect

/-! ### Every run -/

/-- The runs from an empty queue. -/
def transcriptRuns (hash : List UInt8 → Str) (Worker : Type) [DecidableEq Worker] :
    Transitions (TranscriptCluster Worker) :=
  (transcriptSite hash).runs Worker (· = emptyTranscripts)

variable {hash : List UInt8 → Str} {cluster after : TranscriptCluster Worker}
  {event : TranscriptStep Worker}

variable (hash) in
/-- The invariant holds, and every program keeps to the discipline. -/
abbrev DrainGoverned (cluster : TranscriptCluster Worker) : Prop :=
  Site.Governed (transcriptSite hash) EmptyHanded DrainSound cluster

theorem DrainGoverned.step (governed : DrainGoverned hash cluster)
    (step : (transcriptSite hash).Step cluster event after) : DrainGoverned hash after := by
  refine Site.Governed.step governed (fun body task => TranscriptTask.obeys task) ?_ ?_ ?_ step
  · rintro worker request answer world - allowed ⟨weather, served⟩
    exact governed.holds.served allowed served
  · exact fun worker _ _ _ => governed.holds.release worker
  · exact fun worker _ => governed.holds.release worker

theorem drainGoverned_of_reachable (reached : (transcriptRuns hash Worker).Reachable cluster) :
    DrainGoverned hash cluster :=
  Site.governed_of_reachable (fun _ new => new ▸ .start)
    (fun _ _ _ governed _ step => DrainGoverned.step governed step) reached

/-- What the status machine of the queue promises of a state: the attempts of a row stay
within the limit and reach it exactly when the row is failed, a row that a drain holds is
in processing and held by no other, processed rows were extracted before, and no content
hash is there twice. -/
structure TranscriptMachine (world : TranscriptWorld) (ledgers : Worker → DrainLedger) : Prop where
  attempts : ∀ row ∈ world.queue.rows, row.attempts ≤ maxTranscriptDrainAttempts ∧
    (row.status = .failed ↔ row.attempts = maxTranscriptDrainAttempts)
  held : ∀ worker, ∀ id ∈ (ledgers worker).heldIds,
    ∃ row ∈ world.queue.rows, row.id = id ∧ row.status = .processing
  apart : ∀ worker other, worker ≠ other → (ledgers worker).heldIds.Disjoint (ledgers other).heldIds
  processed : ∀ row ∈ world.queue.rows, row.status = .processed → Extracted world row
  hashes : (world.queue.rows.map TranscriptRow.contentHash).Nodup

/-- What a step may do to the rows: none is lost or loses what was captured, a status stays
or makes one move, and new rows are pending without attempts. -/
structure TranscriptMoves (before after : TranscriptTable) : Prop where
  rows : ∀ row ∈ before.rows, ∃ next ∈ after.rows, next.capture = row.capture
  statuses : PoolAdvances before.progress after.progress

theorem standing_eq_failed {status : TranscriptStatus} : status.standing = .failed ↔ status = .failed := by
  cases status <;> simp [TranscriptStatus.standing]

theorem standing_eq_processing {status : TranscriptStatus} :
    status.standing = .processing ↔ status = .processing := by
  cases status <;> simp [TranscriptStatus.standing]

omit [DecidableEq Worker] in
theorem DrainSound.machine {world : TranscriptWorld} {ledgers : Worker → DrainLedger}
    (sound : DrainSound world ledgers) : TranscriptMachine world ledgers where
  attempts := by
    intro row member
    have within := sound.pool.within _ _ (TranscriptTable.progress_of_mem member)
    exact ⟨within.bounded, standing_eq_failed.symm.trans within.failed_iff⟩
  held := by
    intro worker id held
    obtain ⟨item, here, processing⟩ := sound.pool.held worker id held
    obtain ⟨row, member, own, rfl⟩ := TranscriptTable.progress_eq_some.mp here
    exact ⟨row, member, own, standing_eq_processing.mp processing⟩
  apart := sound.pool.apart
  processed := sound.processed
  hashes := world.queue.distinctHashes

theorem DrainEffect.advances {world after : TranscriptWorld} {ledger left : DrainLedger}
    {request : TranscriptCall} (effect : DrainEffect world ledger request after left) :
    PoolAdvances world.queue.progress after.queue.progress := by
  cases effect with
  | captured fresh freshHash new =>
    rw [TranscriptWorld.withQueue, TranscriptTable.progress_insertRow, new]
    exact .add (Keyed.progressOf_eq_none.mpr fresh)
  | claimed =>
    rw [TranscriptWorld.withQueue, TranscriptTable.progress_claim]
    exact .claim (TranscriptTable.claim_pending _ _ _)
  | processed here processing =>
    rw [TranscriptWorld.withQueue, TranscriptTable.progress_markProcessed here processing]
    exact .settle here (Progress.moves_finish processing)
  | failed errorMessage here processing =>
    rw [TranscriptWorld.withQueue, TranscriptTable.progress_markFailed _ _ here processing]
    exact .settle here (Progress.moves_fail _ processing)
  | _ => exact .refl _

theorem transcriptMoves_of_step (governed : DrainGoverned hash cluster)
    (step : (transcriptSite hash).Step cluster event after) :
    TranscriptMoves cluster.world.queue after.world.queue := by
  cases step with
  | @call worker body request answer next ledger world here served =>
    obtain ⟨weather, served⟩ := served
    obtain ⟨-, allowed, -⟩ := governed.threads worker _ here
    rcases DrainEffect.of_served governed.holds
      (Site.ledgers_of_some (transcriptSite hash) here ▸ allowed) served with effect | ⟨-, rfl, -⟩
    · exact ⟨fun row member => effect.capture_kept member, effect.advances⟩
    · exact ⟨fun row member => ⟨row, member, rfl⟩, .refl _⟩
  | _ => exact ⟨fun row member => ⟨row, member, rfl⟩, .refl _⟩

/-- In every reachable state of any number of captures and drains the status machine of the
queue holds, and every step keeps to it. -/
theorem transcript_status_machine (reached : (transcriptRuns hash Worker).Reachable cluster) :
    TranscriptMachine cluster.world ((transcriptSite hash).ledgers cluster) ∧
      ∀ event after, (transcriptSite hash).Step cluster event after →
        TranscriptMoves cluster.world.queue after.world.queue :=
  have governed := drainGoverned_of_reachable reached
  ⟨governed.holds.machine, fun _ _ step => transcriptMoves_of_step governed step⟩

/-! A transcript that is captured and drained. -/

def sampleCapture : TranscriptIngestRequest :=
  ⟨"s1", some "/repo", .sessionEnd, "\x7b\"type\":\"user\"\x7d"⟩

/-- The connection holds and the extraction yields no drafts. -/
def fairWeather : TranscriptWeather := ⟨0, none, .unchanged _, List.replicate 16 1, .ok []⟩

def sampleHash (bytes : List UInt8) : Str :=
  if bytes = Str.utf8 sampleCapture.content then
    "df7283fd72d2a5eea9265219a908d789c894983322d197e8f82031e6e53ff7c0"
  else ""

def sampleEnqueue : DrainProgram (Option Unit) :=
  (Infrastructure.enqueue sampleHash sampleCapture).mapError .queue >>= fun _ => return some ()

def sampleDrain : TranscriptQueueDrain := .new 16

def sampleSweep : DrainProgram (Option Unit) := sampleDrain.drainOnce >>= fun _ => return some ()

def serveFairly (_ : Nat) (request : TranscriptCall) (world : TranscriptWorld) :
    TranscriptAnswer request × TranscriptWorld := serveTranscripts fairWeather request world

def capturedTranscripts : TranscriptWorld := (sampleEnqueue.run serveFairly 0 emptyTranscripts).world

def drainedTranscripts : TranscriptWorld := (sampleSweep.run serveFairly 0 capturedTranscripts).world

theorem reachable_captured :
    (transcriptRuns sampleHash Nat).Reachable (Site.quiet capturedTranscripts) := by
  have start : (transcriptRuns sampleHash Nat).Reachable (Site.quiet emptyTranscripts) :=
    .start ⟨emptyTranscripts, rfl, rfl⟩
  have stops : (sampleEnqueue.run serveFairly 0 emptyTranscripts).outcome ≠ .ok none := by decide +kernel
  exact Site.reachable_alone start 0 (TranscriptTask.enqueue sampleCapture) serveFairly
    (fun _ _ _ => ⟨fairWeather, rfl⟩) stops (fun _ => trivial) (fun _ _ _ => trivial) (fun _ => trivial)

theorem reachable_drained : (transcriptRuns sampleHash Nat).Reachable (Site.quiet drainedTranscripts) := by
  have stops : (sampleSweep.run serveFairly 0 capturedTranscripts).outcome ≠ .ok none := by decide +kernel
  exact Site.reachable_alone reachable_captured 0 (TranscriptTask.drainOnce sampleDrain) serveFairly
    (fun _ _ _ => ⟨fairWeather, rfl⟩) stops (fun _ => trivial) (fun _ _ _ => trivial) (fun _ => trivial)

theorem transcript_status_machine_drained :
    drainedTranscripts.queue.rows.map TranscriptRow.status = [.processed] ∧
      TranscriptMachine drainedTranscripts ((transcriptSite sampleHash).ledgers
        (Site.quiet drainedTranscripts : TranscriptCluster Nat)) :=
  ⟨by decide +kernel, (transcript_status_machine reachable_drained).1⟩

end SkillLayer.Maintenance

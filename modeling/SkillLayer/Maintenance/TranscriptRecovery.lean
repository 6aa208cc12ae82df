import SkillLayer.Maintenance.TranscriptSafety

/-! Rows that a drain claimed and can no longer let go of. -/

namespace SkillLayer.Maintenance

open Infrastructure

variable {Worker : Type} [DecidableEq Worker] {hash : List UInt8 → Str}

/-- A row in processing is held by a running drain, and where no program runs, every row
that is not settled is taken by the next claim that is large enough. -/
structure Recoverable (hash : List UInt8 → Str) (cluster : TranscriptCluster Worker) : Prop where
  attended : ∀ row ∈ cluster.world.queue.rows, row.status = .processing → ∃ worker thread,
    cluster.threads worker = some thread ∧ row.id ∈ ((transcriptSite hash).ledgers cluster worker).heldIds
  reclaimable : (∀ worker, cluster.threads worker = none) → ∀ row ∈ cluster.world.queue.rows,
    row.status ≠ .processed → row.status ≠ .failed → ∀ order (limit : Int),
      (cluster.world.queue.rows.length : Int) ≤ limit → row ∈ cluster.world.queue.claimed order limit

/-- A step that abandons no claimed row: no mark is refused, and a worker that dies holds
nothing. -/
def KeepsBatch (hash : List UInt8 → Str) (cluster : TranscriptCluster Worker) : TranscriptStep Worker → Prop
  | .call _ request answer => ¬ MarkRefused request answer
  | .crash worker => ((transcriptSite hash).ledgers cluster worker).held = []
  | _ => True

def keepingRuns (hash : List UInt8 → Str) (Worker : Type) [DecidableEq Worker] :
    Transitions (TranscriptCluster Worker) :=
  (transcriptSite hash).system (· = emptyTranscripts) (KeepsBatch hash)

/-- The invariant without abandoned rows: what is in processing is held. -/
structure DrainAttended (world : TranscriptWorld) (ledgers : Worker → DrainLedger) : Prop where
  sound : DrainSound world ledgers
  attended : PoolAttended world.queue.progress fun worker => (ledgers worker).heldIds

section Effect

variable {world after : TranscriptWorld} {ledgers : Worker → DrainLedger} {worker : Worker}
  {request : TranscriptCall} {left : DrainLedger}

theorem attended_effect
    (attended : PoolAttended world.queue.progress fun worker => (ledgers worker).heldIds)
    (allowed : (ledgers worker).Allows request)
    (effect : DrainEffect world (ledgers worker) request after left) :
    PoolAttended after.queue.progress fun other => (Function.update ledgers worker left other).heldIds := by
  rw [heldIds_update]
  have still (same : left.heldIds = (ledgers worker).heldIds) :
      Function.update (fun other => (ledgers other).heldIds) worker left.heldIds =
        fun other => (ledgers other).heldIds := by
    rw [same, Function.update_eq_self]
  cases effect with
  | nothing => rwa [still rfl]
  | captured fresh freshHash new =>
    rw [still rfl, TranscriptWorld.withQueue, TranscriptTable.progress_insertRow, new]
    exact attended.add
  | claimed limit order =>
    rw [TranscriptWorld.withQueue, TranscriptTable.progress_claim]
    have free : (ledgers worker).held = [] := allowed
    exact attended.claim (by rw [DrainLedger.heldIds, free, List.map_nil])
  | processed here processing =>
    obtain ⟨row, rest, -, -, held, settled⟩ := head_of_allowed allowed.1
    rw [TranscriptWorld.withQueue, TranscriptTable.progress_markProcessed here processing, settled]
    exact attended.settle held (by simp [Progress.finish])
  | failed errorMessage here processing =>
    obtain ⟨row, rest, -, -, held, settled⟩ := head_of_allowed allowed.1
    rw [TranscriptWorld.withQueue, TranscriptTable.progress_markFailed _ _ here processing, settled]
    refine attended.settle held ?_
    rw [Progress.fail]
    dsimp only
    split <;> simp
  | extracted => rwa [still rfl]
  | unextracted => rwa [still rfl]

theorem DrainAttended.served (holds : DrainAttended world ledgers) (allowed : (ledgers worker).Allows request)
    {weather : TranscriptWeather} {answer : TranscriptAnswer request}
    (served : serveTranscripts weather request world = (answer, after))
    (accepted : ¬ MarkRefused request answer) :
    DrainAttended after (Function.update ledgers worker ((ledgers worker).after request answer)) where
  sound := holds.sound.served allowed served
  attended := by
    rcases DrainEffect.of_served holds.sound allowed served with effect | ⟨refused, -⟩
    · exact attended_effect holds.attended allowed effect
    · exact absurd refused accepted

/-- A worker that holds nothing leaves nothing behind. -/
theorem DrainAttended.release (holds : DrainAttended world ledgers) (free : (ledgers worker).held = []) :
    DrainAttended world (Function.update ledgers worker .idle) where
  sound := holds.sound.release worker
  attended := by
    have same : DrainLedger.idle.heldIds = (ledgers worker).heldIds := by
      rw [DrainLedger.heldIds, DrainLedger.heldIds, free]
      rfl
    rw [heldIds_update, same, Function.update_eq_self]
    exact holds.attended

end Effect

variable {cluster after : TranscriptCluster Worker} {event : TranscriptStep Worker}

theorem attended_step (governed : Site.Governed (transcriptSite hash) EmptyHanded DrainAttended cluster)
    (keeps : KeepsBatch hash cluster event) (step : (transcriptSite hash).Step cluster event after) :
    Site.Governed (transcriptSite hash) EmptyHanded DrainAttended after := by
  refine governed.step (fun body task => TranscriptTask.obeys task) ?_ ?_ ?_ step
  · rintro worker request answer world rfl allowed ⟨weather, served⟩
    exact governed.holds.served allowed served keeps
  · exact fun worker outcome _ ended => governed.holds.release ended
  · rintro worker rfl
    exact governed.holds.release keeps

/-- In every run in which no mark is refused and no worker dies with claimed rows, every row
can be recovered. -/
theorem recoverable_of_keeping (reached : (keepingRuns hash Worker).Reachable cluster) :
    Recoverable hash cluster := by
  have governed : Site.Governed (transcriptSite hash) EmptyHanded DrainAttended cluster := by
    refine Site.governed_of_reachable (fun world new => ⟨new ▸ .start, ?_⟩)
      (fun _ _ _ governed keeps step => attended_step governed keeps step) reached
    rw [new]
    exact fun _ _ here _ => by cases here
  have held : ∀ row ∈ cluster.world.queue.rows, row.status = .processing → ∃ worker,
      row.id ∈ ((transcriptSite hash).ledgers cluster worker).heldIds := by
    intro row member processing
    refine governed.holds.attended _ _ (TranscriptTable.progress_of_mem member) ?_
    exact standing_eq_processing.mpr processing
  have idle (worker : Worker) (free : cluster.threads worker = none) (id : Uuid) :
      id ∉ ((transcriptSite hash).ledgers cluster worker).heldIds := by
    rw [Site.ledgers_of_none (transcriptSite hash) free]
    exact List.not_mem_nil
  constructor
  · intro row member processing
    obtain ⟨worker, inside⟩ := held row member processing
    cases thread : cluster.threads worker with
    | none => exact absurd inside (idle worker thread row.id)
    | some thread => exact ⟨worker, _, thread, inside⟩
  · intro stopped row member unprocessed unfailed order limit large
    refine TranscriptTable.claimed_of_pending member ?_ large
    cases status : row.status with
    | pending => rfl
    | processed => exact absurd status unprocessed
    | failed => exact absurd status unfailed
    | processing =>
      obtain ⟨worker, inside⟩ := held row member status
      exact absurd inside (idle worker (stopped worker) row.id)

theorem fair_accepts (calls : Nat) (request : TranscriptCall) (world : TranscriptWorld) :
    ¬ MarkRefused request (serveFairly calls request world).1 := by
  cases request with
  | markProcessed id => exact fun ⟨_, refused⟩ => by cases refused
  | markFailed id errorMessage maxAttempts => exact fun ⟨_, refused⟩ => by cases refused
  | _ => exact id

theorem captured_recoverable : Recoverable sampleHash (Site.quiet capturedTranscripts : TranscriptCluster Nat) ∧
    capturedTranscripts.queue.rows.map TranscriptRow.status = [.pending] := by
  have start : (keepingRuns sampleHash Nat).Reachable (Site.quiet emptyTranscripts) :=
    .start ⟨emptyTranscripts, rfl, rfl⟩
  have stops : (sampleEnqueue.run serveFairly 0 emptyTranscripts).outcome ≠ .ok none := by decide +kernel
  have reached : (keepingRuns sampleHash Nat).Reachable (Site.quiet capturedTranscripts) :=
    Site.reachable_alone start 0 (TranscriptTask.enqueue sampleCapture) serveFairly
      (fun _ _ _ => ⟨fairWeather, rfl⟩) stops (fun _ => trivial)
      (fun cluster calls request => fair_accepts calls request cluster.world) (fun _ => trivial)
  exact ⟨recoverable_of_keeping reached, by decide +kernel⟩

/-! A drain that dies right after its claim. -/

def claimedTranscripts : TranscriptWorld := (sampleSweep.advance serveFairly 1 0 capturedTranscripts).2

/-- A worker that dies after its claim leaves a row in processing that no claim takes. -/
theorem crash_strands : ¬ ∀ cluster : TranscriptCluster Nat,
    (transcriptRuns sampleHash Nat).Reachable cluster → Recoverable sampleHash cluster := by
  intro always
  have serves (calls : Nat) (request : TranscriptCall) (world : TranscriptWorld) :
      (transcriptSite sampleHash).serves request world (serveFairly calls request world).1
        (serveFairly calls request world).2 := ⟨fairWeather, rfl⟩
  obtain ⟨started, reached, world, drain, others⟩ := Site.exists_start reachable_captured 0 rfl
    (TranscriptTask.drainOnce sampleDrain)
  obtain ⟨left, claimed, reached, same, thread, others'⟩ :=
    Site.exists_advance reached drain serveFairly serves 1 0
  have crashed := reached.next ⟨.crash 0, trivial, Site.Step.crash⟩
  obtain ⟨-, reclaimable⟩ := always _ crashed
  have rows : claimedTranscripts.queue.rows.map TranscriptRow.status = [.processing] := by decide +kernel
  rw [world] at same
  obtain ⟨row, member, status⟩ := List.mem_map.mp (rows ▸ List.mem_singleton_self TranscriptStatus.processing)
  have inRows : row ∈ (claimed.set 0 none).world.queue.rows := by
    rw [Cluster.set_world, same]
    exact member
  have stopped (worker : Nat) : (claimed.set 0 none).threads worker = none := by
    by_cases first : worker = 0
    · rw [first]
      exact Cluster.set_threads_self _ _ _
    · rw [Cluster.set_threads_of_ne _ _ first, others' worker first, others worker first]
      rfl
  have taken := reclaimable stopped row inRows (by simp [status]) (by simp [status]) (.unchanged _)
    _ (le_refl _)
  have pending := (Keyed.mem_batch taken).2
  rw [TranscriptTable.claimable, status] at pending
  cases pending

end SkillLayer.Maintenance

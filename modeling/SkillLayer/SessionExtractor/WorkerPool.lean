import SkillLayer.Path
import SkillLayer.Roster
import SkillLayer.Runs
import SkillLayer.SessionExtractor.Orchestrator
import SkillLayer.SessionExtractor.Transcripts

/-! The extraction worker pool: a bounded queue, workers that take jobs from it, and the
wall-clock ceiling that sends a slow job back. -/

namespace SkillLayer.SessionExtractor

open Domain

/-! ### Outcomes, events and responses -/

inductive SessionExtractionError where
  | transcript (error : TranscriptError)
  | extraction (error : ExtractionError)
  | writer (error : WriterError)
  | eventPublication (message : Str)
  | orchestration (error : OrchestrationError)

def SessionExtractionError.reasonCode : SessionExtractionError → Str
  | .transcript (.invalidRoot _) => "invalid_transcript_root"
  | .transcript (.invalidReference _) => "invalid_transcript_ref"
  | .transcript (.readFailure _ _) => "transcript_read_failed"
  | .transcript (.invalidPayload _) => "invalid_transcript_payload"
  | .extraction (.providerUnavailable _) => "provider_unavailable"
  | .extraction _ => "extraction_failed"
  | .writer (.invalidRepoPath _) => "invalid_repo_path"
  | .writer (.scopeResolution _) => "scope_resolution_failed"
  | .writer (.writeFailure _ _) => "pending_draft_write_failed"
  | .writer (.frontmatterSerialization _) => "pending_frontmatter_serialization_failed"
  | .writer (.batchValidation _) => "pending_draft_batch_validation_failed"
  | .writer (.rejectedTombstonePresent _) => "rejected_tombstone_present"
  | .writer (.writeDenied _) => "write_denied"
  | .writer (.missingConfig _) => "writer_missing_config"
  | .eventPublication _ => "event_publication_failed"
  | .orchestration _ => "orchestration_failed"

/-- A failure comes with its message. -/
inductive ExtractionOutcome where
  | completed (draftPaths : List Path) (sourceSessionId : Str)
  | failed (error : SessionExtractionError) (message : Str)

/-- The path from its `.skills` component on, else the file name. -/
def relativeDraftPath (path : Path) : Str :=
  match path.dropWhile (· != ".skills".toList) with
  | [] => path.fileName.getD path.display
  | relative => Path.display relative

/-- The payloads of `extraction.completed` and `extraction.failed`. -/
inductive TerminalEvent where
  | completed (jobId provider sourceSessionId : Str) (draftCount : Nat) (draftPaths : List Str)
  | failed (jobId provider reasonCode error : Str)
deriving DecidableEq

structure ExtractSessionResponse where
  status : Str
  reasonCode : Option Str
  jobId : Option Str
  provider : Option Str
deriving DecidableEq

/-- A job as the pool handles it: the ticket stands for its response channel. -/
structure ExtractionJob where
  ticket : Nat
  jobId : Str
  provider : Str
  ceilingHits : Nat
deriving DecidableEq

def ceilingExhausted : Str := "extraction_timed_out_retries_exhausted"

namespace ExtractionJob

def terminalEvent (job : ExtractionJob) : ExtractionOutcome → TerminalEvent
  | .completed draftPaths sourceSessionId =>
    .completed job.jobId job.provider sourceSessionId draftPaths.length (draftPaths.map relativeDraftPath)
  | .failed error message => .failed job.jobId job.provider error.reasonCode message

def response (job : ExtractionJob) : ExtractionOutcome → ExtractSessionResponse
  | .completed _ _ => ⟨"completed".toList, none, some job.jobId, some job.provider⟩
  | .failed error _ => ⟨"failed".toList, some error.reasonCode, some job.jobId, some job.provider⟩

def ceilingExhaustedEvent (job : ExtractionJob) : TerminalEvent :=
  .failed job.jobId job.provider ceilingExhausted "extraction timed out: all retry attempts exhausted"

def ceilingExhaustedResponse (job : ExtractionJob) : ExtractSessionResponse :=
  ⟨"failed".toList, some ceilingExhausted, some job.jobId, some job.provider⟩

end ExtractionJob

/-! ### The pool -/

/-- Delays in milliseconds. -/
structure RetryPolicy where
  maxAttempts : Nat
  baseDelay : Nat
  maxDelay : Nat

structure ExtractionWorkerPoolConfig where
  queueDepth : Nat
  maxConcurrent : Nat
  timeout : Option Nat
  retryPolicy : RetryPolicy

def RetryPolicy.backoff (policy : RetryPolicy) (nextHits : Nat) : Nat :=
  min (policy.baseDelay * nextHits + nextHits * 7) policy.maxDelay

def ExtractionWorkerPoolConfig.capacity (config : ExtractionWorkerPoolConfig) : Nat := max config.queueDepth 1

/-- What a worker is doing: after its terminal event a job still has its response to come. -/
inductive WorkerPhase where
  | idle
  | running (job : ExtractionJob)
  | backingOff (job : ExtractionJob) (delay : Nat)
  | answering (ticket : Nat) (response : ExtractSessionResponse)
deriving DecidableEq

/-- The shared queue and the workers, and what is on record: accepted and rejected tickets, one
entry for each execution and each ceiling hit, terminal events and responses. -/
structure PoolState where
  queue : List ExtractionJob
  workers : List WorkerPhase
  submitted : Nat
  accepted : List Nat
  rejections : List (Nat × ExtractSessionResponse)
  executions : List Nat
  ceilings : List Nat
  events : List (Nat × TerminalEvent)
  responses : List (Nat × ExtractSessionResponse)

inductive PoolMove where
  | submit (jobId provider : Str)
  | take (worker : Nat)
  | settle (worker : Nat) (outcome : ExtractionOutcome)
  | ceiling (worker : Nat)
  | requeue (worker : Nat)
  | answer (worker : Nat)

namespace PoolState

variable (config : ExtractionWorkerPoolConfig) (state : PoolState)

def start : PoolState :=
  ⟨[], List.replicate (max config.maxConcurrent 1) .idle, 0, [], [], [], [], [], []⟩

/-- The workers hold both ends of the channel, so it is full or open and never closed. -/
def submit (jobId provider : Str) : PoolState :=
  if state.queue.length < config.capacity then
    { state with
      queue := state.queue ++ [⟨state.submitted, jobId, provider, 0⟩]
      submitted := state.submitted + 1
      accepted := state.submitted :: state.accepted }
  else
    { state with
      submitted := state.submitted + 1
      rejections := state.rejections ++
        [(state.submitted, ⟨"rejected", some "extraction_queue_full", none, some provider⟩)] }

def take (worker : Nat) : Option PoolState :=
  match state.queue with
  | [] => none
  | job :: rest =>
    if state.workers[worker]? = some .idle then
      some { state with
        queue := rest
        workers := state.workers.set worker (.running job)
        executions := job.ticket :: state.executions }
    else none

def runningJob (worker : Nat) : Option ExtractionJob :=
  match state.workers[worker]? with
  | some (.running job) => some job
  | _ => none

def waitingJob (worker : Nat) : Option ExtractionJob :=
  match state.workers[worker]? with
  | some (.backingOff job _) => some job
  | _ => none

/-- The terminal event is published; the response follows. -/
def report (worker : Nat) (job : ExtractionJob) (event : TerminalEvent) (response : ExtractSessionResponse) :
    PoolState :=
  { state with
    workers := state.workers.set worker (.answering job.ticket response)
    events := state.events ++ [(job.ticket, event)] }

def settle (worker : Nat) (outcome : ExtractionOutcome) : Option PoolState :=
  (state.runningJob worker).map fun job => state.report worker job (job.terminalEvent outcome) (job.response outcome)

def giveUp (worker : Nat) (job : ExtractionJob) : PoolState :=
  state.report worker job job.ceilingExhaustedEvent job.ceilingExhaustedResponse

def hitCeiling (job : ExtractionJob) : PoolState := { state with ceilings := job.ticket :: state.ceilings }

def ceiling (worker : Nat) : Option PoolState :=
  if config.timeout.isSome then
    (state.runningJob worker).map fun job =>
      let nextHits := job.ceilingHits + 1
      if nextHits < config.retryPolicy.maxAttempts then
        { state.hitCeiling job with
          workers := state.workers.set worker (.backingOff job (config.retryPolicy.backoff nextHits)) }
      else (state.hitCeiling job).giveUp worker job
  else none

/-- The end of the backoff: a full queue fails the job. -/
def requeue (worker : Nat) : Option PoolState :=
  (state.waitingJob worker).map fun job =>
    if state.queue.length < config.capacity then
      { state with
        queue := state.queue ++ [{ job with ceilingHits := job.ceilingHits + 1 }]
        workers := state.workers.set worker .idle }
    else state.giveUp worker job

def answer (worker : Nat) : Option PoolState :=
  match state.workers[worker]? with
  | some (.answering ticket response) =>
    some { state with
      workers := state.workers.set worker .idle
      responses := state.responses ++ [(ticket, response)] }
  | _ => none

def step : PoolMove → Option PoolState
  | .submit jobId provider => some (state.submit config jobId provider)
  | .take worker => state.take worker
  | .settle worker outcome => state.settle worker outcome
  | .ceiling worker => state.ceiling config worker
  | .requeue worker => state.requeue config worker
  | .answer worker => state.answer worker

/-- Every interleaving of the moves. -/
def runs : Transitions PoolState where
  initial state := state = start config
  step state after := ∃ move, state.step config move = some after

end PoolState

end SkillLayer.SessionExtractor

import Mathlib.Algebra.Group.Nat.Defs
import Mathlib.Data.List.Nodup
import Mathlib.Logic.Function.Basic
import SkillLayer.Runs
import SkillLayer.Text

/-! The queue of full rebuilds behind the admin tools: calls that accept jobs, the runner task that
works them off, and what a status query answers while they interleave. -/

namespace SkillLayer.Admin

inductive AdminToolError where
  | unavailable (reason : Str)
  | failed (reason : Str)
deriving DecidableEq

structure GraphRebuildSnapshot where
  graphVersion : Int
  skillsCount : Nat
  communitiesCount : Nat
deriving DecidableEq

abbrev RebuildResult := Except AdminToolError GraphRebuildSnapshot

inductive RebuildLifecycleStatus where
  | queued
  | running
  | succeeded
  | failed
deriving DecidableEq

def RebuildLifecycleStatus.asStr : RebuildLifecycleStatus → Str
  | .queued => "queued"
  | .running => "running"
  | .succeeded => "succeeded"
  | .failed => "failed"

structure RebuildJobRecord where
  jobId : Str
  lifecycleStatus : RebuildLifecycleStatus
  reasonCode : Option Str
  graphVersion : Option Int
  skillsCount : Option Nat
  communitiesCount : Option Nat
deriving DecidableEq

/-- The payload of a status query. -/
structure RebuildJobStatus where
  jobId : Str
  lifecycleStatus : Str
  reasonCode : Option Str
  graphVersion : Option Int
  skillsCount : Option Nat
  communitiesCount : Option Nat
deriving DecidableEq

namespace RebuildJobRecord

def queued (jobId : Str) : RebuildJobRecord := ⟨jobId, .queued, none, none, none, none⟩

def toStatusPayload (job : RebuildJobRecord) : RebuildJobStatus :=
  ⟨job.jobId, job.lifecycleStatus.asStr, job.reasonCode, job.graphVersion, job.skillsCount, job.communitiesCount⟩

/-- The loop marks the job it has popped. -/
def start (job : RebuildJobRecord) : RebuildJobRecord :=
  { job with lifecycleStatus := .running, reasonCode := none }

/-- The loop writes what the trigger has answered. -/
def finish (job : RebuildJobRecord) : RebuildResult → RebuildJobRecord
  | .ok snapshot =>
    { job with
      lifecycleStatus := .succeeded
      reasonCode := none
      graphVersion := some snapshot.graphVersion
      skillsCount := some snapshot.skillsCount
      communitiesCount := some snapshot.communitiesCount }
  | .error (.unavailable _) =>
    { job with lifecycleStatus := .failed, reasonCode := some ("rebuild_unavailable" : Str) }
  | .error (.failed _) =>
    { job with lifecycleStatus := .failed, reasonCode := some ("rebuild_failed" : Str) }

end RebuildJobRecord

/-! ### What is done under the lock -/

structure RebuildQueueState where
  jobs : Str → Option RebuildJobRecord
  queue : List Str
  runnerActive : Bool

namespace RebuildQueueState

def empty : RebuildQueueState := ⟨fun _ => none, [], false⟩

/-- A job is accepted; with the position that is answered, and whether a runner is spawned. -/
def enqueueRebuild (state : RebuildQueueState) (jobId : Str) : RebuildQueueState × Nat × Bool :=
  (⟨Function.update state.jobs jobId (some (.queued jobId)), state.queue ++ [jobId], true⟩,
    state.queue.length, !state.runnerActive)

/-- The head of the loop: the next job, or the end of the runner. -/
def popJob (state : RebuildQueueState) : RebuildQueueState × Option Str :=
  match state.queue with
  | [] => ({ state with runnerActive := false }, none)
  | jobId :: rest =>
    ({ state with
      jobs := Function.update state.jobs jobId ((state.jobs jobId).map RebuildJobRecord.start)
      queue := rest }, some jobId)

def recordResult (state : RebuildQueueState) (jobId : Str) (result : RebuildResult) : RebuildQueueState :=
  { state with jobs := Function.update state.jobs jobId ((state.jobs jobId).map fun job => job.finish result) }

def statusFor (state : RebuildQueueState) (jobId : Str) : Option RebuildJobStatus :=
  (state.jobs jobId).map RebuildJobRecord.toStatusPayload

end RebuildQueueState

/-! ### The tools -/

structure RebuildGraphResponse where
  status : Str
  reasonCode : Option Str
  jobId : Option Str
  queuePosition : Option Nat
  graphVersion : Option Int
  skillsCount : Option Nat
  communitiesCount : Option Nat
deriving DecidableEq

structure RebuildGraphStatusResponse where
  status : Str
  reasonCode : Option Str
  job : Option RebuildJobStatus
deriving DecidableEq

/-- The id of the job that drew this number. -/
def rebuildJobId (sequence : Nat) : Str := ("rebuild-job-" : Str) ++ Str.ofNat sequence

/-- The answer of `rebuild_graph` to an accepted job. -/
def rebuildGraph (jobId : Str) (queuePosition : Nat) : RebuildGraphResponse :=
  ⟨"accepted", none, some jobId, some queuePosition, none, none, none⟩

def rebuildGraphStatus (state : RebuildQueueState) (jobId : Str) : RebuildGraphStatusResponse :=
  match state.statusFor jobId with
  | none => ⟨"no_match", some ("job_not_found" : Str), none⟩
  | some job => ⟨"ok", none, some job⟩

/-! ### The calls and the runner, in any order -/

/-- Where a runner task stands in `run_jobs_until_empty`: before the next job, inside the trigger,
or with the trigger's answer before the lock. -/
inductive Runner where
  | looping
  | triggering (jobId : Str)
  | answered (jobId : Str) (result : RebuildResult)
deriving DecidableEq

namespace Runner

/-- The job that the runner has popped and not settled. -/
def job : Runner → Option Str
  | .looping => none
  | .triggering jobId => some jobId
  | .answered jobId _ => some jobId

end Runner

/-- The shared counter and state, the calls that have drawn an id and wait for the lock, and the runner
tasks. The rest is the record of the run: how many ids were drawn, the responses in the order of
acceptance, the jobs whose rebuild was triggered, what each rebuild came to, the jobs whose trigger panicked. -/
structure Rebuilds where
  nextJobSequence : Nat
  state : RebuildQueueState
  callers : List Str
  runners : List Runner
  drawn : Nat
  responses : List RebuildGraphResponse
  triggered : List Str
  settled : List (Str × RebuildResult)
  panicked : List Str

namespace Rebuilds

/-- `RebuildJobQueue::new` -/
def new : Rebuilds := ⟨1, .empty, [], [], 0, [], [], [], []⟩

/-- Who takes the step: a call of a tool, the runner, or a panic inside the trigger. -/
inductive Mover where
  | caller
  | runner
  | panic
deriving DecidableEq

/-- A call draws its id. -/
def draw (system : Rebuilds) : Rebuilds :=
  { system with
    nextJobSequence := (system.nextJobSequence + 1) % 2 ^ 64
    callers := rebuildJobId system.nextJobSequence :: system.callers
    drawn := system.drawn + 1 }

/-- A call takes the lock with its id and answers. -/
def accept (system : Rebuilds) (jobId : Str) (callers : List Str) : Rebuilds :=
  let enqueued := system.state.enqueueRebuild jobId
  { system with
    state := enqueued.1
    callers := callers
    runners := if enqueued.2.2 then .looping :: system.runners else system.runners
    responses := system.responses ++ [rebuildGraph jobId enqueued.2.1] }

/-- A runner takes the lock for its next job; `runners` are the other ones. -/
def next (system : Rebuilds) (runners : List Runner) : Rebuilds :=
  match system.state.popJob with
  | (state, none) => { system with state := state, runners := runners }
  | (state, some jobId) =>
    { system with
      state := state
      runners := .triggering jobId :: runners
      triggered := system.triggered ++ [jobId] }

/-- The trigger answers. -/
def answer (system : Rebuilds) (jobId : Str) (result : RebuildResult) (runners : List Runner) : Rebuilds :=
  { system with runners := .answered jobId result :: runners }

/-- A runner takes the lock with the trigger's answer. -/
def settle (system : Rebuilds) (jobId : Str) (result : RebuildResult) (runners : List Runner) : Rebuilds :=
  { system with
    state := system.state.recordResult jobId result
    runners := .looping :: runners
    settled := system.settled ++ [(jobId, result)] }

/-- The trigger panics, and the runner task ends as it is. -/
def panic (system : Rebuilds) (jobId : Str) (runners : List Runner) : Rebuilds :=
  { system with runners := runners, panicked := system.panicked ++ [jobId] }

open scoped List in
inductive Step : Mover → Rebuilds → Rebuilds → Prop where
  | draw {system : Rebuilds} : Step .caller system system.draw
  | accept {system : Rebuilds} (jobId : Str) (callers : List Str)
      (waits : system.callers ~ jobId :: callers) : Step .caller system (system.accept jobId callers)
  | abandon {system : Rebuilds} (jobId : Str) (callers : List Str)
      (waits : system.callers ~ jobId :: callers) : Step .caller system { system with callers := callers }
  | next {system : Rebuilds} (runners : List Runner)
      (here : system.runners ~ .looping :: runners) : Step .runner system (system.next runners)
  | answer {system : Rebuilds} (jobId : Str) (result : RebuildResult) (runners : List Runner)
      (here : system.runners ~ .triggering jobId :: runners) :
      Step .runner system (system.answer jobId result runners)
  | settle {system : Rebuilds} (jobId : Str) (result : RebuildResult) (runners : List Runner)
      (here : system.runners ~ .answered jobId result :: runners) :
      Step .runner system (system.settle jobId result runners)
  | panic {system : Rebuilds} (jobId : Str) (runners : List Runner)
      (here : system.runners ~ .triggering jobId :: runners) : Step .panic system (system.panic jobId runners)

def runs : Transitions Rebuilds where
  initial system := system = new
  step before after := ∃ mover, Step mover before after

/-- The jobs in the order of acceptance. -/
def accepted (system : Rebuilds) : List Str := system.responses.filterMap RebuildGraphResponse.jobId

/-- The job whose rebuild goes on. -/
def current (system : Rebuilds) : List Str := system.runners.filterMap Runner.job

end Rebuilds
end SkillLayer.Admin

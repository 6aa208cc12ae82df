import SkillLayer.SessionExtractor.WorkerPool

/-! What becomes of an accepted job: where it is, how often it runs, and what is said of it. -/

namespace SkillLayer.SessionExtractor

/-! ### Stages -/

inductive JobStage where
  | queued (ceilingHits : Nat)
  | running (ceilingHits : Nat)
  | backingOff (ceilingHits : Nat)
  | reported (event : TerminalEvent)

def ExtractionJob.queuedEntry (job : ExtractionJob) : Nat × JobStage := (job.ticket, .queued job.ceilingHits)

def WorkerPhase.heldEntry : WorkerPhase → Option (Nat × JobStage)
  | .running job => some (job.ticket, .running job.ceilingHits)
  | .backingOff job _ => some (job.ticket, .backingOff job.ceilingHits)
  | _ => none

def WorkerPhase.answering? : WorkerPhase → Option Nat
  | .answering ticket _ => some ticket
  | _ => none

def reportedEntry (entry : Nat × TerminalEvent) : Nat × JobStage := (entry.1, .reported entry.2)

def entriesAt (workers : List WorkerPhase) (queue : List ExtractionJob) (events : List (Nat × TerminalEvent)) :
    List (Nat × JobStage) :=
  workers.filterMap WorkerPhase.heldEntry ++ (queue.map ExtractionJob.queuedEntry ++ events.map reportedEntry)

namespace PoolState

variable (state : PoolState)

/-- Where each job stands. -/
def entries : List (Nat × JobStage) := entriesAt state.workers state.queue state.events

def answering : List Nat := state.workers.filterMap WorkerPhase.answering?

end PoolState

/-- What the record of a job says at each stage; `Allowed` is what is asked of a terminal event
that comes after so many ceiling hits. -/
def JobStage.Fits (Allowed : TerminalEvent → Nat → Prop) (maxAttempts executions ceilings : Nat) :
    JobStage → Prop
  | .queued hits => executions = hits ∧ ceilings = hits ∧ (hits = 0 ∨ hits < maxAttempts)
  | .running hits => executions = hits + 1 ∧ ceilings = hits ∧ (hits = 0 ∨ hits < maxAttempts)
  | .backingOff hits => executions = hits + 1 ∧ ceilings = hits + 1 ∧ hits + 1 < maxAttempts
  | .reported event => executions ≤ max maxAttempts 1 ∧ Allowed event ceilings

variable (config : ExtractionWorkerPoolConfig) (Allowed : TerminalEvent → Nat → Prop)

def PoolState.FitsRecord (state : PoolState) (ticket : Nat) (stage : JobStage) : Prop :=
  stage.Fits Allowed config.retryPolicy.maxAttempts (state.executions.count ticket) (state.ceilings.count ticket)

/-- The invariant of the pool. -/
structure PoolRecord (state : PoolState) : Prop where
  roster : Roster state.accepted state.entries (state.FitsRecord config Allowed)
  numbered : ∀ ticket ∈ state.accepted, ticket < state.submitted
  executed : ∀ ticket ∈ state.executions, ticket ∈ state.accepted
  slowed : ∀ ticket ∈ state.ceilings, ticket ∈ state.accepted
  answered : (state.responses.map Prod.fst ++ state.answering).Perm (state.events.map Prod.fst)
  rejected : ∀ entry ∈ state.rejections, entry.1 < state.submitted ∧ entry.1 ∉ state.accepted

/-- A step that reports ceiling exhaustion does so where it is allowed. -/
def PoolMove.Lenient (state : PoolState) (move : PoolMove) : Prop :=
  ∀ worker, move = .requeue worker → state.queue.length < config.capacity ∨
    ∀ job : ExtractionJob, ∀ hits, Allowed job.ceilingExhaustedEvent hits

/-- Outcomes of executions are always allowed, and exhaustion after as many ceiling hits as
there are attempts. -/
structure Permits : Prop where
  outcome : ∀ (job : ExtractionJob) outcome hits, Allowed (job.terminalEvent outcome) hits
  exhausted : ∀ job : ExtractionJob, Allowed job.ceilingExhaustedEvent (max config.retryPolicy.maxAttempts 1)

variable {config Allowed} {state after : PoolState}

namespace PoolState

theorem runningJob_eq_some {worker : Nat} {job : ExtractionJob} :
    state.runningJob worker = some job ↔ state.workers[worker]? = some (.running job) := by
  unfold runningJob
  split <;> simp_all

theorem waitingJob_eq_some {worker : Nat} {job : ExtractionJob} :
    state.waitingJob worker = some job ↔ ∃ delay, state.workers[worker]? = some (.backingOff job delay) := by
  unfold waitingJob
  split <;> simp_all

end PoolState

theorem lt_length_of_getElem? {Item : Type} {items : List Item} {position : Nat} {item : Item}
    (found : items[position]? = some item) : position < items.length :=
  (List.getElem?_eq_some_iff.mp found).1

section Entries

variable {workers : List WorkerPhase} {queue : List ExtractionJob} {events : List (Nat × TerminalEvent)}
  {worker : Nat} {phase : WorkerPhase} {entry : Nat × JobStage}

theorem entriesAt_held (found : workers[worker]? = some phase) (held : phase.heldEntry = some entry) :
    (entriesAt workers queue events).Perm (entry :: entriesAt (workers.eraseIdx worker) queue events) := by
  have front := (filterMap_perm_of_getElem? WorkerPhase.heldEntry found).append_right
    (queue.map ExtractionJob.queuedEntry ++ events.map reportedEntry)
  rw [held] at front
  exact front

theorem entriesAt_free (found : workers[worker]? = some phase) (free : phase.heldEntry = none) :
    (entriesAt workers queue events).Perm (entriesAt (workers.eraseIdx worker) queue events) := by
  have front := (filterMap_perm_of_getElem? WorkerPhase.heldEntry found).append_right
    (queue.map ExtractionJob.queuedEntry ++ events.map reportedEntry)
  rw [free] at front
  exact front

theorem entriesAt_set_held (found : workers[worker]? = some phase) {next : WorkerPhase}
    (held : next.heldEntry = some entry) :
    (entriesAt (workers.set worker next) queue events).Perm
      (entry :: entriesAt (workers.eraseIdx worker) queue events) := by
  have front := (filterMap_set_perm WorkerPhase.heldEntry (lt_length_of_getElem? found) next).append_right
    (queue.map ExtractionJob.queuedEntry ++ events.map reportedEntry)
  rw [held] at front
  exact front

theorem entriesAt_set_free (found : workers[worker]? = some phase) {next : WorkerPhase}
    (free : next.heldEntry = none) :
    (entriesAt (workers.set worker next) queue events).Perm
      (entriesAt (workers.eraseIdx worker) queue events) := by
  have front := (filterMap_set_perm WorkerPhase.heldEntry (lt_length_of_getElem? found) next).append_right
    (queue.map ExtractionJob.queuedEntry ++ events.map reportedEntry)
  rw [free] at front
  exact front

theorem entriesAt_enqueue (job : ExtractionJob) :
    (entriesAt workers (queue ++ [job]) events).Perm (job.queuedEntry :: entriesAt workers queue events) := by
  rw [entriesAt, entriesAt, List.map_append, List.map_singleton, List.append_assoc, ← List.append_assoc,
    List.singleton_append, ← List.append_assoc]
  exact List.perm_middle

theorem entriesAt_dequeue (job : ExtractionJob) :
    (entriesAt workers (job :: queue) events).Perm (job.queuedEntry :: entriesAt workers queue events) :=
  List.perm_middle

theorem entriesAt_report (ticket : Nat) (event : TerminalEvent) :
    (entriesAt workers queue (events ++ [(ticket, event)])).Perm
      ((ticket, .reported event) :: entriesAt workers queue events) := by
  have front := List.perm_append_singleton (reportedEntry (ticket, event)) (entriesAt workers queue events)
  rw [entriesAt, List.append_assoc, List.append_assoc] at front
  rw [entriesAt, List.map_append]
  exact front

theorem WorkerPhase.answering?_of_held (held : phase.heldEntry = some entry) : phase.answering? = none := by
  cases phase with
  | idle => cases held
  | running => rfl
  | backingOff => rfl
  | answering => cases held

end Entries

namespace PoolRecord

variable {worker : Nat} {phase : WorkerPhase} {job : ExtractionJob} {stage : JobStage}

theorem fits_of_held (record : PoolRecord config Allowed state) (found : state.workers[worker]? = some phase)
    (held : phase.heldEntry = some (job.ticket, stage)) : state.FitsRecord config Allowed job.ticket stage :=
  record.roster.fits_of_perm (entriesAt_held found held)

theorem accepted_of_held (record : PoolRecord config Allowed state) (found : state.workers[worker]? = some phase)
    (held : phase.heldEntry = some (job.ticket, stage)) : job.ticket ∈ state.accepted :=
  record.roster.known_of_mem ((entriesAt_held found held).mem_iff.mpr List.mem_cons_self)

/-- A held job that is not reported leaves the responses as they are. -/
theorem answered_set (record : PoolRecord config Allowed state) (found : state.workers[worker]? = some phase)
    (quiet : phase.answering? = none) {next : WorkerPhase} (quietNext : next.answering? = none) :
    (state.responses.map Prod.fst ++ (state.workers.set worker next).filterMap WorkerPhase.answering?).Perm
      (state.events.map Prod.fst) := by
  have was := filterMap_perm_of_getElem? WorkerPhase.answering? found
  have now := filterMap_set_perm WorkerPhase.answering? (lt_length_of_getElem? found) next
  rw [quiet] at was
  rw [quietNext] at now
  exact ((now.trans was.symm).append_left _).trans record.answered

/-- The terminal event of a held job, after a possible ceiling hit. -/
theorem report (record : PoolRecord config Allowed state) (found : state.workers[worker]? = some phase)
    (held : phase.heldEntry = some (job.ticket, stage)) {event : TerminalEvent} (response : ExtractSessionResponse)
    {ceilings : List Nat} (others : ∀ other, other ≠ job.ticket → ceilings.count other = state.ceilings.count other)
    (slowed : ∀ ticket ∈ ceilings, ticket ∈ state.accepted)
    (bounded : state.executions.count job.ticket ≤ max config.retryPolicy.maxAttempts 1)
    (allowed : Allowed event (ceilings.count job.ticket)) :
    PoolRecord config Allowed ({ state with ceilings := ceilings }.report worker job event response) where
  roster := by
    have now : ({ state with ceilings := ceilings }.report worker job event response).entries.Perm
        ((job.ticket, .reported event) :: entriesAt (state.workers.eraseIdx worker) state.queue state.events) :=
      (entriesAt_set_free found rfl).trans (entriesAt_report _ _)
    refine record.roster.move (entriesAt_held found held) now ?_ ⟨bounded, allowed⟩
    intro other different stage fits
    change stage.Fits Allowed _ _ (ceilings.count other)
    rw [others other different]
    exact fits
  numbered := record.numbered
  executed := record.executed
  slowed := slowed
  answered := by
    have was := filterMap_perm_of_getElem? WorkerPhase.answering? found
    have now := filterMap_set_perm WorkerPhase.answering? (lt_length_of_getElem? found)
      (.answering job.ticket response)
    rw [WorkerPhase.answering?_of_held held] at was
    have answering : (state.responses.map Prod.fst ++
        (state.workers.set worker (.answering job.ticket response)).filterMap WorkerPhase.answering?).Perm
        (job.ticket :: (state.responses.map Prod.fst ++ state.answering)) :=
      ((now.trans (was.symm.cons _)).append_left _).trans List.perm_middle
    refine (answering.trans (record.answered.cons _)).trans ?_
    rw [PoolState.report, List.map_append]
    exact (List.perm_append_singleton _ _).symm
  rejected := record.rejected

/-! ### One lemma for each move -/

theorem start (config : ExtractionWorkerPoolConfig) : PoolRecord config Allowed (PoolState.start config) where
  roster := by
    have none : (PoolState.start config).entries = [] := by
      simp [PoolState.entries, entriesAt, PoolState.start, WorkerPhase.heldEntry]
    rw [none]
    exact ⟨.nil, .nil, List.forall_mem_nil _⟩
  numbered := List.forall_mem_nil _
  executed := List.forall_mem_nil _
  slowed := List.forall_mem_nil _
  answered := by simp [PoolState.start, PoolState.answering, WorkerPhase.answering?]
  rejected := List.forall_mem_nil _

theorem submit (record : PoolRecord config Allowed state) (jobId provider : Str) :
    PoolRecord config Allowed (state.submit config jobId provider) := by
  have fresh : state.submitted ∉ state.accepted := fun member => Nat.lt_irrefl _ (record.numbered _ member)
  unfold PoolState.submit
  split
  · exact
      { roster := by
          have unexecuted := List.count_eq_zero.mpr fun member => fresh (record.executed _ member)
          have unslowed := List.count_eq_zero.mpr fun member => fresh (record.slowed _ member)
          refine record.roster.enrol fresh (entriesAt_enqueue ⟨state.submitted, jobId, provider, 0⟩)
            (fun _ _ _ fits => fits) ?_
          exact ⟨unexecuted, unslowed, .inl rfl⟩
        numbered := by
          intro ticket member
          rcases List.mem_cons.mp member with rfl | old
          · exact Nat.lt_succ_self _
          · exact Nat.lt_succ_of_lt (record.numbered ticket old)
        executed := fun ticket member => List.mem_cons_of_mem _ (record.executed ticket member)
        slowed := fun ticket member => List.mem_cons_of_mem _ (record.slowed ticket member)
        answered := record.answered
        rejected := by
          intro entry member
          obtain ⟨earlier, outside⟩ := record.rejected entry member
          exact ⟨Nat.lt_succ_of_lt earlier, List.not_mem_cons_of_ne_of_not_mem (Nat.ne_of_lt earlier) outside⟩ }
  · exact
      { roster := record.roster
        numbered := fun ticket member => Nat.lt_succ_of_lt (record.numbered ticket member)
        executed := record.executed
        slowed := record.slowed
        answered := record.answered
        rejected := by
          intro entry member
          rcases List.mem_append.mp member with old | new
          · obtain ⟨earlier, outside⟩ := record.rejected entry old
            exact ⟨Nat.lt_succ_of_lt earlier, outside⟩
          · rw [List.mem_singleton.mp new]
            exact ⟨Nat.lt_succ_self _, fresh⟩ }

theorem take (record : PoolRecord config Allowed state) (taken : state.take worker = some after) :
    PoolRecord config Allowed after := by
  unfold PoolState.take at taken
  split at taken
  · cases taken
  · rename_i job rest queued
    split at taken
    · rename_i found
      obtain rfl := Option.some.inj taken
      have was : state.entries.Perm
          ((job.ticket, .queued job.ceilingHits) :: entriesAt (state.workers.eraseIdx worker) rest state.events) := by
        rw [PoolState.entries, queued]
        exact (entriesAt_dequeue job).trans ((entriesAt_free found rfl).cons _)
      obtain ⟨executions, ceilings, below⟩ := record.roster.fits_of_perm was
      have known := record.roster.known_of_mem (was.mem_iff.mpr List.mem_cons_self)
      exact
        { roster := by
            refine record.roster.move was (entriesAt_set_held found rfl) ?_
              ⟨by rw [List.count_cons_self, executions], ceilings, below⟩
            intro other different stage fits
            change stage.Fits Allowed _ ((job.ticket :: state.executions).count other) _
            rw [List.count_cons_of_ne (Ne.symm different)]
            exact fits
          numbered := record.numbered
          executed := List.forall_mem_cons.mpr ⟨known, record.executed⟩
          slowed := record.slowed
          answered := record.answered_set found rfl rfl
          rejected := record.rejected }
    · cases taken

theorem settle (permits : Permits config Allowed) (record : PoolRecord config Allowed state)
    {outcome : ExtractionOutcome} (settled : state.settle worker outcome = some after) :
    PoolRecord config Allowed after := by
  obtain ⟨job, running, rfl⟩ := Option.map_eq_some_iff.mp settled
  have found := PoolState.runningJob_eq_some.mp running
  obtain ⟨executions, _, below⟩ := record.fits_of_held found rfl
  refine record.report found rfl _ (fun _ _ => rfl) record.slowed ?_ (permits.outcome job outcome _)
  rw [executions]
  omega

theorem ceiling (permits : Permits config Allowed) (record : PoolRecord config Allowed state)
    (hit : state.ceiling config worker = some after) : PoolRecord config Allowed after := by
  unfold PoolState.ceiling at hit
  split at hit
  · obtain ⟨job, running, rfl⟩ := Option.map_eq_some_iff.mp hit
    have found := PoolState.runningJob_eq_some.mp running
    obtain ⟨executions, ceilings, below⟩ := record.fits_of_held found rfl
    have known := record.accepted_of_held found rfl
    have slowed : ∀ ticket ∈ job.ticket :: state.ceilings, ticket ∈ state.accepted :=
      List.forall_mem_cons.mpr ⟨known, record.slowed⟩
    have others (other : Nat) (different : other ≠ job.ticket) :
        (job.ticket :: state.ceilings).count other = state.ceilings.count other :=
      List.count_cons_of_ne (Ne.symm different)
    have hits : (job.ticket :: state.ceilings).count job.ticket = job.ceilingHits + 1 := by
      rw [List.count_cons_self, ceilings]
    dsimp only
    split
    · rename_i retries
      exact
        { roster := by
            refine record.roster.move (entriesAt_held found rfl) (entriesAt_set_held found rfl) ?_
              ⟨executions, hits, retries⟩
            intro other different stage fits
            change stage.Fits Allowed _ _ ((job.ticket :: state.ceilings).count other)
            rw [others other different]
            exact fits
          numbered := record.numbered
          executed := record.executed
          slowed := slowed
          answered := record.answered_set found rfl rfl
          rejected := record.rejected }
    · rename_i spent
      refine record.report found rfl _ others slowed (by omega) ?_
      rw [hits, show job.ceilingHits + 1 = max config.retryPolicy.maxAttempts 1 by omega]
      exact permits.exhausted job
  · cases hit

theorem requeue (record : PoolRecord config Allowed state)
    (room : state.queue.length < config.capacity ∨ ∀ job : ExtractionJob, ∀ hits, Allowed job.ceilingExhaustedEvent hits)
    (requeued : state.requeue config worker = some after) : PoolRecord config Allowed after := by
  obtain ⟨job, waiting, rfl⟩ := Option.map_eq_some_iff.mp requeued
  obtain ⟨delay, found⟩ := PoolState.waitingJob_eq_some.mp waiting
  obtain ⟨executions, ceilings, below⟩ := record.fits_of_held found rfl
  split
  · exact
      { roster := record.roster.move (entriesAt_held found rfl)
          ((entriesAt_enqueue { job with ceilingHits := job.ceilingHits + 1 }).trans
            ((entriesAt_set_free found rfl).cons _))
          (fun _ _ _ fits => fits) ⟨executions, ceilings, .inr below⟩
        numbered := record.numbered
        executed := record.executed
        slowed := record.slowed
        answered := record.answered_set found rfl rfl
        rejected := record.rejected }
  · rename_i full
    refine record.report found rfl _ (fun _ _ => rfl) record.slowed (by omega) ?_
    exact room.resolve_left full job _

theorem answer (record : PoolRecord config Allowed state) (answered : state.answer worker = some after) :
    PoolRecord config Allowed after := by
  unfold PoolState.answer at answered
  split at answered
  · rename_i ticket response found
    obtain rfl := Option.some.inj answered
    exact
      { roster := record.roster.relist ((entriesAt_set_free found rfl).trans (entriesAt_free found rfl).symm)
        numbered := record.numbered
        executed := record.executed
        slowed := record.slowed
        answered := by
          have was := filterMap_perm_of_getElem? WorkerPhase.answering? found
          have now := filterMap_set_perm WorkerPhase.answering? (lt_length_of_getElem? found) WorkerPhase.idle
          refine List.Perm.trans ?_ record.answered
          rw [List.map_append, List.append_assoc]
          exact (now.cons ticket |>.trans was.symm).append_left _
        rejected := record.rejected }
  · cases answered

/-- Every move keeps the invariant. -/
theorem step (permits : Permits config Allowed) (record : PoolRecord config Allowed state) {move : PoolMove}
    (lenient : move.Lenient config Allowed state) (stepped : state.step config move = some after) :
    PoolRecord config Allowed after := by
  cases move with
  | submit jobId provider =>
    obtain rfl := Option.some.inj stepped
    exact record.submit jobId provider
  | take worker => exact record.take stepped
  | settle worker outcome => exact record.settle permits stepped
  | ceiling worker => exact record.ceiling permits stepped
  | requeue worker => exact record.requeue (lenient worker rfl) stepped
  | answer worker => exact record.answer stepped

end PoolRecord

/-! ### Every job is settled once -/

def WorkerPhase.heldTicket (phase : WorkerPhase) : Option Nat := phase.heldEntry.map Prod.fst

namespace PoolState

variable (state : PoolState)

def queuedTickets : List Nat := state.queue.map ExtractionJob.ticket

def heldTickets : List Nat := state.workers.filterMap WorkerPhase.heldTicket

def reportedTickets : List Nat := state.events.map Prod.fst

theorem map_fst_entries :
    state.entries.map Prod.fst = state.heldTickets ++ (state.queuedTickets ++ state.reportedTickets) := by
  rw [entries, entriesAt, List.map_append, List.map_append, List.map_map, List.map_map, List.map_filterMap]
  rfl

end PoolState

/-- Each accepted job is queued, held by one worker or reported; it runs no more often than the
policy allows, and has one response for its one terminal event. -/
structure SettledOnce (config : ExtractionWorkerPoolConfig) (state : PoolState) : Prop where
  located : ∀ ticket ∈ state.accepted,
    state.queuedTickets.count ticket + state.heldTickets.count ticket + state.reportedTickets.count ticket = 1
  reported : ∀ ticket, state.reportedTickets.count ticket ≤ 1
  executed : ∀ ticket, state.executions.count ticket ≤ max config.retryPolicy.maxAttempts 1
  answered : ∀ ticket, (state.responses.map Prod.fst).count ticket + state.answering.count ticket =
    state.reportedTickets.count ticket
  rejected : ∀ entry ∈ state.rejections, entry.1 ∉ state.reportedTickets ∧ entry.1 ∉ state.executions

theorem JobStage.Fits.bounded {maxAttempts executions ceilings : Nat} {stage : JobStage}
    (fits : stage.Fits Allowed maxAttempts executions ceilings) : executions ≤ max maxAttempts 1 := by
  cases stage with
  | queued hits =>
    obtain ⟨same, _, below⟩ := fits
    omega
  | running hits =>
    obtain ⟨same, _, below⟩ := fits
    omega
  | backingOff hits =>
    obtain ⟨same, _, below⟩ := fits
    omega
  | reported event => exact fits.1

theorem PoolRecord.settledOnce (record : PoolRecord config Allowed state) : SettledOnce config state := by
  have once (ticket : Nat) (known : ticket ∈ state.accepted) :
      state.queuedTickets.count ticket + state.heldTickets.count ticket + state.reportedTickets.count ticket = 1 := by
    have count := record.roster.count_eq_one known
    rw [PoolState.map_fst_entries, List.count_append, List.count_append] at count
    omega
  have known {ticket : Nat} (reported : ticket ∈ state.reportedTickets) : ticket ∈ state.accepted := by
    refine record.roster.placed.mem_iff.mp ?_
    rw [PoolState.map_fst_entries]
    exact List.mem_append_right _ (List.mem_append_right _ reported)
  refine ⟨once, ?_, ?_, ?_, ?_⟩
  · intro ticket
    by_cases reported : ticket ∈ state.reportedTickets
    · have located := once ticket (known reported)
      omega
    · rw [List.count_eq_zero.mpr reported]
      omega
  · intro ticket
    by_cases executed : ticket ∈ state.executions
    · obtain ⟨stage, _, fits⟩ := record.roster.stage_of_known (record.executed ticket executed)
      exact JobStage.Fits.bounded fits
    · rw [List.count_eq_zero.mpr executed]
      omega
  · intro ticket
    rw [← List.count_append]
    exact record.answered.count_eq ticket
  · intro entry member
    obtain ⟨_, outside⟩ := record.rejected entry member
    exact ⟨fun reported => outside (known reported), fun executed => outside (record.executed _ executed)⟩

theorem lenient_of_all (allows : ∀ event hits, Allowed event hits) (move : PoolMove) :
    move.Lenient config Allowed state :=
  fun _ _ => .inr fun _ _ => allows _ _

/-- In every state of every run each job is settled at most once. -/
theorem worker_pool_settlesOnce (config : ExtractionWorkerPoolConfig) {state : PoolState}
    (reached : (PoolState.runs config).Reachable state) : SettledOnce config state := by
  have record : PoolRecord config (fun _ _ => True) state := by
    refine reached.invariant ?_ ?_
    · rintro state rfl
      exact .start config
    · intro state after record step
      obtain ⟨move, stepped⟩ := step
      exact record.step ⟨fun _ _ _ => trivial, fun _ => trivial⟩ (lenient_of_all (fun _ _ => trivial) move) stepped
  exact record.settledOnce

/-! ### The ceiling -/

def TerminalEvent.reason? : TerminalEvent → Option Str
  | .completed .. => none
  | .failed _ _ reasonCode _ => some reasonCode

/-- A job is reported as timed out with its retries exhausted only after as many ceiling hits,
and with fewer it is in the pool or has an outcome of its own. -/
structure KeptWhileRetriesRemain (config : ExtractionWorkerPoolConfig) (state : PoolState) : Prop where
  exhausted : ∀ entry ∈ state.events, entry.2.reason? = some ceilingExhausted →
    state.ceilings.count entry.1 = config.retryPolicy.maxAttempts
  kept : ∀ ticket ∈ state.accepted, state.ceilings.count ticket < config.retryPolicy.maxAttempts →
    ticket ∈ state.queuedTickets ∨ ticket ∈ state.heldTickets ∨
      ∃ event, (ticket, event) ∈ state.events ∧ event.reason? ≠ some ceilingExhausted

/-- A requeue finds room in the queue. -/
def PoolMove.HasRoom (config : ExtractionWorkerPoolConfig) (state : PoolState) (move : PoolMove) : Prop :=
  ∀ worker, move = .requeue worker → state.queue.length < config.capacity

/-- The runs in which every requeue finds room. -/
def PoolState.roomyRuns (config : ExtractionWorkerPoolConfig) : Transitions PoolState where
  initial state := state = PoolState.start config
  step state after := ∃ move : PoolMove, move.HasRoom config state ∧ state.step config move = some after

def SpentWhenExhausted (config : ExtractionWorkerPoolConfig) (event : TerminalEvent) (hits : Nat) : Prop :=
  event.reason? = some ceilingExhausted → hits = max config.retryPolicy.maxAttempts 1

-- The failure's own data is free here, so the comparison is left to evaluation.
theorem reasonCode_ne_ceilingExhausted (error : SessionExtractionError) : error.reasonCode ≠ ceilingExhausted := by
  cases error with
  | transcript error => cases error <;> exact of_decide_eq_true rfl
  | extraction error => cases error <;> exact of_decide_eq_true rfl
  | writer error => cases error <;> exact of_decide_eq_true rfl
  | eventPublication => exact of_decide_eq_true rfl
  | orchestration => exact of_decide_eq_true rfl

theorem permits_spentWhenExhausted : Permits config (SpentWhenExhausted config) where
  outcome job outcome hits := by
    intro exhausted
    cases outcome with
    | completed => cases exhausted
    | failed error => exact absurd (Option.some.inj exhausted) (reasonCode_ne_ceilingExhausted error)
  exhausted _ _ := rfl

/-- While every requeue finds room, no job is given up before its retries are spent. -/
theorem worker_pool_keepsJobs (config : ExtractionWorkerPoolConfig) (positive : 1 ≤ config.retryPolicy.maxAttempts)
    {state : PoolState} (reached : (PoolState.roomyRuns config).Reachable state) :
    KeptWhileRetriesRemain config state := by
  have record : PoolRecord config (SpentWhenExhausted config) state := by
    refine reached.invariant ?_ ?_
    · rintro state rfl
      exact .start config
    · intro state after record step
      obtain ⟨move, room, stepped⟩ := step
      exact record.step permits_spentWhenExhausted (fun worker same => .inl (room worker same)) stepped
  have exhausted (entry : Nat × TerminalEvent) (member : entry ∈ state.events)
      (reason : entry.2.reason? = some ceilingExhausted) :
      state.ceilings.count entry.1 = config.retryPolicy.maxAttempts := by
    have inEntries : reportedEntry entry ∈ state.entries :=
      List.mem_append_right _ (List.mem_append_right _ (List.mem_map_of_mem member))
    have spent := (record.roster.fits _ inEntries).2 reason
    rw [max_eq_left positive] at spent
    exact spent
  refine ⟨exhausted, ?_⟩
  intro ticket known below
  have placed : ticket ∈ state.entries.map Prod.fst := record.roster.placed.mem_iff.mpr known
  rw [PoolState.map_fst_entries, List.mem_append, List.mem_append] at placed
  rcases placed with held | queued | reported
  · exact .inr (.inl held)
  · exact .inl queued
  · obtain ⟨entry, member, rfl⟩ := List.mem_map.mp reported
    refine .inr (.inr ⟨entry.2, member, fun reason => ?_⟩)
    rw [exhausted entry member reason] at below
    exact Nat.lt_irrefl _ below

/-! ### A slow job and a full queue -/

/-- One worker, a queue of one job, and a ceiling. -/
def narrowPool : ExtractionWorkerPoolConfig := ⟨1, 1, some 60000, ⟨3, 50, 2000⟩⟩

def slowJob : ExtractionJob := ⟨0, "slow", "claude", 0⟩

def slowRun : PoolState :=
  { PoolState.start narrowPool with
    workers := [.running slowJob]
    submitted := 1
    accepted := [0]
    executions := [0] }

/-- The slow job waits out its backoff while another job fills the queue. -/
def crowdedRun : PoolState :=
  { slowRun with
    queue := [⟨1, "next", "claude", 0⟩]
    workers := [.backingOff slowJob 57]
    submitted := 2
    accepted := [1, 0]
    ceilings := [0] }

theorem reachable_slowRun : (PoolState.roomyRuns narrowPool).Reachable slowRun := by
  have queued : (PoolState.roomyRuns narrowPool).Reachable
      ((PoolState.start narrowPool).submit narrowPool "slow" "claude") :=
    Transitions.Reachable.next (.start rfl) ⟨.submit "slow" "claude", fun _ other => (by cases other), rfl⟩
  exact queued.next ⟨.take 0, fun _ other => (by cases other), rfl⟩

theorem reachable_of_roomy {config : ExtractionWorkerPoolConfig} {state : PoolState}
    (reached : (PoolState.roomyRuns config).Reachable state) : (PoolState.runs config).Reachable state := by
  refine reached.invariant (fun state initial => .start initial) ?_
  intro state after before step
  obtain ⟨move, _, stepped⟩ := step
  exact before.next ⟨move, stepped⟩

theorem reachable_crowdedRun : (PoolState.runs narrowPool).Reachable crowdedRun :=
  ((reachable_of_roomy reachable_slowRun).next ⟨.submit "next" "claude", rfl⟩).next ⟨.ceiling 0, rfl⟩

theorem worker_pool_settlesOnce_crowded : SettledOnce narrowPool crowdedRun :=
  worker_pool_settlesOnce narrowPool reachable_crowdedRun

theorem worker_pool_keepsJobs_slow : KeptWhileRetriesRemain narrowPool slowRun :=
  worker_pool_keepsJobs narrowPool (by decide) reachable_slowRun

/-- The first ceiling hit of three loses the job. -/
theorem slowJob_givenUp : ¬ ∀ config : ExtractionWorkerPoolConfig, 1 ≤ config.retryPolicy.maxAttempts →
    ∀ state, (PoolState.runs config).Reachable state → KeptWhileRetriesRemain config state := by
  intro keeps
  have reached : (PoolState.runs narrowPool).Reachable (crowdedRun.giveUp 0 slowJob) :=
    reachable_crowdedRun.next ⟨.requeue 0, rfl⟩
  have spent := (keeps narrowPool (by decide) _ reached).exhausted (0, slowJob.ceilingExhaustedEvent)
    (List.mem_singleton_self _) rfl
  exact absurd spent (by decide)

end SkillLayer.SessionExtractor

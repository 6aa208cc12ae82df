import SkillLayer.Admin.RebuildQueue

/-! What holds of the rebuild queue in every interleaving: one runner at most, jobs served in the order of
acceptance, and a status for each that tells what its own rebuild came to. -/

namespace SkillLayer.Admin

theorem rebuildJobId_injective : Function.Injective rebuildJobId := by
  intro first second same
  exact Str.ofNat_injective (List.append_cancel_left same)

namespace Rebuilds

open scoped List

variable {system : Rebuilds}

/-! ### What one step does to the record -/

section Step

variable (system) (jobId : Str) (result : RebuildResult) (callers : List Str) (runners : List Runner)

@[simp] theorem accepted_accept : (system.accept jobId callers).accepted = system.accepted ++ [jobId] := by
  simp only [accepted, accept, List.filterMap_append]
  rfl

theorem next_empty (empty : system.state.queue = []) :
    system.next runners =
      { system with state := { system.state with runnerActive := false }, runners := runners } := by
  simp [next, RebuildQueueState.popJob, empty]

theorem next_cons {rest : List Str} (first : system.state.queue = jobId :: rest) :
    system.next runners =
      { system with
        state :=
          { system.state with
            jobs := Function.update system.state.jobs jobId
              ((system.state.jobs jobId).map RebuildJobRecord.start)
            queue := rest }
        runners := .triggering jobId :: runners
        triggered := system.triggered ++ [jobId] } := by
  simp [next, RebuildQueueState.popJob, first]

end Step

/-! ### The invariant -/

/-- The ids are those drawn, no two alike. -/
structure Numbered (system : Rebuilds) : Prop where
  sequence : system.nextJobSequence = (system.drawn + 1) % 2 ^ 64
  known : ∀ id ∈ system.accepted ++ system.callers, ∃ k < system.drawn, id = rebuildJobId ((k + 1) % 2 ^ 64)
  distinct : (system.accepted ++ system.callers).Nodup

/-- Jobs go from the queue to the one runner and from there to the settled ones, and a runner is
there whenever a job waits, unless a trigger has panicked. -/
structure Served (system : Rebuilds) : Prop where
  line : system.accepted = system.triggered ++ system.state.queue
  order : system.triggered = system.settled.map Prod.fst ++ (system.panicked ++ system.current)
  single : system.panicked.length + system.runners.length ≤ 1
  active : system.state.runnerActive = true ↔ system.panicked ≠ [] ∨ system.runners ≠ []
  awake : system.state.queue ≠ [] → system.state.runnerActive = true

/-- The record of each job. -/
structure Recorded (system : Rebuilds) : Prop where
  absent : ∀ id, id ∉ system.accepted → system.state.jobs id = none
  queued : ∀ id ∈ system.state.queue, system.state.jobs id = some (.queued id)
  running : ∀ id ∈ system.panicked ++ system.current,
    system.state.jobs id = some (RebuildJobRecord.queued id).start
  finished : ∀ id result, (id, result) ∈ system.settled →
    system.state.jobs id = some ((RebuildJobRecord.queued id).start.finish result)

structure Sound (system : Rebuilds) : Prop where
  numbered : system.Numbered
  served : system.Served
  recorded : system.Recorded

theorem sound_new : new.Sound where
  numbered := ⟨rfl, by simp [new, accepted], by simp [new, accepted]⟩
  served := ⟨rfl, rfl, by simp [new], by simp [new, RebuildQueueState.empty], by simp [new, RebuildQueueState.empty]⟩
  recorded := ⟨fun id _ => rfl, by simp [new, RebuildQueueState.empty], by simp [new, current], by simp [new]⟩

/-- The runner that takes a step is the only one, and no trigger has panicked. -/
theorem Served.only (served : system.Served) {runner : Runner} {runners : List Runner}
    (here : system.runners ~ runner :: runners) :
    runners = [] ∧ system.runners = [runner] ∧ system.panicked = [] := by
  have count := served.single
  rw [here.length_eq, List.length_cons] at count
  have alone : runners = [] := List.length_eq_zero_iff.mp (by omega)
  have calm : system.panicked = [] := List.length_eq_zero_iff.mp (by omega)
  subst alone
  exact ⟨rfl, List.perm_singleton.mp here, calm⟩

theorem sound_draw (sound : system.Sound) (few : system.drawn + 1 ≤ 2 ^ 64) : system.draw.Sound := by
  obtain ⟨numbered, served, recorded⟩ := sound
  refine ⟨⟨?_, ?_, ?_⟩, ⟨served.line, served.order, served.single, served.active, served.awake⟩,
    ⟨recorded.absent, recorded.queued, recorded.running, recorded.finished⟩⟩
  · simp only [draw, numbered.sequence]
    omega
  · intro id member
    simp only [draw, accepted, List.mem_append, List.mem_cons] at member
    rcases member with old | rfl | waiting
    · obtain ⟨k, below, same⟩ := numbered.known id (List.mem_append_left _ old)
      exact ⟨k, Nat.lt_succ_of_lt below, same⟩
    · exact ⟨system.drawn, Nat.lt_succ_self _, by rw [numbered.sequence]⟩
    · obtain ⟨k, below, same⟩ := numbered.known id (List.mem_append_right _ waiting)
      exact ⟨k, Nat.lt_succ_of_lt below, same⟩
  · -- an id drawn before came from a smaller number, and the counter has not come round
    have unused : rebuildJobId system.nextJobSequence ∉ system.accepted ++ system.callers := by
      intro member
      obtain ⟨k, below, same⟩ := numbered.known _ member
      rw [numbered.sequence] at same
      have equal := rebuildJobId_injective same
      omega
    exact (List.perm_middle.nodup_iff).mpr (List.nodup_cons.mpr ⟨unused, numbered.distinct⟩)

/-- The waiting call goes, whether it is answered or dropped. -/
theorem Numbered.waiting (numbered : system.Numbered) {jobId : Str} {callers : List Str}
    (waits : system.callers ~ jobId :: callers) : jobId ∉ system.accepted ∧
      (system.accepted ++ jobId :: callers).Nodup := by
  have distinct := (List.Perm.append_left system.accepted waits).nodup_iff.mp numbered.distinct
  refine ⟨fun old => ?_, distinct⟩
  exact (List.disjoint_of_nodup_append distinct) old List.mem_cons_self

theorem numbered_accept (numbered : system.Numbered) {jobId : Str} {callers : List Str}
    (waits : system.callers ~ jobId :: callers) : (system.accept jobId callers).Numbered where
  sequence := numbered.sequence
  known := by
    intro id member
    refine numbered.known id ?_
    rw [accepted_accept] at member
    simp only [accept, List.append_assoc, List.singleton_append] at member
    exact (List.Perm.append_left system.accepted waits).mem_iff.mpr member
  distinct := by
    rw [accepted_accept]
    simp only [accept, List.append_assoc, List.singleton_append]
    exact (numbered.waiting waits).2

theorem served_accept (served : system.Served) (jobId : Str) (callers : List Str) :
    (system.accept jobId callers).Served := by
  have grown : (system.accept jobId callers).accepted =
      (system.accept jobId callers).triggered ++ (system.accept jobId callers).state.queue := by
    rw [accepted_accept, served.line, List.append_assoc]
    rfl
  cases busy : system.state.runnerActive with
  | true =>
    have same : (system.accept jobId callers).runners = system.runners := by
      simp [accept, RebuildQueueState.enqueueRebuild, busy]
    refine ⟨grown, ?_, ?_, ?_, fun _ => rfl⟩
    · rw [current, same]
      exact served.order
    · rw [same]
      exact served.single
    · rw [same]
      exact ⟨fun _ => served.active.mp busy, fun _ => rfl⟩
  | false =>
    have idle : ¬ (system.panicked ≠ [] ∨ system.runners ≠ []) := fun some => by
      simp [served.active.mpr some] at busy
    obtain ⟨calm, none⟩ := not_or.mp idle
    rw [not_not] at calm none
    have spawned : (system.accept jobId callers).runners = [.looping] := by
      simp [accept, RebuildQueueState.enqueueRebuild, busy, none]
    refine ⟨grown, ?_, ?_, ?_, fun _ => rfl⟩
    · have order := served.order
      simp only [current, none, List.filterMap_nil] at order
      rw [current, spawned]
      exact order
    · rw [spawned]
      exact Nat.le_of_eq (by simp [accept, calm])
    · rw [spawned]
      exact ⟨fun _ => .inr (List.cons_ne_nil _ _), fun _ => rfl⟩

/-- A job that is known is not the one accepted now. -/
theorem jobs_accept_of_ne {jobId id : Str} (different : id ≠ jobId) (callers : List Str) :
    (system.accept jobId callers).state.jobs id = system.state.jobs id :=
  Function.update_of_ne different _ _

theorem current_accept (jobId : Str) (callers : List Str) :
    (system.accept jobId callers).current = system.current := by
  cases busy : system.state.runnerActive with
  | true => simp [current, accept, RebuildQueueState.enqueueRebuild, busy]
  | false =>
    simp only [current, accept, RebuildQueueState.enqueueRebuild, busy]
    rfl

theorem recorded_accept (numbered : system.Numbered) (served : system.Served) (recorded : system.Recorded)
    {jobId : Str} {callers : List Str} (waits : system.callers ~ jobId :: callers) :
    (system.accept jobId callers).Recorded := by
  have fresh := (numbered.waiting waits).1
  have other {id : Str} (known : id ∈ system.accepted) : id ≠ jobId := fun same => fresh (same ▸ known)
  rw [served.line, served.order] at other
  refine ⟨?_, ?_, ?_, ?_⟩
  · intro id unknown
    rw [accepted_accept] at unknown
    simp only [List.mem_append, List.mem_singleton, not_or] at unknown
    rw [jobs_accept_of_ne unknown.2]
    exact recorded.absent id unknown.1
  · intro id member
    rcases List.mem_append.mp member with old | new
    · rw [jobs_accept_of_ne (other (List.mem_append_right _ old))]
      exact recorded.queued id old
    · obtain rfl := List.mem_singleton.mp new
      exact Function.update_self _ _ _
  · intro id member
    rw [current_accept] at member
    rw [jobs_accept_of_ne (other (List.mem_append_left _ (List.mem_append_right _ member)))]
    exact recorded.running id member
  · intro id result member
    have told := List.mem_map_of_mem (f := Prod.fst) member
    rw [jobs_accept_of_ne (other (List.mem_append_left _ (List.mem_append_left _ told)))]
    exact recorded.finished id result member

theorem sound_accept (sound : system.Sound) {jobId : Str} {callers : List Str}
    (waits : system.callers ~ jobId :: callers) : (system.accept jobId callers).Sound :=
  ⟨numbered_accept sound.numbered waits, served_accept sound.served jobId callers,
    recorded_accept sound.numbered sound.served sound.recorded waits⟩

theorem sound_abandon (sound : system.Sound) {jobId : Str} {callers : List Str}
    (waits : system.callers ~ jobId :: callers) : ({ system with callers := callers } : Rebuilds).Sound := by
  obtain ⟨numbered, served, recorded⟩ := sound
  refine ⟨⟨numbered.sequence, ?_, ?_⟩, ⟨served.line, served.order, served.single, served.active, served.awake⟩,
    ⟨recorded.absent, recorded.queued, recorded.running, recorded.finished⟩⟩
  · intro id member
    refine numbered.known id ((List.Perm.append_left system.accepted waits).mem_iff.mpr ?_)
    rcases List.mem_append.mp member with old | waiting
    · exact List.mem_append_left _ old
    · exact List.mem_append_right _ (List.mem_cons_of_mem _ waiting)
  · exact (numbered.waiting waits).2.sublist (List.Sublist.append_left (List.sublist_cons_self _ _) _)

theorem sound_next (sound : system.Sound) {runners : List Runner}
    (here : system.runners ~ .looping :: runners) : (system.next runners).Sound := by
  obtain ⟨numbered, served, recorded⟩ := sound
  obtain ⟨rfl, only, calm⟩ := served.only here
  have none : system.current = [] := by simp [current, only, Runner.job]
  have order := served.order
  rw [none, calm, List.append_nil, List.append_nil] at order
  cases pending : system.state.queue with
  | nil =>
    rw [next_empty system [] pending]
    refine ⟨⟨numbered.sequence, numbered.known, numbered.distinct⟩, ⟨served.line, ?_, ?_, ?_, ?_⟩,
      ⟨recorded.absent, recorded.queued, ?_, recorded.finished⟩⟩
    · simpa [current, calm] using order
    · simp [calm]
    · simp [calm]
    · simp [pending]
    · simp [current, calm]
  | cons jobId rest =>
    rw [next_cons system jobId [] pending]
    have line := served.line
    rw [pending] at line
    have distinct : (system.triggered ++ jobId :: rest).Nodup :=
      line ▸ numbered.distinct.sublist (List.sublist_append_left _ _)
    obtain ⟨before, after, apart⟩ := List.nodup_append.mp distinct
    have record := recorded.queued jobId (by simp [pending])
    refine ⟨⟨numbered.sequence, numbered.known, numbered.distinct⟩, ⟨?_, ?_, ?_, ?_, ?_⟩, ⟨?_, ?_, ?_, ?_⟩⟩
    · exact line.trans (List.append_cons _ _ _)
    · simp [current, calm, order, Runner.job]
    · simp [calm]
    · simpa using (served.active.mpr (.inr (by simp [only])))
    · intro _
      exact served.awake (by simp [pending])
    · intro id unknown
      have different : id ≠ jobId := by
        rintro rfl
        exact unknown (line ▸ by simp)
      exact (Function.update_of_ne different _ _).trans (recorded.absent id unknown)
    · intro id member
      have different : id ≠ jobId := by
        rintro rfl
        exact (List.nodup_cons.mp after).1 member
      have before := recorded.queued id (by simp [pending, show id ∈ rest from member])
      exact (Function.update_of_ne different _ _).trans before
    · intro id member
      obtain rfl : id = jobId := by simpa [current, calm, Runner.job] using member
      simp [record]
    · intro id result member
      have different : id ≠ jobId :=
        apart id (order ▸ List.mem_map_of_mem (f := Prod.fst) member) jobId List.mem_cons_self
      exact (Function.update_of_ne different _ _).trans (recorded.finished id result member)

theorem sound_answer (sound : system.Sound) {jobId : Str} (result : RebuildResult) {runners : List Runner}
    (here : system.runners ~ .triggering jobId :: runners) : (system.answer jobId result runners).Sound := by
  obtain ⟨numbered, served, recorded⟩ := sound
  obtain ⟨rfl, only, calm⟩ := served.only here
  have same : (system.answer jobId result []).current = system.current := by
    simp [current, answer, only, Runner.job]
  refine ⟨⟨numbered.sequence, numbered.known, numbered.distinct⟩, ⟨served.line, ?_, ?_, ?_, served.awake⟩,
    ⟨recorded.absent, recorded.queued, ?_, recorded.finished⟩⟩
  · rw [same]
    exact served.order
  · simp [answer, calm]
  · simpa [answer, calm, only] using served.active
  · rw [same]
    exact recorded.running

theorem sound_panic (sound : system.Sound) {jobId : Str} {runners : List Runner}
    (here : system.runners ~ .triggering jobId :: runners) : (system.panic jobId runners).Sound := by
  obtain ⟨numbered, served, recorded⟩ := sound
  obtain ⟨rfl, only, calm⟩ := served.only here
  have same : (system.panic jobId []).panicked ++ (system.panic jobId []).current =
      system.panicked ++ system.current := by
    simp [current, panic, only, calm, Runner.job]
  refine ⟨⟨numbered.sequence, numbered.known, numbered.distinct⟩, ⟨served.line, ?_, ?_, ?_, served.awake⟩,
    ⟨recorded.absent, recorded.queued, ?_, recorded.finished⟩⟩
  · rw [same]
    exact served.order
  · simp [panic, calm]
  · simpa [panic, only] using served.active
  · rw [same]
    exact recorded.running

theorem sound_settle (sound : system.Sound) {jobId : Str} {result : RebuildResult} {runners : List Runner}
    (here : system.runners ~ .answered jobId result :: runners) :
    (system.settle jobId result runners).Sound := by
  obtain ⟨numbered, served, recorded⟩ := sound
  obtain ⟨rfl, only, calm⟩ := served.only here
  have serving : system.current = [jobId] := by simp [current, only, Runner.job]
  have order := served.order
  rw [serving, calm, List.nil_append] at order
  have distinct : (system.settled.map Prod.fst ++ [jobId] ++ system.state.queue).Nodup := by
    rw [← order, ← served.line]
    exact numbered.distinct.sublist (List.sublist_append_left _ _)
  obtain ⟨before, after, apart⟩ := List.nodup_append.mp distinct
  have record := recorded.running jobId (by simp [serving])
  refine ⟨⟨numbered.sequence, numbered.known, numbered.distinct⟩, ⟨served.line, ?_, ?_, ?_, ?_⟩, ⟨?_, ?_, ?_, ?_⟩⟩
  · have none : (system.settle jobId result []).current = [] := rfl
    rw [none]
    simpa [settle, calm] using order
  · simp [settle, calm]
  · simpa [settle, RebuildQueueState.recordResult, only] using served.active
  · exact served.awake
  · intro id unknown
    have different : id ≠ jobId := by
      rintro rfl
      refine unknown ?_
      change id ∈ system.accepted
      rw [served.line, order]
      simp
    exact (Function.update_of_ne different _ _).trans (recorded.absent id unknown)
  · intro id member
    have different : id ≠ jobId := fun same =>
      apart jobId (List.mem_append_right _ (List.mem_singleton_self _)) id member same.symm
    exact (Function.update_of_ne different _ _).trans (recorded.queued id member)
  · simp [settle, current, calm, Runner.job]
  · intro id told member
    rcases List.mem_append.mp member with old | new
    · have different : id ≠ jobId := (List.nodup_append.mp before).2.2 id
        (List.mem_map_of_mem (f := Prod.fst) old) jobId (List.mem_singleton_self _)
      exact (Function.update_of_ne different _ _).trans (recorded.finished id told old)
    · obtain ⟨rfl, rfl⟩ : id = jobId ∧ told = result := by simpa using new
      simp [settle, RebuildQueueState.recordResult, record]

theorem sound_step {mover : Mover} {after : Rebuilds} (sound : system.Sound) (step : Step mover system after)
    (few : after.drawn ≤ 2 ^ 64) : after.Sound := by
  cases step with
  | draw => exact sound_draw sound few
  | accept jobId callers waits => exact sound_accept sound waits
  | abandon jobId callers waits => exact sound_abandon sound waits
  | next runners here => exact sound_next sound here
  | answer jobId result runners here => exact sound_answer sound result here
  | settle jobId result runners here => exact sound_settle sound here
  | panic jobId runners here => exact sound_panic sound here

@[simp] theorem drawn_next (runners : List Runner) : (system.next runners).drawn = system.drawn := by
  cases pending : system.state.queue with
  | nil => rw [next_empty system runners pending]
  | cons jobId rest => rw [next_cons system jobId runners pending]

theorem drawn_step {mover : Mover} {after : Rebuilds} (step : Step mover system after) :
    system.drawn ≤ after.drawn := by
  cases step with
  | draw => exact Nat.le_succ _
  | next runners => exact Nat.le_of_eq (drawn_next runners).symm
  | accept | abandon | answer | settle | panic => exact Nat.le_refl _

theorem sound (reached : runs.Reachable system) (few : system.drawn ≤ 2 ^ 64) : system.Sound := by
  revert few
  apply reached.invariant
  · rintro start rfl _
    exact sound_new
  · rintro before after kept ⟨mover, step⟩ few
    exact sound_step (kept ((drawn_step step).trans few)) step few

/-! ### The account -/

/-- What callers and maintainers may rely on at any instant. -/
structure Accounted (system : Rebuilds) : Prop where
  /-- No two jobs share an id. -/
  distinct : system.accepted.Nodup
  /-- At most one runner, so at most one rebuild at a time. -/
  single : system.runners.length ≤ 1
  /-- Jobs are triggered in the order of acceptance, each once, and none is lost. -/
  served : system.accepted = system.triggered ++ system.state.queue
  /-- They are settled in that order too, each before the next is triggered. -/
  settled : ∃ open_, system.triggered = system.settled.map Prod.fst ++ open_ ∧ open_.length ≤ 1
  /-- A status query tells an unknown id, -/
  unknown : ∀ id, id ∉ system.accepted →
    rebuildGraphStatus system.state id = ⟨"no_match", some ("job_not_found" : Str), none⟩
  /-- a job that waits, -/
  waiting : ∀ id ∈ system.state.queue,
    rebuildGraphStatus system.state id = ⟨"ok", none, some (RebuildJobRecord.queued id).toStatusPayload⟩
  /-- the one whose rebuild goes on, -/
  running : ∀ id ∈ system.triggered, (∀ result, (id, result) ∉ system.settled) →
    rebuildGraphStatus system.state id = ⟨"ok", none, some (RebuildJobRecord.queued id).start.toStatusPayload⟩
  /-- and what the job's own rebuild came to. -/
  told : ∀ id result, (id, result) ∈ system.settled → rebuildGraphStatus system.state id =
    ⟨"ok", none, some ((RebuildJobRecord.queued id).start.finish result).toStatusPayload⟩

theorem status_of_job {state : RebuildQueueState} {id : Str} {job : RebuildJobRecord}
    (known : state.jobs id = some job) : rebuildGraphStatus state id = ⟨"ok", none, some job.toStatusPayload⟩ := by
  simp only [rebuildGraphStatus, RebuildQueueState.statusFor, known, Option.map_some]

theorem Sound.accounted (sound : system.Sound) : system.Accounted where
  distinct := sound.numbered.distinct.sublist (List.sublist_append_left _ _)
  single := (Nat.le_add_left _ _).trans sound.served.single
  served := sound.served.line
  settled := by
    refine ⟨_, sound.served.order, ?_⟩
    rw [List.length_append]
    exact (Nat.add_le_add_left (List.length_filterMap_le _ _) _).trans sound.served.single
  unknown id absent := by
    simp only [rebuildGraphStatus, RebuildQueueState.statusFor, sound.recorded.absent id absent, Option.map_none]
  waiting id member := status_of_job (sound.recorded.queued id member)
  running id member unsettled := by
    rw [sound.served.order] at member
    rcases List.mem_append.mp member with old | now
    · obtain ⟨⟨told, result⟩, settled, rfl⟩ := List.mem_map.mp old
      exact absurd settled (unsettled result)
    · exact status_of_job (sound.recorded.running id now)
  told id result member := status_of_job (sound.recorded.finished id result member)

/-- In any interleaving of calls and runner, however triggers end, the queue keeps its account,
until the counter of ids has come round. -/
theorem rebuilds_accounted (reached : runs.Reachable system) (few : system.drawn ≤ 2 ^ 64) :
    system.Accounted :=
  (sound reached few).accounted

/-- Two jobs accepted, the first one settled while the second waits. -/
theorem rebuilds_accounted_settled :
    (((((new.draw.draw.accept (rebuildJobId 1) [rebuildJobId 2]).next []).accept (rebuildJobId 2) []).answer
      (rebuildJobId 1) (.ok ⟨7, 3, 2⟩) []).settle (rebuildJobId 1) (.ok ⟨7, 3, 2⟩) []).Accounted := by
  refine rebuilds_accounted ?_ (by decide)
  refine .next (.next (.next (.next (.next (.next (.next (.start rfl) ⟨_, .draw⟩) ⟨_, .draw⟩)
    ⟨_, .accept _ _ ?_⟩) ⟨_, .next _ ?_⟩) ⟨_, .accept _ _ ?_⟩) ⟨_, .answer _ _ _ ?_⟩)
    ⟨_, .settle _ _ _ ?_⟩
  · exact List.Perm.swap _ _ _
  · exact .refl _
  · exact .refl _
  · exact .refl _
  · exact .refl _

end Rebuilds
end SkillLayer.Admin

import Mathlib.Algebra.GroupWithZero.Nat
import SkillLayer.Admin.RebuildAccount

/-! Accepted rebuild jobs are settled: in any interleaving the runner needs a bounded number of its own
steps for a job, whatever the callers do meanwhile, and it is never stuck before. -/

namespace SkillLayer.Admin
namespace Rebuilds

variable {system before after : Rebuilds} {mover : Mover} {movers : List Mover} {id : Str}

/-- The steps of a run, by who takes them. -/
inductive Run : Rebuilds → List Mover → Rebuilds → Prop where
  | refl (system : Rebuilds) : Run system [] system
  | tail {before system after : Rebuilds} {movers : List Mover} {mover : Mover}
      (run : Run before movers system) (step : Step mover system after) : Run before (movers ++ [mover]) after

/-- The job has been rebuilt, or its rebuild has failed. -/
def Settled (system : Rebuilds) (id : Str) : Prop := ∃ result, (id, result) ∈ system.settled

/-- How far a runner is with its job. -/
def Runner.stage : Runner → Nat
  | .looping => 0
  | .triggering _ => 1
  | .answered _ _ => 2

/-- Three steps of the runner for each settled job, and those for the current one. -/
def progress (system : Rebuilds) : Nat :=
  3 * system.settled.length + (system.runners.map Runner.stage).sum

theorem settled_next (runners : List Runner) : (system.next runners).settled = system.settled := by
  cases pending : system.state.queue with
  | nil => rw [next_empty system runners pending]
  | cons jobId rest => rw [next_cons system jobId runners pending]

theorem responses_next (runners : List Runner) : (system.next runners).responses = system.responses := by
  cases pending : system.state.queue with
  | nil => rw [next_empty system runners pending]
  | cons jobId rest => rw [next_cons system jobId runners pending]

theorem panicked_next (runners : List Runner) : (system.next runners).panicked = system.panicked := by
  cases pending : system.state.queue with
  | nil => rw [next_empty system runners pending]
  | cons jobId rest => rw [next_cons system jobId runners pending]

theorem Settled.kept (settled : system.Settled id) (step : Step mover system after) : after.Settled id := by
  obtain ⟨result, member⟩ := settled
  cases step with
  | next runners => exact ⟨result, (settled_next runners).symm ▸ member⟩
  | settle => exact ⟨result, List.mem_append_left _ member⟩
  | draw | accept | abandon | answer | panic => exact ⟨result, member⟩

theorem accepted_step (step : Step mover system after) : system.accepted <+: after.accepted := by
  cases step with
  | accept jobId callers => exact accepted_accept system jobId callers ▸ List.prefix_append _ _
  | next runners =>
    have same : (system.next runners).accepted = system.accepted :=
      congrArg (List.filterMap RebuildGraphResponse.jobId) (responses_next runners)
    exact same ▸ List.prefix_refl _
  | draw | abandon | answer | settle | panic => exact List.prefix_refl _

theorem healthy_step (step : Step mover system after) (healthy : after.panicked = []) :
    system.panicked = [] ∧ mover ≠ .panic := by
  cases step with
  | next runners => exact ⟨panicked_next runners ▸ healthy, by intro never; cases never⟩
  | panic => exact absurd healthy (by simp [panic])
  | draw | accept | abandon | answer | settle => exact ⟨healthy, by intro never; cases never⟩

/-- A job that was accepted and is not settled waits or is the current one. -/
theorem Sound.open_job (sound : system.Sound) (healthy : system.panicked = []) (accepted : id ∈ system.accepted)
    (unsettled : ¬ system.Settled id) : id ∈ system.current ∨ id ∈ system.state.queue := by
  rw [sound.served.line, sound.served.order, healthy, List.nil_append] at accepted
  rcases List.mem_append.mp accepted with triggered | waiting
  · rcases List.mem_append.mp triggered with settled | current
    · obtain ⟨⟨told, result⟩, member, rfl⟩ := List.mem_map.mp settled
      exact absurd ⟨result, member⟩ unsettled
    · exact .inl current
  · exact .inr waiting

/-- As long as a job is not settled, the runner can take a step. -/
theorem Sound.enabled (sound : system.Sound) (healthy : system.panicked = []) (accepted : id ∈ system.accepted)
    (unsettled : ¬ system.Settled id) : ∃ next, Step .runner system next := by
  have busy : system.runners ≠ [] := by
    rcases sound.open_job healthy accepted unsettled with current | waiting
    · rintro none
      simp [Rebuilds.current, none] at current
    · have active := sound.served.awake (List.ne_nil_of_mem waiting)
      exact (sound.served.active.mp active).resolve_left (not_not.mpr healthy)
  obtain ⟨runner, runners, here⟩ := List.exists_cons_of_ne_nil busy
  cases runner with
  | looping => exact ⟨_, .next runners (.of_eq here)⟩
  | triggering jobId => exact ⟨_, .answer jobId (.error (.unavailable [])) runners (.of_eq here)⟩
  | answered jobId result => exact ⟨_, .settle jobId result runners (.of_eq here)⟩

/-- A step of the runner brings the work on by one, unless all jobs are settled; a call leaves it. -/
theorem Sound.progress_step (sound : system.Sound) (accepted : id ∈ system.accepted)
    (unsettled : ¬ system.Settled id) (step : Step mover system after) (healthy : after.panicked = []) :
    after.progress = system.progress + [mover].count .runner := by
  have calm := (healthy_step step healthy).1
  cases step with
  | draw => rfl
  | abandon => rfl
  | accept jobId callers =>
    cases busy : system.state.runnerActive with
    | true => simp [progress, accept, RebuildQueueState.enqueueRebuild, busy]
    | false => simp [progress, accept, RebuildQueueState.enqueueRebuild, busy, Runner.stage]
  | next runners here =>
    obtain ⟨rfl, only, -⟩ := sound.served.only here
    have waiting : id ∈ system.state.queue :=
      (sound.open_job calm accepted unsettled).resolve_left (by simp [current, only, Runner.job])
    obtain ⟨first, rest, pending⟩ := List.exists_cons_of_ne_nil (List.ne_nil_of_mem waiting)
    simp [next_cons system first [] pending, progress, only, Runner.stage]
  | answer jobId result runners here =>
    obtain ⟨rfl, only, -⟩ := sound.served.only here
    simp [progress, answer, only, Runner.stage]
  | settle jobId result runners here =>
    obtain ⟨rfl, only, -⟩ := sound.served.only here
    simp [progress, settle, only, Runner.stage]
    omega
  | panic => exact absurd healthy (by simp [panic])

/-- Every step of the runner brings the work on until the job is settled. -/
theorem progress_run (reached : runs.Reachable before) (accepted : id ∈ before.accepted)
    (run : Run before movers after) (few : after.drawn ≤ 2 ^ 64) (healthy : after.panicked = []) :
    runs.Reachable after ∧ before.accepted <+: after.accepted ∧
      (after.Settled id ∨ after.progress = before.progress + movers.count .runner) := by
  induction run with
  | refl => exact ⟨reached, List.prefix_refl _, .inr rfl⟩
  | @tail system after movers mover run step ih =>
    have fewBefore := (drawn_step step).trans few
    obtain ⟨reachedThen, grown, done⟩ := ih fewBefore (healthy_step step healthy).1
    refine ⟨reachedThen.next ⟨mover, step⟩, grown.trans (accepted_step step), ?_⟩
    by_cases settled : system.Settled id
    · exact .inl (settled.kept step)
    · right
      have more := (sound reachedThen fewBefore).progress_step (grown.subset accepted) settled step healthy
      rw [more, done.resolve_left settled, List.count_append, Nat.add_assoc]

/-- Jobs are settled in order, so an unsettled one bounds the work done. -/
theorem Sound.progress_le (sound : system.Sound) {place : Nat}
    (here : system.accepted[place]? = some id) (unsettled : ¬ system.Settled id) :
    system.progress ≤ 3 * place + 2 := by
  have few : system.settled.length ≤ place := by
    refine Nat.le_of_not_lt fun below => unsettled ?_
    rw [sound.served.line, sound.served.order, List.append_assoc,
      List.getElem?_append_left (by simpa using below)] at here
    obtain ⟨⟨told, result⟩, member, rfl⟩ := List.mem_map.mp (List.mem_of_getElem? here)
    exact ⟨result, member⟩
  have single := sound.served.single
  have stage : (system.runners.map Runner.stage).sum ≤ 2 := by
    match listed : system.runners with
    | [] => simp
    | [runner] => cases runner <;> simp [Runner.stage]
    | _ :: _ :: _ =>
      rw [listed] at single
      simp at single
      omega
  unfold progress
  omega

/-- In every run without a panic, whatever the callers do meanwhile, the job at a place of the line is settled after
three steps of the runner for each job up to it, and until then the runner can take a step. -/
theorem rebuild_settled_within (reached : runs.Reachable before) (run : Run before movers after)
    (few : after.drawn ≤ 2 ^ 64) (healthy : after.panicked = []) {place : Nat}
    (here : before.accepted[place]? = some id) :
    after.Settled id ∨
      (movers.count .runner + 3 * before.settled.length ≤ 3 * place + 2 ∧ ∃ next, Step .runner after next) := by
  obtain ⟨reachedThen, grown, done⟩ := progress_run reached (List.mem_of_getElem? here) run few healthy
  by_cases settled : after.Settled id
  · exact .inl settled
  · right
    have sound := sound reachedThen few
    obtain ⟨later, line⟩ := grown
    have hereThen : after.accepted[place]? = some id := by
      rw [← line, List.getElem?_append_left (List.getElem?_eq_some_iff.mp here).1, here]
    have bound := sound.progress_le hereThen settled
    refine ⟨?_, sound.enabled healthy (List.mem_of_getElem? hereThen) settled⟩
    have worked := done.resolve_left settled
    have least : 3 * before.settled.length ≤ before.progress := Nat.le_add_right _ _
    omega

/-- The second of two waiting jobs, while the first one is rebuilt and a further call draws its id. -/
theorem rebuild_settled_within_second :
    ((((new.draw.draw.accept (rebuildJobId 1) [rebuildJobId 2]).accept (rebuildJobId 2) []).next []).draw).Settled
        (rebuildJobId 2) ∨
      ([Mover.runner, .caller].count .runner + 3 * 0 ≤ 3 * 1 + 2 ∧ ∃ next, Step .runner
        ((((new.draw.draw.accept (rebuildJobId 1) [rebuildJobId 2]).accept (rebuildJobId 2) []).next []).draw) next) := by
  refine rebuild_settled_within ?_ (.tail (.tail (.refl _) (.next _ (.refl _))) .draw) (by decide) rfl rfl
  exact .next (.next (.next (.next (.start rfl) ⟨_, .draw⟩) ⟨_, .draw⟩)
    ⟨_, .accept _ _ (List.Perm.swap _ _ _)⟩) ⟨_, .accept _ _ (.refl _)⟩

end Rebuilds
end SkillLayer.Admin

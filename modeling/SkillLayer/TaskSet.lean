import Mathlib.Algebra.BigOperators.Group.Finset.Basic
import Mathlib.Algebra.Group.Action.Defs
import Mathlib.Algebra.Order.BigOperators.Group.Finset
import Mathlib.Data.Fintype.Basic
import Mathlib.Data.List.FinRange
import SkillLayer.Program
import SkillLayer.Runs

/-! Tasks that run programs, at most so many at a time, and are joined as they end. -/

namespace SkillLayer

variable {Call Err Result Fault : Type} {Answer : Call → Type}

/-- A call that was made, with its answer. -/
abbrev Exchanged (Call : Type) (Answer : Call → Type) := (request : Call) × Answer request

namespace Program

/-- With these calls and answers, this is what is left of the program. -/
inductive Exchanges : Program Call Answer Err Result → List (Exchanged Call Answer) → Program Call Answer Err Result → Prop where
  | here (program : Program Call Answer Err Result) : Exchanges program [] program
  | call {request : Call} {next : Answer request → Program Call Answer Err Result} {answer : Answer request}
      {calls : List (Exchanged Call Answer)} {left : Program Call Answer Err Result} (later : Exchanges (next answer) calls left) :
      Exchanges (.call request next) (⟨request, answer⟩ :: calls) left

/-- At most so many calls, whatever the answers. -/
def Within : Nat → Program Call Answer Err Result → Prop
  | _, .done _ => True
  | _, .fail _ => True
  | 0, .call _ _ => False
  | limit + 1, .call _ next => ∀ answer, Within limit (next answer)

variable {program left : Program Call Answer Err Result} {calls : List (Exchanged Call Answer)} {request : Call}
  {next : Answer request → Program Call Answer Err Result}

theorem Exchanges.step (exchanged : program.Exchanges calls (.call request next)) (answer : Answer request) :
    program.Exchanges (calls ++ [⟨request, answer⟩]) (next answer) := by
  generalize reached : Program.call request next = left at exchanged
  induction exchanged with
  | here program =>
    subst reached
    exact .call (.here _)
  | call _ ih => exact .call (ih reached)

theorem Exchanges.length_le (exchanged : program.Exchanges calls left) {limit : Nat} (within : program.Within limit) :
    calls.length ≤ limit ∧ left.Within (limit - calls.length) := by
  induction exchanged generalizing limit with
  | here program => exact ⟨Nat.zero_le _, within⟩
  | @call request next answer calls left _ ih =>
    cases limit with
    | zero => exact within.elim
    | succ limit =>
      obtain ⟨bounded, rest⟩ := ih (within answer)
      rw [List.length_cons, Nat.add_sub_add_right]
      exact ⟨Nat.succ_le_succ bounded, rest⟩

theorem Within.mono {small large : Nat} (within : program.Within small) (le : small ≤ large) : program.Within large := by
  induction program generalizing small large with
  | done result => cases large <;> trivial
  | fail error => cases large <;> trivial
  | call request next ih =>
    cases small with
    | zero => exact within.elim
    | succ small =>
      cases large with
      | zero => exact absurd le (Nat.not_succ_le_zero _)
      | succ large => exact fun answer => ih answer (within answer) (Nat.le_of_succ_le_succ le)

theorem Within.bind {Next : Type} {rest : Result → Program Call Answer Err Next} {first second : Nat}
    (within : program.Within first) (later : ∀ result, (rest result).Within second) :
    (program >>= rest).Within (first + second) := by
  induction program generalizing first with
  | done result => exact (later result).mono (Nat.le_add_left _ _)
  | fail error => cases h : first + second <;> trivial
  | call request next ih =>
    cases first with
    | zero => exact within.elim
    | succ first =>
      rw [Nat.succ_add]
      exact fun answer => ih answer (within answer)

theorem within_ofExcept (outcome : Except Err Result) :
    (ofExcept outcome : Program Call Answer Err Result).Within 0 := by
  cases outcome <;> trivial

/-- A program that is about to call has a call left. -/
theorem Exchanges.length_lt (exchanged : program.Exchanges calls (.call request next)) {limit : Nat}
    (within : program.Within limit) : calls.length < limit := by
  obtain ⟨bounded, rest⟩ := exchanged.length_le within
  refine Nat.lt_of_le_of_ne bounded fun full => ?_
  rw [full, Nat.sub_self] at rest
  exact rest.elim

theorem Exchanges.of_ask {outcome : Except Err Result} (exchanged : (ask request >>= next).Exchanges calls (.ofExcept outcome)) :
    ∃ answer later, calls = ⟨request, answer⟩ :: later ∧ (next answer).Exchanges later (.ofExcept outcome) := by
  cases outcome with
  | ok result =>
    cases exchanged with
    | call later => exact ⟨_, _, rfl, later⟩
  | error error =>
    cases exchanged with
    | call later => exact ⟨_, _, rfl, later⟩

theorem Exchanges.of_ofExcept {one other : Except Err Result}
    (exchanged : (ofExcept one : Program Call Answer Err Result).Exchanges calls (.ofExcept other)) :
    calls = [] ∧ other = one := by
  cases one with
  | ok result =>
    cases other with
    | ok value =>
      cases exchanged
      exact ⟨rfl, rfl⟩
    | error error => cases exchanged
  | error error =>
    cases other with
    | ok value => cases exchanged
    | error error =>
      cases exchanged
      exact ⟨rfl, rfl⟩

theorem Exchanges.of_done {result : Result} {outcome : Except Err Result}
    (exchanged : (done result : Program Call Answer Err Result).Exchanges calls (.ofExcept outcome)) :
    calls = [] ∧ outcome = .ok result :=
  @of_ofExcept _ _ _ _ _ (.ok result) _ exchanged

theorem Exchanges.of_fail {error : Err} {outcome : Except Err Result}
    (exchanged : (fail error : Program Call Answer Err Result).Exchanges calls (.ofExcept outcome)) :
    calls = [] ∧ outcome = .error error :=
  @of_ofExcept _ _ _ _ _ (.error error) _ exchanged

/-- Where every call can be answered, what was begun can be brought to an end. -/
theorem Exchanges.completes (answered : ∀ request, Nonempty (Answer request)) (exchanged : program.Exchanges calls left) :
    ∃ more outcome, program.Exchanges (calls ++ more) (.ofExcept outcome) := by
  induction exchanged with
  | here program =>
    induction program with
    | done result => exact ⟨[], .ok result, .here _⟩
    | fail error => exact ⟨[], .error error, .here _⟩
    | call request next ih =>
      obtain ⟨answer⟩ := answered request
      obtain ⟨more, outcome, later⟩ := ih answer
      exact ⟨⟨request, answer⟩ :: more, outcome, .call later⟩
  | call _ ih =>
    obtain ⟨more, outcome, later⟩ := ih
    exact ⟨more, outcome, .call later⟩

/-- A sequence that has ended: its first part has, and then its second part or the first with an error. -/
theorem Exchanges.of_bind {Next : Type} {program : Program Call Answer Err Result}
    {rest : Result → Program Call Answer Err Next} {outcome : Except Err Next}
    (exchanged : (program >>= rest).Exchanges calls (.ofExcept outcome)) :
    (∃ result first second, calls = first ++ second ∧ program.Exchanges first (.done result) ∧
      (rest result).Exchanges second (.ofExcept outcome)) ∨
    ∃ error, outcome = .error error ∧ program.Exchanges calls (.fail error) := by
  induction program generalizing calls with
  | done result => exact .inl ⟨result, [], calls, rfl, .here _, exchanged⟩
  | fail error =>
    cases outcome with
    | ok value => cases exchanged
    | error other =>
      cases exchanged
      exact .inr ⟨_, rfl, .here _⟩
  | call request answered ih =>
    cases outcome with
    | ok value =>
      cases exchanged with
      | call later =>
        obtain ⟨result, first, second, rfl, one, two⟩ | ⟨error, same, one⟩ := ih _ later
        · exact .inl ⟨result, _ :: first, second, rfl, .call one, two⟩
        · exact .inr ⟨error, same, .call one⟩
    | error error =>
      cases exchanged with
      | call later =>
        obtain ⟨result, first, second, rfl, one, two⟩ | ⟨error, same, one⟩ := ih _ later
        · exact .inl ⟨result, _ :: first, second, rfl, .call one, two⟩
        · exact .inr ⟨error, same, .call one⟩

end Program

/-- How a task has ended. -/
inductive Ending (Err Result Fault : Type) where
  | returned (outcome : Except Err Result)
  | panicked (fault : Fault)

/-- Where a task stands: it waits for a permit, holds one, or has ended. -/
inductive TaskStage (Call : Type) (Answer : Call → Type) (Err Result Fault : Type) where
  | waiting
  | running (rest : Program Call Answer Err Result)
  | ended (ending : Ending Err Result Fault)

/-- The tasks of a set, what was joined of them, and for the record of the run only, their calls. -/
structure TaskSet (n : Nat) (Call : Type) (Answer : Call → Type) (Err Result Fault : Type) where
  stage : Fin n → TaskStage Call Answer Err Result Fault
  calls : Fin n → List (Exchanged Call Answer)
  joined : List (Fin n × Ending Err Result Fault)

/-- The programs of the tasks, and how many may run at a time. -/
structure Tasks (n : Nat) (Call : Type) (Answer : Call → Type) (Err Result : Type) where
  program : Fin n → Program Call Answer Err Result
  permits : Nat

def TaskStage.isRunning : TaskStage Call Answer Err Result Fault → Bool
  | .running _ => true
  | _ => false

namespace TaskSet

variable {n : Nat}

def running (set : TaskSet n Call Answer Err Result Fault) : Finset (Fin n) :=
  Finset.univ.filter fun task => (set.stage task).isRunning = true

theorem mem_running {set : TaskSet n Call Answer Err Result Fault} {task : Fin n} :
    task ∈ set.running ↔ (set.stage task).isRunning = true := by
  rw [running, Finset.mem_filter, and_iff_right (Finset.mem_univ task)]

def Joined (set : TaskSet n Call Answer Err Result Fault) (task : Fin n) : Prop := task ∈ set.joined.map Prod.fst

instance (set : TaskSet n Call Answer Err Result Fault) (task : Fin n) : Decidable (set.Joined task) :=
  inferInstanceAs (Decidable (task ∈ set.joined.map Prod.fst))

def move (set : TaskSet n Call Answer Err Result Fault) (task : Fin n) (stage : TaskStage Call Answer Err Result Fault)
    (calls : List (Exchanged Call Answer)) : TaskSet n Call Answer Err Result Fault :=
  { set with
    stage := Function.update set.stage task stage
    calls := Function.update set.calls task (set.calls task ++ calls) }

end TaskSet

namespace Tasks

variable {n : Nat} (tasks : Tasks n Call Answer Err Result)

inductive Step : TaskSet n Call Answer Err Result Fault → TaskSet n Call Answer Err Result Fault → Prop where
  | acquire {set : TaskSet n Call Answer Err Result Fault} (task : Fin n) (waits : set.stage task = .waiting)
      (free : set.running.card < tasks.permits) : Step set (set.move task (.running (tasks.program task)) [])
  | call {set : TaskSet n Call Answer Err Result Fault} (task : Fin n) {request : Call}
      {next : Answer request → Program Call Answer Err Result} (asks : set.stage task = .running (.call request next))
      (answer : Answer request) : Step set (set.move task (.running (next answer)) [⟨request, answer⟩])
  | finish {set : TaskSet n Call Answer Err Result Fault} (task : Fin n) (outcome : Except Err Result)
      (ends : set.stage task = .running (.ofExcept outcome)) : Step set (set.move task (.ended (.returned outcome)) [])
  | panic {set : TaskSet n Call Answer Err Result Fault} (task : Fin n) {rest : Program Call Answer Err Result}
      (works : set.stage task = .running rest) (fault : Fault) : Step set (set.move task (.ended (.panicked fault)) [])
  | join {set : TaskSet n Call Answer Err Result Fault} (task : Fin n) {ending : Ending Err Result Fault}
      (ended : set.stage task = .ended ending) (fresh : ¬set.Joined task) :
      Step set { set with joined := set.joined ++ [(task, ending)] }

/-- Every task spawned, none with a permit. -/
def runs : Transitions (TaskSet n Call Answer Err Result Fault) where
  initial set := (∀ task, set.stage task = .waiting) ∧ (∀ task, set.calls task = []) ∧ set.joined = []
  step := tasks.Step

variable {tasks} {set after : TaskSet n Call Answer Err Result Fault}

/-- What a stage says about the calls of the task so far. -/
def StageSound (program : Program Call Answer Err Result) (calls : List (Exchanged Call Answer)) :
    TaskStage Call Answer Err Result Fault → Prop
  | .waiting => calls = []
  | .running rest => program.Exchanges calls rest
  | .ended (.returned outcome) => program.Exchanges calls (.ofExcept outcome)
  | .ended (.panicked _) => ∃ rest, program.Exchanges calls rest

structure Sound (tasks : Tasks n Call Answer Err Result) (set : TaskSet n Call Answer Err Result Fault) : Prop where
  bounded : set.running.card ≤ tasks.permits
  stages : ∀ task, StageSound (tasks.program task) (set.calls task) (set.stage task)
  once : (set.joined.map Prod.fst).Nodup
  joined : ∀ task ending, (task, ending) ∈ set.joined → set.stage task = .ended ending

theorem Sound.staged (sound : Sound tasks set) {task : Fin n} {stage : TaskStage Call Answer Err Result Fault}
    (stands : set.stage task = stage) : StageSound (tasks.program task) (set.calls task) stage :=
  stands ▸ sound.stages task

/-- Whatever became of a task, its calls are those of a beginning of its program. -/
theorem Sound.begun (sound : Sound tasks set) (task : Fin n) :
    ∃ rest, (tasks.program task).Exchanges (set.calls task) rest := by
  cases stage : set.stage task with
  | waiting =>
    have silent : set.calls task = [] := sound.staged stage
    exact ⟨_, silent ▸ Program.Exchanges.here _⟩
  | running rest => exact ⟨rest, sound.staged stage⟩
  | ended ending =>
    cases ending with
    | returned outcome => exact ⟨_, sound.staged stage⟩
    | panicked fault => exact sound.staged stage

theorem running_move (set : TaskSet n Call Answer Err Result Fault) (task : Fin n)
    (stage : TaskStage Call Answer Err Result Fault) (calls : List (Exchanged Call Answer)) :
    (set.move task stage calls).running =
      if stage.isRunning = true then insert task set.running else set.running.erase task := by
  ext other
  rw [TaskSet.mem_running]
  by_cases same : other = task
  · subst same
    by_cases runs : stage.isRunning = true
    · simp [TaskSet.move, runs]
    · simp [TaskSet.move, runs]
  · by_cases runs : stage.isRunning = true
    · simp [TaskSet.mem_running, TaskSet.move, runs, same]
    · simp [TaskSet.mem_running, TaskSet.move, runs, same]

/-- One task moves on; it was not joined, and its new stage agrees with its calls. -/
theorem Sound.move (sound : Sound tasks set) {task : Fin n} {stage : TaskStage Call Answer Err Result Fault}
    {calls : List (Exchanged Call Answer)} (bounded : (set.move task stage calls).running.card ≤ tasks.permits)
    (open_ : ∀ ending, set.stage task ≠ .ended ending)
    (here : StageSound (tasks.program task) (set.calls task ++ calls) stage) : Sound tasks (set.move task stage calls) := by
  refine ⟨bounded, ?_, sound.once, ?_⟩
  · intro other
    by_cases same : other = task
    · subst same
      simpa [TaskSet.move] using here
    · simpa [TaskSet.move, same] using sound.stages other
  · intro other ending member
    have stands := sound.joined other ending member
    have apart : other ≠ task := by
      rintro rfl
      exact open_ ending stands
    simpa [TaskSet.move, apart] using stands

theorem Sound.step (sound : Sound tasks set) (step : tasks.Step set after) : Sound tasks after := by
  cases step with
  | acquire task waits free =>
    have silent : set.calls task = [] := sound.staged waits
    refine sound.move ?_ (by simp [waits]) ?_
    · rw [running_move]
      exact (Finset.card_insert_le _ _).trans free
    · rw [silent]
      exact .here _
  | @call task request next asks answer =>
    refine sound.move ?_ (by simp [asks]) ((sound.staged asks).step answer)
    have works : task ∈ set.running := by
      rw [TaskSet.mem_running, asks]
      rfl
    have same : (set.move task (.running (next answer)) [⟨request, answer⟩]).running = insert task set.running :=
      running_move ..
    rw [same, Finset.insert_eq_of_mem works]
    exact sound.bounded
  | finish task outcome ends =>
    refine sound.move ?_ (by simp [ends]) ?_
    · rw [running_move]
      exact Finset.card_erase_le.trans sound.bounded
    · have exchanged : (tasks.program task).Exchanges (set.calls task) (.ofExcept outcome) := sound.staged ends
      rw [List.append_nil]
      exact exchanged
  | @panic task rest works fault =>
    refine sound.move ?_ (by simp [works]) ?_
    · rw [running_move]
      exact Finset.card_erase_le.trans sound.bounded
    · rw [List.append_nil]
      exact ⟨rest, sound.staged works⟩
  | @join task ending ended fresh =>
    refine ⟨sound.bounded, sound.stages, ?_, ?_⟩
    · rw [List.map_append, List.nodup_append]
      refine ⟨sound.once, List.nodup_singleton _, ?_⟩
      rintro other among _ last rfl
      rw [List.map_singleton, List.mem_singleton] at last
      subst last
      exact fresh among
    · intro other told member
      obtain old | new := List.mem_append.mp member
      · exact sound.joined other told old
      · cases List.mem_singleton.mp new
        exact ended

theorem sound_of_reachable (reached : tasks.runs.Reachable set) : Sound tasks set := by
  apply reached.invariant
  · rintro start ⟨waiting, silent, empty⟩
    refine ⟨?_, ?_, ?_, ?_⟩
    · have none : start.running = ∅ := by
        refine Finset.eq_empty_of_forall_notMem fun task works => ?_
        rw [TaskSet.mem_running, waiting] at works
        cases works
      rw [none, Finset.card_empty]
      exact Nat.zero_le _
    · intro task
      rw [waiting]
      exact silent task
    · rw [empty]
      exact List.nodup_nil
    · intro task ending member
      rw [empty] at member
      cases member
  · exact fun before after sound step => sound.step step

/-! ### Every run comes to its end -/

/-- The steps that a task can still take, when its program makes at most so many calls. -/
def stepsOf (limit : Nat) (set : TaskSet n Call Answer Err Result Fault) (task : Fin n) : Nat :=
  match set.stage task with
  | .waiting => limit + 3
  | .running _ => limit - (set.calls task).length + 2
  | .ended _ => if set.Joined task then 0 else 1

def stepsLeft (limit : Nat) (set : TaskSet n Call Answer Err Result Fault) : Nat :=
  ∑ task, stepsOf limit set task

theorem stepsLeft_le (limit : Nat) (set : TaskSet n Call Answer Err Result Fault) : stepsLeft limit set ≤ n * (limit + 3) := by
  have each (task : Fin n) : stepsOf limit set task ≤ limit + 3 := by
    unfold stepsOf
    split
    · exact Nat.le_refl _
    · omega
    · split <;> omega
  have bounded := Finset.sum_le_card_nsmul Finset.univ (stepsOf limit set) (limit + 3) fun task _ => each task
  rwa [Finset.card_univ, Fintype.card_fin, smul_eq_mul] at bounded

/-- A step is one task's. -/
theorem stepsLeft_lt {limit : Nat} (task : Fin n) (others : ∀ other, other ≠ task → stepsOf limit after other = stepsOf limit set other)
    (less : stepsOf limit after task < stepsOf limit set task) : stepsLeft limit after < stepsLeft limit set := by
  refine Finset.sum_lt_sum (fun other _ => ?_) ⟨task, Finset.mem_univ _, less⟩
  by_cases same : other = task
  · exact same ▸ less.le
  · exact (others other same).le

theorem stepsOf_move {limit : Nat} (task : Fin n) (stage : TaskStage Call Answer Err Result Fault)
    (calls : List (Exchanged Call Answer)) (other : Fin n) (apart : other ≠ task) :
    stepsOf limit (set.move task stage calls) other = stepsOf limit set other := by
  have stands : (set.move task stage calls).stage other = set.stage other := by simp [TaskSet.move, apart]
  have same : (set.move task stage calls).calls other = set.calls other := by simp [TaskSet.move, apart]
  unfold stepsOf
  rw [stands, same]
  rfl

theorem stepsOf_ended {limit : Nat} (task : Fin n) (ending : Ending Err Result Fault) (calls : List (Exchanged Call Answer)) :
    stepsOf limit (set.move task (.ended ending) calls) task ≤ 1 := by
  have stands : (set.move task (.ended ending) calls).stage task = .ended ending := by simp [TaskSet.move]
  rw [stepsOf, stands]
  by_cases last : (set.move task (.ended ending) calls).Joined task
  · simp [last]
  · simp [last]

theorem Sound.stepsLeft_step (sound : Sound tasks set) {limit : Nat} (within : ∀ task, (tasks.program task).Within limit)
    (step : tasks.Step set after) : stepsLeft limit after < stepsLeft limit set := by
  cases step with
  | acquire task waits free =>
    refine stepsLeft_lt task (stepsOf_move task _ _) ?_
    have silent : set.calls task = [] := sound.staged waits
    simp [stepsOf, TaskSet.move, waits, silent]
  | @call task request next asks answer =>
    refine stepsLeft_lt task (stepsOf_move task _ _) ?_
    have bounded := (sound.staged asks).length_lt (within task)
    simp only [stepsOf, TaskSet.move, asks, Function.update_self, List.length_append, List.length_singleton]
    omega
  | finish task outcome ends =>
    refine stepsLeft_lt task (stepsOf_move task _ _) ?_
    have before : stepsOf limit set task = limit - (set.calls task).length + 2 := by rw [stepsOf, ends]
    exact before ▸ Nat.lt_of_le_of_lt (stepsOf_ended task _ []) (by omega)
  | @panic task rest works fault =>
    refine stepsLeft_lt task (stepsOf_move task _ _) ?_
    have before : stepsOf limit set task = limit - (set.calls task).length + 2 := by rw [stepsOf, works]
    exact before ▸ Nat.lt_of_le_of_lt (stepsOf_ended task _ []) (by omega)
  | @join task ending ended fresh =>
    refine stepsLeft_lt task ?_ ?_
    · intro other apart
      have same : TaskSet.Joined { set with joined := set.joined ++ [(task, ending)] } other ↔ set.Joined other := by
        simp [TaskSet.Joined, apart]
      unfold stepsOf
      simp only [same]
    · have last : TaskSet.Joined { set with joined := set.joined ++ [(task, ending)] } task := by
        simp [TaskSet.Joined]
      simp only [stepsOf, ended, last, fresh, if_true, if_false]
      exact Nat.zero_lt_one

/-- Until every task is joined, some step is possible. -/
theorem enabled (answered : ∀ request, Nonempty (Answer request)) (permitted : 0 < tasks.permits) {task : Fin n}
    (open_ : ¬set.Joined task) : ∃ after, tasks.Step set after := by
  have busy (other : Fin n) (rest : Program Call Answer Err Result) (works : set.stage other = .running rest) :
      ∃ after, tasks.Step set after := by
    cases rest with
    | done result => exact ⟨_, .finish other (.ok result) works⟩
    | fail error => exact ⟨_, .finish other (.error error) works⟩
    | call request next =>
      obtain ⟨answer⟩ := answered request
      exact ⟨_, .call other works answer⟩
  cases stands : set.stage task with
  | ended ending => exact ⟨_, .join task stands open_⟩
  | running rest => exact busy task rest stands
  | waiting =>
    by_cases idle : set.running = ∅
    · exact ⟨_, .acquire task stands (by rwa [idle, Finset.card_empty])⟩
    · obtain ⟨other, works⟩ := Finset.nonempty_of_ne_empty idle
      rw [TaskSet.mem_running] at works
      cases there : set.stage other with
      | waiting => cases there ▸ works
      | ended ending => cases there ▸ works
      | running rest => exact busy other rest there

/-- When all are joined, each is, once, with its ending. -/
theorem Sound.perm_joined (sound : Sound tasks set) (all : ∀ task, set.Joined task) :
    (set.joined.map Prod.fst).Perm (List.finRange n) :=
  (List.perm_ext_iff_of_nodup sound.once (List.nodup_finRange n)).mpr fun task =>
    ⟨fun _ => List.mem_finRange task, fun _ => all task⟩

end Tasks
end SkillLayer

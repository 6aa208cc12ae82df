import Mathlib.Logic.Function.Basic
import SkillLayer.Program
import SkillLayer.Runs

/-! Threads that run programs over one world, call by call in any interleaving. -/

namespace SkillLayer

variable {Task Call Result World Ledger : Type} {Answer : Call → Type}

open scoped List in
/-- What is found in order in a longer list was found in it before, or ends with its last item. -/
theorem sublist_concat {Item : Type} (first : List Item) {items : List Item} {item last : Item}
    (ordered : first ++ [item] <+ items ++ [last]) : first ++ [item] <+ items ∨ (first <+ items ∧ item = last) := by
  have reversed := List.reverse_sublist.mpr ordered
  rw [List.reverse_append, List.reverse_append, List.reverse_singleton, List.reverse_singleton,
    List.singleton_append, List.singleton_append] at reversed
  rcases List.sublist_cons_iff.mp reversed with within | ⟨rest, same, within⟩
  · left
    apply List.reverse_sublist.mp
    rwa [List.reverse_append, List.reverse_singleton, List.singleton_append]
  · obtain ⟨rfl, rfl⟩ := List.cons.inj same
    exact .inr ⟨List.reverse_sublist.mp within, rfl⟩

/-- What happens in a run: a task is started, makes a call, returns. -/
inductive Moment (Task Call : Type) (Answer : Call → Type) (Result : Type) where
  | started (id : Nat) (task : Task)
  | called (id : Nat) (request : Call) (answer : Answer request)
  | returned (id : Nat) (result : Result)

/-- The world, the running threads with their tasks and what is left of their programs, and
for the record of the run only, all that has happened, in order. -/
structure Pool (Task Call : Type) (Answer : Call → Type) (Result World : Type) where
  world : World
  running : Nat → Option (Task × Program Call Answer Empty Result)
  trace : List (Moment Task Call Answer Result)

/-- Which worlds a run begins with, the program of a task, which tasks may be started, and
which answers a call may get. -/
structure Threads (Task Call : Type) (Answer : Call → Type) (Result World : Type) where
  initial : World → Prop
  program : Task → Program Call Answer Empty Result
  mayStart : Pool Task Call Answer Result World → Task → Prop
  answers : Nat → (request : Call) → World → Answer request → World → Prop

namespace Pool

/-- The id belongs to no thread, running or returned. -/
def Fresh (pool : Pool Task Call Answer Result World) (id : Nat) : Prop :=
  pool.running id = none ∧ ∀ task, Moment.started id task ∉ pool.trace

def Idle (pool : Pool Task Call Answer Result World) : Prop := ∀ id, pool.running id = none

def start (pool : Pool Task Call Answer Result World) (id : Nat) (task : Task)
    (program : Program Call Answer Empty Result) : Pool Task Call Answer Result World where
  world := pool.world
  running := Function.update pool.running id (some (task, program))
  trace := pool.trace ++ [.started id task]

def answer (pool : Pool Task Call Answer Result World) (id : Nat) (task : Task) (request : Call)
    (answer : Answer request) (rest : Program Call Answer Empty Result) (world : World) :
    Pool Task Call Answer Result World where
  world := world
  running := Function.update pool.running id (some (task, rest))
  trace := pool.trace ++ [.called id request answer]

def finish (pool : Pool Task Call Answer Result World) (id : Nat) (result : Result) :
    Pool Task Call Answer Result World where
  world := pool.world
  running := Function.update pool.running id none
  trace := pool.trace ++ [.returned id result]

section

variable (pool : Pool Task Call Answer Result World) (id : Nat) (task : Task) (request : Call)
  (given : Answer request) (rest : Program Call Answer Empty Result) (world : World) (result : Result)

@[simp] theorem world_start : (pool.start id task rest).world = pool.world := rfl

@[simp] theorem running_start :
    (pool.start id task rest).running = Function.update pool.running id (some (task, rest)) := rfl

@[simp] theorem trace_start : (pool.start id task rest).trace = pool.trace ++ [.started id task] := rfl

@[simp] theorem world_answer : (pool.answer id task request given rest world).world = world := rfl

@[simp] theorem running_answer :
    (pool.answer id task request given rest world).running =
      Function.update pool.running id (some (task, rest)) := rfl

@[simp] theorem trace_answer :
    (pool.answer id task request given rest world).trace = pool.trace ++ [.called id request given] := rfl

@[simp] theorem world_finish : (pool.finish id result).world = pool.world := rfl

@[simp] theorem running_finish :
    (pool.finish id result).running = Function.update pool.running id none := rfl

@[simp] theorem trace_finish : (pool.finish id result).trace = pool.trace ++ [.returned id result] := rfl

end

end Pool

namespace Threads

variable (threads : Threads Task Call Answer Result World)

inductive Step : Pool Task Call Answer Result World → Pool Task Call Answer Result World → Prop where
  | started {pool : Pool Task Call Answer Result World} (id : Nat) (task : Task) (fresh : pool.Fresh id)
      (may : threads.mayStart pool task) : Step pool (pool.start id task (threads.program task))
  | called {pool : Pool Task Call Answer Result World} (id : Nat) {task : Task} {request : Call}
      {next : Answer request → Program Call Answer Empty Result}
      (here : pool.running id = some (task, .call request next)) {answer : Answer request} {world : World}
      (answered : threads.answers id request pool.world answer world) :
      Step pool (pool.answer id task request answer (next answer) world)
  | returned {pool : Pool Task Call Answer Result World} (id : Nat) {task : Task} {result : Result}
      (here : pool.running id = some (task, .done result)) : Step pool (pool.finish id result)

def runs : Transitions (Pool Task Call Answer Result World) where
  initial pool := threads.initial pool.world ∧ pool.Idle ∧ pool.trace = []
  step := threads.Step

variable {threads}

theorem Step.extends_trace {before after : Pool Task Call Answer Result World}
    (step : threads.Step before after) : ∃ moment, after.trace = before.trace ++ [moment] := by
  cases step with
  | started id task => exact ⟨_, rfl⟩
  | called id => exact ⟨_, rfl⟩
  | returned id => exact ⟨_, rfl⟩

/-- An id stands for one task. -/
theorem started_unique {pool : Pool Task Call Answer Result World} (reached : threads.runs.Reachable pool)
    {id : Nat} {task other : Task} (one : .started id task ∈ pool.trace)
    (two : .started id other ∈ pool.trace) : task = other := by
  revert id task other
  apply reached.invariant
  · intro pool start id task other one
    rw [start.2.2] at one
    cases one
  · intro before after unique step id task other one two
    cases step with
    | started moved new fresh may =>
      rw [Pool.trace_start, List.mem_append, List.mem_singleton] at one two
      rcases one with one | one
      · rcases two with two | two
        · exact unique one two
        · cases two
          exact absurd one (fresh.2 task)
      · cases one
        rcases two with two | two
        · exact absurd two (fresh.2 other)
        · cases two
          rfl
    | called moved here answered =>
      rw [Pool.trace_answer, List.mem_append, List.mem_singleton] at one two
      rcases one with one | one
      · rcases two with two | two
        · exact unique one two
        · cases two
      · cases one
    | returned moved here =>
      rw [Pool.trace_finish, List.mem_append, List.mem_singleton] at one two
      rcases one with one | one
      · rcases two with two | two
        · exact unique one two
        · cases two
      · cases one

/-- Whatever happened in a run, happened in a step from a pool that was reached before it. -/
theorem stepped {pool : Pool Task Call Answer Result World} (reached : threads.runs.Reachable pool)
    {before after : List (Moment Task Call Answer Result)} {moment : Moment Task Call Answer Result}
    (split : pool.trace = before ++ moment :: after) :
    ∃ earlier next, threads.runs.Reachable earlier ∧ threads.Step earlier next ∧ earlier.trace = before ∧
      next.trace = before ++ [moment] := by
  obtain ⟨start, initial, run⟩ := reached
  induction run generalizing after with
  | refl =>
    rw [initial.2.2] at split
    exact absurd split.symm (List.append_ne_nil_of_right_ne_nil before (List.cons_ne_nil moment after))
  | @tail pool later run step ih =>
    obtain ⟨last, extended⟩ := Step.extends_trace step
    rcases List.eq_nil_or_concat after with rfl | ⟨middle, final, rfl⟩
    · obtain ⟨same, -⟩ := List.append_inj' (extended.symm.trans split) rfl
      exact ⟨pool, later, ⟨start, initial, run⟩, step, same, split⟩
    · have whole : pool.trace ++ [last] = (before ++ moment :: middle) ++ [final] := by
        rw [← extended, split]
        simp
      exact ih (List.append_inj' whole rfl).1

/-- Whoever runs was started. -/
theorem running_started {pool : Pool Task Call Answer Result World} (reached : threads.runs.Reachable pool)
    {id : Nat} {task : Task} {rest : Program Call Answer Empty Result}
    (here : pool.running id = some (task, rest)) : .started id task ∈ pool.trace := by
  revert id task rest
  apply reached.invariant
  · intro pool start id task rest here
    cases (start.2.1 id).symm.trans here
  · intro before after known step id task rest here
    obtain ⟨moment, extended⟩ := Step.extends_trace step
    rw [extended, List.mem_append, List.mem_singleton]
    cases step with
    | started moved new fresh may =>
      by_cases same : id = moved
      · subst same
        rw [Pool.running_start, Function.update_self] at here
        cases here
        exact .inr (List.singleton_inj.mp (List.append_inj' extended rfl).2)
      · rw [Pool.running_start, Function.update_of_ne same] at here
        exact .inl (known here)
    | called moved running answered =>
      by_cases same : id = moved
      · subst same
        rw [Pool.running_answer, Function.update_self] at here
        cases here
        exact .inl (known running)
      · rw [Pool.running_answer, Function.update_of_ne same] at here
        exact .inl (known here)
    | returned moved running =>
      by_cases same : id = moved
      · subst same
        rw [Pool.running_finish, Function.update_self] at here
        cases here
      · rw [Pool.running_finish, Function.update_of_ne same] at here
        exact .inl (known here)

/-- A run passed through every beginning of what happened in it. -/
theorem reached_before {pool : Pool Task Call Answer Result World} (reached : threads.runs.Reachable pool)
    {before : List (Moment Task Call Answer Result)} (begins : before <+: pool.trace) :
    ∃ earlier, threads.runs.Reachable earlier ∧ earlier.trace = before := by
  obtain ⟨after, split⟩ := begins
  cases after with
  | nil => exact ⟨pool, reached, by rw [← split, List.append_nil]⟩
  | cons moment after =>
    obtain ⟨earlier, -, reachedThen, -, same, -⟩ := stepped reached split.symm
    exact ⟨earlier, reachedThen, same⟩

/-- A call in a run was answered in a pool that was reached before it. -/
theorem answered {pool : Pool Task Call Answer Result World} (reached : threads.runs.Reachable pool)
    {before after : List (Moment Task Call Answer Result)} {id : Nat} {request : Call} {answer : Answer request}
    (split : pool.trace = before ++ .called id request answer :: after) :
    ∃ earlier task next world, threads.runs.Reachable earlier ∧ earlier.trace = before ∧
      earlier.running id = some (task, .call request next) ∧
      threads.answers id request earlier.world answer world := by
  obtain ⟨earlier, next, reachedThen, step, same, extended⟩ := stepped reached split
  rw [← same] at extended
  cases step with
  | started => cases (List.append_inj' extended rfl).2
  | returned => cases (List.append_inj' extended rfl).2
  | called other here given =>
    cases (List.append_inj' extended rfl).2
    exact ⟨earlier, _, _, _, reachedThen, same, here, given⟩

/-- Whoever called or returned was started. -/
theorem moved_started {pool : Pool Task Call Answer Result World} (reached : threads.runs.Reachable pool)
    {id : Nat} {moment : Moment Task Call Answer Result} (member : moment ∈ pool.trace)
    (moved : (∃ request answer, moment = .called id request answer) ∨ ∃ result, moment = .returned id result) :
    ∃ task, .started id task ∈ pool.trace := by
  obtain ⟨before, after, split⟩ := List.append_of_mem member
  obtain ⟨earlier, next, reachedThen, step, rfl, extended⟩ := stepped reached split
  have grown : earlier.trace ⊆ pool.trace := split ▸ List.subset_append_left ..
  cases step with
  | started other task =>
    obtain rfl : Moment.started other task = moment := List.singleton_inj.mp (List.append_inj' extended rfl).2
    rcases moved with ⟨request, answer, same⟩ | ⟨result, same⟩ <;> cases same
  | called other here answered =>
    obtain rfl : Moment.called other _ _ = moment := List.singleton_inj.mp (List.append_inj' extended rfl).2
    rcases moved with ⟨request, answer, same⟩ | ⟨result, same⟩ <;> cases same
    exact ⟨_, grown (running_started reachedThen here)⟩
  | returned other here =>
    obtain rfl : Moment.returned other _ = moment := List.singleton_inj.mp (List.append_inj' extended rfl).2
    rcases moved with ⟨request, answer, same⟩ | ⟨result, same⟩ <;> cases same
    exact ⟨_, grown (running_started reachedThen here)⟩

/-- A thread that has returned is not running. -/
theorem returned_idle {pool : Pool Task Call Answer Result World} (reached : threads.runs.Reachable pool)
    {id : Nat} {result : Result} (returned : .returned id result ∈ pool.trace) : pool.running id = none := by
  have known : threads.runs.Reachable pool ∧
      ∀ id result, .returned id result ∈ pool.trace → pool.running id = none := by
    apply reached.invariant
    · intro pool start
      refine ⟨.start start, fun id result member => ?_⟩
      rw [start.2.2] at member
      cases member
    · intro before after known step
      obtain ⟨reachedThen, idle⟩ := known
      refine ⟨reachedThen.next step, fun id result member => ?_⟩
      cases step with
      | started moved task fresh may =>
        rcases List.mem_append.mp member with old | last
        · by_cases same : id = moved
          · subst same
            obtain ⟨other, started⟩ := moved_started reachedThen old (.inr ⟨result, rfl⟩)
            exact absurd started (fresh.2 other)
          · rw [Pool.running_start, Function.update_of_ne same, idle id result old]
        · cases List.mem_singleton.mp last
      | called moved here answered =>
        rcases List.mem_append.mp member with old | last
        · by_cases same : id = moved
          · subst same
            cases (idle id result old).symm.trans here
          · rw [Pool.running_answer, Function.update_of_ne same, idle id result old]
        · cases List.mem_singleton.mp last
      | returned moved here =>
        by_cases same : id = moved
        · rw [same, Pool.running_finish, Function.update_self]
        · rw [Pool.running_finish, Function.update_of_ne same]
          rcases List.mem_append.mp member with old | last
          · exact idle id result old
          · exact absurd (Moment.returned.inj (List.mem_singleton.mp last)).1 same
  exact known.2 id result returned

section Written

variable {world : World} {running : Nat → Option (Task × Program Call Answer Empty Result)}
  {trace : List (Moment Task Call Answer Result)}
  (reached : threads.runs.Reachable ⟨world, running, trace⟩) (id : Nat)

include reached

/-! A run written down step by step. -/

theorem next_started (task : Task) (fresh : Pool.Fresh ⟨world, running, trace⟩ id)
    (may : threads.mayStart ⟨world, running, trace⟩ task) :
    threads.runs.Reachable ⟨world, Function.update running id (some (task, threads.program task)),
      trace ++ [.started id task]⟩ :=
  reached.next (.started id task fresh may)

theorem next_called (request : Call) (answer : Answer request) (after : World)
    (answered : threads.answers id request world answer after) {task : Task}
    {next : Answer request → Program Call Answer Empty Result}
    (here : running id = some (task, .call request next)) :
    threads.runs.Reachable ⟨after, Function.update running id (some (task, next answer)),
      trace ++ [.called id request answer]⟩ :=
  reached.next (.called id here answered)

theorem next_returned (result : Result) {task : Task} (here : running id = some (task, .done result)) :
    threads.runs.Reachable ⟨world, Function.update running id none, trace ++ [.returned id result]⟩ :=
  reached.next (.returned id here)

end Written

section Alone

variable {serve : Nat → (request : Call) → World → Answer request × World} {id : Nat}
  (served : ∀ calls request world,
    threads.answers id request world (serve calls request world).1 (serve calls request world).2)

include served

/-- A thread may run to its end with no other thread in between. -/
theorem runs_alone {pool : Pool Task Call Answer Result World} (reached : threads.runs.Reachable pool)
    {task : Task} {rest : Program Call Answer Empty Result} (here : pool.running id = some (task, rest))
    {calls : Nat} {finished : Finished Empty Result World} (ran : rest.run serve calls pool.world = finished)
    {result : Result} (ended : finished.outcome = .ok result) :
    ∃ moments, (∀ moment ∈ moments, ∃ request answer, moment = Moment.called id request answer) ∧
      threads.runs.Reachable ⟨finished.world, Function.update pool.running id none,
        pool.trace ++ moments ++ [.returned id result]⟩ := by
  induction rest generalizing pool calls with
  | done value =>
    obtain rfl := ran
    obtain rfl : value = result := Except.ok.inj ended
    refine ⟨[], nofun, ?_⟩
    rw [List.append_nil]
    exact reached.next (.returned id here)
  | fail error => exact error.elim
  | call request next ih =>
    have step := reached.next (.called id here (served calls request pool.world))
    obtain ⟨moments, own, last⟩ := ih _ step (by simp) ran
    refine ⟨.called id request (serve calls request pool.world).1 :: moments, ?_, ?_⟩
    · intro moment member
      rcases List.mem_cons.mp member with rfl | later
      · exact ⟨request, _, rfl⟩
      · exact own moment later
    · simpa using last

theorem starts_alone {pool : Pool Task Call Answer Result World} (reached : threads.runs.Reachable pool)
    (task : Task) (fresh : pool.Fresh id) (may : threads.mayStart pool task)
    {finished : Finished Empty Result World} (ran : (threads.program task).run serve 0 pool.world = finished)
    {result : Result} (ended : finished.outcome = .ok result) :
    ∃ moments, (∀ moment ∈ moments, ∃ request answer, moment = Moment.called id request answer) ∧
      threads.runs.Reachable ⟨finished.world, pool.running,
        pool.trace ++ .started id task :: moments ++ [.returned id result]⟩ := by
  have here : (pool.start id task (threads.program task)).running id =
      some (task, threads.program task) := by
    rw [Pool.running_start, Function.update_self]
  obtain ⟨moments, own, last⟩ := runs_alone served (reached.next (.started id task fresh may)) here ran ended
  refine ⟨moments, own, ?_⟩
  have running : Function.update pool.running id none = pool.running := by
    rw [← fresh.1, Function.update_eq_self]
  simpa [running] using last

/-- A task from its start to its return, with no other thread in between. -/
theorem turn {pool : Pool Task Call Answer Result World} (reached : threads.runs.Reachable pool) (task : Task)
    (fresh : pool.Fresh id) (may : threads.mayStart pool task) {finished : Finished Empty Result World}
    (ran : (threads.program task).run serve 0 pool.world = finished) {result : Result}
    (ended : finished.outcome = .ok result) :
    ∃ later : Pool Task Call Answer Result World, threads.runs.Reachable later ∧
      later.world = finished.world ∧ pool.trace <+: later.trace ∧ .started id task ∈ later.trace ∧
      .returned id result ∈ later.trace ∧ ∀ other, other ≠ id → pool.Fresh other → later.Fresh other := by
  obtain ⟨moments, own, last⟩ := starts_alone served reached task fresh may ran ended
  refine ⟨_, last, rfl, ?_, ?_, ?_, ?_⟩
  · rw [List.append_assoc]
    exact List.prefix_append ..
  · simp
  · simp
  · intro other apart unused
    refine ⟨unused.1, fun started member => ?_⟩
    rcases List.mem_append.mp member with member | last
    · rcases List.mem_append.mp member with before | member
      · exact unused.2 started before
      · rcases List.mem_cons.mp member with same | called
        · exact apart (Moment.started.inj same).1
        · obtain ⟨request, answer, same⟩ := own _ called
          cases same
    · cases List.mem_singleton.mp last

end Alone

/-- The running threads keep to a discipline, each with its own ledger. -/
def Keeps (discipline : Discipline Call Answer Ledger) (ends : Task → Ledger → Result → Prop)
    (pool : Pool Task Call Answer Result World) (ledgers : Nat → Ledger) : Prop :=
  ∀ id task rest, pool.running id = some (task, rest) →
    rest.Obeys discipline (fun left outcome => ∃ result, outcome = .ok result ∧ ends task left result)
      (ledgers id)

/-- A step of one thread leaves each other thread's ledger alone, and so every ledger unlike the one it had. -/
theorem ledger_kept {ledgers : Nat → Ledger} {id other : Nat} {next ledger : Ledger} (apart : ledgers id ≠ ledger)
    (had : ledgers other = ledger) : Function.update ledgers id next other = ledger := by
  have different : other ≠ id := by
    rintro rfl
    exact apart had
  rw [Function.update_of_ne different, had]

/-- What every start, allowed call and return keeps holds in every reachable pool, for some
ledgers of the running threads. -/
theorem invariant {discipline : Discipline Call Answer Ledger} {ends : Task → Ledger → Result → Prop}
    (opening : Task → Ledger) (Holds : Pool Task Call Answer Result World → (Nat → Ledger) → Prop)
    (obeys : ∀ task, (threads.program task).Obeys discipline
      (fun left outcome => ∃ result, outcome = .ok result ∧ ends task left result) (opening task))
    (initially : ∀ pool, threads.runs.initial pool → ∃ ledgers, Holds pool ledgers)
    (started : ∀ pool ledgers id task, Holds pool ledgers → pool.Fresh id → threads.mayStart pool task →
      Holds (pool.start id task (threads.program task)) (Function.update ledgers id (opening task)))
    (called : ∀ pool ledgers id task request next answer world, Holds pool ledgers →
      pool.running id = some (task, .call request next) → discipline.allows (ledgers id) request →
      threads.answers id request pool.world answer world →
      Holds (pool.answer id task request answer (next answer) world)
        (Function.update ledgers id (discipline.after (ledgers id) request answer)))
    (returned : ∀ pool ledgers id task result, Holds pool ledgers →
      pool.running id = some (task, .done result) → ends task (ledgers id) result →
      Holds (pool.finish id result) ledgers)
    {pool : Pool Task Call Answer Result World} (reached : threads.runs.Reachable pool) :
    ∃ ledgers, Holds pool ledgers ∧ Keeps discipline ends pool ledgers := by
  apply reached.invariant
  · intro pool start
    obtain ⟨ledgers, holds⟩ := initially pool start
    refine ⟨ledgers, holds, ?_⟩
    intro id task rest here
    cases (start.2.1 id).symm.trans here
  · intro before after invariant step
    obtain ⟨ledgers, holds, keeps⟩ := invariant
    cases step with
    | started id task fresh may =>
      refine ⟨_, started before ledgers id task holds fresh may, ?_⟩
      intro other task' rest here
      by_cases same : other = id
      · subst same
        rw [Pool.running_start, Function.update_self] at here
        cases here
        rw [Function.update_self]
        exact obeys task
      · rw [Pool.running_start, Function.update_of_ne same] at here
        rw [Function.update_of_ne same]
        exact keeps other task' rest here
    | @called id task request next here answer world answered =>
      obtain ⟨allowed, later⟩ := keeps id task _ here
      refine ⟨_, called before ledgers id task request next answer world holds here allowed answered, ?_⟩
      intro other task' rest running
      by_cases same : other = id
      · subst same
        rw [Pool.running_answer, Function.update_self] at running
        cases running
        rw [Function.update_self]
        exact later answer
      · rw [Pool.running_answer, Function.update_of_ne same] at running
        rw [Function.update_of_ne same]
        exact keeps other task' rest running
    | @returned id task result here =>
      obtain ⟨_, ⟨⟩, ended⟩ := keeps id task _ here
      refine ⟨_, returned before ledgers id task result holds here ended, ?_⟩
      intro other task' rest running
      by_cases same : other = id
      · subst same
        rw [Pool.running_finish, Function.update_self] at running
        cases running
      · rw [Pool.running_finish, Function.update_of_ne same] at running
        exact keeps other task' rest running

end Threads
end SkillLayer

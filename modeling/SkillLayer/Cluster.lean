import Mathlib.Logic.Function.Basic
import Mathlib.Data.Nat.Find
import Mathlib.Order.WellFounded
import SkillLayer.Program
import SkillLayer.Runs

/-! Programs running side by side on one world, one call at a time. -/

namespace SkillLayer

/-- A running program: what it repeats, what is left of this pass, and its ledger. -/
structure Thread (Call : Type) (Answer : Call → Type) (Err Result Ledger : Type) where
  body : Program Call Answer Err (Option Result)
  rest : Program Call Answer Err (Option Result)
  ledger : Ledger

structure Cluster (Call : Type) (Answer : Call → Type) (Err Result Ledger World Worker : Type) where
  world : World
  threads : Worker → Option (Thread Call Answer Err Result Ledger)

/-- The programs that may be started, the ledgers they keep, and how calls are served. -/
structure Site (Call : Type) (Answer : Call → Type) (Err Result Ledger World : Type) where
  discipline : Discipline Call Answer Ledger
  idle : Ledger
  starts : Program Call Answer Err (Option Result) → Prop
  serves : (request : Call) → World → Answer request → World → Prop

/-- What happens in a step, and to which worker. -/
inductive Event (Call : Type) (Answer : Call → Type) (Worker : Type) where
  | start (worker : Worker)
  | call (worker : Worker) (request : Call) (answer : Answer request)
  | again (worker : Worker)
  | finish (worker : Worker)
  | crash (worker : Worker)

/-- The worker goes on with its program. -/
def Event.Proceeds {Call : Type} {Answer : Call → Type} {Worker : Type} (worker : Worker) :
    Event Call Answer Worker → Prop
  | .call other _ _ => other = worker
  | .again other => other = worker
  | _ => False

namespace Cluster

variable {Call : Type} {Answer : Call → Type} {Err Result Ledger World Worker : Type}
  [DecidableEq Worker]

def set (cluster : Cluster Call Answer Err Result Ledger World Worker) (worker : Worker)
    (thread : Option (Thread Call Answer Err Result Ledger)) :
    Cluster Call Answer Err Result Ledger World Worker :=
  { cluster with threads := Function.update cluster.threads worker thread }

@[simp] theorem set_world (cluster : Cluster Call Answer Err Result Ledger World Worker)
    (worker : Worker) (thread : Option (Thread Call Answer Err Result Ledger)) :
    (cluster.set worker thread).world = cluster.world := rfl

@[simp] theorem set_threads_self (cluster : Cluster Call Answer Err Result Ledger World Worker)
    (worker : Worker) (thread : Option (Thread Call Answer Err Result Ledger)) :
    (cluster.set worker thread).threads worker = thread := Function.update_self _ _ _

theorem set_threads_of_ne (cluster : Cluster Call Answer Err Result Ledger World Worker)
    {worker other : Worker} (thread : Option (Thread Call Answer Err Result Ledger))
    (different : other ≠ worker) :
    (cluster.set worker thread).threads other = cluster.threads other :=
  Function.update_of_ne different _ _

end Cluster

namespace Site

variable {Call : Type} {Answer : Call → Type} {Err Result Ledger World Worker : Type}
  [DecidableEq Worker] (site : Site Call Answer Err Result Ledger World)

/-- One step of the cluster. A worker whose program has ended is free again; a crash
takes a worker away at any point. -/
inductive Step : Cluster Call Answer Err Result Ledger World Worker → Event Call Answer Worker →
    Cluster Call Answer Err Result Ledger World Worker → Prop where
  | start {cluster : Cluster Call Answer Err Result Ledger World Worker} {worker : Worker}
      {body : Program Call Answer Err (Option Result)} (free : cluster.threads worker = none)
      (may : site.starts body) :
      Step cluster (.start worker) (cluster.set worker (some ⟨body, body, site.idle⟩))
  | call {cluster : Cluster Call Answer Err Result Ledger World Worker} {worker : Worker}
      {body : Program Call Answer Err (Option Result)} {request : Call} {answer : Answer request}
      {next : Answer request → Program Call Answer Err (Option Result)} {ledger : Ledger}
      {world : World} (here : cluster.threads worker = some ⟨body, .call request next, ledger⟩)
      (served : site.serves request cluster.world answer world) :
      Step cluster (.call worker request answer)
        ({ cluster with world }.set worker
          (some ⟨body, next answer, site.discipline.after ledger request answer⟩))
  | again {cluster : Cluster Call Answer Err Result Ledger World Worker} {worker : Worker}
      {body : Program Call Answer Err (Option Result)} {ledger : Ledger}
      (here : cluster.threads worker = some ⟨body, .done none, ledger⟩) :
      Step cluster (.again worker) (cluster.set worker (some ⟨body, body, site.idle⟩))
  | finish {cluster : Cluster Call Answer Err Result Ledger World Worker} {worker : Worker}
      {body : Program Call Answer Err (Option Result)} {result : Result} {ledger : Ledger}
      (here : cluster.threads worker = some ⟨body, .done (some result), ledger⟩) :
      Step cluster (.finish worker) (cluster.set worker none)
  | abort {cluster : Cluster Call Answer Err Result Ledger World Worker} {worker : Worker}
      {body : Program Call Answer Err (Option Result)} {error : Err} {ledger : Ledger}
      (here : cluster.threads worker = some ⟨body, .fail error, ledger⟩) :
      Step cluster (.finish worker) (cluster.set worker none)
  | crash {cluster : Cluster Call Answer Err Result Ledger World Worker} {worker : Worker} :
      Step cluster (.crash worker) (cluster.set worker none)

/-- No program runs in the given world. -/
def quiet (world : World) : Cluster Call Answer Err Result Ledger World Worker := ⟨world, fun _ => none⟩

/-- All runs from an initial world in which every step is permitted. -/
def system (initial : World → Prop)
    (permitted : Cluster Call Answer Err Result Ledger World Worker → Event Call Answer Worker → Prop) :
    Transitions (Cluster Call Answer Err Result Ledger World Worker) where
  initial cluster := ∃ world, initial world ∧ cluster = quiet world
  step cluster after := ∃ event, permitted cluster event ∧ site.Step cluster event after

/-- The worker's ledger; without a program it is idle. -/
def ledgers (cluster : Cluster Call Answer Err Result Ledger World Worker) (worker : Worker) : Ledger :=
  (cluster.threads worker).elim site.idle Thread.ledger

omit [DecidableEq Worker] in
theorem ledgers_of_some {cluster : Cluster Call Answer Err Result Ledger World Worker} {worker : Worker}
    {thread : Thread Call Answer Err Result Ledger} (here : cluster.threads worker = some thread) :
    site.ledgers cluster worker = thread.ledger := by
  rw [ledgers, here, Option.elim_some]

omit [DecidableEq Worker] in
theorem ledgers_of_none {cluster : Cluster Call Answer Err Result Ledger World Worker} {worker : Worker}
    (free : cluster.threads worker = none) : site.ledgers cluster worker = site.idle := by
  rw [ledgers, free, Option.elim_none]

theorem ledgers_set (cluster : Cluster Call Answer Err Result Ledger World Worker) (worker : Worker)
    (thread : Option (Thread Call Answer Err Result Ledger)) :
    site.ledgers (cluster.set worker thread) =
      Function.update (site.ledgers cluster) worker (thread.elim site.idle Thread.ledger) := by
  funext other
  by_cases same : other = worker
  · subst same
    simp [ledgers]
  · rw [Function.update_of_ne same, ledgers, Cluster.set_threads_of_ne _ _ same, ledgers]

variable {site}

/-- A fact about the world and all ledgers holds, and every program obeys its ledger. -/
structure Governed (site : Site Call Answer Err Result Ledger World)
    (ends : Ledger → Except Err (Option Result) → Prop) (Holds : World → (Worker → Ledger) → Prop)
    (cluster : Cluster Call Answer Err Result Ledger World Worker) : Prop where
  holds : Holds cluster.world (site.ledgers cluster)
  threads : ∀ worker thread, cluster.threads worker = some thread →
    site.starts thread.body ∧ thread.rest.Obeys site.discipline ends thread.ledger

variable {ends : Ledger → Except Err (Option Result) → Prop}
  {Holds : World → (Worker → Ledger) → Prop}

omit [DecidableEq Worker] in
theorem governed_quiet {world : World} (holds : Holds world fun _ => site.idle) :
    Governed site ends Holds (quiet world : Cluster Call Answer Err Result Ledger World Worker) :=
  ⟨holds, fun _ _ here => by cases here⟩

theorem Governed.set {cluster : Cluster Call Answer Err Result Ledger World Worker} {world : World}
    (governed : Governed site ends Holds cluster) {worker : Worker}
    {thread : Option (Thread Call Answer Err Result Ledger)}
    (holds : Holds world
      (Function.update (site.ledgers cluster) worker (thread.elim site.idle Thread.ledger)))
    (obeys : ∀ here, thread = some here →
      site.starts here.body ∧ here.rest.Obeys site.discipline ends here.ledger) :
    Governed site ends Holds ({ cluster with world }.set worker thread) where
  holds := by
    rw [ledgers_set]
    exact holds
  threads := by
    intro other here found
    by_cases same : other = worker
    · subst same
      rw [Cluster.set_threads_self] at found
      exact obeys here found
    · rw [Cluster.set_threads_of_ne _ _ same] at found
      exact governed.threads other here found

/-- One step keeps the cluster governed: what is to show is that the fact survives this
call, the end of this pass, or this crash. -/
theorem Governed.step {cluster after : Cluster Call Answer Err Result Ledger World Worker}
    {event : Event Call Answer Worker} (governed : Governed site ends Holds cluster)
    (bodies : ∀ body, site.starts body → body.Obeys site.discipline ends site.idle)
    (called : ∀ worker request answer world, event = .call worker request answer →
      site.discipline.allows (site.ledgers cluster worker) request →
      site.serves request cluster.world answer world →
      Holds world (Function.update (site.ledgers cluster) worker
        (site.discipline.after (site.ledgers cluster worker) request answer)))
    (ended : ∀ worker outcome, event = .again worker ∨ event = .finish worker →
      ends (site.ledgers cluster worker) outcome →
      Holds cluster.world (Function.update (site.ledgers cluster) worker site.idle))
    (crashed : ∀ worker, event = .crash worker →
      Holds cluster.world (Function.update (site.ledgers cluster) worker site.idle))
    (step : site.Step cluster event after) : Governed site ends Holds after := by
  cases step with
  | @start worker body free may =>
    refine governed.set ?_ ?_
    · have unchanged := ledgers_of_none site free
      rw [Option.elim_some, ← unchanged, Function.update_eq_self]
      exact governed.holds
    · rintro here ⟨⟩
      exact ⟨may, bodies body may⟩
  | @call worker body request answer next ledger world here served =>
    obtain ⟨started, allowed, obeys⟩ := governed.threads worker _ here
    have same := ledgers_of_some site here
    refine governed.set ?_ ?_
    · have kept := called worker request answer world rfl (same ▸ allowed) served
      rw [same] at kept
      exact kept
    · rintro thread ⟨⟩
      exact ⟨started, obeys answer⟩
  | @again worker body ledger here =>
    obtain ⟨started, obeys⟩ := governed.threads worker _ here
    refine governed.set ?_ ?_
    · exact ended worker _ (.inl rfl) (ledgers_of_some site here ▸ obeys)
    · rintro thread ⟨⟩
      exact ⟨started, bodies body started⟩
  | @finish worker body result ledger here =>
    obtain ⟨-, obeys⟩ := governed.threads worker _ here
    refine governed.set ?_ (fun _ none => by cases none)
    exact ended worker _ (.inr rfl) (ledgers_of_some site here ▸ obeys)
  | @abort worker body error ledger here =>
    obtain ⟨-, obeys⟩ := governed.threads worker _ here
    refine governed.set ?_ (fun _ none => by cases none)
    exact ended worker _ (.inr rfl) (ledgers_of_some site here ▸ obeys)
  | @crash worker =>
    exact governed.set (crashed worker rfl) (fun _ none => by cases none)

/-- All reachable clusters are governed, when their steps keep the fact. -/
theorem governed_of_reachable {initial : World → Prop}
    {permitted : Cluster Call Answer Err Result Ledger World Worker → Event Call Answer Worker → Prop}
    (initially : ∀ world, initial world → Holds world fun _ => site.idle)
    (kept : ∀ cluster event after, Governed site ends Holds cluster → permitted cluster event →
      site.Step cluster event after → Governed site ends Holds after)
    {cluster : Cluster Call Answer Err Result Ledger World Worker}
    (reached : (site.system initial permitted).Reachable cluster) : Governed site ends Holds cluster := by
  refine reached.invariant ?_ ?_
  · rintro _ ⟨world, start, rfl⟩
    exact governed_quiet (initially world start)
  · rintro before after governed ⟨event, allowed, step⟩
    exact kept before event after governed allowed step

/-- Where every call is served, a running program can go on or come to its end. -/
theorem step_available (total : ∀ request world, ∃ answer after, site.serves request world answer after)
    {cluster : Cluster Call Answer Err Result Ledger World Worker} {worker : Worker}
    {thread : Thread Call Answer Err Result Ledger} (here : cluster.threads worker = some thread) :
    ∃ event after, site.Step cluster event after ∧
      (event.Proceeds worker ∨ event = .finish worker) := by
  obtain ⟨body, rest, ledger⟩ := thread
  match rest with
  | .done none => exact ⟨_, _, .again here, .inl rfl⟩
  | .done (some result) => exact ⟨_, _, .finish here, .inr rfl⟩
  | .fail error => exact ⟨_, _, .abort here, .inr rfl⟩
  | .call request next =>
    obtain ⟨answer, after, served⟩ := total request cluster.world
    exact ⟨_, _, .call here served, .inl rfl⟩

/-- A step serves a call of one worker, or leaves the world and makes one worker idle. -/
theorem Step.ledgers_eq {cluster after : Cluster Call Answer Err Result Ledger World Worker}
    {event : Event Call Answer Worker} (step : site.Step cluster event after) :
    (∃ worker request answer, event = .call worker request answer ∧
        site.serves request cluster.world answer after.world ∧
        site.ledgers after = Function.update (site.ledgers cluster) worker
          (site.discipline.after (site.ledgers cluster worker) request answer)) ∨
      after.world = cluster.world ∧
        ∃ worker, site.ledgers after = Function.update (site.ledgers cluster) worker site.idle := by
  cases step with
  | @call worker body request answer next ledger world here served =>
    refine .inl ⟨worker, request, answer, rfl, served, ?_⟩
    rw [ledgers_set, ledgers_of_some site here]
    rfl
  | start free may => exact .inr ⟨rfl, _, ledgers_set site _ _ _⟩
  | again here => exact .inr ⟨rfl, _, ledgers_set site _ _ _⟩
  | finish here => exact .inr ⟨rfl, _, ledgers_set site _ _ _⟩
  | abort here => exact .inr ⟨rfl, _, ledgers_set site _ _ _⟩
  | crash => exact .inr ⟨rfl, _, ledgers_set site _ _ _⟩

/-- A worker that begins another pass has ended the last one without a result. -/
theorem Governed.ended_again {cluster after : Cluster Call Answer Err Result Ledger World Worker}
    {worker : Worker} (governed : Governed site ends Holds cluster)
    (step : site.Step cluster (.again worker) after) :
    ends (site.ledgers cluster worker) (.ok none) ∧ after.world = cluster.world ∧
      site.ledgers after worker = site.idle := by
  cases step with
  | again here =>
    obtain ⟨-, obeys⟩ := governed.threads worker _ here
    refine ⟨ledgers_of_some site here ▸ obeys, rfl, ?_⟩
    rw [ledgers_set, Function.update_self]
    rfl

/-! ### A run alone is a run of the cluster -/

section Alone

variable {initial : World → Prop}
  {permitted : Cluster Call Answer Err Result Ledger World Worker → Event Call Answer Worker → Prop}

/-- All runs in which every step is permitted. -/
abbrev runs (site : Site Call Answer Err Result Ledger World) (Worker : Type) [DecidableEq Worker]
    (initial : World → Prop) : Transitions (Cluster Call Answer Err Result Ledger World Worker) :=
  site.system initial fun _ _ => True

/-- The next calls of one worker, with nothing between them, are steps of the cluster. -/
theorem reachable_advance {cluster : Cluster Call Answer Err Result Ledger World Worker}
    (reached : (site.system initial permitted).Reachable cluster) {worker : Worker}
    {body rest : Program Call Answer Err (Option Result)} {ledger : Ledger}
    (here : cluster.threads worker = some ⟨body, rest, ledger⟩)
    (serve : Nat → (request : Call) → World → Answer request × World)
    (serves : ∀ calls request world,
      site.serves request world (serve calls request world).1 (serve calls request world).2)
    (calling : ∀ cluster calls request,
      permitted cluster (.call worker request (serve calls request cluster.world).1))
    (steps calls : Nat) :
    ∃ left, (site.system initial permitted).Reachable
      ({ cluster with world := (rest.advance serve steps calls cluster.world).2 }.set worker
        (some ⟨body, (rest.advance serve steps calls cluster.world).1, left⟩)) := by
  have still : cluster.set worker (some ⟨body, rest, ledger⟩) = cluster := by
    rw [Cluster.set, ← here, Function.update_eq_self]
  induction steps generalizing cluster rest ledger calls with
  | zero =>
    refine ⟨ledger, ?_⟩
    cases rest <;> exact still.symm ▸ reached
  | succ steps ih =>
    cases rest with
    | done result => exact ⟨ledger, still.symm ▸ reached⟩
    | fail error => exact ⟨ledger, still.symm ▸ reached⟩
    | call request next =>
      have first := reached.next ⟨_, calling cluster calls request, .call here (serves calls request _)⟩
      obtain ⟨left, later⟩ := ih first (Cluster.set_threads_self _ worker _) (calls + 1)
        (by rw [Cluster.set, Cluster.set, Function.update_idem])
      refine ⟨left, ?_⟩
      rw [Cluster.set, Cluster.set, Function.update_idem] at later
      exact later

/-- The world, one thread, and the others as they were before. -/
def Shows (cluster before : Cluster Call Answer Err Result Ledger World Worker) (world : World)
    (worker : Worker) (thread : Thread Call Answer Err Result Ledger) : Prop :=
  cluster.world = world ∧ cluster.threads worker = some thread ∧
    ∀ other, other ≠ worker → cluster.threads other = before.threads other

theorem exists_start {before : Cluster Call Answer Err Result Ledger World Worker}
    (reached : (site.runs Worker initial).Reachable before) (worker : Worker)
    {body : Program Call Answer Err (Option Result)} (free : before.threads worker = none)
    (may : site.starts body) :
    ∃ cluster, (site.runs Worker initial).Reachable cluster ∧
      Shows cluster before before.world worker ⟨body, body, site.idle⟩ :=
  ⟨_, reached.next ⟨_, trivial, .start free may⟩, rfl, Cluster.set_threads_self _ _ _,
    fun _ => Cluster.set_threads_of_ne _ _⟩

theorem exists_advance {before : Cluster Call Answer Err Result Ledger World Worker}
    (reached : (site.runs Worker initial).Reachable before) {worker : Worker}
    {body rest : Program Call Answer Err (Option Result)} {ledger : Ledger}
    (here : before.threads worker = some ⟨body, rest, ledger⟩)
    (serve : Nat → (request : Call) → World → Answer request × World)
    (serves : ∀ calls request world,
      site.serves request world (serve calls request world).1 (serve calls request world).2)
    (steps calls : Nat) :
    ∃ left cluster, (site.runs Worker initial).Reachable cluster ∧
      Shows cluster before (rest.advance serve steps calls before.world).2 worker
        ⟨body, (rest.advance serve steps calls before.world).1, left⟩ := by
  obtain ⟨left, later⟩ := reachable_advance reached here serve serves (fun _ _ _ => trivial) steps calls
  exact ⟨left, _, later, rfl, Cluster.set_threads_self _ _ _, fun _ => Cluster.set_threads_of_ne _ _⟩

theorem finishes {cluster : Cluster Call Answer Err Result Ledger World Worker} {worker : Worker}
    {body : Program Call Answer Err (Option Result)} {outcome : Except Err (Option Result)}
    {left : Ledger} (stops : outcome ≠ .ok none)
    (here : cluster.threads worker = some ⟨body, .ofExcept outcome, left⟩) :
    site.Step cluster (.finish worker) (cluster.set worker none) := by
  match outcome, here with
  | .ok none, _ => exact absurd rfl stops
  | .ok (some result), here => exact .finish here
  | .error error, here => exact .abort here

/-- A program that runs alone to its end leads from a quiet cluster to a quiet one. -/
theorem reachable_alone {world : World} (reached : (site.system initial permitted).Reachable (quiet world))
    (worker : Worker) {body : Program Call Answer Err (Option Result)} (may : site.starts body)
    (serve : Nat → (request : Call) → World → Answer request × World)
    (serves : ∀ calls request world,
      site.serves request world (serve calls request world).1 (serve calls request world).2)
    (stops : (body.run serve 0 world).outcome ≠ .ok none)
    (starting : ∀ cluster, permitted cluster (.start worker))
    (calling : ∀ cluster calls request,
      permitted cluster (.call worker request (serve calls request cluster.world).1))
    (finishing : ∀ cluster, permitted cluster (.finish worker)) :
    (site.system initial permitted).Reachable (quiet (body.run serve 0 world).world) := by
  have started : (site.system initial permitted).Reachable
      ((quiet world).set worker (some ⟨body, body, site.idle⟩)) :=
    reached.next ⟨_, starting _, .start rfl may⟩
  obtain ⟨steps, whole⟩ := Program.exists_advance_run serve body 0 world
  obtain ⟨left, ended⟩ := reachable_advance started (Cluster.set_threads_self _ worker _) serve serves
    calling steps 0
  rw [Cluster.set_world] at ended
  simp only [quiet, whole] at ended
  have last := ended.next ⟨_, finishing _, finishes stops (Cluster.set_threads_self _ worker _)⟩
  simpa [Cluster.set, quiet] using last

end Alone

end Site

/-! ### Programs that must fall silent -/

namespace Program

variable {Call : Type} {Answer : Call → Type} {Err Result : Type}

/-- What remains of a program after its next call. -/
def Remains (rest program : Program Call Answer Err Result) : Prop :=
  ∃ request next answer, program = .call request next ∧ rest = next answer

theorem remains_wellFounded :
    WellFounded fun rest program : Program Call Answer Err Result => rest.Remains program := by
  refine ⟨fun program => ?_⟩
  induction program with
  | done result => exact ⟨_, fun _ ⟨_, _, _, same, _⟩ => by cases same⟩
  | fail error => exact ⟨_, fun _ ⟨_, _, _, same, _⟩ => by cases same⟩
  | call request next ih =>
    refine ⟨_, fun rest ⟨_, _, answer, same, left⟩ => ?_⟩
    cases same
    exact left ▸ ih answer

end Program

namespace Site

variable {Call : Type} {Answer : Call → Type} {Err Result Ledger World Worker : Type}
  [DecidableEq Worker] {site : Site Call Answer Err Result Ledger World}
  {before after : Cluster Call Answer Err Result Ledger World Worker}
  {event : Event Call Answer Worker} {worker : Worker}

/-- A step of another worker leaves the thread, or the thread is gone. -/
theorem Step.bystander (step : site.Step before event after) (other : ¬ event.Proceeds worker)
    (notStarted : event ≠ .start worker) :
    after.threads worker = before.threads worker ∨ after.threads worker = none := by
  have elsewhere (cluster : Cluster Call Answer Err Result Ledger World Worker) {mover : Worker}
      (thread : Option (Thread Call Answer Err Result Ledger)) (different : mover ≠ worker) :
      (cluster.set mover thread).threads worker = cluster.threads worker :=
    Cluster.set_threads_of_ne _ _ (Ne.symm different)
  cases step with
  | start => exact .inl (elsewhere _ _ fun same => notStarted (same ▸ rfl))
  | call => exact .inl (elsewhere _ _ other)
  | again => exact .inl (elsewhere _ _ other)
  | @finish mover =>
    by_cases same : mover = worker
    · exact .inr (same ▸ Cluster.set_threads_self _ _ _)
    · exact .inl (elsewhere _ _ same)
  | @abort mover =>
    by_cases same : mover = worker
    · exact .inr (same ▸ Cluster.set_threads_self _ _ _)
    · exact .inl (elsewhere _ _ same)
  | @crash mover =>
    by_cases same : mover = worker
    · exact .inr (same ▸ Cluster.set_threads_self _ _ _)
    · exact .inl (elsewhere _ _ same)

/-- A step of the worker makes the next call of its program or begins another pass. -/
theorem Step.proceeds (step : site.Step before event after) (own : event.Proceeds worker) :
    ∃ thread left, before.threads worker = some thread ∧ after.threads worker = some left ∧
      (left.rest.Remains thread.rest ∨ event = .again worker) := by
  cases step with
  | call here =>
    obtain rfl := own
    exact ⟨_, _, here, Cluster.set_threads_self _ _ _, .inl ⟨_, _, _, rfl, rfl⟩⟩
  | again here =>
    obtain rfl := own
    exact ⟨_, _, here, Cluster.set_threads_self _ _ _, .inr rfl⟩
  | start => cases own
  | finish => cases own
  | abort => cases own
  | crash => cases own

variable {clusters : Nat → Cluster Call Answer Err Result Ledger World Worker}
  {events : Nat → Event Call Answer Worker}

theorem thread_before (steps : ∀ n, site.Step (clusters n) (events n) (clusters (n + 1)))
    (once : ∀ n, events n ≠ .start worker) {first last : Nat} (order : first ≤ last)
    (others : ∀ n, first ≤ n → n < last → ¬ (events n).Proceeds worker)
    {thread : Thread Call Answer Err Result Ledger} (here : (clusters last).threads worker = some thread) :
    (clusters first).threads worker = some thread := by
  induction last, order using Nat.le_induction with
  | base => exact here
  | succ last order ih =>
    refine ih (fun n from_ inside => others n from_ (Nat.lt_succ_of_lt inside)) ?_
    rcases (steps last).bystander (others last order (Nat.lt_succ_self _)) (once last) with same | gone
    · rw [← same, here]
    · rw [gone] at here
      cases here

/-- In a run where a rank never rises while the worker runs and falls with each further
pass, the worker's program takes only finitely many steps. -/
theorem falls_silent (steps : ∀ n, site.Step (clusters n) (events n) (clusters (n + 1)))
    (once : ∀ n, events n ≠ .start worker) (rank : Nat → Nat)
    (never_rises : ∀ n thread, (clusters (n + 1)).threads worker = some thread → rank (n + 1) ≤ rank n)
    (falls : ∀ n, events n = .again worker → rank (n + 1) < rank n) :
    ∃ N, ∀ n, N ≤ n → ¬ (events n).Proceeds worker := by
  have bounded (first last : Nat) (order : first ≤ last)
      (others : ∀ n, first ≤ n → n < last → ¬ (events n).Proceeds worker)
      (thread : Thread Call Answer Err Result Ledger)
      (here : (clusters last).threads worker = some thread) : rank last ≤ rank first := by
    induction last, order using Nat.le_induction generalizing thread with
    | base => exact le_refl _
    | succ last order ih =>
      have earlier := thread_before steps once (Nat.le_succ last)
        (fun n from_ inside => others n (order.trans from_) inside) here
      exact (never_rises last thread here).trans
        (ih (fun n from_ inside => others n from_ (Nat.lt_succ_of_lt inside)) thread earlier)
  suffices all : ∀ bound (program : Program Call Answer Err (Option Result)) n thread, rank n ≤ bound →
      (clusters n).threads worker = some thread → thread.rest = program →
      ∃ N, ∀ n, N ≤ n → ¬ (events n).Proceeds worker by
    by_cases moves : ∃ n, (events n).Proceeds worker
    · obtain ⟨n, own⟩ := moves
      obtain ⟨thread, -, here, -, -⟩ := (steps n).proceeds own
      exact all _ _ n thread (le_refl _) here rfl
    · exact ⟨0, fun n _ own => moves ⟨n, own⟩⟩
  intro bound
  induction bound using Nat.strongRecOn with
  | ind bound lower =>
    intro program
    induction program using Program.remains_wellFounded.induction with
    | h program shorter =>
      intro start thread within here same
      by_cases moves : ∃ n, start ≤ n ∧ (events n).Proceeds worker
      · classical
        obtain ⟨later, own⟩ := Nat.find_spec moves
        have others (n : Nat) (from_ : start ≤ n) (inside : n < Nat.find moves) :
            ¬ (events n).Proceeds worker :=
          fun proceeds => Nat.find_min moves inside ⟨from_, proceeds⟩
        generalize Nat.find moves = next at later own others
        obtain ⟨thread', left, mover, moved, how⟩ := (steps next).proceeds own
        have unchanged := thread_before steps once later others mover
        obtain rfl : thread' = thread := Option.some.inj (unchanged.symm.trans here)
        have reached := (bounded start next later others _ mover).trans within
        have below := (never_rises next left moved).trans reached
        rcases how with remains | restarted
        · exact shorter left.rest (same ▸ remains) (next + 1) left below moved rfl
        · have strictly := falls next restarted
          exact lower (rank (next + 1)) (by omega) left.rest (next + 1) left (le_refl _) moved rfl
      · exact ⟨start, fun n from_ own => moves ⟨n, from_, own⟩⟩

end Site
end SkillLayer

import Mathlib.Logic.Basic

/-! Programs that call servers, their runs alone, and the records they keep of their calls. -/

namespace SkillLayer

/-- A program ends with a result or an error, or makes a call and goes on with the answer. -/
inductive Program (Call : Type) (Answer : Call → Type) (Err Result : Type) where
  | done (result : Result)
  | fail (error : Err)
  | call (request : Call) (next : Answer request → Program Call Answer Err Result)

/-- What a finished program leaves: its outcome, the number of calls made, the world. -/
structure Finished (Err Result World : Type) where
  outcome : Except Err Result
  calls : Nat
  world : World

namespace Program

variable {Call : Type} {Answer : Call → Type} {Err Other Result Next World : Type}

def bind (program : Program Call Answer Err Result)
    (next : Result → Program Call Answer Err Next) : Program Call Answer Err Next :=
  match program with
  | .done result => next result
  | .fail error => .fail error
  | .call request answered => .call request fun answer => (answered answer).bind next

instance : Monad (Program Call Answer Err) where
  pure := .done
  bind := bind

/-- Make one call. -/
def ask (request : Call) : Program Call Answer Err (Answer request) := .call request .done

def mapError (change : Err → Other) : Program Call Answer Err Result → Program Call Answer Other Result
  | .done result => .done result
  | .fail error => .fail (change error)
  | .call request next => .call request fun answer => (next answer).mapError change

def ofExcept : Except Err Result → Program Call Answer Err Result
  | .ok result => .done result
  | .error error => .fail error

/-- The same calls, with the error as a result. -/
def outcome : Program Call Answer Err Result → Program Call Answer Other (Except Err Result)
  | .done result => .done (.ok result)
  | .fail error => .done (.error error)
  | .call request next => .call request fun answer => (next answer).outcome

/-- The same program among more calls. -/
def embed {Small : Type} {SmallAnswer : Small → Type} (inject : Small → Call)
    (answered : (request : Small) → Answer (inject request) → SmallAnswer request) :
    Program Small SmallAnswer Err Result → Program Call Answer Err Result
  | .done result => .done result
  | .fail error => .fail error
  | .call request next =>
    .call (inject request) fun answer => (next (answered request answer)).embed inject answered

@[simp] theorem pure_eq (result : Result) :
    (pure result : Program Call Answer Err Result) = .done result := rfl

@[simp] theorem bind_done (result : Result) (next : Result → Program Call Answer Err Next) :
    (Program.done result >>= next) = next result := rfl

@[simp] theorem bind_fail (error : Err) (next : Result → Program Call Answer Err Next) :
    (Program.fail error >>= next) = .fail error := rfl

@[simp] theorem bind_call (request : Call) (answered : Answer request → Program Call Answer Err Result)
    (next : Result → Program Call Answer Err Next) :
    (Program.call request answered >>= next) = .call request fun answer => answered answer >>= next :=
  rfl

@[simp] theorem mapError_done (change : Err → Other) (result : Result) :
    (Program.done result : Program Call Answer Err Result).mapError change = .done result := rfl

@[simp] theorem mapError_fail (change : Err → Other) (error : Err) :
    (Program.fail error : Program Call Answer Err Result).mapError change = .fail (change error) := rfl

@[simp] theorem mapError_call (change : Err → Other) (request : Call)
    (next : Answer request → Program Call Answer Err Result) :
    (Program.call request next).mapError change =
      .call request fun answer => (next answer).mapError change := rfl

@[simp] theorem ofExcept_ok (result : Result) :
    (ofExcept (.ok result) : Program Call Answer Err Result) = .done result := rfl

@[simp] theorem ofExcept_error (error : Err) :
    (ofExcept (.error error) : Program Call Answer Err Result) = .fail error := rfl

@[simp] theorem outcome_done (result : Result) :
    (Program.done result : Program Call Answer Err Result).outcome =
      (.done (.ok result) : Program Call Answer Other (Except Err Result)) := rfl

@[simp] theorem outcome_fail (error : Err) :
    (Program.fail error : Program Call Answer Err Result).outcome =
      (.done (.error error) : Program Call Answer Other (Except Err Result)) := rfl

@[simp] theorem outcome_call (request : Call) (next : Answer request → Program Call Answer Err Result) :
    (Program.call request next).outcome =
      (.call request fun answer => (next answer).outcome :
        Program Call Answer Other (Except Err Result)) := rfl

@[simp] theorem ask_bind (request : Call) (next : Answer request → Program Call Answer Err Next) :
    (Program.ask request >>= next) = .call request next := rfl

theorem bind_assoc {Later : Type} (program : Program Call Answer Err Result)
    (next : Result → Program Call Answer Err Next) (later : Next → Program Call Answer Err Later) :
    (program >>= next >>= later) = program >>= fun result => next result >>= later := by
  induction program with
  | done result => rfl
  | fail error => rfl
  | call request answered ih =>
    simp only [bind_call]
    exact congrArg _ (funext ih)

/-! ### Runs without interference -/

section Run

variable (serve : Nat → (request : Call) → World → Answer request × World)

/-- Run alone against servers whose answer may depend on the number of calls made before. -/
def run : Program Call Answer Err Result → Nat → World → Finished Err Result World
  | .done result, calls, world => ⟨.ok result, calls, world⟩
  | .fail error, calls, world => ⟨.error error, calls, world⟩
  | .call request next, calls, world =>
    run (next (serve calls request world).1) (calls + 1) (serve calls request world).2

/-- The first calls of a run alone: what is left of the program, and the world. -/
def advance : Nat → Program Call Answer Err Result → Nat → World → Program Call Answer Err Result × World
  | steps + 1, .call request next, calls, world =>
    advance steps (next (serve calls request world).1) (calls + 1) (serve calls request world).2
  | _, program, _, world => (program, world)

/-- Repeat the body until it yields a result or fails; nothing after the given passes. -/
def runLoop (body : Program Call Answer Err (Option Result)) :
    Nat → Nat → World → Option (Finished Err Result World)
  | 0, _, _ => none
  | passes + 1, calls, world =>
    match run serve body calls world with
    | ⟨.ok none, later, left⟩ => runLoop body passes later left
    | ⟨.ok (some result), later, left⟩ => some ⟨.ok result, later, left⟩
    | ⟨.error error, later, left⟩ => some ⟨.error error, later, left⟩

@[simp] theorem run_done (result : Result) (calls : Nat) (world : World) :
    run serve (.done result : Program Call Answer Err Result) calls world =
      ⟨.ok result, calls, world⟩ := rfl

@[simp] theorem run_fail (error : Err) (calls : Nat) (world : World) :
    run serve (.fail error : Program Call Answer Err Result) calls world =
      ⟨.error error, calls, world⟩ := rfl

@[simp] theorem run_call (request : Call) (next : Answer request → Program Call Answer Err Result)
    (calls : Nat) (world : World) :
    run serve (.call request next) calls world =
      run serve (next (serve calls request world).1) (calls + 1) (serve calls request world).2 := rfl

/-- A run alone makes finitely many calls. -/
theorem exists_advance_run (program : Program Call Answer Err Result) (calls : Nat) (world : World) :
    ∃ steps, advance serve steps program calls world =
      (.ofExcept (run serve program calls world).outcome, (run serve program calls world).world) := by
  induction program generalizing calls world with
  | done result => exact ⟨0, rfl⟩
  | fail error => exact ⟨0, rfl⟩
  | call request next ih =>
    obtain ⟨steps, rest⟩ := ih (serve calls request world).1 (calls + 1) (serve calls request world).2
    exact ⟨steps + 1, rest⟩

theorem run_bind (program : Program Call Answer Err Result)
    (next : Result → Program Call Answer Err Next) (calls : Nat) (world : World) :
    run serve (program >>= next) calls world =
      match run serve program calls world with
      | ⟨.ok result, later, left⟩ => run serve (next result) later left
      | ⟨.error error, later, left⟩ => ⟨.error error, later, left⟩ := by
  induction program generalizing calls world with
  | done result => rfl
  | fail error => rfl
  | call request answered ih => exact ih _ _ _

theorem run_mapError (change : Err → Other) (program : Program Call Answer Err Result)
    (calls : Nat) (world : World) :
    run serve (program.mapError change) calls world =
      let finished := run serve program calls world
      ⟨finished.outcome.mapError change, finished.calls, finished.world⟩ := by
  induction program generalizing calls world with
  | done result => rfl
  | fail error => rfl
  | call request answered ih => exact ih _ _ _

theorem run_outcome (program : Program Call Answer Err Result) (calls : Nat) (world : World) :
    run serve (program.outcome : Program Call Answer Other (Except Err Result)) calls world =
      let finished := run serve program calls world
      ⟨.ok finished.outcome, finished.calls, finished.world⟩ := by
  induction program generalizing calls world with
  | done result => rfl
  | fail error => rfl
  | call request answered ih => exact ih _ _ _

/-- Among more calls a program runs as it does against the servers of its own calls. -/
theorem run_embed {Small : Type} {SmallAnswer : Small → Type} (inject : Small → Call)
    (answered : (request : Small) → Answer (inject request) → SmallAnswer request)
    (program : Program Small SmallAnswer Err Result) (calls : Nat) (world : World) :
    run serve (program.embed inject answered) calls world =
      run (fun calls request world => (answered request (serve calls (inject request) world).1,
        (serve calls (inject request) world).2)) program calls world := by
  induction program generalizing calls world with
  | done result => rfl
  | fail error => rfl
  | call request next ih => exact ih _ _ _

variable {serve}

/-- A sequence succeeds exactly when its parts do, one after the other. -/
theorem run_bind_eq_ok {program : Program Call Answer Err Result}
    {next : Result → Program Call Answer Err Next} {calls later : Nat} {before after : World}
    {result : Next} :
    run serve (program >>= next) calls before = ⟨.ok result, later, after⟩ ↔
      ∃ value between left, run serve program calls before = ⟨.ok value, between, left⟩ ∧
        run serve (next value) between left = ⟨.ok result, later, after⟩ := by
  rw [run_bind]
  rcases run serve program calls before with ⟨error | value, between, left⟩
  · simp
  · constructor
    · exact fun rest => ⟨value, between, left, rfl, rest⟩
    · rintro ⟨_, _, _, ⟨⟩, rest⟩
      exact rest

theorem run_mapError_eq_ok {change : Err → Other} {program : Program Call Answer Err Result}
    {calls later : Nat} {before after : World} {result : Result} :
    run serve (program.mapError change) calls before = ⟨.ok result, later, after⟩ ↔
      run serve program calls before = ⟨.ok result, later, after⟩ := by
  rw [run_mapError]
  rcases run serve program calls before with ⟨error | value, between, left⟩
  · constructor
    · intro ran
      cases ran
    · intro ran
      cases ran
  · constructor
    · intro ran
      cases ran
      rfl
    · intro ran
      cases ran
      rfl

theorem run_ofExcept_eq_ok {outcome : Except Err Result} {calls later : Nat} {before after : World}
    {result : Result} :
    run serve (ofExcept outcome : Program Call Answer Err Result) calls before = ⟨.ok result, later, after⟩ ↔
      outcome = .ok result ∧ calls = later ∧ before = after := by
  cases outcome with
  | error error => simp
  | ok value => simp

/-- What each further pass keeps holds when the loop enters its last pass. -/
theorem runLoop_invariant {body : Program Call Answer Err (Option Result)} {Holds : World → Prop}
    (kept : ∀ calls later before after, Holds before →
      run serve body calls before = ⟨.ok none, later, after⟩ → Holds after)
    {passes calls : Nat} {before : World} {finished : Finished Err Result World} (holds : Holds before)
    (ran : runLoop serve body passes calls before = some finished) :
    ∃ start left, Holds left ∧
      run serve body start left = ⟨finished.outcome.map some, finished.calls, finished.world⟩ := by
  induction passes generalizing calls before with
  | zero => cases ran
  | succ passes ih =>
    unfold runLoop at ran
    split at ran
    · rename_i later left pass
      exact ih (kept _ _ _ _ holds pass) ran
    · rename_i result later left pass
      cases ran
      exact ⟨calls, before, holds, pass⟩
    · rename_i error later left pass
      cases ran
      exact ⟨calls, before, holds, pass⟩

/-- What every pass keeps holds when the loop has ended. -/
theorem runLoop_keeps {body : Program Call Answer Err (Option Result)} (Holds : World → Prop)
    (kept : ∀ calls world, Holds world → Holds (run serve body calls world).world) {passes calls : Nat}
    {before : World} {finished : Finished Err Result World} (holds : Holds before)
    (ran : runLoop serve body passes calls before = some finished) : Holds finished.world := by
  have each (calls later : Nat) (before after : World) (holds : Holds before)
      (pass : run serve body calls before = ⟨.ok none, later, after⟩) : Holds after := by
    have ended := kept calls before holds
    rw [pass] at ended
    exact ended
  obtain ⟨start, left, entered, last⟩ := runLoop_invariant each holds ran
  have ended := kept start left entered
  rw [last] at ended
  exact ended

end Run

end Program

/-! ### Ledgers -/

/-- The rules for a program that keeps a ledger of its calls: which calls the ledger
allows, and what it is after an answer. -/
structure Discipline (Call : Type) (Answer : Call → Type) (Ledger : Type) where
  allows : Ledger → Call → Prop
  after : Ledger → (request : Call) → Answer request → Ledger

/-- The discipline, for calls of some kind only. -/
def Discipline.limit {Call : Type} {Answer : Call → Type} {Ledger : Type}
    (discipline : Discipline Call Answer Ledger) (test : Call → Prop) : Discipline Call Answer Ledger where
  allows ledger request := discipline.allows ledger request ∧ test request
  after := discipline.after

namespace Program

variable {Call : Type} {Answer : Call → Type} {Err Other Result Next World Ledger : Type}
variable (discipline : Discipline Call Answer Ledger)

/-- Whatever the answers, every call is allowed, and at the end the ledger fits the outcome. -/
def Obeys (ends : Ledger → Except Err Result → Prop) :
    Ledger → Program Call Answer Err Result → Prop
  | ledger, .done result => ends ledger (.ok result)
  | ledger, .fail error => ends ledger (.error error)
  | ledger, .call request next =>
    discipline.allows ledger request ∧
      ∀ answer, Obeys ends (discipline.after ledger request answer) (next answer)

variable {discipline}

@[simp] theorem obeys_done {ends : Ledger → Except Err Result → Prop} {ledger : Ledger}
    {result : Result} :
    (Program.done result : Program Call Answer Err Result).Obeys discipline ends ledger ↔
      ends ledger (.ok result) := Iff.rfl

@[simp] theorem obeys_fail {ends : Ledger → Except Err Result → Prop} {ledger : Ledger} {error : Err} :
    (Program.fail error : Program Call Answer Err Result).Obeys discipline ends ledger ↔
      ends ledger (.error error) := Iff.rfl

@[simp] theorem obeys_call {ends : Ledger → Except Err Result → Prop} {ledger : Ledger}
    {request : Call} {next : Answer request → Program Call Answer Err Result} :
    (Program.call request next).Obeys discipline ends ledger ↔
      discipline.allows ledger request ∧
        ∀ answer, (next answer).Obeys discipline ends (discipline.after ledger request answer) := Iff.rfl

theorem Obeys.mono {ends other : Ledger → Except Err Result → Prop}
    (weaker : ∀ ledger outcome, ends ledger outcome → other ledger outcome) {ledger : Ledger}
    {program : Program Call Answer Err Result} (obeys : program.Obeys discipline ends ledger) :
    program.Obeys discipline other ledger := by
  induction program generalizing ledger with
  | done result => exact weaker _ _ obeys
  | fail error => exact weaker _ _ obeys
  | call request next ih => exact ⟨obeys.1, fun answer => ih answer (obeys.2 answer)⟩

/-- A sequence obeys when the first part leaves the second one a ledger it obeys. -/
theorem Obeys.bind {ends : Ledger → Except Err Next → Prop} {ledger : Ledger}
    {program : Program Call Answer Err Result} {next : Result → Program Call Answer Err Next}
    (obeys : program.Obeys discipline
      (fun left outcome => match outcome with
        | .ok result => (next result).Obeys discipline ends left
        | .error error => ends left (.error error)) ledger) :
    (program >>= next).Obeys discipline ends ledger := by
  induction program generalizing ledger with
  | done result => exact obeys
  | fail error => exact obeys
  | call request answered ih => exact ⟨obeys.1, fun answer => ih answer (obeys.2 answer)⟩

theorem Obeys.mapError {change : Err → Other} {ends : Ledger → Except Other Result → Prop}
    {ledger : Ledger} {program : Program Call Answer Err Result}
    (obeys : program.Obeys discipline (fun left outcome => ends left (outcome.mapError change)) ledger) :
    (program.mapError change).Obeys discipline ends ledger := by
  induction program generalizing ledger with
  | done result => exact obeys
  | fail error => exact obeys
  | call request next ih => exact ⟨obeys.1, fun answer => ih answer (obeys.2 answer)⟩

theorem Obeys.embed {Small : Type} {SmallAnswer : Small → Type} {inject : Small → Call}
    {answered : (request : Small) → Answer (inject request) → SmallAnswer request}
    {ends : Ledger → Except Err Result → Prop} {ledger : Ledger} {program : Program Small SmallAnswer Err Result}
    {small : Discipline Small SmallAnswer Ledger} (obeys : program.Obeys small ends ledger)
    (allowed : ∀ ledger request, small.allows ledger request → discipline.allows ledger (inject request))
    (same : ∀ ledger request answer, discipline.after ledger (inject request) answer =
      small.after ledger request (answered request answer)) :
    (program.embed inject answered).Obeys discipline ends ledger := by
  induction program generalizing ledger with
  | done result => exact obeys
  | fail error => exact obeys
  | call request next ih =>
    refine ⟨allowed ledger request obeys.1, fun answer => ?_⟩
    rw [same]
    exact ih _ (obeys.2 _)

theorem Obeys.outcome {ends : Ledger → Except Other (Except Err Result) → Prop} {ledger : Ledger}
    {program : Program Call Answer Err Result}
    (obeys : program.Obeys discipline (fun left outcome => ends left (.ok outcome)) ledger) :
    (program.outcome : Program Call Answer Other (Except Err Result)).Obeys discipline ends ledger := by
  induction program generalizing ledger with
  | done result => exact obeys
  | fail error => exact obeys
  | call request next ih => exact ⟨obeys.1, fun answer => ih answer (obeys.2 answer)⟩

/-! Programs that leave the ledger alone. -/

/-- Every call passes the test. -/
def Calls (test : Call → Prop) : Program Call Answer Err Result → Prop
  | .done _ => True
  | .fail _ => True
  | .call request next => test request ∧ ∀ answer, Calls test (next answer)

section Calls

variable {test : Call → Prop}

@[simp] theorem calls_done {result : Result} :
    (Program.done result : Program Call Answer Err Result).Calls test := trivial

@[simp] theorem calls_fail {error : Err} :
    (Program.fail error : Program Call Answer Err Result).Calls test := trivial

@[simp] theorem calls_ofExcept {outcome : Except Err Result} :
    (ofExcept outcome : Program Call Answer Err Result).Calls test := by
  cases outcome <;> trivial

theorem Calls.mono {other : Call → Prop} {program : Program Call Answer Err Result}
    (calls : program.Calls test) (weaker : ∀ request, test request → other request) :
    program.Calls other := by
  induction program with
  | done result => trivial
  | fail error => trivial
  | call request answered ih => exact ⟨weaker _ calls.1, fun answer => ih answer (calls.2 answer)⟩

theorem Calls.bind {program : Program Call Answer Err Result}
    {next : Result → Program Call Answer Err Next} (first : program.Calls test)
    (later : ∀ result, (next result).Calls test) : (program >>= next).Calls test := by
  induction program with
  | done result => exact later result
  | fail error => trivial
  | call request answered ih => exact ⟨first.1, fun answer => ih answer (first.2 answer)⟩

theorem Calls.ask {request : Call} (passes : test request) :
    (Program.ask request : Program Call Answer Err (Answer request)).Calls test :=
  ⟨passes, fun _ => trivial⟩

theorem Calls.mapError {change : Err → Other} {program : Program Call Answer Err Result}
    (calls : program.Calls test) : (program.mapError change).Calls test := by
  induction program with
  | done result => trivial
  | fail error => trivial
  | call request answered ih => exact ⟨calls.1, fun answer => ih answer (calls.2 answer)⟩

theorem Calls.outcome {program : Program Call Answer Err Result} (calls : program.Calls test) :
    (program.outcome : Program Call Answer Other (Except Err Result)).Calls test := by
  induction program with
  | done result => trivial
  | fail error => trivial
  | call request answered ih => exact ⟨calls.1, fun answer => ih answer (calls.2 answer)⟩

/-- Calls that a ledger allows and that do not change it let it be as it is at the end. -/
theorem Calls.obeys {ends : Ledger → Except Err Result → Prop} {ledger : Ledger}
    {program : Program Call Answer Err Result} (calls : program.Calls test)
    (neutral : ∀ request, test request → discipline.allows ledger request ∧
      ∀ answer, discipline.after ledger request answer = ledger)
    (ended : ∀ outcome, ends ledger outcome) : program.Obeys discipline ends ledger := by
  induction program with
  | done result => exact ended _
  | fail error => exact ended _
  | call request next ih =>
    obtain ⟨allowed, unchanged⟩ := neutral request calls.1
    refine ⟨allowed, fun answer => ?_⟩
    rw [unchanged answer]
    exact ih answer (calls.2 answer)

theorem Obeys.limit {ends : Ledger → Except Err Result → Prop} {ledger : Ledger}
    {program : Program Call Answer Err Result} (obeys : program.Obeys discipline ends ledger)
    (calls : program.Calls test) : program.Obeys (discipline.limit test) ends ledger := by
  induction program generalizing ledger with
  | done result => exact obeys
  | fail error => exact obeys
  | call request next ih =>
    exact ⟨⟨obeys.1, calls.1⟩, fun answer => ih answer (obeys.2 answer) (calls.2 answer)⟩

end Calls

section Run

variable {serve : Nat → (request : Call) → World → Answer request × World}
  {ends : Ledger → Except Err Result → Prop}

/-- What every allowed call keeps holds when the program has run, for some final ledger. -/
theorem Obeys.run {Holds : Ledger → World → Prop}
    (kept : ∀ ledger calls request world, Holds ledger world → discipline.allows ledger request →
      Holds (discipline.after ledger request (serve calls request world).1)
        (serve calls request world).2)
    {ledger : Ledger} {program : Program Call Answer Err Result}
    (obeys : program.Obeys discipline ends ledger) {calls : Nat} {world : World}
    (holds : Holds ledger world) :
    ∃ left, Holds left (program.run serve calls world).world ∧
      ends left (program.run serve calls world).outcome := by
  induction program generalizing ledger calls world with
  | done result => exact ⟨ledger, holds, obeys⟩
  | fail error => exact ⟨ledger, holds, obeys⟩
  | call request next ih => exact ih _ (obeys.2 _) (kept _ _ _ _ holds obeys.1)

/-- What every allowed call keeps holds after the first calls alone, and what is left obeys. -/
theorem Obeys.advance {Holds : Ledger → World → Prop}
    (kept : ∀ ledger calls request world, Holds ledger world → discipline.allows ledger request →
      Holds (discipline.after ledger request (serve calls request world).1)
        (serve calls request world).2)
    {ledger : Ledger} {program : Program Call Answer Err Result}
    (obeys : program.Obeys discipline ends ledger) {steps calls : Nat} {world : World}
    (holds : Holds ledger world) :
    ∃ left, Holds left (program.advance serve steps calls world).2 ∧
      (program.advance serve steps calls world).1.Obeys discipline ends left := by
  induction steps generalizing ledger program calls world with
  | zero => cases program <;> exact ⟨ledger, holds, obeys⟩
  | succ steps ih =>
    cases program with
    | done result => exact ⟨ledger, holds, obeys⟩
    | fail error => exact ⟨ledger, holds, obeys⟩
    | call request next => exact ih (obeys.2 _) (kept _ _ _ _ holds obeys.1)

/-- What calls of some kind keep holds when a program that makes only these has run. -/
theorem Calls.run {test : Call → Prop} (Holds : World → Prop)
    (kept : ∀ calls request world, Holds world → test request → Holds (serve calls request world).2)
    {program : Program Call Answer Err Result} (only : program.Calls test) {calls : Nat} {world : World}
    (holds : Holds world) : Holds (program.run serve calls world).world := by
  induction program generalizing calls world with
  | done result => exact holds
  | fail error => exact holds
  | call request next ih => exact ih _ (only.2 _) (kept _ _ _ holds only.1)

/-- Two worlds that give every allowed call the same answer and stay alike let the program
end in the same way. -/
theorem Obeys.run_alike {Alike : Ledger → World → World → Prop}
    (kept : ∀ ledger calls request world other, Alike ledger world other →
      discipline.allows ledger request →
      (serve calls request world).1 = (serve calls request other).1 ∧
        Alike (discipline.after ledger request (serve calls request world).1)
          (serve calls request world).2 (serve calls request other).2)
    {ledger : Ledger} {program : Program Call Answer Err Result}
    (obeys : program.Obeys discipline ends ledger) {calls : Nat} {world other : World}
    (alike : Alike ledger world other) :
    (program.run serve calls world).outcome = (program.run serve calls other).outcome ∧
      (program.run serve calls world).calls = (program.run serve calls other).calls ∧
      ∃ left, Alike left (program.run serve calls world).world (program.run serve calls other).world ∧
        ends left (program.run serve calls world).outcome := by
  induction program generalizing ledger calls world other with
  | done result => exact ⟨rfl, rfl, ledger, alike, obeys⟩
  | fail error => exact ⟨rfl, rfl, ledger, alike, obeys⟩
  | call request next ih =>
    obtain ⟨same, stays⟩ := kept _ calls request _ _ alike obeys.1
    simp only [run_call]
    rw [← same]
    exact ih _ (obeys.2 _) stays

end Run

end Program

/-! ### Runs side by side -/

/-- Two finished programs with one outcome after the same calls, whose worlds are alike. -/
structure Finished.Alike {Err Result World : Type} (Relates : Except Err Result → World → World → Prop)
    (first second : Finished Err Result World) : Prop where
  outcome : first.outcome = second.outcome
  calls : first.calls = second.calls
  world : Relates first.outcome first.world second.world

namespace Program

variable {Call : Type} {Answer : Call → Type} {Err Other Result Next World : Type}
  {serve : Nat → (request : Call) → World → Answer request × World} {calls : Nat} {world other : World}
  {Relates : Except Err Result → World → World → Prop}

/-- Two worlds that give every call of some kind the same answer and stay alike let a
program that makes only these end in the same way. -/
theorem Calls.run_alike {test : Call → Prop} (Alike : World → World → Prop)
    (kept : ∀ calls request world other, Alike world other → test request →
      (serve calls request world).1 = (serve calls request other).1 ∧
        Alike (serve calls request world).2 (serve calls request other).2)
    {program : Program Call Answer Err Result} (only : program.Calls test) (alike : Alike world other) :
    (program.run serve calls world).Alike (fun _ => Alike) (program.run serve calls other) := by
  induction program generalizing calls world other with
  | done result => exact ⟨rfl, rfl, alike⟩
  | fail error => exact ⟨rfl, rfl, alike⟩
  | call request next ih =>
    obtain ⟨same, stays⟩ := kept calls request world other alike only.1
    simp only [run_call, ← same]
    exact ih _ (only.2 _) stays

theorem run_bind_alike {ends : Except Err Next → World → World → Prop} {program : Program Call Answer Err Result}
    {next : Result → Program Call Answer Err Next}
    (first : (program.run serve calls world).Alike Relates (program.run serve calls other))
    (failed : ∀ error left right, Relates (.error error) left right → ends (.error error) left right)
    (later : ∀ result calls left right, Relates (.ok result) left right →
      ((next result).run serve calls left).Alike ends ((next result).run serve calls right)) :
    ((program >>= next).run serve calls world).Alike ends ((program >>= next).run serve calls other) := by
  rw [run_bind, run_bind]
  rcases one : program.run serve calls world with ⟨outcome, middle, left⟩
  rcases two : program.run serve calls other with ⟨again, between, right⟩
  rw [one, two] at first
  obtain rfl : outcome = again := first.outcome
  obtain rfl : middle = between := first.calls
  cases outcome with
  | error error => exact ⟨rfl, rfl, failed error left right first.world⟩
  | ok result => exact later result middle left right first.world

theorem run_mapError_alike {ends : Except Other Result → World → World → Prop} {change : Err → Other}
    {program : Program Call Answer Err Result}
    (first : (program.run serve calls world).Alike Relates (program.run serve calls other))
    (mapped : ∀ outcome left right, Relates outcome left right → ends (outcome.mapError change) left right) :
    ((program.mapError change).run serve calls world).Alike ends
      ((program.mapError change).run serve calls other) := by
  rw [run_mapError, run_mapError]
  have same : (program.run serve calls world).outcome.mapError change =
      (program.run serve calls other).outcome.mapError change := by rw [first.outcome]
  exact ⟨same, first.calls, mapped _ _ _ first.world⟩

/-- Two worlds that one pass keeps alike let a loop end in the same way, after as many passes. -/
theorem runLoop_alike {body : Program Call Answer Err (Option Result)} (Alike : World → World → Prop)
    (kept : ∀ calls world other, Alike world other →
      (body.run serve calls world).Alike (fun _ => Alike) (body.run serve calls other))
    (passes calls : Nat) (alike : Alike world other) :
    (runLoop serve body passes calls world).map Finished.outcome =
      (runLoop serve body passes calls other).map Finished.outcome := by
  induction passes generalizing calls world other with
  | zero => rfl
  | succ passes ih =>
    have pass := kept calls world other alike
    unfold runLoop
    rcases one : body.run serve calls world with ⟨outcome, later, left⟩
    rcases two : body.run serve calls other with ⟨again, between, right⟩
    rw [one, two] at pass
    obtain rfl : outcome = again := pass.outcome
    obtain rfl : later = between := pass.calls
    rcases outcome with error | ended | result
    · rfl
    · exact ih later pass.world
    · rfl

end Program
end SkillLayer

import SkillLayer.Footprint

/-! Where a computation with state and errors leads, from one state: rules by the form of the
computation. -/

namespace SkillLayer

universe u
variable {Err State Value Out Item : Type u}

/-- The state in which an action ends. -/
def afterwards : EStateM.Result Err State Out → State
  | .ok _ after => after
  | .error _ after => after

/-- What an action that ends well returns. -/
def returned? : EStateM.Result Err State Out → Option Out
  | .ok value _ => some value
  | .error _ _ => none

theorem of_returned {result : EStateM.Result Err State Out} {value : Out}
    (finished : returned? result = some value) : result = .ok value (afterwards result) := by
  cases result with
  | ok other after => rw [Option.some.inj finished, afterwards]
  | error error after => cases finished

theorem of_not_returned {result : EStateM.Result Err State Out} (stopped : returned? result = none) :
    ∃ error, result = .error error (afterwards result) := by
  cases result with
  | ok other after => cases stopped
  | error error after => exact ⟨error, rfl⟩

/-- However the action ends, its result and the state after it satisfy the condition. -/
def Leads (action : EStateM Err State Out) (before : State) (post : Except Err Out → State → Prop) : Prop :=
  match action before with
  | .ok value after => post (.ok value) after
  | .error error after => post (.error error) after

theorem Leads.mono {action : EStateM Err State Out} {before : State}
    {post weaker : Except Err Out → State → Prop} (leads : Leads action before post)
    (implied : ∀ result after, post result after → weaker result after) : Leads action before weaker := by
  unfold Leads at leads ⊢
  cases ran : action before with
  | ok value after =>
    rw [ran] at leads
    exact implied _ _ leads
  | error error after =>
    rw [ran] at leads
    exact implied _ _ leads

theorem Leads.of_ok {action : EStateM Err State Out} {before after : State} {value : Out}
    {post : Except Err Out → State → Prop} (leads : Leads action before post)
    (ran : action before = .ok value after) : post (.ok value) after := by
  rwa [Leads, ran] at leads

theorem Leads.of_error {action : EStateM Err State Out} {before after : State} {error : Err}
    {post : Except Err Out → State → Prop} (leads : Leads action before post)
    (ran : action before = .error error after) : post (.error error) after := by
  rwa [Leads, ran] at leads

theorem Leads.and {action : EStateM Err State Out} {before : State}
    {post other : Except Err Out → State → Prop} (leads : Leads action before post)
    (also : Leads action before other) :
    Leads action before fun result after => post result after ∧ other result after := by
  unfold Leads at leads also ⊢
  cases ran : action before <;> rw [ran] at leads also <;> exact ⟨leads, also⟩

/-- A fact about every end of the action is a fact about where it leads. -/
theorem leads_of_ends {action : EStateM Err State Out} {before : State}
    {post : Except Err Out → State → Prop}
    (done : ∀ value after, action before = .ok value after → post (.ok value) after)
    (failed : ∀ error after, action before = .error error after → post (.error error) after) :
    Leads action before post := by
  unfold Leads
  cases ran : action before with
  | ok value after => exact done value after ran
  | error error after => exact failed error after ran

theorem Leads.afterwards {action : EStateM Err State Out} {before : State} {Holds : State → Prop}
    (leads : Leads action before fun _ after => Holds after) : Holds (afterwards (action before)) := by
  unfold Leads at leads
  cases ran : action before <;> rw [ran] at leads <;> exact leads

/-! ### Rules -/

variable {post : Except Err Out → State → Prop} {before : State}

@[simp] theorem leads_pure (value : Out) :
    Leads (pure value : EStateM Err State Out) before post ↔ post (.ok value) before := Iff.rfl

@[simp] theorem leads_throw (error : Err) :
    Leads (throw error : EStateM Err State Out) before post ↔ post (.error error) before := Iff.rfl

/-- The second action runs where the first has ended well. -/
theorem leads_bind {first : EStateM Err State Value} {second : Value → EStateM Err State Out} :
    Leads (first >>= second) before post ↔
      Leads first before fun result between =>
        match result with
        | .ok value => Leads (second value) between post
        | .error error => post (.error error) between := by
  simp only [Leads, bind, EStateM.bind]
  cases first before <;> rfl

theorem leads_get_bind {second : State → EStateM Err State Out} :
    Leads (get >>= second) before post ↔ Leads (second before) before post := Iff.rfl

@[simp] theorem leads_modify {change : State → State} {post : Except Err PUnit → State → Prop} :
    Leads (modify change : EStateM Err State PUnit) before post ↔ post (.ok ⟨⟩) (change before) := Iff.rfl

theorem leads_modify_bind {change : State → State} {second : PUnit → EStateM Err State Out} :
    Leads (modify change >>= second) before post ↔ Leads (second ⟨⟩) (change before) post := Iff.rfl

/-! ### Loops -/

/-- Run a step for each item, collecting the results until the first failure. -/
def collectEach (step : Item → EStateM Err State Out) : List Item → EStateM Err State (List Out)
  | [] => return []
  | item :: rest => do
    let out ← step item
    let more ← collectEach step rest
    return out :: more

/-- What every step keeps, a loop keeps. -/
theorem leads_collectEach {step : Item → EStateM Err State Out} {Holds : State → Prop} {items : List Item}
    (kept : ∀ item ∈ items, ∀ state, Holds state → Leads (step item) state fun _ after => Holds after)
    (holds : Holds before) : Leads (collectEach step items) before fun _ after => Holds after := by
  induction items generalizing before with
  | nil => exact holds
  | cons item rest ih =>
    rw [collectEach, leads_bind]
    apply (kept item List.mem_cons_self before holds).mono
    intro result between holdsThen
    cases result with
    | error error => exact holdsThen
    | ok out =>
      dsimp only
      rw [leads_bind]
      apply (ih (fun other member => kept other (List.mem_cons_of_mem _ member)) holdsThen).mono
      intro result after holdsAfter
      cases result <;> exact holdsAfter

end SkillLayer

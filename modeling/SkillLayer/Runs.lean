import Mathlib.Logic.Relation

/-! Runs of a step relation and the rule for what holds in every reached state. -/

namespace SkillLayer

universe u

/-- Initial states and single steps. -/
structure Transitions (State : Type u) where
  initial : State → Prop
  step : State → State → Prop

namespace Transitions

variable {State : Type u} (system : Transitions State)

/-- Some run from an initial state ends here. -/
def Reachable (state : State) : Prop :=
  ∃ start, system.initial start ∧ Relation.ReflTransGen system.step start state

variable {system}

theorem Reachable.start {state : State} (initial : system.initial state) : system.Reachable state :=
  ⟨state, initial, .refl⟩

theorem Reachable.next {state after : State} (reached : system.Reachable state)
    (step : system.step state after) : system.Reachable after := by
  obtain ⟨start, initial, run⟩ := reached
  exact ⟨start, initial, run.tail step⟩

/-- What holds initially and is kept by every step holds in every reachable state. -/
theorem Reachable.invariant {Holds : State → Prop} (initially : ∀ state, system.initial state → Holds state)
    (kept : ∀ state after, Holds state → system.step state after → Holds after)
    {state : State} (reached : system.Reachable state) : Holds state := by
  obtain ⟨start, initial, run⟩ := reached
  induction run with
  | refl => exact initially start initial
  | tail _ step ih => exact kept _ _ ih step

end Transitions
end SkillLayer

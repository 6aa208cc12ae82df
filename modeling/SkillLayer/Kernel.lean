import Mathlib.Data.List.Pairwise

/-! Choices from a list that leave out only what is related to something chosen. -/

namespace SkillLayer

universe u v
variable {Item : Type u} {related : Item → Item → Prop}

/-- No two chosen items are related, and every item is chosen or related to a chosen one. -/
structure Kernel (related : Item → Item → Prop) (items chosen : List Item) : Prop where
  subset : ∀ item ∈ chosen, item ∈ items
  apart : chosen.Pairwise fun left right => ¬ related left right
  reaches : ∀ item ∈ items, item ∈ chosen ∨ ∃ keeper ∈ chosen, related keeper item

namespace Kernel

variable {items others chosen rechosen : List Item}

theorem unrelated (symmetric : ∀ left right, related left right → related right left)
    (kernel : Kernel related items chosen) {left right : Item} (inLeft : left ∈ chosen)
    (inRight : right ∈ chosen) (different : left ≠ right) : ¬ related left right :=
  have : Std.Symm fun left right => ¬ related left right :=
    ⟨fun _ _ apart back => apart (symmetric _ _ back)⟩
  kernel.apart.forall inLeft inRight different

theorem congr (same : ∀ item, item ∈ items ↔ item ∈ others) (kernel : Kernel related items chosen) :
    Kernel related others chosen where
  subset item member := (same item).mp (kernel.subset item member)
  apart := kernel.apart
  reaches item member := kernel.reaches item ((same item).mpr member)

/-- Where only equal items are related, everything is chosen. -/
theorem mem_chosen (equal : ∀ left ∈ items, ∀ right ∈ items, related left right → left = right)
    (kernel : Kernel related items chosen) {item : Item} : item ∈ chosen ↔ item ∈ items := by
  constructor
  · exact kernel.subset item
  · intro member
    rcases kernel.reaches item member with here | ⟨keeper, inside, near⟩
    · exact here
    · rwa [← equal keeper (kernel.subset keeper inside) item member near]

/-- Where being related is transitive, the items of one kernel match those of any other
kernel of the same items one to one. -/
theorem matches_unique (symmetric : ∀ left right, related left right → related right left)
    (transitive : ∀ first ∈ items, ∀ second ∈ items, ∀ third ∈ items,
      related first second → related second third → related first third)
    (kernel : Kernel related items chosen) (other : Kernel related items rechosen) :
    ∀ item ∈ chosen, ∃! keeper, keeper ∈ rechosen ∧ (item = keeper ∨ related item keeper) := by
  intro item member
  have inItems := kernel.subset item member
  have apart (left right : Item) (inLeft : left ∈ rechosen) (inRight : right ∈ rechosen)
      (both : related left right) : left = right := by
    by_contra different
    exact other.unrelated symmetric inLeft inRight different both
  have one : ∃ keeper ∈ rechosen, item = keeper ∨ related item keeper := by
    rcases other.reaches item inItems with here | ⟨keeper, inside, near⟩
    · exact ⟨item, here, .inl rfl⟩
    · exact ⟨keeper, inside, .inr (symmetric _ _ near)⟩
  obtain ⟨keeper, inside, matched⟩ := one
  refine ⟨keeper, ⟨inside, matched⟩, ?_⟩
  rintro found ⟨inFound, foundMatch⟩
  rcases matched with rfl | near
  · rcases foundMatch with rfl | foundNear
    · rfl
    · exact (apart _ _ inside inFound foundNear).symm
  · rcases foundMatch with rfl | foundNear
    · exact apart _ _ inFound inside near
    · exact apart _ _ inFound inside
        (transitive _ (other.subset _ inFound) _ inItems _ (other.subset _ inside)
          (symmetric _ _ foundNear) near)

end Kernel
end SkillLayer

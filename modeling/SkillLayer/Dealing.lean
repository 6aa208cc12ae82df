import Mathlib.Algebra.GroupWithZero.Nat
import Mathlib.Data.List.Forall2

/-! Dealing out a stream in groups: what is flattened in one pass comes back in another. -/

namespace SkillLayer

universe u v
variable {Item : Type u} {Value : Type v}

/-- The next values of a stream; nothing when it ends too early. -/
def dealGroup : Nat → List Value → Option (List Value × List Value)
  | 0, stream => some ([], stream)
  | _ + 1, [] => none
  | size + 1, value :: stream => do
    let (group, rest) ← dealGroup size stream
    return (value :: group, rest)

/-- A group of each size in turn, and what is left of the stream. -/
def dealGroups : List Nat → List Value → Option (List (List Value) × List Value)
  | [], stream => some ([], stream)
  | size :: sizes, stream => do
    let (group, rest) ← dealGroup size stream
    let (groups, rest) ← dealGroups sizes rest
    return (group :: groups, rest)

theorem dealGroup_append (group rest : List Value) :
    dealGroup group.length (group ++ rest) = some (group, rest) := by
  induction group with
  | nil => rfl
  | cons value group ih => simp [dealGroup, ih]

/-- What is dealt out of a flattened list are the lists that were flattened. -/
theorem dealGroups_flatten (groups : List (List Value)) (rest : List Value) :
    dealGroups (groups.map List.length) (groups.flatten ++ rest) = some (groups, rest) := by
  induction groups with
  | nil => rfl
  | cons group groups ih => simp [dealGroups, List.append_assoc, dealGroup_append, ih]

/-- A stream of the right length is the flattening of groups of the given sizes. -/
theorem exists_groups (sizes : List Nat) {stream : List Value} (length : stream.length = sizes.sum) :
    ∃ groups : List (List Value), groups.map List.length = sizes ∧ groups.flatten = stream := by
  induction sizes generalizing stream with
  | nil =>
    obtain rfl := List.eq_nil_of_length_eq_zero length
    exact ⟨[], rfl, rfl⟩
  | cons size sizes ih =>
    rw [List.sum_cons] at length
    have later : (stream.drop size).length = sizes.sum := by rw [List.length_drop]; omega
    obtain ⟨groups, sized, whole⟩ := ih later
    refine ⟨stream.take size :: groups, ?_, ?_⟩
    · rw [List.map_cons, List.length_take, sized, Nat.min_eq_left (by omega)]
    · rw [List.flatten_cons, whole, List.take_append_drop]

/-- Two flattenings that are related item by item, with groups of one size, are related group by group. -/
theorem forall₂_of_flatten {related : Item → Value → Prop} {groups : List (List Item)} {others : List (List Value)}
    (sized : others.map List.length = groups.map List.length)
    (flat : List.Forall₂ related groups.flatten others.flatten) :
    List.Forall₂ (List.Forall₂ related) groups others := by
  induction groups generalizing others with
  | nil =>
    cases others with
    | nil => exact .nil
    | cons other others => cases sized
  | cons group groups ih =>
    cases others with
    | nil => cases sized
    | cons other others =>
      obtain ⟨here, later⟩ := List.cons.inj sized
      rw [List.flatten_cons, List.flatten_cons] at flat
      have first := List.forall₂_take_append _ _ _ flat
      have others := List.forall₂_drop_append _ _ _ flat
      rw [here, List.take_left] at first
      rw [here, List.drop_left] at others
      exact .cons first (ih later others)

end SkillLayer

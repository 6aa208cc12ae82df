import Mathlib.Data.List.Dedup

/-! Values collected under their keys, and the unspecified order in which a hash map
gives them back. -/

namespace SkillLayer

universe u v

/-- An iteration order: some rearrangement of the entries. -/
structure HashOrder (Entry : Type u) where
  arrange : List Entry → List Entry
  perm : ∀ entries, (arrange entries).Perm entries

def HashOrder.unchanged (Entry : Type u) : HashOrder Entry := ⟨id, fun _ => List.Perm.refl _⟩

/-- A map may give any of its entries first. -/
def HashOrder.preferring {Entry : Type u} [DecidableEq Entry] (entry : Entry) : HashOrder Entry where
  arrange entries := if entry ∈ entries then entry :: entries.erase entry else entries
  perm entries := by
    split
    · rename_i member
      exact (List.perm_cons_erase member).symm
    · exact List.Perm.refl _

variable {Key : Type u} {Value : Type v} [DecidableEq Key]

/-- The entries of a map into which every value is pushed under its key. -/
def group (pairs : List (Key × Value)) : List (Key × List Value) :=
  (pairs.map Prod.fst).dedup.map fun key =>
    (key, (pairs.filter fun pair => pair.1 = key).map Prod.snd)

@[simp] theorem keys_group (pairs : List (Key × Value)) :
    (group pairs).map Prod.fst = (pairs.map Prod.fst).dedup := by
  simp [group, Function.comp_def]

theorem nodup_keys_group (pairs : List (Key × Value)) : ((group pairs).map Prod.fst).Nodup := by
  rw [keys_group]
  exact List.nodup_dedup _

theorem mem_keys_group {pairs : List (Key × Value)} {key : Key} :
    key ∈ (group pairs).map Prod.fst ↔ ∃ value, (key, value) ∈ pairs := by
  simp

/-- An entry holds the values pushed under its key, in their order. -/
theorem mem_group {pairs : List (Key × Value)} {key : Key} {values : List Value} :
    (key, values) ∈ group pairs ↔ (∃ value, (key, value) ∈ pairs) ∧
      values = (pairs.filter fun pair => pair.1 = key).map Prod.snd := by
  unfold group
  rw [List.mem_map]
  constructor
  · rintro ⟨other, member, same⟩
    obtain ⟨rfl, rfl⟩ := Prod.mk.inj same
    rw [List.mem_dedup, List.mem_map] at member
    obtain ⟨⟨here, value⟩, inPairs, rfl⟩ := member
    exact ⟨⟨value, inPairs⟩, rfl⟩
  · rintro ⟨⟨value, inPairs⟩, rfl⟩
    exact ⟨key, List.mem_dedup.mpr (List.mem_map.mpr ⟨_, inPairs, rfl⟩), rfl⟩

theorem mem_values_of_mem_group {pairs : List (Key × Value)} {key : Key} {values : List Value}
    (entry : (key, values) ∈ group pairs) (value : Value) : value ∈ values ↔ (key, value) ∈ pairs := by
  obtain ⟨-, rfl⟩ := mem_group.mp entry
  simp

theorem values_ne_nil {pairs : List (Key × Value)} {key : Key} {values : List Value}
    (entry : (key, values) ∈ group pairs) : values ≠ [] := by
  obtain ⟨⟨value, inPairs⟩, -⟩ := mem_group.mp entry
  exact List.ne_nil_of_mem ((mem_values_of_mem_group entry value).mpr inPairs)

end SkillLayer

import Mathlib.Data.List.Induction
import Mathlib.Data.List.Nodup

/-! Finite tables collected from key-value pairs, a later pair replacing an
earlier one with the same key. -/

namespace SkillLayer

universe u v
variable {Key : Type u} {Value : Type v} [DecidableEq Key]

/-- The table collected from `entries`, read through its lookup function. -/
def lastWriter (entries : List (Key × Value)) : Key → Option Value :=
  entries.foldl (fun table entry => Function.update table entry.1 (some entry.2)) fun _ => none

theorem lastWriter_append_singleton (entries : List (Key × Value)) (key : Key) (value : Value) :
    lastWriter (entries ++ [(key, value)]) =
      Function.update (lastWriter entries) key (some value) := by
  simp [lastWriter]

/-- Only collected pairs can be looked up. -/
theorem mem_of_lastWriter {entries : List (Key × Value)} {key : Key} {value : Value}
    (found : lastWriter entries key = some value) : (key, value) ∈ entries := by
  induction entries using List.reverseRecOn with
  | nil => simp [lastWriter] at found
  | append_singleton entries last ih =>
    rw [lastWriter_append_singleton] at found
    by_cases same : key = last.1
    · subst same
      have written : last.2 = value := by simpa using found
      simp [← written]
    · rw [Function.update_of_ne same] at found
      exact List.mem_append_left _ (ih found)

/-- Without repeated keys nothing is replaced. -/
theorem lastWriter_of_mem {entries : List (Key × Value)}
    (nodup : (entries.map Prod.fst).Nodup) {key : Key} {value : Value}
    (member : (key, value) ∈ entries) : lastWriter entries key = some value := by
  induction entries using List.reverseRecOn with
  | nil => simp at member
  | append_singleton entries last ih =>
    rw [List.map_append, List.nodup_append] at nodup
    obtain ⟨earlier, -, disjoint⟩ := nodup
    rw [lastWriter_append_singleton]
    rcases List.mem_append.mp member with old | new
    · have different : key ≠ last.1 :=
        disjoint key (List.mem_map.mpr ⟨_, old, rfl⟩) last.1 (by simp)
      rw [Function.update_of_ne different]
      exact ih earlier old
    · simp only [List.mem_singleton] at new
      simp [← new]

end SkillLayer

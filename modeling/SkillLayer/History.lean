import Mathlib.Data.List.Basic

/-! Committed values with their versions, read by a reader that takes the version first. -/

namespace SkillLayer

universe u
variable {Value : Type u}

/-- The commits of a store, the oldest first. -/
abbrev History (Value : Type u) := List (Int × Value)

/-- The version was current when the commit at `index` was the newest. -/
structure Current (history : History Value) (version : Int) (index : Nat) : Prop where
  reached : ∃ commit, history[index]? = some commit ∧ commit.1 ≤ version
  ahead : ∀ later commit, index < later → history[later]? = some commit → version < commit.1

/-- The value is that of a commit from `index` on. -/
def ReadSince (history : History Value) (index : Nat) (read : Nat) (value : Value) : Prop :=
  index ≤ read ∧ ∃ version, history[read]? = some (version, value)

/-- Newer versions were current at newer commits. -/
theorem Current.le {history : History Value} {version other : Int} {index otherIndex : Nat}
    (first : Current history version index) (second : Current history other otherIndex)
    (older : version ≤ other) : index ≤ otherIndex := by
  by_contra behind
  obtain ⟨commit, found, reached⟩ := first.reached
  have beyond := second.ahead index commit (Nat.lt_of_not_le behind) found
  omega

/-- The commits up to a version are no newer than the one that was current with it. -/
theorem Current.bound {history : History Value} {version : Int} {index other : Nat}
    {commit : Int × Value} (current : Current history version index)
    (found : history[other]? = some commit) (reached : commit.1 ≤ version) : other ≤ index := by
  by_contra beyond
  have ahead := current.ahead other commit (Nat.lt_of_not_le beyond) found
  omega

theorem Current.lt_length {history : History Value} {version : Int} {index : Nat}
    (current : Current history version index) : index < history.length := by
  obtain ⟨commit, found, -⟩ := current.reached
  exact (List.getElem?_eq_some_iff.mp found).1

/-- A commit with a newer version leaves earlier labels where they were. -/
theorem Current.append {history : History Value} {version newer : Int} {index : Nat}
    (current : Current history version index) (value : Value) (above : version < newer) :
    Current (history ++ [(newer, value)]) version index := by
  have inside := current.lt_length
  constructor
  · rw [List.getElem?_append_left inside]
    exact current.reached
  · intro later commit after found
    by_cases old : later < history.length
    · rw [List.getElem?_append_left old] at found
      exact current.ahead later commit after found
    · rw [List.getElem?_append_right (Nat.le_of_not_lt old)] at found
      obtain rfl := List.mem_singleton.mp (List.mem_of_getElem? found)
      exact above

/-- A version at least that of the newest commit is current with it. -/
theorem Current.newest (earlier : History Value) {commit : Int × Value} {version : Int}
    (reached : commit.1 ≤ version) : Current (earlier ++ [commit]) version earlier.length := by
  constructor
  · exact ⟨commit, by simp, reached⟩
  · intro later other after found
    have inside := (List.getElem?_eq_some_iff.mp found).1
    rw [List.length_append, List.length_singleton] at inside
    omega

theorem ReadSince.append {history : History Value} {index read : Nat} {value : Value}
    (since : ReadSince history index read value) (commit : Int × Value) :
    ReadSince (history ++ [commit]) index read value := by
  obtain ⟨after, version, found⟩ := since
  refine ⟨after, version, ?_⟩
  rw [List.getElem?_append_left (List.getElem?_eq_some_iff.mp found).1, found]

theorem ReadSince.lt_length {history : History Value} {index read : Nat} {value : Value}
    (since : ReadSince history index read value) : read < history.length := by
  obtain ⟨-, version, found⟩ := since
  exact (List.getElem?_eq_some_iff.mp found).1

end SkillLayer

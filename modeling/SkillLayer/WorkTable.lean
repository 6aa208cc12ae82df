import Mathlib.Data.List.Sort
import SkillLayer.Grouping
import SkillLayer.Keyed
import SkillLayer.WorkPool

/-! Work items as the rows of a table: their progress, and the batches taken from it. -/

namespace SkillLayer.Keyed

universe u v
variable {Row : Type u} {Key : Type} [DecidableEq Key] {key : Row → Key}

/-- The progress of the item under a key. -/
def progressOf (progress : Row → Progress) (table : Keyed Row key) (wanted : Key) : Option Progress :=
  (table.find? wanted).map progress

variable {progress : Row → Progress} {table : Keyed Row key} {row : Row} {wanted : Key} {item : Progress}

theorem find?_of_mem (member : row ∈ table.rows) : table.find? (key row) = some row :=
  find?_eq_some.mpr ⟨member, rfl⟩

theorem same_row {other : Row} (member : row ∈ table.rows) (found : other ∈ table.rows)
    (same : key row = key other) : row = other := by
  have first := find?_of_mem member
  rw [same, find?_of_mem found] at first
  exact (Option.some.inj first).symm

theorem progressOf_of_mem (member : row ∈ table.rows) :
    table.progressOf progress (key row) = some (progress row) := by
  rw [progressOf, find?_of_mem member, Option.map_some]

theorem progressOf_eq_some :
    table.progressOf progress wanted = some item ↔
      ∃ row ∈ table.rows, key row = wanted ∧ progress row = item := by
  rw [progressOf, Option.map_eq_some_iff]
  simp only [find?_eq_some, and_assoc]

theorem progressOf_eq_none : table.progressOf progress wanted = none ↔ wanted ∉ table.keys := by
  rw [progressOf, Option.map_eq_none_iff]
  exact find?_eq_none

theorem progressOf_insert (fresh : key row ∉ table.keys) :
    (table.insert row fresh).progressOf progress =
      Function.update (table.progressOf progress) (key row) (some (progress row)) := by
  funext wanted
  rw [progressOf, find?_insert]
  by_cases same : wanted = key row
  · rw [same, Function.update_self, if_pos rfl, Option.map_some]
  · rw [Function.update_of_ne same, if_neg (Ne.symm same), progressOf]

variable {change : Row → Row} (keepsKey : ∀ row, key (change row) = key row)

/-- A change of rows that claims those under the given keys. -/
theorem progressOf_claim (keys : List Key) (acts : ∀ row ∈ table.rows,
      progress (change row) = if key row ∈ keys then (progress row).claim else progress row) :
    (table.update change keepsKey).progressOf progress = claimKeys keys (table.progressOf progress) := by
  funext wanted
  rw [progressOf, find?_update, claimKeys, progressOf]
  cases found : table.find? wanted with
  | none => simp
  | some row =>
    obtain ⟨member, rfl⟩ := find?_eq_some.mp found
    rw [Option.map_some, Option.map_some, Option.map_some, acts row member]
    split <;> rfl

/-- A change of rows that moves the item under one key when it is in processing. -/
theorem progressOf_mark (next : Progress → Progress) (acts : ∀ row ∈ table.rows,
      progress (change row) =
        if key row = wanted ∧ (progress row).standing = .processing then next (progress row)
        else progress row)
    (here : table.progressOf progress wanted = some item) (processing : item.standing = .processing) :
    (table.update change keepsKey).progressOf progress =
      Function.update (table.progressOf progress) wanted (some (next item)) := by
  funext other
  rw [progressOf, find?_update]
  cases found : table.find? other with
  | none =>
    have different : other ≠ wanted := by
      rintro rfl
      rw [progressOf, found] at here
      cases here
    rw [Function.update_of_ne different, progressOf, found]
    rfl
  | some row =>
    obtain ⟨member, rfl⟩ := find?_eq_some.mp found
    rw [Option.map_some, Option.map_some, acts row member]
    by_cases same : key row = wanted
    · subst same
      obtain rfl : progress row = item := Option.some.inj ((progressOf_of_mem member).symm.trans here)
      rw [Function.update_self, if_pos ⟨rfl, processing⟩]
    · rw [Function.update_of_ne same, if_neg fun both => same both.1, progressOf_of_mem member]

/-! ### Batches -/

variable {precedes : Row → Row → Prop} [DecidableRel precedes]

/-- The first rows that pass a test, in order; rows that tie come in any order. -/
def batch (order : HashOrder Row) (may : Row → Bool) (precedes : Row → Row → Prop)
    [DecidableRel precedes] (size : Nat) (table : Keyed Row key) : List Row :=
  ((order.arrange (table.rows.filter may)).insertionSort precedes).take size

variable {order : HashOrder Row} {may : Row → Bool} {size : Nat}

omit [DecidableEq Key] in
theorem mem_batch (member : row ∈ table.batch order may precedes size) :
    row ∈ table.rows ∧ may row = true := by
  have sorted := List.mem_of_mem_take member
  rw [List.mem_insertionSort, (order.perm _).mem_iff, List.mem_filter] at sorted
  exact sorted

omit [DecidableEq Key] in
theorem nodup_batch (table : Keyed Row key) (order : HashOrder Row) (may : Row → Bool)
    (precedes : Row → Row → Prop) [DecidableRel precedes] (size : Nat) :
    ((table.batch order may precedes size).map key).Nodup := by
  have filtered : ((table.rows.filter may).map key).Nodup :=
    table.distinct.sublist (List.filter_sublist.map _)
  refine List.Nodup.sublist ((List.take_sublist _ _).map _) ?_
  rw [((List.perm_insertionSort _ _).map _).nodup_iff, ((order.perm _).map _).nodup_iff]
  exact filtered

omit [DecidableEq Key] in
/-- A batch of the size of the table takes every row that passes. -/
theorem mem_batch_of_large (member : row ∈ table.rows) (passes : may row = true)
    (large : table.rows.length ≤ size) : row ∈ table.batch order may precedes size := by
  have short : ((order.arrange (table.rows.filter may)).insertionSort precedes).length ≤ size := by
    rw [List.length_insertionSort, (order.perm _).length_eq]
    exact (List.length_filter_le _ _).trans large
  rw [batch, List.take_of_length_le short, List.mem_insertionSort, (order.perm _).mem_iff]
  exact List.mem_filter.mpr ⟨member, passes⟩

end SkillLayer.Keyed

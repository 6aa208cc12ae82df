import Mathlib.Data.List.Nodup

/-! Tables whose rows are told apart by a key. -/

namespace SkillLayer

universe u v
variable {Row : Type u} {Key : Type v} {key : Row → Key}

/-- Rows in insertion order with pairwise distinct keys. -/
structure Keyed (Row : Type u) {Key : Type v} (key : Row → Key) where
  rows : List Row
  distinct : (rows.map key).Nodup

namespace Keyed

def empty : Keyed Row key := ⟨[], List.nodup_nil⟩

def keys (table : Keyed Row key) : List Key := table.rows.map key

def insert (table : Keyed Row key) (row : Row) (fresh : key row ∉ table.keys) : Keyed Row key where
  rows := table.rows ++ [row]
  distinct := by
    rw [List.map_append, List.map_singleton, List.nodup_append]
    refine ⟨table.distinct, List.nodup_singleton _, ?_⟩
    intro first member second last same
    obtain rfl := List.mem_singleton.mp last
    exact fresh (same ▸ member)

def filter (table : Keyed Row key) (keeps : Row → Bool) : Keyed Row key where
  rows := table.rows.filter keeps
  distinct := table.distinct.sublist (List.filter_sublist.map key)

/-- Rewrite every row without touching its key. -/
def update (table : Keyed Row key) (change : Row → Row)
    (keepsKey : ∀ row, key (change row) = key row) : Keyed Row key where
  rows := table.rows.map change
  distinct := by
    rw [List.map_map, show key ∘ change = key from funext keepsKey]
    exact table.distinct

@[ext]
theorem ext {table other : Keyed Row key} (same : table.rows = other.rows) : table = other := by
  cases table
  cases other
  cases same
  rfl

@[simp] theorem empty_rows : (empty : Keyed Row key).rows = [] := rfl

@[simp] theorem insert_rows (table : Keyed Row key) (row : Row) (fresh : key row ∉ table.keys) :
    (table.insert row fresh).rows = table.rows ++ [row] := rfl

@[simp] theorem filter_rows (table : Keyed Row key) (keeps : Row → Bool) :
    (table.filter keeps).rows = table.rows.filter keeps := rfl

@[simp] theorem update_rows (table : Keyed Row key) (change : Row → Row)
    (keepsKey : ∀ row, key (change row) = key row) :
    (table.update change keepsKey).rows = table.rows.map change := rfl

@[simp] theorem update_keys (table : Keyed Row key) (change : Row → Row)
    (keepsKey : ∀ row, key (change row) = key row) :
    (table.update change keepsKey).keys = table.keys := by
  rw [keys, keys, update_rows, List.map_map, show key ∘ change = key from funext keepsKey]

theorem insert_keys (table : Keyed Row key) (row : Row) (fresh : key row ∉ table.keys) :
    (table.insert row fresh).keys = table.keys ++ [key row] := by
  simp [keys]

theorem mem_insert_keys {table : Keyed Row key} {row : Row} (fresh : key row ∉ table.keys)
    {found : Key} (member : found ∈ table.keys) : found ∈ (table.insert row fresh).keys := by
  rw [insert_keys]
  exact List.mem_append_left _ member

section Find

variable [DecidableEq Key]

/-- The row under a key. -/
def find? (table : Keyed Row key) (wanted : Key) : Option Row :=
  table.rows.find? fun row => key row = wanted

theorem find?_eq_some {table : Keyed Row key} {wanted : Key} {row : Row} :
    table.find? wanted = some row ↔ row ∈ table.rows ∧ key row = wanted := by
  obtain ⟨rows, distinct⟩ := table
  simp only [find?]
  constructor
  · intro found
    exact ⟨List.mem_of_find?_eq_some found, by simpa using List.find?_some found⟩
  · rintro ⟨member, rfl⟩
    induction rows with
    | nil => cases member
    | cons first rest ih =>
      rw [List.map_cons, List.nodup_cons] at distinct
      rcases List.mem_cons.mp member with rfl | inRest
      · simp
      · have different : key first ≠ key row :=
          fun same => distinct.1 (same ▸ List.mem_map_of_mem inRest)
        rw [List.find?_cons_of_neg (by simpa using different)]
        exact ih distinct.2 inRest

theorem find?_eq_none {table : Keyed Row key} {wanted : Key} :
    table.find? wanted = none ↔ wanted ∉ table.keys := by
  simp only [find?, List.find?_eq_none, decide_eq_true_eq, keys, List.mem_map, not_exists, not_and]

theorem find?_insert {table : Keyed Row key} {row : Row} (fresh : key row ∉ table.keys) (wanted : Key) :
    (table.insert row fresh).find? wanted =
      if key row = wanted then some row else table.find? wanted := by
  by_cases same : key row = wanted
  · rw [if_pos same, find?_eq_some]
    exact ⟨by simp, same⟩
  · rw [if_neg same]
    simp [find?, List.find?_append, same]

theorem find?_update (table : Keyed Row key) (change : Row → Row)
    (keepsKey : ∀ row, key (change row) = key row) (wanted : Key) :
    (table.update change keepsKey).find? wanted = (table.find? wanted).map change := by
  rw [find?, update_rows, List.find?_map]
  congr 2
  funext row
  simp [keepsKey]

/-- The rows under one key are at most one. -/
theorem filter_key (table : Keyed Row key) (wanted : Key) (test : Row → Bool) :
    (table.rows.filter fun row => key row = wanted && test row) =
      ((table.find? wanted).filter test).toList := by
  obtain ⟨rows, distinct⟩ := table
  simp only [find?]
  induction rows with
  | nil => rfl
  | cons first rest ih =>
    rw [List.map_cons, List.nodup_cons] at distinct
    by_cases same : key first = wanted
    · have none_ : (rest.filter fun row => key row = wanted && test row) = [] := by
        rw [List.filter_eq_nil_iff]
        intro row member passes
        have equal : key row = wanted := of_decide_eq_true (Bool.and_eq_true_iff.mp passes).1
        exact distinct.1 (same ▸ equal ▸ List.mem_map_of_mem member)
      by_cases passes : test first = true
      · rw [List.filter_cons_of_pos (by simp [same, passes]), none_]
        simp [same, Option.filter, passes]
      · rw [List.filter_cons_of_neg (by simp [same, passes]), none_]
        simp [same, Option.filter, passes]
    · rw [List.filter_cons_of_neg (by simp [same]), List.find?_cons_of_neg (by simpa using same)]
      exact ih distinct.2

end Find

theorem not_nodup_append_cons {table : Keyed Row key} {row : Row} (taken : key row ∈ table.keys)
    (rest : List Row) : ¬ (table.keys ++ (row :: rest).map key).Nodup := by
  intro nodup
  rw [List.nodup_append] at nodup
  exact nodup.2.2 _ taken _ (by simp) rfl

end Keyed
end SkillLayer

import Mathlib.Data.List.Nodup

/-! A map as the list of its entries: a value is inserted under a new key, and modified under
a known one. -/

namespace SkillLayer

universe u v
variable {Key : Type u} {Value : Type v} [DecidableEq Key]

def upsert (key : Key) (fresh : Value) (modify : Value → Value) : List (Key × Value) → List (Key × Value)
  | [] => [(key, fresh)]
  | entry :: rest =>
    if entry.1 = key then (entry.1, modify entry.2) :: rest else entry :: upsert key fresh modify rest

variable {key : Key} {fresh : Value} {modify : Value → Value} {entries : List (Key × Value)}

theorem mem_keys_upsert {other : Key} :
    other ∈ (upsert key fresh modify entries).map Prod.fst ↔ other = key ∨ other ∈ entries.map Prod.fst := by
  induction entries with
  | nil => simp [upsert]
  | cons entry rest ih =>
    unfold upsert
    split
    · rename_i same
      simp only [List.map_cons, List.mem_cons, same]
      exact (or_iff_right_of_imp Or.inl).symm
    · rw [List.map_cons, List.map_cons, List.mem_cons, List.mem_cons, ih]
      exact or_left_comm

theorem nodup_keys_upsert (distinct : (entries.map Prod.fst).Nodup) :
    ((upsert key fresh modify entries).map Prod.fst).Nodup := by
  induction entries with
  | nil => exact List.nodup_singleton _
  | cons entry rest ih =>
    rw [List.map_cons, List.nodup_cons] at distinct
    unfold upsert
    split
    · exact List.nodup_cons.mpr distinct
    · rename_i different
      rw [List.map_cons, List.nodup_cons, mem_keys_upsert]
      refine ⟨?_, ih distinct.2⟩
      rintro (same | known)
      · exact different same
      · exact distinct.1 known

theorem mem_upsert_constant (key : Key) (value : Value) (entries : List (Key × Value)) :
    (key, value) ∈ upsert key value (fun _ => value) entries := by
  induction entries with
  | nil => exact List.mem_cons_self
  | cons entry rest ih =>
    unfold upsert
    split
    · rename_i same
      exact same ▸ List.mem_cons_self
    · exact List.mem_cons_of_mem _ ih

/-- What holds of the new value, and is kept by the modification, holds of every entry. -/
theorem forall_upsert {holds : Key → Value → Prop} (inserted : holds key fresh)
    (modified : ∀ value, holds key value → holds key (modify value))
    (before : ∀ entry ∈ entries, holds entry.1 entry.2) :
    ∀ entry ∈ upsert key fresh modify entries, holds entry.1 entry.2 := by
  induction entries with
  | nil =>
    intro entry member
    exact List.mem_singleton.mp member ▸ inserted
  | cons first rest ih =>
    obtain ⟨firstHolds, restHolds⟩ := List.forall_mem_cons.mp before
    unfold upsert
    split
    · rename_i same
      refine List.forall_mem_cons.mpr ⟨?_, restHolds⟩
      subst same
      exact modified _ firstHolds
    · exact List.forall_mem_cons.mpr ⟨firstHolds, ih restHolds⟩

/-! ### Looking up -/

omit [DecidableEq Key] in
theorem lookup_eq_some_iff_mem [BEq Key] [LawfulBEq Key] {entries : List (Key × Value)}
    (distinct : (entries.map Prod.fst).Nodup) {key : Key} {value : Value} :
    entries.lookup key = some value ↔ (key, value) ∈ entries := by
  induction entries with
  | nil => simp
  | cons entry rest ih =>
    obtain ⟨here, found⟩ := entry
    obtain ⟨fresh, later⟩ := List.nodup_cons.mp distinct
    rw [List.lookup_cons, List.mem_cons]
    by_cases same : key = here
    · subst same
      simp only [beq_self_eq_true, Option.some.injEq, Prod.mk.injEq, true_and]
      constructor
      · exact fun equal => .inl equal.symm
      · rintro (equal | member)
        · exact equal.symm
        · exact absurd (List.mem_map_of_mem member) fresh
    · have apart : (key == here) = false := beq_eq_false_iff_ne.mpr same
      simp only [apart, ih later, Prod.mk.injEq, same, false_and, false_or]

theorem lookup_cons_if [BEq Key] [LawfulBEq Key] (entry : Key × Value) (rest : List (Key × Value)) (other : Key) :
    (entry :: rest).lookup other = if other = entry.1 then some entry.2 else rest.lookup other := by
  obtain ⟨here, value⟩ := entry
  rw [List.lookup_cons]
  by_cases same : other = here
  · simp [same]
  · have apart : (other == here) = false := beq_eq_false_iff_ne.mpr same
    simp [same, apart]

theorem lookup_upsert [BEq Key] [LawfulBEq Key] (key other : Key) (fresh : Value) (modify : Value → Value)
    (entries : List (Key × Value)) :
    (upsert key fresh modify entries).lookup other =
      if other = key then some ((entries.lookup key).elim fresh modify) else entries.lookup other := by
  induction entries with
  | nil => exact lookup_cons_if ..
  | cons entry rest ih =>
    unfold upsert
    by_cases known : entry.1 = key
    · subst known
      by_cases same : other = entry.1 <;> simp [lookup_cons_if, same]
    · rw [if_neg known, lookup_cons_if, ih, lookup_cons_if entry rest key, if_neg (Ne.symm known)]
      by_cases here : other = entry.1
      · simp [lookup_cons_if, here, known]
      · simp [lookup_cons_if, here]

/-! ### A run of insertions -/

section Runs

universe w
variable {Item : Type w} (keyOf : Item → Key) (fresh : Item → Value) (merge : Item → Value → Value)

/-- Every item in turn, each under its key. -/
def upsertAll (items : List Item) (entries : List (Key × Value)) : List (Key × Value) :=
  items.foldl (fun entries item => upsert (keyOf item) (fresh item) (merge item) entries) entries

omit [DecidableEq Key] in
/-- What the items of one key add up to. -/
def gathered (items : List Item) (held : Option Value) : Option Value :=
  items.foldl (fun held item => some (held.elim (fresh item) (merge item))) held

/-- An entry is what the items of its key add up to, whatever comes between them. -/
theorem lookup_upsertAll [BEq Key] [LawfulBEq Key] (items : List Item) (entries : List (Key × Value)) (key : Key) :
    (upsertAll keyOf fresh merge items entries).lookup key =
      gathered fresh merge (items.filter fun item => keyOf item = key) (entries.lookup key) := by
  induction items generalizing entries with
  | nil => rfl
  | cons item rest ih =>
    rw [upsertAll, List.foldl_cons, ← upsertAll, ih, lookup_upsert]
    by_cases same : keyOf item = key
    · simp [same, gathered]
    · simp [same, Ne.symm same]

end Runs

end SkillLayer

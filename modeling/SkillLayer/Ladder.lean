import Mathlib.Data.List.Induction
import Mathlib.Data.List.Perm.Subperm

/-! Items taken in the order of a list by several parties, each recorded once in a common record. -/

namespace SkillLayer

universe u
variable {Item : Type u} [DecidableEq Item]

/-- The record with the item, once. -/
def recordOnce (record : List Item) (item : Item) : List Item :=
  if item ∈ record then record else record ++ [item]

/-- The items in the order in which each came first. -/
def recordAll (items : List Item) : List Item := items.foldl recordOnce []

variable {record plan done rest : List Item} {item other : Item}

theorem recordOnce_of_mem (member : item ∈ record) : recordOnce record item = record := if_pos member

theorem recordOnce_of_not_mem (fresh : item ∉ record) : recordOnce record item = record ++ [item] := if_neg fresh

theorem mem_recordOnce : other ∈ recordOnce record item ↔ other ∈ record ∨ other = item := by
  by_cases member : item ∈ record
  · rw [recordOnce_of_mem member]
    constructor
    · exact .inl
    · rintro (old | rfl)
      · exact old
      · exact member
  · simp [recordOnce_of_not_mem member]

theorem subset_recordOnce : record ⊆ recordOnce record item := fun _ member => mem_recordOnce.mpr (.inl member)

theorem recordAll_append_singleton (items : List Item) (item : Item) :
    recordAll (items ++ [item]) = recordOnce (recordAll items) item := by
  simp [recordAll]

theorem recordAll_of_nodup {items : List Item} (distinct : items.Nodup) : recordAll items = items := by
  induction items using List.reverseRecOn with
  | nil => rfl
  | append_singleton items item ih =>
    obtain ⟨before, -, apart⟩ := List.nodup_append.mp distinct
    rw [recordAll_append_singleton, ih before]
    exact recordOnce_of_not_mem fun member => apart item member item (List.mem_singleton_self _) rfl

/-- A party that has seen all before the item in the record may add it: the record stays a beginning of the plan. -/
theorem recordOnce_prefix (distinct : plan.Nodup) (begins : record <+: plan) (split : plan = done ++ item :: rest)
    (seen : done ⊆ record) : recordOnce record item <+: plan := by
  by_cases member : item ∈ record
  · rwa [recordOnce_of_mem member]
  · rw [recordOnce_of_not_mem member]
    subst split
    -- the record ends where the item stands: earlier it would lack an item seen, later it would have this one
    obtain ⟨before, -, apart⟩ := List.nodup_append.mp distinct
    have short : record <+: done := by
      rcases List.prefix_or_prefix_of_prefix begins (List.prefix_append done (item :: rest)) with short | long
      · exact short
      · obtain ⟨more, rfl⟩ := long
        cases more with
        | nil => exact (List.append_nil done).symm ▸ List.prefix_refl _
        | cons next more =>
          have same := (List.prefix_append_right_inj done).mp begins
          obtain rfl := (List.cons_prefix_cons.mp same).1
          exact absurd (by simp) member
    have full : record = done := by
      apply short.eq_of_length_le
      exact (List.subperm_of_subset before seen).length_le
    rw [full]
    exact (List.prefix_append_right_inj done).mpr (List.cons_prefix_cons.mpr ⟨rfl, List.nil_prefix⟩)

omit [DecidableEq Item] in
/-- A record that begins a plan and has all of it is the plan. -/
theorem eq_of_prefix_of_subset (distinct : plan.Nodup) (begins : record <+: plan) (all : plan ⊆ record) :
    record = plan :=
  begins.eq_of_length_le (List.subperm_of_subset distinct all).length_le

end SkillLayer

import Mathlib.Data.List.Basic
import Mathlib.Data.List.Induction
import Mathlib.Data.List.MinMax

/-! Counting the items of a list, in the order in which they first appear. -/

namespace SkillLayer

universe u
variable {Item : Type u} [BEq Item]

/-- Counts one more `item`: in its entry, or in a new one at the end. -/
def bump (counts : List (Item × Nat)) (item : Item) : List (Item × Nat) :=
  match counts with
  | [] => [(item, 1)]
  | entry :: rest =>
    if entry.1 == item then (entry.1, entry.2 + 1) :: rest else entry :: bump rest item

def tally (items : List Item) : List (Item × Nat) := items.foldl bump []

variable [LawfulBEq Item]

theorem bump_of_not_mem {counts : List (Item × Nat)} {item : Item}
    (fresh : ∀ entry ∈ counts, entry.1 ≠ item) : bump counts item = counts ++ [(item, 1)] := by
  induction counts with
  | nil => rfl
  | cons entry rest ih =>
    rw [List.forall_mem_cons] at fresh
    rw [bump, if_neg (mt eq_of_beq fresh.1), ih fresh.2, List.cons_append]

theorem bump_of_mem {counts : List (Item × Nat)} {item : Item} (distinct : (counts.map Prod.fst).Nodup)
    (known : ∃ entry ∈ counts, entry.1 = item) :
    bump counts item = counts.map fun entry => if entry.1 == item then (entry.1, entry.2 + 1) else entry := by
  induction counts with
  | nil =>
    obtain ⟨_, absent, _⟩ := known
    cases absent
  | cons entry rest ih =>
    rw [List.map_cons, List.nodup_cons] at distinct
    by_cases here : entry.1 = item
    · have unchanged : ∀ other ∈ rest,
          (if other.1 == item then (other.1, other.2 + 1) else other) = other := by
        intro other member
        refine if_neg fun same => distinct.1 ?_
        rw [here, ← eq_of_beq same]
        exact List.mem_map_of_mem member
      rw [bump, if_pos (beq_iff_eq.mpr here), List.map_cons, if_pos (beq_iff_eq.mpr here),
        List.map_congr_left unchanged, List.map_id']
    · obtain ⟨found, member, same⟩ := known
      have inRest : ∃ other ∈ rest, other.1 = item := by
        rcases List.mem_cons.mp member with rfl | later
        · exact absurd same here
        · exact ⟨found, later, same⟩
      rw [bump, if_neg (mt eq_of_beq here), List.map_cons, if_neg (mt eq_of_beq here), ih distinct.2 inRest]

/-- One entry for each item, with its count, in the order of first appearance. -/
structure Tallies (items : List Item) (counts : List (Item × Nat)) : Prop where
  counted : ∀ entry ∈ counts, entry.1 ∈ items ∧ entry.2 = items.count entry.1
  complete : ∀ item ∈ items, (item, items.count item) ∈ counts
  ordered : counts.Pairwise fun one two => items.idxOf one.1 < items.idxOf two.1

namespace Tallies

variable {items : List Item} {counts : List (Item × Nat)}

omit [LawfulBEq Item] in
theorem distinct (tallies : Tallies items counts) : (counts.map Prod.fst).Nodup := by
  rw [List.Nodup, List.pairwise_map]
  apply tallies.ordered.imp
  intro one two before same
  rw [same] at before
  exact Nat.lt_irrefl _ before

theorem bump (tallies : Tallies items counts) (item : Item) :
    Tallies (items ++ [item]) (bump counts item) := by
  by_cases known : item ∈ items
  · have found : ∃ entry ∈ counts, entry.1 = item := ⟨_, tallies.complete item known, rfl⟩
    rw [bump_of_mem tallies.distinct found]
    refine ⟨?_, ?_, ?_⟩
    · intro entry member
      obtain ⟨old, inCounts, rfl⟩ := List.mem_map.mp member
      obtain ⟨inItems, count⟩ := tallies.counted old inCounts
      split
      · rename_i same
        exact ⟨List.mem_append_left _ inItems, by simp [count, eq_of_beq same]⟩
      · rename_i different
        have apart : item ≠ old.1 := fun same => different (beq_iff_eq.mpr same.symm)
        exact ⟨List.mem_append_left _ inItems, by simp [count, List.count_append, apart]⟩
    · intro other member
      have inItems : other ∈ items := by
        rcases List.mem_append.mp member with old | new
        · exact old
        · rwa [List.mem_singleton.mp new]
      refine List.mem_map.mpr ⟨_, tallies.complete other inItems, ?_⟩
      split
      · rename_i same
        obtain rfl : other = item := eq_of_beq same
        simp
      · rename_i different
        have apart : item ≠ other := fun same => different (beq_iff_eq.mpr same.symm)
        simp [List.count_append, apart]
    · rw [List.pairwise_map]
      apply (List.Pairwise.and_mem.mp tallies.ordered).imp
      intro one two both
      obtain ⟨inOne, inTwo, before⟩ := both
      have names (entry : Item × Nat) :
          (if entry.1 == item then (entry.1, entry.2 + 1) else entry).1 = entry.1 := by
        split <;> rfl
      rw [names, names, List.idxOf_append_of_mem (tallies.counted one inOne).1,
        List.idxOf_append_of_mem (tallies.counted two inTwo).1]
      exact before
  · have fresh : ∀ entry ∈ counts, entry.1 ≠ item := by
      intro entry member same
      exact known (same ▸ (tallies.counted entry member).1)
    rw [bump_of_not_mem fresh]
    refine ⟨?_, ?_, ?_⟩
    · intro entry member
      rcases List.mem_append.mp member with old | new
      · obtain ⟨inItems, count⟩ := tallies.counted entry old
        exact ⟨List.mem_append_left _ inItems, by simp [count, List.count_append, Ne.symm (fresh entry old)]⟩
      · obtain rfl := List.mem_singleton.mp new
        exact ⟨by simp, by simp [List.count_eq_zero.mpr known]⟩
    · intro other member
      rcases List.mem_append.mp member with old | new
      · have different : item ≠ other := fun same => known (same ▸ old)
        simpa [List.count_append, different] using Or.inl (tallies.complete other old)
      · obtain rfl := List.mem_singleton.mp new
        simp [List.count_eq_zero.mpr known]
    · rw [List.pairwise_append]
      refine ⟨?_, List.pairwise_singleton _ _, ?_⟩
      · apply (List.Pairwise.and_mem.mp tallies.ordered).imp
        intro one two both
        obtain ⟨inOne, inTwo, before⟩ := both
        rw [List.idxOf_append_of_mem (tallies.counted one inOne).1,
          List.idxOf_append_of_mem (tallies.counted two inTwo).1]
        exact before
      · intro one member two last
        obtain rfl := List.mem_singleton.mp last
        have inItems := (tallies.counted one member).1
        rw [List.idxOf_append_of_mem inItems, List.idxOf_append_of_notMem known]
        exact Nat.lt_add_right _ (List.idxOf_lt_length_iff.mpr inItems)

end Tallies

theorem tallies_tally (items : List Item) : Tallies items (tally items) := by
  induction items using List.reverseRecOn with
  | nil => exact ⟨List.forall_mem_nil _, List.forall_mem_nil _, List.Pairwise.nil⟩
  | append_singleton items item ih =>
    rw [tally, List.foldl_append]
    exact ih.bump item

/-! ### The last of the largest -/

section LastArgmax

variable {Entry : Type u} {key : Entry → Nat} {entries : List Entry} {winner : Entry}

/-- The last of the entries with the largest key. -/
def lastArgmax (key : Entry → Nat) (entries : List Entry) : Option Entry :=
  entries.reverse.argmax key

theorem lastArgmax_eq_none : lastArgmax key entries = none ↔ entries = [] := by
  rw [lastArgmax, List.argmax_eq_none, List.reverse_eq_nil_iff]

theorem lastArgmax_largest (found : lastArgmax key entries = some winner) :
    ∀ entry ∈ entries, key entry ≤ key winner :=
  fun _ member => List.le_of_mem_argmax (List.mem_reverse.mpr member) found

theorem lastArgmax_last (found : lastArgmax key entries = some winner) :
    ∃ before after, entries = before ++ winner :: after ∧ ∀ entry ∈ after, key entry < key winner := by
  classical
  obtain ⟨after, before, split, fresh⟩ := List.eq_append_cons_of_mem (List.argmax_mem found)
  refine ⟨before.reverse, after.reverse, ?_, fun entry member => ?_⟩
  · rw [← List.reverse_reverse entries, split]
    simp
  · have inAfter := List.mem_reverse.mp member
    have inReverse : entry ∈ entries.reverse := split ▸ List.mem_append_left _ inAfter
    by_contra large
    -- a winner comes no later in the reversed list than any entry as large
    have first := List.index_of_argmax found inReverse (Nat.not_lt.mp large)
    rw [split, List.idxOf_append_of_notMem fresh, List.idxOf_append_of_mem inAfter] at first
    exact absurd (Nat.le_of_add_right_le first) (Nat.not_le.mpr (List.idxOf_lt_length_iff.mpr inAfter))

end LastArgmax

/-- The winner of a tally is the item that appears last among those counted most often. -/
theorem lastArgmax_tally {items : List Item} {winner : Item × Nat}
    (found : lastArgmax Prod.snd (tally items) = some winner) :
    winner.1 ∈ items ∧ ∀ item ∈ items, items.count item ≤ items.count winner.1 ∧
      (items.count item = items.count winner.1 → items.idxOf item ≤ items.idxOf winner.1) := by
  have tallies := tallies_tally items
  obtain ⟨before, after, split, smaller⟩ := lastArgmax_last found
  have member : winner ∈ tally items := split ▸ List.mem_append_right _ List.mem_cons_self
  obtain ⟨inItems, count⟩ := tallies.counted winner member
  refine ⟨inItems, fun item known => ?_⟩
  have entry := tallies.complete item known
  constructor
  · rw [← count]
    exact lastArgmax_largest found _ entry
  · intro same
    have ordered := tallies.ordered
    rw [split] at ordered entry
    rcases List.mem_append.mp entry with earlier | later
    · exact ((List.pairwise_append.mp ordered).2.2 _ earlier _ List.mem_cons_self).le
    · rcases List.mem_cons.mp later with rfl | later
      · exact Nat.le_refl _
      · have fewer : items.count item < winner.2 := smaller _ later
        exact absurd same (count ▸ fewer).ne

end SkillLayer

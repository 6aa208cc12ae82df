import Mathlib.Data.List.Nodup
import Mathlib.Data.List.Sort

/-! The first `k` of a list in an order: they are those with fewer than `k` others ahead. -/

namespace SkillLayer

universe u
variable {Item : Type u}

theorem mem_take_iff_countP {ahead : Item → Item → Prop} [DecidableRel ahead] {sorted : List Item} {item : Item}
    (asymmetric : ∀ one two, ahead one two → ¬ ahead two one) (ordered : sorted.Pairwise ahead)
    (member : item ∈ sorted) (k : Nat) :
    item ∈ sorted.take k ↔ sorted.countP (fun other => decide (ahead other item)) < k := by
  have irreflexive : ¬ ahead item item := fun same => asymmetric item item same same
  obtain ⟨front, back, rfl⟩ := List.append_of_mem member
  rw [List.pairwise_append, List.pairwise_cons] at ordered
  obtain ⟨-, ⟨behind, -⟩, across⟩ := ordered
  have inFront : ∀ other ∈ front, ahead other item := fun other before => across other before item List.mem_cons_self
  have inBack : ∀ other ∈ back, ¬ ahead other item := fun other after => asymmetric item other (behind other after)
  have count : (front ++ item :: back).countP (fun other => decide (ahead other item)) = front.length := by
    rw [List.countP_append, List.countP_cons, List.countP_eq_length.mpr, List.countP_eq_zero.mpr]
    · simp [irreflexive]
    · simpa using inBack
    · simpa using inFront
  rw [count]
  constructor
  · intro taken
    by_contra many
    rw [List.take_append_of_le_length (Nat.not_lt.mp many)] at taken
    exact irreflexive (inFront item (List.mem_of_mem_take taken))
  · intro few
    rw [List.take_append, List.mem_append]
    right
    obtain ⟨more, positive⟩ := Nat.exists_eq_succ_of_ne_zero (Nat.sub_ne_zero_of_lt few)
    rw [positive, List.take_succ_cons]
    exact List.mem_cons_self

/-- An item is among the first `k` exactly when fewer than `k` others rank above it. -/
theorem mem_take_insertionSort_iff {le : Item → Item → Prop} [DecidableRel le] [Std.Total le] [IsTrans Item le]
    {items : List Item} (distinct : items.Nodup)
    (antisymmetric : ∀ one ∈ items, ∀ two ∈ items, le one two → le two one → one = two) {item : Item}
    (member : item ∈ items) (k : Nat) :
    item ∈ (items.insertionSort le).take k ↔ items.countP (fun other => decide (¬ le item other)) < k := by
  have shuffled := List.perm_insertionSort le items
  have ordered : (items.insertionSort le).Pairwise fun one two => ¬ le two one := by
    have sorted := (List.pairwise_insertionSort le items).and (shuffled.nodup_iff.mpr distinct)
    apply (List.Pairwise.and_mem.mp sorted).imp
    intro one two both back
    obtain ⟨inOne, inTwo, forward, apart⟩ := both
    exact apart (antisymmetric one (shuffled.subset inOne) two (shuffled.subset inTwo) forward back)
  have asymmetric (one two : Item) (first : ¬ le two one) : ¬ ¬ le one two :=
    not_not.mpr ((Std.Total.total one two).resolve_right first)
  rw [mem_take_iff_countP asymmetric ordered (shuffled.mem_iff.mpr member), shuffled.countP_eq]

/-- In a list that is ordered throughout, an item that cannot follow another stands before it. -/
theorem sublist_pair_of_pairwise {related : Item → Item → Prop} {items : List Item} (ordered : items.Pairwise related)
    {first second : Item} (inFirst : first ∈ items) (inSecond : second ∈ items) (different : first ≠ second)
    (never : ¬ related second first) : [first, second].Sublist items := by
  obtain ⟨front, back, rfl⟩ := List.append_of_mem inSecond
  have before : first ∈ front := by
    rcases List.mem_append.mp inFirst with early | late
    · exact early
    · rcases List.mem_cons.mp late with same | later
      · exact absurd same different
      · exact absurd ((List.pairwise_cons.mp (List.pairwise_append.mp ordered).2.1).1 first later) never
  exact (List.singleton_sublist.mpr before).append (List.singleton_sublist.mpr List.mem_cons_self)

/-! ### Stable sorting -/

variable {le earlier : Item → Item → Prop} [DecidableRel le] [Std.Total le] [IsTrans Item le]

theorem pairwise_orderedInsert_stable {item : Item} {sorted : List Item}
    (ordered : sorted.Pairwise fun one two => le one two ∧ (le two one → earlier one two))
    (first : ∀ other ∈ sorted, earlier item other) :
    (sorted.orderedInsert le item).Pairwise fun one two => le one two ∧ (le two one → earlier one two) := by
  induction sorted with
  | nil => exact List.pairwise_singleton _ _
  | cons head rest ih =>
    obtain ⟨ahead, later⟩ := List.pairwise_cons.mp ordered
    rw [List.orderedInsert_cons]
    split
    · rename_i before
      refine List.pairwise_cons.mpr ⟨?_, ordered⟩
      intro other member
      refine ⟨?_, fun _ => first other member⟩
      rcases List.mem_cons.mp member with rfl | inRest
      · exact before
      · exact IsTrans.trans _ _ _ before (ahead other inRest).1
    · rename_i behind
      refine List.pairwise_cons.mpr ⟨?_, ih later fun other member => first other (List.mem_cons_of_mem _ member)⟩
      intro other member
      rcases (List.mem_orderedInsert le).mp member with rfl | inRest
      · exact ⟨(Std.Total.total head other).resolve_right behind, fun back => absurd back behind⟩
      · exact ahead other inRest

/-- An insertion sort leaves equals in their order. -/
theorem pairwise_insertionSort_stable {items : List Item} (arranged : items.Pairwise earlier) :
    (items.insertionSort le).Pairwise fun one two => le one two ∧ (le two one → earlier one two) := by
  induction items with
  | nil => exact List.Pairwise.nil
  | cons item rest ih =>
    obtain ⟨first, later⟩ := List.pairwise_cons.mp arranged
    exact pairwise_orderedInsert_stable (ih later) fun other member =>
      first other ((List.mem_insertionSort le).mp member)

/-- In a stable sort an item is among the first `k` exactly when fewer than `k` items are better, or as
good and earlier. -/
theorem mem_take_stable_iff [DecidableRel earlier] {items : List Item} (arranged : items.Pairwise earlier)
    (asymmetric : ∀ one two, earlier one two → ¬ earlier two one) {item : Item} (member : item ∈ items) (k : Nat) :
    item ∈ (items.insertionSort le).take k ↔
      items.countP (fun other => decide (le other item ∧ (le item other → earlier other item))) < k := by
  have apart (one two : Item) (ahead : le one two ∧ (le two one → earlier one two)) :
      ¬ (le two one ∧ (le one two → earlier two one)) := by
    intro back
    exact asymmetric one two (ahead.2 back.1) (back.2 ahead.1)
  rw [mem_take_iff_countP apart (pairwise_insertionSort_stable arranged) ((List.mem_insertionSort le).mpr member),
    (List.perm_insertionSort le items).countP_eq]

end SkillLayer

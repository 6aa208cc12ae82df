import SkillLayer.Grouping
import SkillLayer.Ranking
import SkillLayer.Text

/-! What a stable sort makes of the order of its input: nothing where the items are told apart, and everything where
they tie. -/

namespace SkillLayer

/-! ### The order of strings -/

theorem toNat_ne_of_ne {c d : Char} (different : c ≠ d) : c.toNat ≠ d.toNat :=
  fun same => different (Char.toNat_inj.mp same)

theorem Str.le_total (s t : Str) : Str.le s t = true ∨ Str.le t s = true := by
  induction s generalizing t with
  | nil => exact .inl rfl
  | cons c s ih =>
    cases t with
    | nil => exact .inr rfl
    | cons d t =>
      rw [Str.le, Str.le]
      by_cases same : c = d
      · rw [if_pos same, if_pos same.symm]
        exact ih t
      · rw [if_neg same, if_neg (Ne.symm same), decide_eq_true_eq, decide_eq_true_eq]
        exact Nat.lt_or_gt_of_ne (toNat_ne_of_ne same)

theorem Str.le_refl (s : Str) : Str.le s s = true := (Str.le_total s s).elim id id

theorem Str.le_trans {s t u : Str} (first : Str.le s t = true) (second : Str.le t u = true) : Str.le s u = true := by
  induction s generalizing t u with
  | nil => rfl
  | cons c s ih =>
    cases t with
    | nil => cases first
    | cons d t =>
      cases u with
      | nil => cases second
      | cons e u =>
        rw [Str.le] at first second ⊢
        by_cases left : c = d
        · subst left
          rw [if_pos rfl] at first
          by_cases right : c = e
          · rw [if_pos right] at second ⊢
            exact ih first second
          · rwa [if_neg right] at second ⊢
        · rw [if_neg left, decide_eq_true_eq] at first
          by_cases right : d = e
          · subst right
            rw [if_neg left, decide_eq_true_eq]
            exact first
          · rw [if_neg right, decide_eq_true_eq] at second
            have below := first.trans second
            have apart : c ≠ e := fun same => absurd (same ▸ below) (Nat.lt_irrefl _)
            rw [if_neg apart, decide_eq_true_eq]
            exact below

theorem Str.le_antisymm {s t : Str} (first : Str.le s t = true) (second : Str.le t s = true) : s = t := by
  induction s generalizing t with
  | nil =>
    cases t with
    | nil => rfl
    | cons d t => cases second
  | cons c s ih =>
    cases t with
    | nil => cases first
    | cons d t =>
      rw [Str.le] at first second
      by_cases same : c = d
      · rw [if_pos same] at first
        rw [if_pos same.symm] at second
        rw [same, ih first second]
      · rw [if_neg same, decide_eq_true_eq] at first
        rw [if_neg (Ne.symm same), decide_eq_true_eq] at second
        exact absurd first (Nat.lt_asymm second)

/-! ### Sorting -/

universe u
variable {Item : Type u} (le : Item → Item → Prop) [DecidableRel le] [Std.Total le] [IsTrans Item le]

/-- Items that are told apart are sorted into one list. -/
theorem insertionSort_eq_of_perm {items others : List Item} (shuffled : items.Perm others)
    (antisymmetric : ∀ one ∈ items, ∀ two ∈ items, le one two → le two one → one = two) :
    items.insertionSort le = others.insertionSort le := by
  have sorted := ((List.perm_insertionSort le items).trans shuffled).trans (List.perm_insertionSort le others).symm
  refine sorted.eq_of_pairwise (fun one two inOne inTwo => ?_) (List.pairwise_insertionSort le items)
    (List.pairwise_insertionSort le others)
  exact antisymmetric one ((List.perm_insertionSort le items).subset inOne) two
    (shuffled.symm.subset ((List.perm_insertionSort le others).subset inTwo))

omit [Std.Total le] [IsTrans Item le] in
/-- Items that tie keep their order. -/
theorem filter_insertionSort {items : List Item} {keep : Item → Bool}
    (tied : ∀ one two, keep one = true → keep two = true → le one two) :
    (items.insertionSort le).filter keep = items.filter keep := by
  have alike : (items.filter keep).Pairwise le := by
    refine List.pairwise_of_forall_mem_list fun one first two second => ?_
    exact tied one two (List.mem_filter.mp first).2 (List.mem_filter.mp second).2
  have inSorted := (List.sublist_insertionSort alike List.filter_sublist).filter keep
  rw [List.filter_filter] at inSorted
  simp only [Bool.and_self] at inSorted
  exact (inSorted.eq_of_length (((List.perm_insertionSort le items).filter keep).length_eq).symm).symm

/-! ### Where an item stands -/

section Standing

universe v
variable {Key : Type v} [LinearOrder Key] {key : Item → Key} {sorted : List Item}

/-- Sorted down by a key: what is above a value of it, what has it, what is below it. -/
theorem split_of_sorted (ordered : sorted.Pairwise fun left right => key right ≤ key left) (pivot : Key) :
    sorted = (sorted.filter fun item => pivot < key item) ++ (sorted.filter fun item => key item = pivot) ++
      sorted.filter fun item => key item < pivot := by
  induction sorted with
  | nil => rfl
  | cons first rest ih =>
    obtain ⟨behind, later⟩ := List.pairwise_cons.mp ordered
    have split := ih later
    rcases lt_trichotomy pivot (key first) with above | same | below
    · simp only [List.filter_cons, above, above.ne', above.not_gt, decide_true, decide_false, Bool.false_eq_true,
        if_true, if_false, List.cons_append]
      rw [← split]
    · subst same
      have nothing : (rest.filter fun item => key first < key item) = [] :=
        List.filter_eq_nil_iff.mpr fun item member => by simpa using behind item member
      rw [nothing, List.nil_append] at split
      simp only [List.filter_cons, lt_irrefl, decide_true, decide_false, Bool.false_eq_true, if_true, if_false,
        nothing, List.nil_append, List.cons_append]
      rw [← split]
    · have low : ∀ item ∈ first :: rest, key item < pivot := by
        intro item member
        rcases List.mem_cons.mp member with rfl | further
        · exact below
        · exact (behind item further).trans_lt below
      have noneAbove : ((first :: rest).filter fun item => pivot < key item) = [] :=
        List.filter_eq_nil_iff.mpr fun item member => by simpa using (low item member).le
      have noneTied : ((first :: rest).filter fun item => key item = pivot) = [] :=
        List.filter_eq_nil_iff.mpr fun item member => by simpa using (low item member).ne
      have all : ((first :: rest).filter fun item => key item < pivot) = first :: rest :=
        List.filter_eq_self.mpr fun item member => by simpa using low item member
      rw [noneAbove, noneTied, all, List.nil_append, List.nil_append]

/-- The first item with a value of the key stands right after the items above it. -/
theorem getElem?_of_head_tied (ordered : sorted.Pairwise fun left right => key right ≤ key left) {item : Item}
    (first : (sorted.filter fun other => key other = key item).head? = some item) :
    sorted[sorted.countP fun other => key item < key other]? = some item := by
  have split := split_of_sorted ordered (key item)
  obtain ⟨rest, tied⟩ := List.head?_eq_some_iff.mp first
  rw [tied] at split
  have front : sorted.countP (fun other => key item < key other) =
      (sorted.filter fun other => key item < key other).length := List.countP_eq_length_filter
  generalize (sorted.filter fun other => key item < key other) = above at split front
  rw [front, split]
  simp

/-- An item that nothing else ties with stands right after the items above it. -/
theorem getElem?_of_untied (ordered : sorted.Pairwise fun left right => key right ≤ key left) {item : Item}
    (member : item ∈ sorted) (untied : ∀ other ∈ sorted, key other = key item → other = item) :
    sorted[sorted.countP fun other => key item < key other]? = some item := by
  apply getElem?_of_head_tied ordered
  have only : ∀ other ∈ sorted.filter fun other => key other = key item, other = item := by
    intro other tied
    obtain ⟨inSorted, same⟩ := List.mem_filter.mp tied
    exact untied other inSorted (of_decide_eq_true same)
  cases tied : sorted.filter fun other => key other = key item with
  | nil => exact absurd (tied ▸ List.mem_filter.mpr ⟨member, decide_eq_true rfl⟩) List.not_mem_nil
  | cons head tail =>
    rw [List.head?_cons, only head (tied ▸ List.mem_cons_self)]

/-- No item stands in front of the items above it. -/
theorem countP_le_of_getElem? (ordered : sorted.Pairwise fun left right => key right ≤ key left) {index : Nat}
    {item : Item} (found : sorted[index]? = some item) :
    (sorted.countP fun other => key item < key other) ≤ index := by
  by_contra early
  have split := split_of_sorted ordered (key item)
  rw [List.countP_eq_length_filter] at early
  rw [split, List.append_assoc, List.getElem?_append_left (not_le.mp early)] at found
  have above := of_decide_eq_true (List.mem_filter.mp (List.mem_of_getElem? found)).2
  exact above.false

/-- Two sorted arrangements of one list agree as far as nothing ties. -/
theorem take_eq_of_untied {one two : List Item} {k : Nat} (shuffled : one.Perm two) (distinct : one.Nodup)
    (orderedOne : one.Pairwise fun left right => key right ≤ key left)
    (orderedTwo : two.Pairwise fun left right => key right ≤ key left)
    (untied : ∀ first ∈ one, ∀ second ∈ one, first ≠ second → key first = key second →
      k ≤ one.countP fun other => key first < key other) :
    one.take k = two.take k := by
  apply List.ext_getElem?
  intro index
  by_cases within : index < k
  · rw [List.getElem?_take_of_lt within, List.getElem?_take_of_lt within]
    cases found : one[index]? with
    | none =>
      rw [List.getElem?_eq_none_iff] at found
      exact (List.getElem?_eq_none (shuffled.length_eq ▸ found)).symm
    | some item =>
      have member := List.mem_of_getElem? found
      have few := countP_le_of_getElem? orderedOne found
      have alone : ∀ other ∈ one, key other = key item → other = item := by
        intro other inOne same
        by_contra different
        have many := untied item member other inOne (Ne.symm different) same.symm
        omega
      have here := getElem?_of_untied orderedOne member alone
      have there := getElem?_of_untied orderedTwo (shuffled.subset member)
        fun other inTwo => alone other (shuffled.symm.subset inTwo)
      rw [← shuffled.countP_eq] at there
      have place : index = one.countP fun other => key item < key other :=
        (List.getElem?_inj (List.getElem?_eq_some_iff.mp found).1 distinct).mp (found.trans here.symm)
      rw [place, there]
  · rw [List.getElem?_eq_none (by rw [List.length_take]; omega),
      List.getElem?_eq_none (by rw [List.length_take]; omega)]

end Standing

end SkillLayer

import Mathlib.Algebra.GroupWithZero.Nat
import Mathlib.Algebra.Order.BigOperators.Group.List
import Mathlib.Algebra.Order.Group.Nat
import Mathlib.Order.Interval.Finset.Nat
import SkillLayer.Spans

/-! Greedy packing of weighted items into overlapping spans: a span takes the items
that fit the budget, and at least one. -/

namespace SkillLayer

/-- The weight of the positions from `first` on and before `past`. -/
def weightOf (weights : List Nat) (first past : Nat) : Nat := ((weights.take past).drop first).sum

theorem weightOf_le {weights : List Nat} {first past outerFirst outerPast : Nat} (starts : outerFirst ≤ first)
    (ends : past ≤ outerPast) : weightOf weights first past ≤ weightOf weights outerFirst outerPast := by
  have shorter : ((weights.take past).drop first).Sublist ((weights.take outerPast).drop outerFirst) :=
    (List.drop_sublist_drop_left _ starts).trans ((List.take_sublist_take_left ends).drop _)
  exact shorter.sum_le_sum fun _ _ => Nat.zero_le _

/-- A span packed at `start`: no further item fits, and only a single item may exceed the budget. -/
structure Packed (weights : List Nat) (budget start length : Nat) : Prop where
  nonempty : 0 < length
  inside : start + length ≤ weights.length
  fits : 1 < length → weightOf weights start (start + length) ≤ budget
  maximal : start + length < weights.length → budget < weightOf weights start (start + length + 1)

namespace Packed

variable {weights : List Nat} {budget start length : Nat}

theorem start_lt (packed : Packed weights budget start length) : start < weights.length := by
  have nonempty := packed.nonempty
  have inside := packed.inside
  omega

/-- A span packed further on does not end earlier. -/
theorem end_le (packed : Packed weights budget start length) {laterStart laterLength : Nat}
    (later : Packed weights budget laterStart laterLength) (after : start ≤ laterStart) :
    start + length ≤ laterStart + laterLength := by
  by_contra earlier
  have nonempty := later.nonempty
  have inside := packed.inside
  have exceeds := later.maximal (by omega)
  have within := packed.fits (by omega)
  have inner : weightOf weights laterStart (laterStart + laterLength + 1) ≤
      weightOf weights start (start + length) := weightOf_le after (by omega)
  omega

theorem length_unique (packed : Packed weights budget start length) {otherLength : Nat}
    (other : Packed weights budget start otherLength) : length = otherLength := by
  have below := packed.end_le other (Nat.le_refl _)
  have above := other.end_le packed (Nat.le_refl _)
  omega

/-- A span over the first position left by an earlier one reaches beyond it exactly when it
starts there, or the positions it re-reads fit together with that one. -/
theorem reaches_iff (packed : Packed weights budget start length) {past : Nat} (left : past < weights.length)
    (inside : start ≤ past) :
    past < start + length ↔ start = past ∨ weightOf weights start (past + 1) ≤ budget := by
  have nonempty := packed.nonempty
  constructor
  · intro further
    by_cases fresh : start = past
    · exact .inl fresh
    · right
      have within := packed.fits (by omega)
      have inner : weightOf weights start (past + 1) ≤ weightOf weights start (start + length) :=
        weightOf_le (Nat.le_refl _) (by omega)
      omega
  · intro renewed
    rcases renewed with fresh | fits
    · omega
    · by_contra stalled
      have exceeds := packed.maximal (by omega)
      have inner : weightOf weights start (start + length + 1) ≤ weightOf weights start (past + 1) :=
        weightOf_le (Nat.le_refl _) (by omega)
      omega

end Packed

/-! ### Rows of packed spans -/

section Rows

variable {weights : List Nat} {budget overlap : Nat} {length : Nat → Nat}

/-- The positions of a span. -/
def spanPositions (span : Nat × Nat) : Finset Nat := Finset.Ico span.1 (span.1 + span.2)

theorem mem_spanPositions {span : Nat × Nat} {position : Nat} :
    position ∈ spanPositions span ↔ span.1 ≤ position ∧ position < span.1 + span.2 :=
  Finset.mem_Ico

/-- The starts at which spans are packed one after the other, each re-reading `overlap` positions. -/
inductive ReachedStart (weights : List Nat) (budget overlap : Nat) : Nat → Prop
  | first : ReachedStart weights budget overlap 0
  | next {start length : Nat} (reached : ReachedStart weights budget overlap start)
      (packed : Packed weights budget start length) (left : start + length < weights.length) :
      ReachedStart weights budget overlap (start + advance overlap length)

/-- Every span that leaves positions uncovered is followed by one that starts at the first of
them, or re-reads only positions that fit together with it. -/
def StepsBackWithin (weights : List Nat) (budget overlap : Nat) : Prop :=
  ∀ start length, ReachedStart weights budget overlap start → Packed weights budget start length →
    start + length < weights.length →
      start + advance overlap length = start + length ∨
        weightOf weights (start + advance overlap length) (start + length + 1) ≤ budget

/-- Every span after the first has a position that no span before it has. -/
def IntroducesPositions (row : List (Nat × Nat)) : Prop :=
  ∀ before span after, row = before ++ span :: after → before ≠ [] →
    ∃ position ∈ spanPositions span, ∀ earlier ∈ before, position ∉ spanPositions earlier

/-- Where starts increase and ends do not decrease, only the span before counts. -/
theorem introducesPositions_iff {row : List (Nat × Nat)} (nonempty : ∀ span ∈ row, 0 < span.2)
    (starts : row.Pairwise fun earlier later => earlier.1 < later.1)
    (ends : row.Pairwise fun earlier later => earlier.1 + earlier.2 ≤ later.1 + later.2) :
    IntroducesPositions row ↔ row.IsChain fun earlier later => earlier.1 + earlier.2 < later.1 + later.2 := by
  constructor
  · intro introduces
    rw [List.isChain_iff_getElem]
    intro index inside
    have split : row = row.take (index + 1) ++ row[index + 1] :: row.drop (index + 2) := by
      rw [← List.drop_eq_getElem_cons inside, List.take_append_drop]
    have previous : row[index] ∈ row.take (index + 1) := List.mem_take_iff_getElem.mpr ⟨index, by omega, rfl⟩
    obtain ⟨position, inLater, fresh⟩ := introduces _ _ _ split (List.ne_nil_of_mem previous)
    have increasing := List.pairwise_iff_getElem.mp starts index (index + 1) (by omega) inside (by omega)
    have outside := fresh _ previous
    rw [mem_spanPositions] at inLater outside
    omega
  · intro chain before span after split some
    obtain ⟨init, last, rfl⟩ := (List.eq_nil_or_concat' before).resolve_left some
    subst split
    rw [List.append_assoc, List.singleton_append] at chain
    have further := (List.isChain_append_cons_cons.mp chain).2.1
    have positive := nonempty span (List.mem_append_right _ List.mem_cons_self)
    refine ⟨span.1 + span.2 - 1, mem_spanPositions.mpr ⟨by omega, by omega⟩, ?_⟩
    intro earlier member
    have bound : earlier.1 + earlier.2 ≤ last.1 + last.2 := by
      rcases List.mem_append.mp member with before | here
      · have inBefore := (List.pairwise_append.mp ends).1
        exact (List.pairwise_append.mp inBefore).2.2 earlier before last (List.mem_singleton_self last)
      · rw [List.mem_singleton.mp here]
    rw [mem_spanPositions]
    omega

variable (packs : ∀ start < weights.length, Packed weights budget start (length start))

include packs

theorem packed_of_mem {start : Nat} {span : Nat × Nat} (member : span ∈ spans weights.length overlap length start) :
    Packed weights budget span.1 span.2 := by
  obtain ⟨inside, same⟩ := spans_start_lt member
  rw [same]
  exact packs span.1 inside

theorem length_pos_of_packs (start : Nat) (inside : start < weights.length) : 0 < length start :=
  (packs start inside).nonempty

/-- The ends never decrease. -/
theorem spans_ends (start : Nat) : (spans weights.length overlap length start).Pairwise fun earlier later =>
    earlier.1 + earlier.2 ≤ later.1 + later.2 := by
  refine (spans_increasing start).imp_of_mem ?_
  intro earlier later earlierMember laterMember increasing
  exact (packed_of_mem packs earlierMember).end_le (packed_of_mem packs laterMember) (Nat.le_of_lt increasing)

theorem nextSpan_packed {start : Nat} {span : Nat × Nat}
    (member : span ∈ spans weights.length overlap length start) (left : span.1 + span.2 < weights.length) :
    Packed weights budget (nextSpan overlap length span).1 (nextSpan overlap length span).2 :=
  packed_of_mem packs (nextSpan_mem (length_pos_of_packs packs) member left)

/-- Two spans in a row share the overlap, or all but one position of the earlier one. -/
theorem spans_overlap (start : Nat) : (spans weights.length overlap length start).IsChain fun earlier later =>
    (spanPositions earlier ∩ spanPositions later).card = min overlap (earlier.2 - 1) := by
  rw [spans_isChain_iff (length_pos_of_packs packs)]
  intro span member left
  have packed := packed_of_mem packs member
  have nonempty := packed.nonempty
  have following := nextSpan_packed packs member left
  have ends := packed.end_le following (Nat.le_add_right _ _)
  have starts : span.1 ≤ (nextSpan overlap length span).1 := Nat.le_add_right _ _
  rw [spanPositions, spanPositions, Finset.Ico_inter_Ico, Nat.card_Ico, min_eq_left ends, max_eq_right starts]
  simp only [nextSpan, advance]
  split <;> omega

theorem spans_single (fits : weights.sum ≤ budget) (some : 0 < weights.length) :
    spans weights.length overlap length 0 = [(0, length 0)] := by
  refine spans_last some (Nat.not_lt.mp fun left => ?_)
  have exceeds := (packs 0 some).maximal left
  have inner : weightOf weights 0 (0 + length 0 + 1) ≤ weightOf weights 0 weights.length :=
    weightOf_le (Nat.le_refl _) (by omega)
  rw [weightOf, weightOf, List.drop_zero, List.drop_zero, List.take_length] at inner
  rw [weightOf, List.drop_zero] at exceeds
  omega

theorem reachedStart_of_mem {start : Nat} (reached : ReachedStart weights budget overlap start) {span : Nat × Nat}
    (member : span ∈ spans weights.length overlap length start) : ReachedStart weights budget overlap span.1 := by
  induction start using spans.induct weights.length overlap length with
  | case1 start more ih =>
    by_cases left : start + length start < weights.length
    · rw [spans_continue more left] at member
      rcases List.mem_cons.mp member with rfl | later
      · exact reached
      · exact ih (.next reached (packs start more) left) later
    · rw [spans_last more (Nat.not_lt.mp left)] at member
      rw [List.mem_singleton.mp member]
      exact reached
  | case2 start done =>
    rw [spans, if_neg done] at member
    cases member

theorem mem_of_reachedStart {start : Nat} (reached : ReachedStart weights budget overlap start)
    (some : 0 < weights.length) : (start, length start) ∈ spans weights.length overlap length 0 := by
  induction reached with
  | first =>
    rw [spans, if_pos some]
    exact List.mem_cons_self
  | @next start size reached packed left ih =>
    obtain rfl : size = length start := packed.length_unique (packs start packed.start_lt)
    exact nextSpan_mem (length_pos_of_packs packs) ih left

/-- No span is redundant exactly when no step back goes too far. -/
theorem spans_introduce_iff :
    IntroducesPositions (spans weights.length overlap length 0) ↔ StepsBackWithin weights budget overlap := by
  rw [introducesPositions_iff
    (fun span member => (packed_of_mem packs member).nonempty) (spans_increasing 0) (spans_ends packs 0),
    spans_isChain_iff (length_pos_of_packs packs)]
  have renews (span : Nat × Nat) (member : span ∈ spans weights.length overlap length 0)
      (left : span.1 + span.2 < weights.length) :
      span.1 + span.2 < (nextSpan overlap length span).1 + (nextSpan overlap length span).2 ↔
        span.1 + advance overlap span.2 = span.1 + span.2 ∨
          weightOf weights (span.1 + advance overlap span.2) (span.1 + span.2 + 1) ≤ budget :=
    (nextSpan_packed packs member left).reaches_iff left
      (Nat.add_le_add_left (advance_le overlap (packed_of_mem packs member).nonempty) _)
  constructor
  · intro chain start size reached packed left
    obtain rfl : size = length start := packed.length_unique (packs start packed.start_lt)
    have member := mem_of_reachedStart packs reached (Nat.zero_lt_of_lt left)
    exact (renews _ member left).mp (chain _ member left)
  · intro within span member left
    exact (renews span member left).mpr
      (within span.1 span.2 (reachedStart_of_mem packs .first member) (packed_of_mem packs member) left)

end Rows

end SkillLayer

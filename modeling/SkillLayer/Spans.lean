import Mathlib.Data.List.Chain

/-! Overlapping spans over the positions `0 … n - 1`. A span is packed at each
start and the next one re-reads its last `overlap` positions. -/

namespace SkillLayer

/-- How far the next span starts after the current one: never in place. -/
def advance (overlap length : Nat) : Nat :=
  if length ≤ overlap then 1 else length - overlap

theorem advance_pos (overlap length : Nat) : 0 < advance overlap length := by
  unfold advance
  split <;> omega

theorem advance_le {length : Nat} (overlap : Nat) (nonempty : 0 < length) :
    advance overlap length ≤ length := by
  unfold advance
  split <;> omega

/-- The `(start, length)` pairs packed from `start` on; the last span reaches `n`. -/
def spans (n overlap : Nat) (length : Nat → Nat) (start : Nat) : List (Nat × Nat) :=
  if start < n then
    (start, length start) ::
      if n ≤ start + length start then []
      else spans n overlap length (start + advance overlap (length start))
  else []
termination_by n - start
decreasing_by
  have moved := advance_pos overlap (length start)
  omega

variable {n : Nat} {overlap : Nat} {length : Nat → Nat}

theorem spans_first {start : Nat} (more : start < n) :
    (spans n overlap length start)[0]? = some (start, length start) := by
  rw [spans, if_pos more]
  rfl

/-- Every position from `start` on lies in some span: the next span never starts
past the end of the current one. -/
theorem spans_cover (nonempty : ∀ start < n, 0 < length start) (start position : Nat)
    (after : start ≤ position) (inside : position < n) :
    ∃ span ∈ spans n overlap length start,
      span.1 ≤ position ∧ position < span.1 + span.2 := by
  induction start using spans.induct n overlap length with
  | case1 start more ih =>
    rw [spans, if_pos more]
    by_cases here : position < start + length start
    · exact ⟨(start, length start), List.mem_cons_self, after, here⟩
    · have continues : ¬ n ≤ start + length start := by omega
      have moved := advance_le overlap (nonempty start more)
      obtain ⟨span, member, bounds⟩ := ih (by omega)
      refine ⟨span, List.mem_cons_of_mem _ ?_, bounds⟩
      rw [if_neg continues]
      exact member
  | case2 start done => omega

theorem spans_start_lt {start : Nat} {span : Nat × Nat}
    (member : span ∈ spans n overlap length start) : span.1 < n ∧ span.2 = length span.1 := by
  induction start using spans.induct n overlap length with
  | case1 start more ih =>
    rw [spans, if_pos more] at member
    rcases List.mem_cons.mp member with rfl | later
    · exact ⟨more, rfl⟩
    · split at later
      · cases later
      · rename_i continues
        exact ih later
  | case2 start done =>
    rw [spans, if_neg done] at member
    cases member

theorem spans_continue {start : Nat} (more : start < n) (left : start + length start < n) :
    spans n overlap length start =
      (start, length start) :: spans n overlap length (start + advance overlap (length start)) := by
  rw [spans, if_pos more, if_neg (Nat.not_le.mpr left)]

theorem spans_last {start : Nat} (more : start < n) (reached : n ≤ start + length start) :
    spans n overlap length start = [(start, length start)] := by
  rw [spans, if_pos more, if_pos reached]

/-- The span after one that leaves positions uncovered. -/
def nextSpan (overlap : Nat) (length : Nat → Nat) (span : Nat × Nat) : Nat × Nat :=
  (span.1 + advance overlap span.2, length (span.1 + advance overlap span.2))

theorem spans_start_le {start : Nat} {span : Nat × Nat} (member : span ∈ spans n overlap length start) :
    start ≤ span.1 := by
  induction start using spans.induct n overlap length with
  | case1 start more ih =>
    by_cases left : start + length start < n
    · rw [spans_continue more left] at member
      rcases List.mem_cons.mp member with rfl | later
      · exact Nat.le_refl _
      · exact Nat.le_trans (Nat.le_add_right _ _) (ih later)
    · rw [spans_last more (Nat.not_lt.mp left)] at member
      rw [List.mem_singleton.mp member]
  | case2 start done =>
    rw [spans, if_neg done] at member
    cases member

/-- The starts strictly increase. -/
theorem spans_increasing (start : Nat) :
    (spans n overlap length start).Pairwise fun earlier later => earlier.1 < later.1 := by
  induction start using spans.induct n overlap length with
  | case1 start more ih =>
    by_cases left : start + length start < n
    · rw [spans_continue more left]
      refine .cons ?_ ih
      intro later member
      have further := spans_start_le member
      have moved := advance_pos overlap (length start)
      omega
    · rw [spans_last more (Nat.not_lt.mp left)]
      exact List.pairwise_singleton _ _
  | case2 start done =>
    rw [spans, if_neg done]
    exact .nil

/-- Two spans in a row are related when every span is related to the one its end opens. -/
theorem spans_isChain_iff {R : Nat × Nat → Nat × Nat → Prop} (nonempty : ∀ start < n, 0 < length start)
    (start : Nat) :
    (spans n overlap length start).IsChain R ↔
      ∀ span ∈ spans n overlap length start, span.1 + span.2 < n → R span (nextSpan overlap length span) := by
  induction start using spans.induct n overlap length with
  | case1 start more ih =>
    by_cases left : start + length start < n
    · have moved := advance_le overlap (nonempty start more)
      have inside : start + advance overlap (length start) < n := by omega
      have head : (spans n overlap length (start + advance overlap (length start))).head? =
          some (nextSpan overlap length (start, length start)) := by
        rw [spans, if_pos inside]
        rfl
      rw [spans_continue more left, List.isChain_cons, head, ih]
      simp only [Option.mem_some_iff, forall_eq', List.mem_cons, forall_eq_or_imp, left, forall_const]
    · rw [spans_last more (Nat.not_lt.mp left)]
      simp [left]
  | case2 start done =>
    rw [spans, if_neg done]
    simp

theorem nextSpan_mem (nonempty : ∀ start < n, 0 < length start) {start : Nat} {span : Nat × Nat}
    (member : span ∈ spans n overlap length start) (left : span.1 + span.2 < n) :
    nextSpan overlap length span ∈ spans n overlap length start := by
  induction start using spans.induct n overlap length with
  | case1 start more ih =>
    by_cases further : start + length start < n
    · rw [spans_continue more further] at member ⊢
      rcases List.mem_cons.mp member with rfl | later
      · have moved := advance_le overlap (nonempty start more)
        have inside : start + advance overlap (length start) < n := by omega
        rw [spans, if_pos inside]
        exact List.mem_cons_of_mem _ List.mem_cons_self
      · exact List.mem_cons_of_mem _ (ih later)
    · rw [spans_last more (Nat.not_lt.mp further)] at member
      rw [List.mem_singleton.mp member] at left
      exact absurd left further
  | case2 start done =>
    rw [spans, if_neg done] at member
    cases member

end SkillLayer

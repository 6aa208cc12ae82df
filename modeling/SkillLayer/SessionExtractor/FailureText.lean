import SkillLayer.SessionExtractor.Skeleton
import SkillLayer.Utf8

/-! Where the text of a failure is cut. -/

namespace SkillLayer.SessionExtractor

open Domain

/-- `char_indices`, from a byte position on. -/
def charIndices : (position : Nat) → Str → List (Nat × Char)
  | _, [] => []
  | position, c :: rest => (position, c) :: charIndices (position + c.utf8Size) rest

/-- The byte position of the slice. -/
def truncationBoundary (text : Str) (maxBytes : Nat) : Nat :=
  (((charIndices 0 text).takeWhile fun entry => entry.1 < maxBytes).getLast?.map fun entry =>
    entry.1 + entry.2.utf8Size).getD 0

/-- The truncation with its slice, which panics off the character boundaries. -/
def truncateFailureText? (text : Str) (maxBytes : Nat) : Option Str :=
  if Str.byteLength text ≤ maxBytes then some text
  else (Str.sliceTo? text (truncationBoundary text maxBytes)).map fun front => front ++ "…"

/-! ### The slice -/

theorem beginningBefore_begins (maxBytes position : Nat) (text : Str) :
    beginningBefore maxBytes position text <+: text := by
  induction text generalizing position with
  | nil => exact List.prefix_rfl
  | cons c rest ih =>
    rw [beginningBefore]
    split
    · exact (List.prefix_cons_inj c).mpr (ih _)
    · exact List.nil_prefix

/-- The scan stops behind the last character that begins before the limit. -/
theorem boundary_eq (maxBytes position : Nat) (text : Str) :
    (((charIndices position text).takeWhile fun entry => entry.1 < maxBytes).getLast?.map fun entry =>
      entry.1 + entry.2.utf8Size).getD position =
      position + Str.byteLength (beginningBefore maxBytes position text) := by
  induction text generalizing position with
  | nil => rfl
  | cons c rest ih =>
    rw [charIndices, beginningBefore, List.takeWhile_cons]
    by_cases before : position < maxBytes
    · have later := ih (position + c.utf8Size)
      simp only [before, decide_true, if_true, Str.byteLength_cons]
      rw [← Nat.add_assoc, ← later]
      cases others : (charIndices (position + c.utf8Size) rest).takeWhile fun entry => decide (entry.1 < maxBytes) with
      | nil => simp
      | cons entry more => simp [List.getLast?_eq_some_getLast]
    · simp [before]

/-- The slice never panics, and takes the characters that begin before the limit. -/
theorem truncateFailureText?_eq (text : Str) (maxBytes : Nat) :
    truncateFailureText? text maxBytes = some (truncateFailureText text maxBytes) := by
  unfold truncateFailureText? truncateFailureText
  have slice : Str.sliceTo? text (truncationBoundary text maxBytes) = some (beginningBefore maxBytes 0 text) := by
    rw [Str.sliceTo?_eq_some, truncationBoundary, boundary_eq, Nat.zero_add]
    exact ⟨beginningBefore_begins maxBytes 0 text, rfl⟩
  rw [slice]
  split <;> rfl

/-! ### Its length -/

/-- A text that reaches the limit is cut at or behind it, at most three bytes too far. -/
theorem byteLength_beginningBefore {maxBytes position : Nat} {text : Str} (before : position ≤ maxBytes)
    (reaches : maxBytes ≤ position + Str.byteLength text) :
    maxBytes ≤ position + Str.byteLength (beginningBefore maxBytes position text) ∧
      position + Str.byteLength (beginningBefore maxBytes position text) ≤ maxBytes + 3 := by
  induction text generalizing position with
  | nil => exact ⟨reaches, by rw [beginningBefore, Str.byteLength_nil]; omega⟩
  | cons c rest ih =>
    rw [beginningBefore]
    by_cases more : position < maxBytes
    · rw [if_pos more, Str.byteLength_cons]
      rw [Str.byteLength_cons] at reaches
      have narrow := c.utf8Size_le_four
      by_cases fits : position + c.utf8Size ≤ maxBytes
      · have later := ih fits (by omega)
        omega
      · have stopped : beginningBefore maxBytes (position + c.utf8Size) rest = [] := by
          cases rest with
          | nil => rfl
          | cons d rest => rw [beginningBefore, if_neg (by omega)]
        rw [stopped, Str.byteLength_nil]
        omega
    · rw [if_neg more, Str.byteLength_nil]
      omega

/-- No shorter beginning reaches the limit. -/
theorem beginningBefore_of_reaches {maxBytes position : Nat} {text front : Str} (begins : front <+: text)
    (reaches : maxBytes ≤ position + Str.byteLength front) : beginningBefore maxBytes position text <+: front := by
  induction text generalizing position front with
  | nil => exact List.nil_prefix
  | cons c rest ih =>
    rw [beginningBefore]
    by_cases more : position < maxBytes
    · rw [if_pos more]
      cases front with
      | nil =>
        rw [Str.byteLength_nil] at reaches
        omega
      | cons d front =>
        obtain ⟨rfl, later⟩ := List.cons_prefix_cons.mp begins
        rw [Str.byteLength_cons] at reaches
        exact (List.prefix_cons_inj d).mpr (ih later (by omega))
    · rw [if_neg more]
      exact List.nil_prefix

theorem byteLength_cut {text : Str} {maxBytes : Nat} (long : maxBytes < Str.byteLength text) :
    maxBytes ≤ Str.byteLength (beginningBefore maxBytes 0 text) ∧
      Str.byteLength (beginningBefore maxBytes 0 text) ≤ maxBytes + 3 := by
  have reaches : maxBytes ≤ 0 + Str.byteLength text := by omega
  have cut := byteLength_beginningBefore (Nat.zero_le maxBytes) reaches
  rwa [Nat.zero_add] at cut

/-! ### The limit -/

/-- The text itself where it fits, and otherwise a beginning within the limit, at most three bytes short
of it, and an ellipsis. -/
structure TruncatesWell (text : Str) (maxBytes : Nat) : Prop where
  fits : Str.byteLength text ≤ maxBytes → truncateFailureText? text maxBytes = some text
  cut : maxBytes < Str.byteLength text → ∃ front, front <+: text ∧
    truncateFailureText? text maxBytes = some (front ++ "…") ∧
      Str.byteLength front ≤ maxBytes ∧ maxBytes - 3 ≤ Str.byteLength front

/-- The truncation keeps to the limit exactly where the limit is a character boundary of the text, or behind it. -/
theorem truncatesWell_iff (text : Str) (maxBytes : Nat) :
    TruncatesWell text maxBytes ↔ Str.byteLength text ≤ maxBytes ∨ Str.IsCharBoundary text maxBytes := by
  constructor
  · intro well
    rcases Nat.lt_or_ge maxBytes (Str.byteLength text) with long | fits
    · obtain ⟨front, begins, result, within, -⟩ := well.cut long
      rw [truncateFailureText?_eq, truncateFailureText, if_neg (Nat.not_le.mpr long), Option.some.injEq] at result
      have same := List.append_cancel_right result
      have reaches := (byteLength_cut long).1
      rw [same] at reaches
      exact .inr ⟨front, begins, Nat.le_antisymm within reaches⟩
    · exact .inl fits
  · intro clean
    constructor
    · intro fits
      rw [truncateFailureText?, if_pos fits]
    · intro long
      obtain ⟨front, begins, length⟩ := clean.resolve_left (Nat.not_le.mpr long)
      refine ⟨beginningBefore maxBytes 0 text, beginningBefore_begins maxBytes 0 text, ?_, ?_, ?_⟩
      · rw [truncateFailureText?_eq, truncateFailureText, if_neg (Nat.not_le.mpr long)]
      · have reaches : maxBytes ≤ 0 + Str.byteLength front := by omega
        obtain ⟨rest, whole⟩ := beginningBefore_of_reaches begins reaches
        have lengths := congrArg Str.byteLength whole
        rw [Str.byteLength_append, length] at lengths
        omega
      · have reaches := (byteLength_cut long).1
        omega

/-- Two bytes of a text whose second character takes two: three are kept. -/
theorem accent_overshoots : ¬ TruncatesWell "aéé" 2 := by
  intro well
  obtain ⟨front, -, result, within, -⟩ := well.cut (by decide)
  rw [truncateFailureText?_eq, Option.some.injEq] at result
  have cut : truncateFailureText "aéé" 2 = "aé".toList ++ "…" := by decide
  rw [← List.append_cancel_right (cut.symm.trans result)] at within
  exact absurd within (by decide)

end SkillLayer.SessionExtractor

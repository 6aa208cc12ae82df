import Mathlib.Data.List.Infix
import SkillLayer.Text

/-! Glob patterns as key-value servers match them: wildcards, classes and escapes. -/

namespace SkillLayer

/-- Between characters, or inside a class that is negated or not and has matched or not. -/
inductive GlobMode where
  | plain
  | inClass (negated matched : Bool)

/-- One character after the other of the pattern; a class takes the first character of the
text, and one that is not closed ends with the pattern. -/
def globMatches : GlobMode → Str → Str → Bool
  | .plain, [], text => text.isEmpty
  | .plain, '*' :: pattern, text => text.tails.any (globMatches .plain pattern)
  | .plain, '?' :: pattern, text => !text.isEmpty && globMatches .plain pattern text.tail
  | .plain, '[' :: '^' :: pattern, text => !text.isEmpty && globMatches (.inClass true false) pattern text
  | .plain, '[' :: pattern, text => !text.isEmpty && globMatches (.inClass false false) pattern text
  | .plain, '\\' :: c :: pattern, text => text.head? == some c && globMatches .plain pattern text.tail
  | .plain, c :: pattern, text => text.head? == some c && globMatches .plain pattern text.tail
  | .inClass negated matched, [], text => (matched != negated) && text.tail.isEmpty
  | .inClass negated matched, '\\' :: c :: pattern, text =>
    globMatches (.inClass negated (matched || text.head? == some c)) pattern text
  | .inClass negated matched, ']' :: pattern, text =>
    (matched != negated) && globMatches .plain pattern text.tail
  | .inClass negated matched, low :: '-' :: high :: pattern, text =>
    globMatches (.inClass negated (matched || text.head?.any fun c =>
      (low ≤ c && c ≤ high) || (high ≤ c && c ≤ low))) pattern text
  | .inClass negated matched, c :: pattern, text =>
    globMatches (.inClass negated (matched || text.head? == some c)) pattern text

/-- The characters that are not matched literally. -/
def isGlobSpecial (c : Char) : Bool := c == '*' || c == '?' || c == '[' || c == ']' || c == '\\'

theorem plain_of_all {text : Str} (plain : text.all (fun c => !isGlobSpecial c) = true) :
    ∀ c ∈ text, isGlobSpecial c = false := by
  simpa using plain

theorem globMatches_literal {c : Char} (literal : isGlobSpecial c = false) (pattern text : Str) :
    globMatches .plain (c :: pattern) text = (text.head? == some c && globMatches .plain pattern text.tail) := by
  simp only [isGlobSpecial, Bool.or_eq_false_iff, beq_eq_false_iff_ne] at literal
  obtain ⟨⟨⟨⟨star, question⟩, openBracket⟩, -⟩, escape⟩ := literal
  rw [globMatches] <;> simp [*]

theorem globMatches_escaped (c : Char) (pattern text : Str) :
    globMatches .plain ('\\' :: c :: pattern) text =
      (text.head? == some c && globMatches .plain pattern text.tail) := by
  rw [globMatches]

theorem globMatches_star (text : Str) : globMatches .plain ['*'] text = true := by
  rw [globMatches, List.any_eq_true]
  exact ⟨[], (List.mem_tails [] text).mpr List.nil_suffix, by rw [globMatches]; rfl⟩

end SkillLayer

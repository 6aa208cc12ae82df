import SkillLayer.Text

/-! Replacing every occurrence of a pattern, and what is left of the pattern
afterwards. Nothing here knows a format. -/

namespace SkillLayer
namespace Str

/-- Replace from the left; the next `skip` characters belong to an occurrence
that was replaced already. -/
def replaceFrom (pattern replacement : Str) : Nat → Str → Str
  | _, [] => []
  | skip + 1, _ :: rest => replaceFrom pattern replacement skip rest
  | 0, c :: rest =>
    if pattern.isPrefixOf (c :: rest) then
      replacement ++ replaceFrom pattern replacement (pattern.length - 1) rest
    else c :: replaceFrom pattern replacement 0 rest

/-- Every occurrence of a nonempty `pattern`, from the left and without overlaps,
becomes `replacement`. -/
def replace (pattern replacement s : Str) : Str := replaceFrom pattern replacement 0 s

/-- A literal is the text of its characters. -/
theorem toList_of_eq_ofList {literal : String} {chars : List Char}
    (same : literal = String.ofList chars) : literal.toList = chars := by
  rw [same, String.toList_ofList]

/-! ### A pattern that only its first character can start -/

section Defused

variable {start : Char} {pattern replacement : Str}

/-- Text without the starting character cannot begin an occurrence. -/
theorem infix_of_infix_append (rest : Str) {text : Str} (absent : start ∉ text)
    (found : start :: pattern <:+: text ++ rest) : start :: pattern <:+: rest := by
  induction text with
  | nil => exact found
  | cons c text ih =>
    simp only [List.mem_cons, not_or] at absent
    rw [List.cons_append, List.infix_cons_iff] at found
    rcases found with here | later
    · rw [List.cons_prefix_cons] at here
      exact absurd here.1 absent.1
    · exact ih absent.2 later

/-- Up to the next starting character the replacement changes nothing. -/
theorem prefix_of_prefix_replaceFrom {front s : Str} (absent : start ∉ front)
    (found : front <+: replaceFrom (start :: pattern) (start :: replacement) 0 s) :
    front <+: s := by
  induction s generalizing front with
  | nil => simpa [replaceFrom] using found
  | cons c s ih =>
    cases front with
    | nil => exact List.nil_prefix
    | cons first front =>
      simp only [List.mem_cons, not_or] at absent
      rw [replaceFrom] at found
      split at found
      · rw [List.cons_append, List.cons_prefix_cons] at found
        exact absurd found.1.symm absent.1
      · rw [List.cons_prefix_cons] at found
        rw [List.cons_prefix_cons]
        exact ⟨found.1, ih absent.2 found.2⟩

/-- No occurrence is left, and none is put together from the pieces. -/
theorem not_infix_replaceFrom (once : start ∉ pattern) (single : start ∉ replacement)
    (apart : ∀ rest, ¬ pattern <+: replacement ++ rest) (skip : Nat) (s : Str) :
    ¬ start :: pattern <:+: replaceFrom (start :: pattern) (start :: replacement) skip s := by
  induction s generalizing skip with
  | nil => simp [replaceFrom]
  | cons c s ih =>
    cases skip with
    | succ skip => exact ih skip
    | zero =>
      rw [replaceFrom]
      split
      · intro found
        rw [List.cons_append, List.infix_cons_iff, List.cons_prefix_cons] at found
        rcases found with ⟨_, here⟩ | later
        · exact apart _ here
        · exact ih _ (infix_of_infix_append _ single later)
      · rename_i elsewhere
        intro found
        rw [List.infix_cons_iff, List.cons_prefix_cons] at found
        rcases found with ⟨rfl, here⟩ | later
        · apply elsewhere
          rw [List.isPrefixOf_iff_prefix, List.cons_prefix_cons]
          exact ⟨rfl, prefix_of_prefix_replaceFrom once here⟩
        · exact ih 0 later

theorem not_infix_replace (once : start ∉ pattern) (single : start ∉ replacement)
    (apart : ∀ rest, ¬ pattern <+: replacement ++ rest) (s : Str) :
    ¬ start :: pattern <:+: replace (start :: pattern) (start :: replacement) s :=
  not_infix_replaceFrom once single apart 0 s

end Defused

/-! ### A tag that closes a body -/

/-- A tag that the body is free of occurs once after it, at the very end. -/
theorem closing_occurrence {body tag before after : Str} {sep : Char} (free : ¬ tag <:+: body)
    (clear : sep ∉ tag) (occurs : body ++ sep :: tag = before ++ (tag ++ after)) :
    before = body ++ [sep] ∧ after = [] := by
  rcases List.append_eq_append_iff.mp occurs with ⟨middle, rfl, tail⟩ | ⟨rest, rfl, tail⟩
  · cases middle with
    | nil =>
      cases tag with
      | nil => exact absurd List.nil_infix free
      | cons c tag =>
        rw [List.nil_append, List.cons_append, List.cons.injEq] at tail
        exact absurd (List.mem_cons.mpr (.inl tail.1)) clear
    | cons c middle =>
      rw [List.cons_append, List.cons.injEq] at tail
      have lengths := congrArg List.length tail.2
      simp only [List.length_append] at lengths
      have shortMiddle : middle = [] := List.eq_nil_of_length_eq_zero (by omega)
      have shortAfter : after = [] := List.eq_nil_of_length_eq_zero (by omega)
      exact ⟨by rw [tail.1, shortMiddle], shortAfter⟩
  · rcases List.append_eq_append_iff.mp tail with ⟨beyond, same, _⟩ | ⟨beyond, same, _⟩
    · exact absurd ⟨before, beyond, by simp [same]⟩ free
    · cases beyond with
      | nil => exact absurd ⟨before, [], by simp_all⟩ free
      | cons c beyond => simp_all

end Str
end SkillLayer

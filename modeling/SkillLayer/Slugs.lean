import SkillLayer.Text

/-! The runs of ASCII letters and digits of a text, which are what a dashed slug keeps of it. -/

namespace SkillLayer.Str

def dashed (s : Str) : Str := (toAsciiLowercase s).map fun c => if c.isAlphanum then c else '-'

/-- The runs of letters and digits, in lower case. -/
def runs (s : Str) : List Str := (splitOn '-' (dashed s)).filter fun segment => !segment.isEmpty

@[simp] theorem runs_nil : runs [] = [] := rfl

theorem dashed_append (s rest : Str) : dashed (s ++ rest) = dashed s ++ dashed rest := by
  simp [dashed, toAsciiLowercase]

theorem dashed_cons_of_not_alphanum {c : Char} (separates : c.toLower.isAlphanum = false) (s : Str) :
    dashed (c :: s) = '-' :: dashed s := by
  simp [dashed, toAsciiLowercase, separates]

theorem runs_append {c : Char} (separates : c.toLower.isAlphanum = false) (s rest : Str) :
    runs (s ++ c :: rest) = runs s ++ runs rest := by
  rw [runs, dashed_append, dashed_cons_of_not_alphanum separates, splitOn_append, List.filter_append]
  rfl

/-- Dropping such characters from the end of a text leaves its runs as they are. -/
theorem runs_rdropWhile {drops : Char → Bool} (separates : ∀ c, drops c = true → c.toLower.isAlphanum = false)
    (s : Str) : runs (s.rdropWhile drops) = runs s := by
  induction s using List.reverseRecOn with
  | nil => rfl
  | append_singleton s c ih =>
    cases dropped : drops c with
    | true =>
      rw [List.rdropWhile_concat_pos _ _ _ dropped, ih, runs_append (separates c dropped) s [], runs_nil,
        List.append_nil]
    | false => rw [List.rdropWhile_concat_neg _ _ _ (by simp [dropped])]

theorem runs_join {c : Char} (separates : c.toLower.isAlphanum = false) (words : List Str) :
    runs (join [c] words) = words.flatMap runs := by
  induction words with
  | nil => rfl
  | cons word rest ih =>
    cases rest with
    | nil => simp [join]
    | cons next more =>
      have opened : join [c] (word :: next :: more) = word ++ c :: join [c] (next :: more) := by
        simp [join, List.intercalate_cons_cons]
      rw [opened, runs_append separates, ih]
      rfl

theorem mem_runs {s run : Str} (member : run ∈ runs s) : run ≠ [] ∧ '-' ∉ run := by
  obtain ⟨piece, nonempty⟩ := List.mem_filter.mp member
  refine ⟨by simpa using nonempty, ?_⟩
  exact (mem_splitOn piece).1

/-- Splitting undoes joining, for pieces without the separator. -/
theorem splitOn_join {sep : Char} {pieces : List Str} (some : pieces ≠ [])
    (free : ∀ piece ∈ pieces, sep ∉ piece) : splitOn sep (join [sep] pieces) = pieces := by
  induction pieces with
  | nil => exact absurd rfl some
  | cons piece rest ih =>
    have alone : splitOn sep piece = [piece] := by
      simpa using splitOn_append_of_not_mem (free piece List.mem_cons_self) (rfl : splitOn sep [] = [] :: [])
    cases rest with
    | nil => simpa [join] using alone
    | cons next more =>
      have opened : join [sep] (piece :: next :: more) = piece ++ sep :: join [sep] (next :: more) := by
        simp [join, List.intercalate_cons_cons]
      rw [opened, splitOn_append, alone,
        ih (List.cons_ne_nil _ _) fun other member => free other (List.mem_cons_of_mem _ member)]
      rfl

/-- A slug tells all that it keeps. -/
theorem join_runs_inj {s other : Str} (visible : runs s ≠ []) (otherVisible : runs other ≠ []) :
    join ['-'] (runs s) = join ['-'] (runs other) ↔ runs s = runs other := by
  constructor
  · intro same
    have split := splitOn_join visible fun run member => (mem_runs member).2
    rw [same, splitOn_join otherVisible fun run member => (mem_runs member).2] at split
    exact split.symm
  · intro same
    rw [same]

theorem join_runs_ne_nil {s : Str} (visible : runs s ≠ []) : join ['-'] (runs s) ≠ [] := by
  intro empty
  have split := splitOn_join visible fun run member => (mem_runs member).2
  rw [empty] at split
  have blank : [] ∈ runs s := by
    rw [← split]
    exact List.mem_singleton_self _
  exact (mem_runs blank).1 rfl

end SkillLayer.Str

import SkillLayer.Text

/-! Lexical file-system paths: the segments of their text between separators. -/

namespace SkillLayer

/-- The segments of the path text; an absolute path starts with an empty one. -/
abbrev Path := List Str

namespace Path

def display (path : Path) : Str := Str.join ['/'] path

def fileName (path : Path) : Option Str := path.getLast?

def parent (path : Path) : Path := path.dropLast

/-- The file name without its last extension; a leading dot starts no extension. -/
def fileStem (path : Path) : Option Str :=
  path.fileName.map fun name =>
    let before := Str.join ['.'] (Str.splitOn '.' name).dropLast
    if before.isEmpty then name else before

def startsWith (path root : Path) : Bool := root.isPrefixOf path

/-! ### Paths and their text -/

theorem display_cons_cons (first second : Str) (rest : Path) :
    display (first :: second :: rest) = first ++ '/' :: display (second :: rest) := rfl

/-- A path without separators in its segments is read back from its text. -/
theorem splitOn_display {path : Path} (nonempty : path ≠ []) (plain : ∀ segment ∈ path, '/' ∉ segment) :
    Str.splitOn '/' path.display = path := by
  induction path with
  | nil => exact absurd rfl nonempty
  | cons first rest ih =>
    have firstPlain := plain first List.mem_cons_self
    cases rest with
    | nil =>
      have alone := Str.splitOn_append_of_not_mem firstPlain (rfl : Str.splitOn '/' [] = [[]])
      simpa [display, Str.join] using alone
    | cons second rest =>
      have later := ih (List.cons_ne_nil _ _) fun segment member =>
        plain segment (List.mem_cons_of_mem _ member)
      have joined : Str.splitOn '/' ('/' :: display (second :: rest)) = [] :: second :: rest := by
        rw [Str.splitOn, if_pos rfl, later]
      rw [display_cons_cons, Str.splitOn_append_of_not_mem firstPlain joined, List.append_nil]

theorem length_display_append_lt {path : Path} (nonempty : path ≠ []) {more : Path}
    (further : more ≠ []) : path.display.length < (path ++ more).display.length := by
  induction path with
  | nil => exact absurd rfl nonempty
  | cons first rest ih =>
    cases rest with
    | nil =>
      obtain ⟨next, others, rfl⟩ := List.exists_cons_of_ne_nil further
      rw [List.singleton_append, display_cons_cons]
      simp [display, Str.join]
    | cons second rest =>
      have longer := ih (List.cons_ne_nil _ _)
      rw [List.cons_append, List.cons_append, display_cons_cons, display_cons_cons]
      rw [List.cons_append] at longer
      simp only [List.length_append, List.length_cons]
      omega

end Path
end SkillLayer

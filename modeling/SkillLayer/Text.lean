import Mathlib.Data.List.DropRight
import Mathlib.Data.List.Sort

/-! Text as a finite sequence of Unicode scalar values, with the trimming,
splitting and line operations of a string library. Nothing here knows a format. -/

namespace SkillLayer

/-- A string is the sequence of its Unicode scalar values. -/
abbrev Str := List Char

instance : Coe String Str := ⟨String.toList⟩

instance : LawfulBEq Str := inferInstance

namespace Str

/-- The Unicode `White_Space` property. -/
def isWhitespace (c : Char) : Bool :=
  let code := c.toNat
  (9 ≤ code && code ≤ 13) || code == 0x20 || code == 0x85 || code == 0xA0 || code == 0x1680 ||
    (0x2000 ≤ code && code ≤ 0x200A) || code == 0x2028 || code == 0x2029 || code == 0x202F ||
    code == 0x205F || code == 0x3000

def trimEnd (s : Str) : Str := s.rdropWhile isWhitespace

def trim (s : Str) : Str := trimEnd (s.dropWhile isWhitespace)

def isBlank (s : Str) : Bool := s.all isWhitespace

/-- Length in bytes of the UTF-8 encoding. -/
def byteLength (s : Str) : Nat := s.foldl (fun length c => length + c.utf8Size) 0

def toAsciiLowercase (s : Str) : Str := s.map Char.toLower

def stripPrefix? (pattern s : Str) : Option Str :=
  if pattern.isPrefixOf s then some (s.drop pattern.length) else none

/-- Put `c` in front of the first piece, opening one when there is none. -/
def consHead (c : Char) : List Str → List Str
  | [] => [[c]]
  | piece :: pieces => (c :: piece) :: pieces

/-- Pieces of `s` that end at each `sep`, the separator included. -/
def splitInclusive (sep : Char) : Str → List Str
  | [] => []
  | c :: rest => if c = sep then [c] :: splitInclusive sep rest else consHead c (splitInclusive sep rest)

/-- Pieces of `s` between separators; `n` separators give `n + 1` pieces. -/
def splitOn (sep : Char) : Str → List Str
  | [] => [[]]
  | c :: rest => if c = sep then [] :: splitOn sep rest else consHead c (splitOn sep rest)

/-- The text before and after the first occurrence of `pattern`. -/
def splitOnce (pattern : Str) : Str → Option (Str × Str)
  | [] => if pattern = [] then some ([], []) else none
  | c :: rest =>
    match stripPrefix? pattern (c :: rest) with
    | some after => some ([], after)
    | none => (splitOnce pattern rest).map fun (before, after) => (c :: before, after)

def stripSuffixChar (c : Char) (s : Str) : Option Str :=
  if s.getLast? = some c then some s.dropLast else none

/-- Remove one final `\n` and, only then, one final `\r`. -/
def stripLineEnding (piece : Str) : Str :=
  match stripSuffixChar '\n' piece with
  | none => piece
  | some line => (stripSuffixChar '\r' line).getD line

def lines (s : Str) : List Str := (splitInclusive '\n' s).map stripLineEnding

def join (sep : Str) : List Str → Str := List.intercalate sep

/-- The lines of `s`, each without its surrounding whitespace. -/
def trimmedLines (s : Str) : List Str := (lines s).map trim

/-- The UTF-8 encoding. -/
def utf8 (s : Str) : List UInt8 := s.flatMap String.utf8EncodeChar

/-- The byte order of strings, which is the order of their scalar values. -/
def le : Str → Str → Bool
  | [], _ => true
  | _ :: _, [] => false
  | c :: s, d :: t => if c = d then le s t else c.toNat < d.toNat

/-- Decimal digits of a natural number. -/
def ofNat (n : Nat) : Str := Nat.toDigits 10 n

/-- The numbers read back from their digits. -/
theorem ofNat_injective : Function.Injective ofNat := by
  intro first second same
  have number (value : Nat) : Nat.ofDigitChars 10 (ofNat value) 0 = value :=
    Nat.ofDigitChars_toDigits (by decide) (by decide)
  rw [← number first, same, number second]

def ofInt : Int → Str
  | .ofNat n => ofNat n
  | .negSucc n => '-' :: ofNat (n + 1)

def sorted (texts : List Str) : List Str :=
  texts.insertionSort fun left right => le left right = true

/-! ### Trimming -/

theorem isWhitespace_newline : isWhitespace '\n' = true := by decide

theorem trimEnd_cons_of_not_whitespace {c : Char} (visible : isWhitespace c = false) (s : Str) :
    trimEnd (c :: s) = c :: trimEnd s := by
  induction s using List.reverseRecOn with
  | nil => simp [trimEnd, visible]
  | append_singleton s last ih =>
    rw [trimEnd, trimEnd, ← List.cons_append, List.rdropWhile_concat, List.rdropWhile_concat]
    split
    · exact ih
    · rfl

theorem trim_cons_of_not_whitespace {c : Char} (visible : isWhitespace c = false) (s : Str) :
    trim (c :: s) = c :: trimEnd s := by
  simp [trim, visible, trimEnd_cons_of_not_whitespace visible]

theorem trimEnd_append_whitespace {c : Char} (blank : isWhitespace c = true) (s : Str) :
    trimEnd (s ++ [c]) = trimEnd s := by
  simp [trimEnd, blank]

theorem trimEnd_eq_nil (s : Str) : trimEnd s = [] ↔ isBlank s = true := by
  simp [trimEnd, isBlank, List.rdropWhile_eq_nil_iff]

theorem trim_eq_nil (s : Str) : trim s = [] ↔ isBlank s = true := by
  induction s with
  | nil => simp [trim, trimEnd, isBlank]
  | cons c s ih =>
    by_cases blank : isWhitespace c = true
    · simpa [trim, isBlank, blank] using ih
    · simp only [Bool.not_eq_true] at blank
      simp [trim_cons_of_not_whitespace blank, isBlank, blank]

theorem trim_append_whitespace {c : Char} (blank : isWhitespace c = true) (s : Str) :
    trim (s ++ [c]) = trim s := by
  induction s with
  | nil => simp [trim, trimEnd, blank]
  | cons head s ih =>
    by_cases headBlank : isWhitespace head = true
    · simpa [trim, headBlank] using ih
    · simp only [Bool.not_eq_true] at headBlank
      simp [trim_cons_of_not_whitespace headBlank, trimEnd_append_whitespace blank]

theorem trim_cons_whitespace {c : Char} (blank : isWhitespace c = true) (s : Str) :
    trim (c :: s) = trim s := by
  simp [trim, blank]

theorem trim_trimEnd (s : Str) : trim (trimEnd s) = trim s := by
  induction s using List.reverseRecOn with
  | nil => rfl
  | append_singleton s last ih =>
    by_cases blank : isWhitespace last = true
    · rw [trimEnd_append_whitespace blank, trim_append_whitespace blank, ih]
    · simp [trimEnd, blank]

theorem trim_trim (s : Str) : trim (trim s) = trim s := by
  have inner : trim (trim s) = trim (s.dropWhile isWhitespace) := trim_trimEnd (s.dropWhile isWhitespace)
  rw [inner, trim, List.dropWhile_idempotent, ← trim]

theorem isBlank_trim (s : Str) : isBlank (trim s) = isBlank s := by
  rw [Bool.eq_iff_iff, ← trim_eq_nil, ← trim_eq_nil, trim_trim]

theorem mem_of_mem_trim {s : Str} {c : Char} (member : c ∈ trim s) : c ∈ s :=
  (List.dropWhile_suffix _).subset ((List.rdropWhile_prefix isWhitespace _).subset member)

/-- Trimming drops no visible character. -/
theorem mem_trim {s : Str} {c : Char} (visible : isWhitespace c = false) (member : c ∈ s) : c ∈ trim s := by
  have kept : c ∈ s.dropWhile isWhitespace := by
    have whole : s.takeWhile isWhitespace ++ s.dropWhile isWhitespace = s := List.takeWhile_append_dropWhile
    rw [← whole, List.mem_append] at member
    rcases member with blank | kept
    · simp [List.mem_takeWhile_imp blank] at visible
    · exact kept
  have whole : trim s ++ (s.dropWhile isWhitespace).rtakeWhile isWhitespace = s.dropWhile isWhitespace :=
    List.rdropWhile_append_rtakeWhile
  rw [← whole, List.mem_append] at kept
  rcases kept with inside | blank
  · exact inside
  · simp [List.mem_rtakeWhile_imp blank] at visible

theorem trim_stripLineEnding (piece : Str) : trim (stripLineEnding piece) = trim piece := by
  have strip (c : Char) (blank : isWhitespace c = true) (s line : Str)
      (stripped : stripSuffixChar c s = some line) : trim line = trim s := by
    unfold stripSuffixChar at stripped
    split at stripped
    · rename_i last
      rw [← Option.some.inj stripped, ← List.dropLast_append_getLast? c last,
        trim_append_whitespace blank, List.dropLast_concat]
    · cases stripped
  unfold stripLineEnding
  split
  · rfl
  · rename_i line first
    have outer := strip '\n' isWhitespace_newline piece line first
    cases second : stripSuffixChar '\r' line with
    | none => simpa using outer
    | some inner => simpa [outer] using strip '\r' (by decide) line inner second

/-! ### Lines -/

theorem consHead_append (c : Char) (pieces others : List Str) (nonempty : pieces ≠ []) :
    consHead c (pieces ++ others) = consHead c pieces ++ others := by
  cases pieces with
  | nil => exact absurd rfl nonempty
  | cons _ _ => rfl

theorem splitInclusive_terminated_ne_nil (sep : Char) (s rest : Str) :
    splitInclusive sep (s ++ sep :: rest) ≠ [] := by
  cases s with
  | nil => simp [splitInclusive]
  | cons c s =>
    by_cases same : c = sep
    · simp [splitInclusive, same]
    · simp only [List.cons_append, splitInclusive, same, if_false]
      cases splitInclusive sep (s ++ sep :: rest) <;> simp [consHead]

/-- A separator closes a piece, so the pieces on its two sides are independent. -/
theorem splitInclusive_append (sep : Char) (s rest : Str) :
    splitInclusive sep (s ++ sep :: rest) =
      splitInclusive sep (s ++ [sep]) ++ splitInclusive sep rest := by
  induction s with
  | nil => simp [splitInclusive]
  | cons c s ih =>
    by_cases same : c = sep
    · simp [splitInclusive, same, ih]
    · simp only [List.cons_append, splitInclusive, same, if_false, ih]
      exact consHead_append c _ _ (splitInclusive_terminated_ne_nil sep s [])

theorem lines_append (s rest : Str) : lines (s ++ '\n' :: rest) = lines (s ++ ['\n']) ++ lines rest := by
  rw [lines, splitInclusive_append, List.map_append]
  rfl

/-- A piece carries the separator at its end or not at all. -/
theorem mem_splitInclusive {sep : Char} {s piece : Str} (member : piece ∈ splitInclusive sep s) :
    ∃ line, sep ∉ line ∧ (piece = line ∨ piece = line ++ [sep]) := by
  induction s generalizing piece with
  | nil => cases member
  | cons c s ih =>
    rw [splitInclusive] at member
    split at member
    · rename_i same
      rcases List.mem_cons.mp member with here | later
      · exact ⟨[], List.not_mem_nil, Or.inr (by rw [here, same]; rfl)⟩
      · exact ih later
    · rename_i other
      cases pieces : splitInclusive sep s with
      | nil =>
        rw [pieces, consHead, List.mem_singleton] at member
        exact ⟨[c], by simp [Ne.symm other], Or.inl member⟩
      | cons first rest =>
        rw [pieces, consHead, List.mem_cons] at member
        rcases member with here | later
        · obtain ⟨line, free, ended⟩ := ih (show first ∈ splitInclusive sep s by simp [pieces])
          refine ⟨c :: line, by simp [free, Ne.symm other], ?_⟩
          rcases ended with rfl | rfl
          · exact Or.inl here
          · exact Or.inr here
        · exact ih (by simp [pieces, later])

/-! ### Splitting -/

theorem eq_append_of_stripPrefix? {pattern s rest : Str}
    (stripped : stripPrefix? pattern s = some rest) : s = pattern ++ rest := by
  unfold stripPrefix? at stripped
  split at stripped
  · rename_i found
    obtain ⟨tail, same⟩ := List.isPrefixOf_iff_prefix.mp found
    rw [← Option.some.inj stripped, ← same, List.drop_left]
  · cases stripped

theorem stripPrefix?_append (pattern rest : Str) :
    stripPrefix? pattern (pattern ++ rest) = some rest := by
  rw [stripPrefix?, if_pos (List.isPrefixOf_iff_prefix.mpr (List.prefix_append _ _)),
    List.drop_left]

theorem splitOn_ne_nil (sep : Char) (s : Str) : splitOn sep s ≠ [] := by
  cases s with
  | nil => simp [splitOn]
  | cons c s =>
    rw [splitOn]
    split
    · simp
    · cases splitOn sep s <;> simp [consHead]

theorem exists_splitOn (sep : Char) (s : Str) : ∃ first rest, splitOn sep s = first :: rest :=
  List.exists_cons_of_ne_nil (splitOn_ne_nil sep s)

theorem splitOn_cons_of_ne {sep c : Char} (other : c ≠ sep) (s : Str) :
    splitOn sep (c :: s) = consHead c (splitOn sep s) := by
  rw [splitOn, if_neg other]

/-- A piece is free of the separator and made of characters of the text. -/
theorem mem_splitOn {sep : Char} {s piece : Str} (member : piece ∈ splitOn sep s) :
    sep ∉ piece ∧ ∀ c ∈ piece, c ∈ s := by
  induction s generalizing piece with
  | nil =>
    rw [splitOn, List.mem_singleton] at member
    simp [member]
  | cons c s ih =>
    rw [splitOn] at member
    split at member
    · rcases List.mem_cons.mp member with same | later
      · simp [same]
      · obtain ⟨free, inside⟩ := ih later
        exact ⟨free, fun x inPiece => List.mem_cons_of_mem c (inside x inPiece)⟩
    · rename_i other
      obtain ⟨first, rest, pieces⟩ := exists_splitOn sep s
      rw [pieces, consHead] at member
      rcases List.mem_cons.mp member with same | later
      · obtain ⟨free, inside⟩ := ih (show first ∈ splitOn sep s by simp [pieces])
        subst same
        refine ⟨by simp [free, Ne.symm other], ?_⟩
        intro x inPiece
        rcases List.mem_cons.mp inPiece with here | there
        · simp [here]
        · exact List.mem_cons_of_mem c (inside x there)
      · obtain ⟨free, inside⟩ := ih (show piece ∈ splitOn sep s by simp [pieces, later])
        exact ⟨free, fun x inPiece => List.mem_cons_of_mem c (inside x inPiece)⟩

theorem splitOn_append_of_not_mem {sep : Char} {s : Str} (absent : sep ∉ s) {tail first : Str}
    {rest : List Str} (pieces : splitOn sep tail = first :: rest) :
    splitOn sep (s ++ tail) = (s ++ first) :: rest := by
  induction s with
  | nil => simpa using pieces
  | cons c s ih =>
    simp only [List.mem_cons, not_or] at absent
    rw [List.cons_append, splitOn_cons_of_ne (Ne.symm absent.1), ih absent.2, consHead,
      List.cons_append]

theorem splitOn_append (sep : Char) (s rest : Str) :
    splitOn sep (s ++ sep :: rest) = splitOn sep s ++ splitOn sep rest := by
  induction s with
  | nil => simp [splitOn]
  | cons c s ih =>
    rw [List.cons_append, splitOn, splitOn, ih]
    split
    · rfl
    · exact consHead_append c _ _ (splitOn_ne_nil sep s)

/-- A line that is not repeated inside the text marks where to cut it. -/
theorem splitOnce_line (mark : Str) {text : Str} (free : '\n' ∉ mark)
    (absent : mark ∉ (splitOn '\n' text).tail) (rest : Str) :
    splitOnce ('\n' :: (mark ++ ['\n'])) (text ++ '\n' :: (mark ++ '\n' :: rest)) =
      some (text, rest) := by
  induction text with
  | nil =>
    have stripped := stripPrefix?_append ('\n' :: (mark ++ ['\n'])) rest
    simp only [List.cons_append, List.append_assoc, List.nil_append] at stripped
    rw [List.nil_append, splitOnce, stripped]
  | cons c text ih =>
    have later : mark ∉ (splitOn '\n' text).tail := by
      rw [splitOn] at absent
      split at absent
      · exact fun member => absent (List.mem_of_mem_tail member)
      · obtain ⟨first, others, pieces⟩ := exists_splitOn '\n' text
        simpa [pieces, consHead] using absent
    have notHere : stripPrefix? ('\n' :: (mark ++ ['\n']))
        (c :: (text ++ '\n' :: (mark ++ '\n' :: rest))) = none := by
      by_contra found
      obtain ⟨after, stripped⟩ := Option.ne_none_iff_exists'.mp found
      have same := eq_append_of_stripPrefix? stripped
      simp only [List.cons_append, List.append_assoc, List.nil_append, List.cons.injEq] at same
      obtain ⟨rfl, same⟩ := same
      have whole : splitOn '\n' mark = [mark] := by
        simpa using splitOn_append_of_not_mem free (show splitOn '\n' [] = [[]] from rfl)
      obtain ⟨first, others, split⟩ := exists_splitOn '\n' text
      have pieces := congrArg (splitOn '\n') same
      rw [splitOn_append, splitOn_append, splitOn_append, whole, split] at pieces
      have here : first = mark := List.head_eq_of_cons_eq pieces
      apply absent
      simp [splitOn, split, here]
    rw [List.cons_append, splitOnce, notHere, ih later]
    rfl

theorem splitInclusive_terminated (sep : Char) (s : Str) :
    splitInclusive sep (s ++ [sep]) = (splitOn sep s).map (· ++ [sep]) := by
  induction s with
  | nil => simp [splitInclusive, splitOn]
  | cons c s ih =>
    rw [List.cons_append, splitInclusive, splitOn, ih]
    split
    · rename_i same
      simp [same]
    · obtain ⟨first, rest, pieces⟩ := exists_splitOn sep s
      simp [pieces, consHead]

/-- A newline ends the trimmed lines of the text before it. -/
theorem trimmedLines_append (s rest : Str) :
    trimmedLines (s ++ '\n' :: rest) = (splitOn '\n' s).map trim ++ trimmedLines rest := by
  have before : trimmedLines (s ++ ['\n']) = (splitOn '\n' s).map trim := by
    rw [trimmedLines, lines, splitInclusive_terminated, List.map_map, List.map_map]
    refine List.map_congr_left fun piece _ => ?_
    simp only [Function.comp_apply, trim_stripLineEnding]
    exact trim_append_whitespace isWhitespace_newline piece
  rw [← before, trimmedLines, lines_append, List.map_append]
  rfl

theorem trim_of_mem_trimmedLines {s line : Str} (member : line ∈ trimmedLines s) : trim line = line := by
  obtain ⟨source, _, rfl⟩ := List.mem_map.mp member
  exact trim_trim source

theorem newline_not_mem_trimmedLines {s line : Str} (member : line ∈ trimmedLines s) : '\n' ∉ line := by
  obtain ⟨source, inLines, rfl⟩ := List.mem_map.mp member
  obtain ⟨piece, inPieces, rfl⟩ := List.mem_map.mp inLines
  obtain ⟨content, free, ended⟩ := mem_splitInclusive inPieces
  have same : trim (stripLineEnding piece) = trim content := by
    rw [trim_stripLineEnding]
    rcases ended with rfl | rfl
    · rfl
    · exact trim_append_whitespace isWhitespace_newline content
  rw [same]
  exact fun inside => free (mem_of_mem_trim inside)

theorem prefix_of_splitOn {sep : Char} {s first : Str} {rest : List Str}
    (pieces : splitOn sep s = first :: rest) : first <+: s := by
  induction s generalizing first rest with
  | nil =>
    rw [splitOn, List.cons.injEq] at pieces
    exact pieces.1 ▸ List.nil_prefix
  | cons c s ih =>
    rw [splitOn] at pieces
    split at pieces
    · rw [List.cons.injEq] at pieces
      rw [← pieces.1]
      exact List.nil_prefix
    · obtain ⟨head, tail, later⟩ := exists_splitOn sep s
      rw [later, consHead, List.cons.injEq] at pieces
      rw [← pieces.1, List.prefix_cons_inj]
      exact ih later

/-- A piece is a stretch of the text. -/
theorem infix_of_mem_splitOn {sep : Char} {s piece : Str} (member : piece ∈ splitOn sep s) :
    piece <:+: s := by
  induction s generalizing piece with
  | nil =>
    rw [splitOn, List.mem_singleton] at member
    exact member ▸ List.infix_refl []
  | cons c s ih =>
    obtain ⟨first, rest, pieces⟩ := exists_splitOn sep (c :: s)
    rw [pieces, List.mem_cons] at member
    rcases member with rfl | later
    · exact (prefix_of_splitOn pieces).isInfix
    · refine List.IsInfix.trans (ih ?_) (List.suffix_cons c s).isInfix
      rw [splitOn] at pieces
      split at pieces
      · rw [List.cons.injEq] at pieces
        exact pieces.2 ▸ later
      · obtain ⟨head, tail, inner⟩ := exists_splitOn sep s
        rw [inner, consHead, List.cons.injEq] at pieces
        rw [inner, pieces.2]
        exact List.mem_cons_of_mem head later

/-- Appended text extends the last piece and, from its own separators on, opens new ones. -/
theorem splitOn_append_pieces (sep : Char) (s : Str) {tail first : Str} {rest : List Str}
    (pieces : splitOn sep tail = first :: rest) :
    ∃ init last, splitOn sep s = init ++ [last] ∧
      splitOn sep (s ++ tail) = init ++ (last ++ first) :: rest := by
  induction s with
  | nil => exact ⟨[], [], rfl, pieces⟩
  | cons c s ih =>
    obtain ⟨init, last, whole, extended⟩ := ih
    rw [List.cons_append, splitOn, splitOn, whole, extended]
    split
    · exact ⟨[] :: init, last, rfl, rfl⟩
    · cases init with
      | nil => exact ⟨[], c :: last, rfl, rfl⟩
      | cons head init => exact ⟨(c :: head) :: init, last, rfl, rfl⟩

theorem eq_append_of_splitOnce {pattern s before after : Str}
    (found : splitOnce pattern s = some (before, after)) : s = before ++ (pattern ++ after) := by
  induction s generalizing before with
  | nil =>
    rw [splitOnce] at found
    split at found
    · rename_i blank
      cases found
      rw [blank]
      rfl
    · cases found
  | cons c s ih =>
    rw [splitOnce] at found
    split at found
    · rename_i stripped
      cases found
      rw [eq_append_of_stripPrefix? stripped]
      rfl
    · obtain ⟨⟨inner, later⟩, there, same⟩ := Option.map_eq_some_iff.mp found
      cases same
      rw [ih there]
      rfl

/-- The first occurrence is no later than a known one. -/
theorem splitOnce_prefix {pattern s rest before after : Str}
    (found : splitOnce pattern (s ++ (pattern ++ rest)) = some (before, after)) : before <+: s := by
  induction s generalizing before with
  | nil =>
    cases pattern with
    | nil =>
      cases rest with
      | nil => simp_all [splitOnce]
      | cons c rest => simp_all [splitOnce, stripPrefix?]
    | cons c pattern =>
      have stripped := stripPrefix?_append (c :: pattern) rest
      rw [List.cons_append] at stripped
      rw [List.nil_append, List.cons_append, splitOnce, stripped] at found
      simp_all
  | cons c s ih =>
    rw [List.cons_append, splitOnce] at found
    split at found
    · simp_all
    · obtain ⟨⟨inner, later⟩, there, same⟩ := Option.map_eq_some_iff.mp found
      rw [Prod.mk.injEq] at same
      rw [← same.1, List.prefix_cons_inj]
      exact ih (there.trans (by rw [← same.2]))

/-! ### Blank tails -/

theorem trim_append_blank {blank : Str} (isBlank : isBlank blank = true) (s : Str) :
    trim (s ++ blank) = trim s := by
  induction blank using List.reverseRecOn with
  | nil => simp
  | append_singleton blank last ih =>
    simp only [Str.isBlank, List.all_append, List.all_cons, List.all_nil, Bool.and_true,
      Bool.and_eq_true] at isBlank
    rw [← List.append_assoc, trim_append_whitespace isBlank.2, ih isBlank.1]

theorem exists_blank_tail (s : Str) : ∃ blank, s = trimEnd s ++ blank ∧ isBlank blank = true := by
  refine ⟨s.rtakeWhile isWhitespace, ?_, ?_⟩
  · exact (List.rdropWhile_append_rtakeWhile).symm
  · rw [isBlank, List.all_eq_true]
    exact fun c member => List.mem_rtakeWhile_imp member

theorem trimEnd_cons_of_not_blank {s : Str} (visible : isBlank s = false) (c : Char) :
    trimEnd (c :: s) = c :: trimEnd s := by
  induction s using List.reverseRecOn with
  | nil => simp [isBlank] at visible
  | append_singleton s last ih =>
    by_cases blank : isWhitespace last = true
    · have rest : isBlank s = false := by simpa [isBlank, blank] using visible
      rw [← List.cons_append, trimEnd_append_whitespace blank, trimEnd_append_whitespace blank,
        ih rest]
    · simp only [Bool.not_eq_true] at blank
      rw [← List.cons_append, trimEnd, trimEnd, List.rdropWhile_concat_neg _ _ _ (by simp [blank]),
        List.rdropWhile_concat_neg _ _ _ (by simp [blank])]
      rfl

/-- Only leading whitespace separates the two ways of trimming. -/
theorem trimEnd_eq_append_trim {s : Str} (visible : isBlank s = false) :
    trimEnd s = s.takeWhile isWhitespace ++ trim s := by
  induction s with
  | nil => simp [isBlank] at visible
  | cons c s ih =>
    by_cases blank : isWhitespace c = true
    · have rest : isBlank s = false := by simpa [isBlank, blank] using visible
      rw [trimEnd_cons_of_not_blank rest, trim_cons_whitespace blank, ih rest,
        List.takeWhile_cons_of_pos blank, List.cons_append]
    · simp only [Bool.not_eq_true] at blank
      rw [trim_cons_of_not_whitespace blank, trimEnd_cons_of_not_whitespace blank,
        List.takeWhile_cons_of_neg (by simp [blank]), List.nil_append]

theorem trimEnd_append {s : Str} (visible : isBlank s = false) (before : Str) :
    trimEnd (before ++ s) = before ++ trimEnd s := by
  induction before with
  | nil => rfl
  | cons c before ih =>
    have rest : isBlank (before ++ s) = false := by
      rw [isBlank, List.all_append, ← isBlank, ← isBlank, visible, Bool.and_false]
    rw [List.cons_append, trimEnd_cons_of_not_blank rest, ih, List.cons_append]

theorem length_trim_le (s : Str) : (trim s).length ≤ s.length :=
  (List.rdropWhile_prefix _ _).length_le.trans (List.dropWhile_suffix _).length_le

/-- A pattern that ends in white space is left by the trimming where something visible follows it. -/
theorem infix_trim_iff {pattern : Str} (opens : pattern.head?.any (!isWhitespace ·) = true)
    (closes : pattern.getLast?.any isWhitespace = true) (s : Str) :
    pattern <:+: trim s ↔ ∃ before after, s = before ++ pattern ++ after ∧ isBlank after = false := by
  constructor
  · intro occurs
    obtain ⟨before, after, inside⟩ := occurs
    obtain ⟨tail, whole, _⟩ := exists_blank_tail (s.dropWhile isWhitespace)
    refine ⟨s.takeWhile isWhitespace ++ before, after ++ tail, ?_, ?_⟩
    · conv_lhs => rw [← List.takeWhile_append_dropWhile (p := isWhitespace) (l := s), whole]
      rw [show trimEnd (s.dropWhile isWhitespace) = before ++ pattern ++ after from inside.symm]
      simp only [List.append_assoc]
    · by_contra blank
      rw [Bool.not_eq_false, isBlank, List.all_append, Bool.and_eq_true] at blank
      obtain ⟨last, found, blankLast⟩ := (Option.any_eq_true _ _).mp closes
      obtain ⟨body, rfl⟩ := List.getLast?_eq_some_iff.mp found
      have ending : isBlank (last :: after) = true := by
        rw [isBlank, List.all_cons, blankLast, blank.1]
        rfl
      have shorter := length_trim_le (before ++ body)
      rw [← trim_append_blank ending, show before ++ body ++ last :: after = trim s by simp [← inside], trim_trim,
        ← inside] at shorter
      simp only [List.length_append, List.length_singleton] at shorter
      omega
  · intro occurs
    obtain ⟨before, after, rfl, visible⟩ := occurs
    obtain ⟨first, found, visibleFirst⟩ := (Option.any_eq_true _ _).mp opens
    obtain ⟨rest, rfl⟩ := List.head?_eq_some_iff.mp found
    rw [Bool.not_eq_true'] at visibleFirst
    have kept : ∃ indent, (before ++ (first :: rest) ++ after).dropWhile isWhitespace =
        indent ++ (first :: rest) ++ after := by
      rw [List.append_assoc, List.dropWhile_append]
      split
      · exact ⟨[], by simp [visibleFirst]⟩
      · exact ⟨before.dropWhile isWhitespace, by simp⟩
    obtain ⟨indent, kept⟩ := kept
    rw [trim, kept, trimEnd_append visible]
    exact ⟨indent, trimEnd after, rfl⟩

/-! ### Lowercase -/

/-- Lowercasing moves ASCII capitals and nothing else. -/
theorem toLower_cases (c : Char) :
    c.toLower = c ∨ (65 ≤ c.toNat ∧ c.toNat ≤ 90) ∧ c.toLower.toNat = c.toNat + 32 := by
  unfold Char.toLower
  split
  · rename_i upper
    have bounds : 65 ≤ c.toNat ∧ c.toNat ≤ 90 := upper
    refine .inr ⟨bounds, ?_⟩
    change (c.val + 32).toNat = c.val.toNat + 32
    have small : c.val.toNat ≤ 90 := bounds.2
    rw [UInt32.toNat_add]
    simp
    omega
  · exact .inl rfl

theorem isWhitespace_toLower (c : Char) : isWhitespace c.toLower = isWhitespace c := by
  rcases toLower_cases c with same | ⟨upper, lower⟩
  · rw [same]
  · have visible : isWhitespace c = false := by
      simp [isWhitespace]
      omega
    have alsoVisible : isWhitespace c.toLower = false := by
      simp [isWhitespace, lower]
      omega
    rw [visible, alsoVisible]

theorem isBlank_toAsciiLowercase (s : Str) : isBlank (toAsciiLowercase s) = isBlank s := by
  rw [isBlank, toAsciiLowercase, List.all_map]
  exact congrArg s.all (funext isWhitespace_toLower)

theorem trim_toAsciiLowercase (s : Str) : trim (toAsciiLowercase s) = toAsciiLowercase (trim s) := by
  have same : isWhitespace ∘ Char.toLower = isWhitespace := funext isWhitespace_toLower
  rw [trim, trimEnd, toAsciiLowercase, List.dropWhile_map, List.rdropWhile, ← List.map_reverse, List.dropWhile_map,
    ← List.map_reverse, same]
  rfl

/-! ### Occurrences beside a separator -/

/-- A pattern without the separator occurs before it or after it. -/
theorem occurs_beside {pattern before after left right : Str} {sep : Char} (free : sep ∉ pattern)
    (split : before ++ pattern ++ after = left ++ sep :: right) :
    (∃ tail, left = before ++ pattern ++ tail ∧ after = tail ++ sep :: right) ∨
      ∃ head, before = left ++ sep :: head ∧ right = head ++ pattern ++ after := by
  rcases List.append_eq_append_iff.mp split with ⟨tail, inLeft, rest⟩ | ⟨tail, whole, rest⟩
  · exact .inl ⟨tail, inLeft, rest⟩
  · cases tail with
    | nil => exact .inl ⟨[], by simpa using whole.symm, rest.symm⟩
    | cons c tail =>
      rw [List.cons_append, List.cons.injEq] at rest
      obtain ⟨rfl, rest⟩ := rest
      rcases List.append_eq_append_iff.mp whole with ⟨middle, _, inPattern⟩ | ⟨middle, inBefore, ending⟩
      · exact absurd (inPattern ▸ List.mem_append_right _ List.mem_cons_self) free
      · cases middle with
        | nil =>
          rw [List.nil_append] at ending
          exact absurd (ending ▸ List.mem_cons_self) free
        | cons c head =>
          rw [List.cons_append, List.cons.injEq] at ending
          obtain ⟨rfl, rfl⟩ := ending
          exact .inr ⟨head, inBefore, rest⟩

end Str
end SkillLayer

import SkillLayer.GraphBuilder.Extraction
import SkillLayer.SessionExtractor.Draft

/-! Reading a rendered draft back: which candidates survive the round trip. -/

namespace SkillLayer.SessionExtractor

open Domain GraphBuilder

/-! ### The round trip -/

def expectedNotes (kind : SubunitType) (entries : List Str) : List ExtractedSubunit :=
  (trimmedEntries entries).map fun text => ⟨kind, kind.debug ++ " note".toList, text⟩

def expectedSubunits (candidate : ExtractedSkillCandidate) : List ExtractedSubunit :=
  expectedNotes .procedure candidate.procedures ++ expectedNotes .convention candidate.conventions ++
    expectedNotes .asset candidate.assets

/-- The reader returns the trimmed fields of the candidate and nothing else. -/
def RoundTrips (fromStr : Str → Except Str SkillFrontmatter) (path : Path)
    (candidate : ExtractedSkillCandidate) (markdown : Str) : Prop :=
  extractStructuralSubunits fromStr path markdown =
    ⟨Str.trim candidate.name, Str.trim candidate.description, trimmedEntries candidate.tags,
      expectedSubunits candidate⟩

instance (fromStr : Str → Except Str SkillFrontmatter) (path : Path)
    (candidate : ExtractedSkillCandidate) (markdown : Str) :
    Decidable (RoundTrips fromStr path candidate markdown) :=
  inferInstanceAs (Decidable (_ = _))

/-- The frontmatter without the newline that closes it in the document. -/
def unterminated (yaml : Str) : Str := (Str.stripSuffixChar '\n' yaml).getD yaml

/-- What is assumed of the YAML library: it reads back what it wrote and never
writes a bare fence line. -/
structure LawfulFrontmatter (format : DraftFormat) (fromStr : Str → Except Str SkillFrontmatter) :
    Prop where
  reads : ∀ frontmatter yaml, serializeFrontmatter format frontmatter = .ok yaml →
    ∃ read, fromStr (unterminated yaml) = .ok read ∧ read.name = some frontmatter.name ∧
      read.description = some frontmatter.description ∧ read.tags = some frontmatter.tags
  noFence : ∀ frontmatter yaml, serializeFrontmatter format frontmatter = .ok yaml →
    "---".toList ∉ Str.splitOn '\n' yaml

/-! ### Candidates that survive -/

/-- The lines of free text that the reader scans as body lines of their own. -/
def freeLines (candidate : ExtractedSkillCandidate) : List Str :=
  (Str.splitOn '\n' candidate.name).tail ++ Str.splitOn '\n' candidate.description

def entries (candidate : ExtractedSkillCandidate) : List Str :=
  candidate.procedures ++ candidate.conventions ++ candidate.assets

/-- No free line is a bullet, no entry breaks a line before its text ends, and
without tags of its own the candidate has no free tag line. -/
structure Survives (candidate : ExtractedSkillCandidate) : Prop where
  noBullet : ∀ line ∈ freeLines candidate, bulletOf (Str.trim line) = none
  oneLine : ∀ entry ∈ entries candidate, '\n' ∉ Str.trimEnd entry
  noTags : trimmedEntries candidate.tags = [] →
    ∀ line ∈ freeLines candidate, tagsOf (Str.trim line) = []

/-- An entry whose text starts only after a line break. -/
def StartsWithBreak (candidate : ExtractedSkillCandidate) : Prop :=
  ∃ entry ∈ entries candidate, Str.trim entry ≠ [] ∧ '\n' ∈ entry.takeWhile Str.isWhitespace

/-! ### The document -/

theorem terminated_eq (yaml : Str) : terminated yaml = unterminated yaml ++ ['\n'] := by
  unfold terminated unterminated Str.stripSuffixChar
  split
  · rename_i last
    exact (List.dropLast_append_getLast? '\n' last).symm
  · rfl

theorem splitFrontmatter_document {yaml body : Str}
    (noFence : "---".toList ∉ Str.splitOn '\n' yaml) :
    splitFrontmatter ("---\n".toList ++ terminated yaml ++ "---\n".toList ++ body) =
      (some (unterminated yaml), body) := by
  have absent : "---".toList ∉ (Str.splitOn '\n' (unterminated yaml)).tail := by
    intro member
    apply noFence
    unfold unterminated Str.stripSuffixChar at member
    split at member
    · rename_i last
      rw [← List.dropLast_append_getLast? '\n' last, Str.splitOn_append]
      exact List.mem_append_left _ (List.mem_of_mem_tail member)
    · exact List.mem_of_mem_tail member
  have cut := Str.splitOnce_line "---" (by decide) absent body
  have opened : Str.stripPrefix? "---\n" ("---\n".toList ++ terminated yaml ++ "---\n".toList ++ body) =
      some (unterminated yaml ++ '\n' :: ("---".toList ++ '\n' :: body)) := by
    rw [List.append_assoc, List.append_assoc, Str.stripPrefix?_append, terminated_eq]
    simp
  rw [splitFrontmatter, opened]
  dsimp only
  have mark : "\n---\n".toList = '\n' :: ("---".toList ++ ['\n']) := by decide
  rw [mark, cut]

/-- The trimmed lines of one section. -/
def sectionLines (heading : Str) (lines : List Str) : List Str :=
  if lines.isEmpty then []
  else (Str.splitOn '\n' ("## ".toList ++ heading)).map Str.trim ++
    lines.flatMap (fun line => (Str.splitOn '\n' ("- ".toList ++ line)).map Str.trim) ++ [[]]

theorem trimmedLines_newline (rest : Str) :
    Str.trimmedLines ('\n' :: rest) = [] :: Str.trimmedLines rest :=
  Str.trimmedLines_append [] rest

theorem trimmedLines_bullets (lines : List Str) (rest : Str) :
    Str.trimmedLines ((lines.flatMap fun line => "- ".toList ++ line ++ ['\n']) ++ rest) =
      lines.flatMap (fun line => (Str.splitOn '\n' ("- ".toList ++ line)).map Str.trim) ++
        Str.trimmedLines rest := by
  induction lines with
  | nil => rfl
  | cons line lines ih =>
    have shape : ((line :: lines).flatMap fun line => "- ".toList ++ line ++ ['\n']) ++ rest =
        ("- ".toList ++ line) ++ '\n' ::
          ((lines.flatMap fun line => "- ".toList ++ line ++ ['\n']) ++ rest) := by
      rw [List.flatMap_cons]
      simp only [List.append_assoc, List.cons_append, List.nil_append]
    rw [shape, Str.trimmedLines_append, ih, List.flatMap_cons, List.append_assoc]

theorem trimmedLines_section (heading : Str) (lines : List Str) (rest : Str) :
    Str.trimmedLines (sectionText heading lines ++ rest) =
      sectionLines heading lines ++ Str.trimmedLines rest := by
  unfold sectionText sectionLines
  split
  · rfl
  · have headed := Str.trimmedLines_append ("## ".toList ++ heading)
      ((lines.flatMap fun line => "- ".toList ++ line ++ ['\n']) ++ ('\n' :: rest))
    rw [trimmedLines_bullets, trimmedLines_newline] at headed
    simp only [List.append_assoc, List.cons_append, List.nil_append] at headed ⊢
    exact headed

/-- The lines before the first section. -/
def introLines (candidate : ExtractedSkillCandidate) : List Str :=
  [] :: ((Str.splitOn '\n' ("# ".toList ++ candidate.name)).map Str.trim ++
    [] :: ((Str.splitOn '\n' candidate.description).map Str.trim ++ [[]]))

theorem trimmedLines_draftBody (candidate : ExtractedSkillCandidate) :
    Str.trimmedLines (draftBody candidate) =
      introLines candidate ++ (sectionLines "Procedures" candidate.procedures ++
        (sectionLines "Conventions" candidate.conventions ++
          sectionLines "Assets" candidate.assets)) := by
  have shape : draftBody candidate = '\n' :: (("# ".toList ++ candidate.name) ++ '\n' ::
      ('\n' :: (candidate.description ++ '\n' :: ('\n' ::
        (sectionText "Procedures" candidate.procedures ++
          (sectionText "Conventions" candidate.conventions ++
            (sectionText "Assets" candidate.assets ++ []))))))) := by
    simp only [draftBody, List.append_assoc, List.cons_append, List.nil_append,
      List.append_nil]
  have empty : Str.trimmedLines [] = [] := rfl
  rw [shape, trimmedLines_newline, Str.trimmedLines_append, trimmedLines_newline,
    Str.trimmedLines_append, trimmedLines_newline, trimmedLines_section, trimmedLines_section,
    trimmedLines_section, empty, introLines]
  simp only [List.append_assoc, List.cons_append, List.nil_append, List.append_nil]

/-! ### What the lines contribute -/

theorem trim_marked {mark : Char} (visible : Str.isWhitespace mark = false) (text : Str) :
    Str.trim (mark :: ' ' :: text) =
      if Str.isBlank text then [mark] else mark :: ' ' :: Str.trimEnd text := by
  rw [Str.trim_cons_of_not_whitespace visible]
  split
  · rename_i blank
    rw [(Str.trimEnd_eq_nil _).mpr]
    simpa [Str.isBlank, Str.isWhitespace] using blank
  · rename_i visibleText
    rw [Str.trimEnd_cons_of_not_blank (by simpa using visibleText)]

theorem title_silent (text : Str) (kind : SubunitType) :
    tagsOf (Str.trim ('#' :: ' ' :: text)) = [] ∧ bulletOf (Str.trim ('#' :: ' ' :: text)) = none ∧
      kindAfter kind (Str.trim ('#' :: ' ' :: text)) = kind := by
  have noTagLine (rest : Str) : Str.stripPrefix? "tags:" ('#' :: rest) = none :=
    stripPrefix?_eq_none_of_head (by decide)
  have noBullet (rest : Str) : bulletOf ('#' :: rest) = none :=
    stripPrefix?_eq_none_of_head (by decide)
  rw [trim_marked (by decide)]
  split
  · refine ⟨by rw [tagsOf, noTagLine]; rfl, noBullet _, ?_⟩
    rw [kindAfter, Str.toAsciiLowercase, List.map_singleton, headingKind_singleton]
    rfl
  · refine ⟨by rw [tagsOf, noTagLine]; rfl, noBullet _, ?_⟩
    rw [kindAfter, Str.toAsciiLowercase, List.map_cons, List.map_cons,
      headingKind_eq_none (.inr (by decide))]
    rfl

theorem bullet_line (text : Str) (kind : SubunitType) :
    tagsOf (Str.trim ('-' :: ' ' :: text)) = [] ∧
      (bulletOf (Str.trim ('-' :: ' ' :: text))).toList.map (note kind) =
        expectedNotes kind [text] ∧
      kindAfter kind (Str.trim ('-' :: ' ' :: text)) = kind := by
  have noTagLine (rest : Str) : Str.stripPrefix? "tags:" ('-' :: rest) = none :=
    stripPrefix?_eq_none_of_head (by decide)
  rw [trim_marked (by decide)]
  split
  · rename_i blank
    have nothing : Str.trim text = [] := (Str.trim_eq_nil text).mpr blank
    have noBullet : bulletOf ['-'] = none := by decide
    refine ⟨by rw [tagsOf, noTagLine]; rfl, ?_, ?_⟩
    · rw [noBullet, expectedNotes, trimmedEntries, List.map_singleton, nothing]
      rfl
    · rw [kindAfter, Str.toAsciiLowercase, List.map_singleton, headingKind_singleton]
      rfl
  · rename_i visible
    have something : Str.trim text ≠ [] := fun empty => visible ((Str.trim_eq_nil text).mp empty)
    have bullet : bulletOf ('-' :: ' ' :: Str.trimEnd text) = some (Str.trimEnd text) :=
      Str.stripPrefix?_append "- ".toList (Str.trimEnd text)
    refine ⟨by rw [tagsOf, noTagLine]; rfl, ?_, ?_⟩
    · rw [bullet, expectedNotes, trimmedEntries, List.map_singleton,
        List.filter_cons_of_pos (by simpa using something), Option.toList_some, List.map_singleton,
        note, Str.trim_trimEnd]
      rfl
    · rw [kindAfter, Str.toAsciiLowercase, List.map_cons, List.map_cons,
        headingKind_eq_none (.inl (by decide))]
      rfl

theorem blank_silent (kind : SubunitType) :
    tagsOf [] = [] ∧ bulletOf [] = none ∧ kindAfter kind [] = kind := by
  refine ⟨by decide, by decide, ?_⟩
  have noHeading : headingKind (Str.toAsciiLowercase []) = none := by decide
  rw [kindAfter, noHeading]
  rfl

theorem notes_eq_nil (kind : SubunitType) (lines : List Str) :
    notes kind lines = [] ↔ ∀ line ∈ lines, bulletOf line = none := by
  induction lines generalizing kind with
  | nil => simp [notes]
  | cons line rest ih =>
    cases bullet : bulletOf line <;> simp [notes, bullet, ih]

/-- Blank lines change nothing. -/
theorem blanks_silent (lines : List Str) (blank : ∀ line ∈ lines, line = []) (kind : SubunitType) :
    lines.flatMap tagsOf = [] ∧ notes kind lines = [] ∧ lines.foldl kindAfter kind = kind := by
  induction lines with
  | nil => exact ⟨rfl, rfl, rfl⟩
  | cons line rest ih =>
    obtain rfl := blank line List.mem_cons_self
    obtain ⟨tags, bullet, same⟩ := blank_silent kind
    obtain ⟨laterTags, laterNotes, laterKind⟩ := ih fun line member =>
      blank line (List.mem_cons_of_mem _ member)
    refine ⟨?_, ?_, ?_⟩
    · rw [List.flatMap_cons, tags, laterTags, List.append_nil]
    · rw [notes, bullet, same, laterNotes]
      rfl
    · rw [List.foldl_cons, same, laterKind]

/-- An entry without an inner line break is one bullet and blank lines. -/
theorem splitOn_oneLine {entry : Str} (oneLine : '\n' ∉ Str.trimEnd entry) :
    ∃ first rest, Str.splitOn '\n' entry = first :: rest ∧ Str.trim first = Str.trim entry ∧
      ∀ line ∈ rest, Str.trim line = [] := by
  obtain ⟨blank, same, isBlank⟩ := Str.exists_blank_tail entry
  obtain ⟨first, rest, pieces⟩ := Str.exists_splitOn '\n' blank
  have pieceBlank (piece : Str) (member : piece ∈ Str.splitOn '\n' blank) :
      Str.isBlank piece = true := by
    rw [Str.isBlank, List.all_eq_true] at isBlank ⊢
    exact fun c inside => isBlank c ((Str.mem_splitOn member).2 c inside)
  refine ⟨Str.trimEnd entry ++ first, rest, ?_, ?_, ?_⟩
  · conv_lhs => rw [same]
    exact Str.splitOn_append_of_not_mem oneLine pieces
  · rw [Str.trim_append_blank (pieceBlank first (by simp [pieces])), Str.trim_trimEnd]
  · intro line member
    exact (Str.trim_eq_nil line).mpr (pieceBlank line (by simp [pieces, member]))

theorem expectedNotes_cons (kind : SubunitType) (entry : Str) (rest : List Str) :
    expectedNotes kind (entry :: rest) = expectedNotes kind [entry] ++ expectedNotes kind rest := by
  rw [expectedNotes, expectedNotes, expectedNotes, ← List.map_append, trimmedEntries,
    trimmedEntries, trimmedEntries, ← List.filter_append, ← List.map_append]
  rfl

theorem expectedNotes_congr {kind : SubunitType} {entry other : Str}
    (same : Str.trim entry = Str.trim other) :
    expectedNotes kind [entry] = expectedNotes kind [other] := by
  rw [expectedNotes, expectedNotes, trimmedEntries, trimmedEntries, List.map_singleton,
    List.map_singleton, same]

theorem splitOn_marked {mark : Char} (visible : mark ≠ '\n') {text first : Str} {rest : List Str}
    (pieces : Str.splitOn '\n' text = first :: rest) :
    Str.splitOn '\n' ([mark, ' '] ++ text) = (mark :: ' ' :: first) :: rest :=
  Str.splitOn_append_of_not_mem (by simp [Ne.symm visible]) pieces

/-- The bullets of a section of one-line entries are its expected notes. -/
theorem bullets_expected {lines : List Str} (oneLine : ∀ line ∈ lines, '\n' ∉ Str.trimEnd line)
    (kind : SubunitType) :
    let read := lines.flatMap fun line => (Str.splitOn '\n' ("- ".toList ++ line)).map Str.trim
    read.flatMap tagsOf = [] ∧ notes kind read = expectedNotes kind lines ∧
      read.foldl kindAfter kind = kind := by
  induction lines with
  | nil => exact ⟨rfl, rfl, rfl⟩
  | cons line lines ih =>
    obtain ⟨first, rest, pieces, text, blank⟩ := splitOn_oneLine (oneLine line List.mem_cons_self)
    obtain ⟨tags, bullet, same⟩ := bullet_line first kind
    obtain ⟨restTags, restNotes, restKind⟩ := blanks_silent (rest.map Str.trim) (by
      intro trimmed member
      obtain ⟨piece, inRest, rfl⟩ := List.mem_map.mp member
      exact blank piece inRest) kind
    obtain ⟨laterTags, laterNotes, laterKind⟩ := ih fun line member =>
      oneLine line (List.mem_cons_of_mem _ member)
    have marked : Str.splitOn '\n' ("- ".toList ++ line) = ('-' :: ' ' :: first) :: rest :=
      splitOn_marked (by decide) pieces
    dsimp only
    rw [List.flatMap_cons, marked, List.map_cons, List.cons_append]
    refine ⟨?_, ?_, ?_⟩
    · rw [List.flatMap_cons, List.flatMap_append, tags, restTags, laterTags]
      rfl
    · rw [notes, same, notes_append, restNotes, restKind, laterNotes, bullet,
        expectedNotes_congr text, List.nil_append, ← expectedNotes_cons]
    · rw [List.foldl_cons, same, List.foldl_append, restKind, laterKind]

/-- A known heading restarts the kind, so a section of one-line entries reads as
its expected notes whatever precedes it. -/
theorem section_expected (heading : Str) (kind : SubunitType) (lines : List Str)
    (headed : (Str.splitOn '\n' ("## ".toList ++ heading)).map Str.trim = ["## ".toList ++ heading])
    (known : headingKind (Str.toAsciiLowercase ("## ".toList ++ heading)) = some kind)
    (plain : tagsOf ("## ".toList ++ heading) = [] ∧ bulletOf ("## ".toList ++ heading) = none)
    (oneLine : ∀ line ∈ lines, '\n' ∉ Str.trimEnd line) (before : SubunitType) :
    (sectionLines heading lines).flatMap tagsOf = [] ∧
      notes before (sectionLines heading lines) = expectedNotes kind lines := by
  unfold sectionLines
  split
  · rename_i empty
    rw [List.isEmpty_iff.mp empty]
    exact ⟨rfl, rfl⟩
  · have starts : kindAfter before ("## ".toList ++ heading) = kind := by
      rw [kindAfter, known]
      rfl
    obtain ⟨tags, read, same⟩ := bullets_expected oneLine kind
    obtain ⟨blankTags, blankNotes, _⟩ := blanks_silent [[]] (by simp) kind
    rw [headed, List.singleton_append, List.cons_append]
    refine ⟨?_, ?_⟩
    · rw [List.flatMap_cons, List.flatMap_append, plain.1, tags, blankTags]
      rfl
    · rw [notes, starts, plain.2, notes_append, same, read, blankNotes, List.append_nil]
      rfl

/-! ### Whole drafts -/

/-- The trimmed body lines of a rendered draft. -/
def bodyLines (candidate : ExtractedSkillCandidate) : List Str :=
  introLines candidate ++ (sectionLines "Procedures" candidate.procedures ++
    (sectionLines "Conventions" candidate.conventions ++ sectionLines "Assets" candidate.assets))

theorem forall_introLines (holds : Str → Prop) (blank : holds [])
    (title : ∀ text, holds (Str.trim ('#' :: ' ' :: text))) (candidate : ExtractedSkillCandidate) :
    (∀ line ∈ introLines candidate, holds line) ↔
      ∀ line ∈ freeLines candidate, holds (Str.trim line) := by
  obtain ⟨first, rest, pieces⟩ := Str.exists_splitOn '\n' candidate.name
  have marked : Str.splitOn '\n' ("# ".toList ++ candidate.name) = ('#' :: ' ' :: first) :: rest :=
    splitOn_marked (by decide) pieces
  rw [introLines, freeLines, marked, pieces]
  simp [blank, title, or_imp, forall_and]

theorem sections_expected {candidate : ExtractedSkillCandidate}
    (oneLine : ∀ entry ∈ entries candidate, '\n' ∉ Str.trimEnd entry) :
    (bodyLines candidate).flatMap tagsOf = (introLines candidate).flatMap tagsOf ∧
      notes .summary (bodyLines candidate) =
        notes .summary (introLines candidate) ++ expectedSubunits candidate := by
  have procedures := section_expected "Procedures" .procedure candidate.procedures
    (by decide) (by decide) ⟨by decide, by decide⟩
    fun entry member => oneLine entry (by simp [entries, member])
  have conventions := section_expected "Conventions" .convention candidate.conventions
    (by decide) (by decide) ⟨by decide, by decide⟩
    fun entry member => oneLine entry (by simp [entries, member])
  have assets := section_expected "Assets" .asset candidate.assets
    (by decide) (by decide) ⟨by decide, by decide⟩
    fun entry member => oneLine entry (by simp [entries, member])
  unfold bodyLines
  constructor
  · rw [List.flatMap_append, List.flatMap_append, List.flatMap_append, (procedures .summary).1,
      (conventions .summary).1, (assets .summary).1]
    simp only [List.append_nil]
  · rw [notes_append, notes_append, notes_append, (procedures _).2, (conventions _).2,
      (assets _).2, expectedSubunits]
    simp only [List.append_assoc]

theorem newline_not_mem_bodyLines {candidate : ExtractedSkillCandidate} :
    ∀ line ∈ bodyLines candidate, '\n' ∉ line := by
  rw [← show _ = bodyLines candidate from trimmedLines_draftBody candidate]
  exact fun line member => Str.newline_not_mem_trimmedLines member

theorem newline_not_mem_notes {lines : List Str} (free : ∀ line ∈ lines, '\n' ∉ line)
    (kind : SubunitType) : ∀ subunit ∈ notes kind lines, '\n' ∉ subunit.content := by
  intro subunit member inside
  obtain ⟨line, inLines, content, bullet, its, rfl⟩ := exists_bullet_of_mem_notes member
  apply free line inLines
  rw [Str.eq_append_of_stripPrefix? bullet]
  exact List.mem_append_right _ (Str.mem_of_mem_trim inside)

/-- An entry whose text spans lines cannot be read back in one note. -/
theorem oneLine_of_expected {candidate : ExtractedSkillCandidate}
    (read : notes .summary (bodyLines candidate) = expectedSubunits candidate)
    (noBreak : ¬ StartsWithBreak candidate) :
    ∀ entry ∈ entries candidate, '\n' ∉ Str.trimEnd entry := by
  intro entry member
  by_cases blank : Str.trim entry = []
  · rw [(Str.trimEnd_eq_nil entry).mpr ((Str.trim_eq_nil entry).mp blank)]
    exact List.not_mem_nil
  · have visible : Str.isBlank entry = false := by
      simpa [Str.trim_eq_nil] using blank
    have expected (kind : SubunitType) (list : List Str) (inList : entry ∈ list) :
        (⟨kind, kind.debug ++ " note".toList, Str.trim entry⟩ : ExtractedSubunit) ∈
          expectedNotes kind list := by
      refine List.mem_map.mpr ⟨Str.trim entry, ?_, rfl⟩
      exact List.mem_filter.mpr ⟨List.mem_map_of_mem inList, by simpa using blank⟩
    have someNote : ∃ subunit ∈ expectedSubunits candidate, subunit.content = Str.trim entry := by
      simp only [entries, List.mem_append] at member
      simp only [expectedSubunits, List.mem_append]
      rcases member with (procedure | convention) | asset
      · exact ⟨_, .inl (.inl (expected .procedure _ procedure)), rfl⟩
      · exact ⟨_, .inl (.inr (expected .convention _ convention)), rfl⟩
      · exact ⟨_, .inr (expected .asset _ asset), rfl⟩
    obtain ⟨subunit, inNotes, content⟩ := someNote
    rw [← read] at inNotes
    rw [Str.trimEnd_eq_append_trim visible, List.mem_append, not_or]
    refine ⟨fun leading => noBreak ⟨entry, member, blank, leading⟩, ?_⟩
    rw [← content]
    exact newline_not_mem_notes newline_not_mem_bodyLines .summary subunit inNotes

/-- The reader on a rendered draft: the frontmatter fixes the texts, the body adds
the notes and, without frontmatter tags, the tags. -/
theorem extract_rendered {format : DraftFormat} {fromStr : Str → Except Str SkillFrontmatter}
    (lawful : LawfulFrontmatter format fromStr) {createdAt : Timestamp}
    {candidate : ExtractedSkillCandidate} {sourceSessionId providerName : Str} (path : Path)
    {markdown : Str}
    (rendered : renderPendingMarkdown format createdAt candidate sourceSessionId providerName =
      .ok markdown)
    (named : Str.trim candidate.name ≠ []) (described : Str.trim candidate.description ≠ []) :
    extractStructuralSubunits fromStr path markdown =
      ⟨Str.trim candidate.name, Str.trim candidate.description,
        if trimmedEntries candidate.tags = [] then (bodyLines candidate).flatMap tagsOf
        else trimmedEntries candidate.tags,
        notes .summary (bodyLines candidate)⟩ := by
  unfold renderPendingMarkdown at rendered
  cases serialized : serializeFrontmatter format
      (draftFrontmatter format createdAt candidate sourceSessionId providerName) with
  | error error => simp [serialized, bind, Except.bind] at rendered
  | ok yaml =>
    simp only [serialized, bind, Except.bind, pure, Except.pure, Except.ok.injEq] at rendered
    obtain ⟨read, parsed, name, description, tags⟩ := lawful.reads _ _ serialized
    have text (field : Option Str) (source inferred : Str) (same : field = some source)
        (visible : Str.trim source ≠ []) : overrideText field inferred = Str.trim source := by
      rw [overrideText, same, Option.map_some, Option.filter_some, if_pos (by simpa using visible)]
      rfl
    have resolved : read.resolvedTags = trimmedEntries candidate.tags := by
      rw [SkillFrontmatter.resolvedTags, tags]
      rfl
    obtain ⟨scannedTags, scannedNotes⟩ := scan_fields (bodyLines candidate)
      ⟨path.fileStem.getD "unnamed-skill", [], [], [], .summary⟩
    rw [extractStructuralSubunits, ← rendered,
      splitFrontmatter_document (lawful.noFence _ _ serialized)]
    dsimp only [Option.bind_some]
    rw [parsed]
    dsimp only [Except.toOption]
    rw [BodyScan.override, text _ _ _ name named, text _ _ _ description described, resolved,
      scanBody, trimmedLines_draftBody, ← bodyLines, scannedTags, scannedNotes]
    simp [BodyScan.finish, described, draftFrontmatter]

/-- Surviving candidates round-trip, and a candidate that round-trips survives
unless the text of an entry starts after a line break. -/
theorem roundTrips_of_survives {format : DraftFormat}
    {fromStr : Str → Except Str SkillFrontmatter} (lawful : LawfulFrontmatter format fromStr)
    (createdAt : Timestamp) (candidate : ExtractedSkillCandidate)
    (sourceSessionId providerName : Str) (path : Path) (markdown : Str)
    (rendered : renderPendingMarkdown format createdAt candidate sourceSessionId providerName =
      .ok markdown)
    (named : Str.trim candidate.name ≠ []) (described : Str.trim candidate.description ≠ []) :
    (Survives candidate → RoundTrips fromStr path candidate markdown) ∧
      (RoundTrips fromStr path candidate markdown →
        Survives candidate ∨ StartsWithBreak candidate) := by
  have silentTags (oneLine : ∀ entry ∈ entries candidate, '\n' ∉ Str.trimEnd entry) :
      (bodyLines candidate).flatMap tagsOf = [] ↔
        ∀ line ∈ freeLines candidate, tagsOf (Str.trim line) = [] := by
    rw [(sections_expected oneLine).1, List.flatMap_eq_nil_iff]
    exact forall_introLines _ (blank_silent .summary).1 (fun text => (title_silent text .summary).1) _
  have silentNotes : notes .summary (introLines candidate) = [] ↔
      ∀ line ∈ freeLines candidate, bulletOf (Str.trim line) = none := by
    rw [notes_eq_nil]
    exact forall_introLines _ (blank_silent .summary).2.1
      (fun text => (title_silent text .summary).2.1) _
  rw [RoundTrips, extract_rendered lawful path rendered named described,
    StructuralExtraction.mk.injEq]
  constructor
  · intro survives
    refine ⟨rfl, rfl, ?_, ?_⟩
    · split
      · rename_i untagged
        rw [untagged, silentTags survives.oneLine]
        exact survives.noTags untagged
      · rfl
    · rw [(sections_expected survives.oneLine).2, silentNotes.mpr survives.noBullet,
        List.nil_append]
  · rintro ⟨-, -, tags, read⟩
    by_cases noBreak : StartsWithBreak candidate
    · exact .inr noBreak
    · have oneLine := oneLine_of_expected read noBreak
      rw [(sections_expected oneLine).2, List.append_left_eq_self] at read
      refine .inl ⟨silentNotes.mp read, oneLine, ?_⟩
      intro untagged
      rw [if_pos untagged, untagged] at tags
      exact (silentTags oneLine).mp tags

/-! ### Concrete drafts -/

/-- The libraries as far as one frontmatter written at the epoch is concerned. -/
def epochFormat (frontmatter : PendingDraftFrontmatter) (yaml : Str) : DraftFormat where
  toRfc3339 time :=
    if time = 0 then "1970-01-01T00:00:00+00:00"
    else if time = 30 * secondsPerDay then "1970-01-31T00:00:00+00:00"
    else "1970-04-01T00:00:00+00:00"
  toYaml other := if other = frontmatter then .ok yaml else .error "unsupported value"

def readFrontmatter (frontmatter : PendingDraftFrontmatter) (yaml text : Str) :
    Except Str SkillFrontmatter :=
  if text = unterminated yaml then
    .ok ⟨some frontmatter.name, some frontmatter.description, some frontmatter.tags, none⟩
  else .error "invalid type"

theorem lawful_epochFormat (frontmatter : PendingDraftFrontmatter) (yaml : Str)
    (opened : Str.stripPrefix? "---\n" yaml = none)
    (noFence : "---".toList ∉ Str.splitOn '\n' yaml) :
    LawfulFrontmatter (epochFormat frontmatter yaml) (readFrontmatter frontmatter yaml) := by
  have written (other : PendingDraftFrontmatter) (text : Str)
      (serialized : serializeFrontmatter (epochFormat frontmatter yaml) other = .ok text) :
      other = frontmatter ∧ text = yaml := by
    unfold serializeFrontmatter epochFormat at serialized
    by_cases same : other = frontmatter
    · simp only [same, if_true, opened, Option.getD_none, Except.ok.injEq] at serialized
      exact ⟨same, serialized.symm⟩
    · simp [same] at serialized
  constructor
  · intro other text serialized
    obtain ⟨rfl, rfl⟩ := written other text serialized
    exact ⟨_, if_pos rfl, rfl, rfl, rfl⟩
  · intro other text serialized
    obtain ⟨rfl, rfl⟩ := written other text serialized
    exact noFence

/-- A candidate with the given description and one procedure. -/
def buildCandidate (description : Str) : ExtractedSkillCandidate :=
  ⟨"Cache builds", description, ["ci"], ["Reuse the cache"], [], [], none, none⟩

def buildFrontmatter (description : Str) : PendingDraftFrontmatter :=
  ⟨"Cache builds", description, ["ci"], "session_extraction", "s1", "ollama",
    "1970-01-01T00:00:00+00:00", "1970-01-31T00:00:00+00:00", "1970-04-01T00:00:00+00:00",
    "uncertain", []⟩

def buildYaml (description : Str) : Str :=
  "name: Cache builds\ndescription: ".toList ++ description ++
    "\ntags:\n- ci\norigin: session_extraction\nsource_session_id: s1\nsource_provider: ollama\n".toList ++
    "created_at: 1970-01-01T00:00:00+00:00\nwarning_at: 1970-01-31T00:00:00+00:00\n".toList ++
    "expires_at: 1970-04-01T00:00:00+00:00\ngenerality: uncertain\n".toList

def buildDraft (description : Str) (yaml : Str) : Str :=
  "---\n".toList ++ yaml ++ "---\n\n# Cache builds\n\n".toList ++ description ++
    "\n\n## Procedures\n- Reuse the cache\n\n".toList

theorem plainDraft_roundTrips :
    RoundTrips (readFrontmatter (buildFrontmatter "Keep it.") (buildYaml "Keep it."))
      ["SKILL.md"] (buildCandidate "Keep it.") (buildDraft "Keep it." (buildYaml "Keep it.")) := by
  have lawful := lawful_epochFormat (buildFrontmatter "Keep it.")
    (buildYaml "Keep it.") (by decide +kernel) (by decide +kernel)
  have survives : Survives (buildCandidate "Keep it.") :=
    ⟨by decide +kernel, by decide +kernel, by decide +kernel⟩
  exact (roundTrips_of_survives lawful 0 _ "s1" "ollama" _ _ (by decide +kernel)
    (by decide +kernel) (by decide +kernel)).1 survives

/-- A description that lists its steps comes back with an extra note for each. -/
theorem listedDescription_gains_notes :
    ∃ format fromStr markdown, LawfulFrontmatter format fromStr ∧
      renderPendingMarkdown format 0 (buildCandidate "Steps:\n- build") "s1" "ollama" =
        .ok markdown ∧
      ¬ RoundTrips fromStr ["SKILL.md"] (buildCandidate "Steps:\n- build") markdown := by
  refine ⟨epochFormat (buildFrontmatter "Steps:\n- build") (buildYaml "|-\n  Steps:\n  - build"),
    readFrontmatter (buildFrontmatter "Steps:\n- build") (buildYaml "|-\n  Steps:\n  - build"),
    buildDraft "Steps:\n- build" (buildYaml "|-\n  Steps:\n  - build"),
    lawful_epochFormat _ _ (by decide +kernel) (by decide +kernel), ?_, ?_⟩
  · decide +kernel
  · decide +kernel

end SkillLayer.SessionExtractor

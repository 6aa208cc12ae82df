import SkillLayer.Maintenance.Passes
import SkillLayer.Maintenance.Snapshots
import SkillLayer.SessionExtractor.SynthesisResponse

/-! What the reader finds in a proposal: the texts of its frontmatter, the list items of its
prose, and its bullets. -/

namespace SkillLayer.Maintenance

open Domain GraphBuilder
open SessionExtractor

/-! ### The written file -/

section Written

variable {F Err : Type} {faults : HostFaults F}

/-- What an action that succeeds has written, under the path of its outcome. -/
def LeavesFile {Out : Type} (pathOf : Out → Path) (Rendered : Str → Prop) (result : Except Err Out)
    (after : Workspace F) : Prop :=
  ∀ out, result = .ok out → ∃ markdown, Rendered markdown ∧ after.fs.node (pathOf out) = some (.file markdown)

theorem leads_writeNew_content (report : Path → Str → Err) (path : Path) (content : Str) (proposed : Proposed)
    (before : Workspace F) :
    Leads (writeNew faults report path content proposed) before fun result after =>
      result = .ok ⟨⟩ → after.fs.node path = some (.file content) := by
  unfold writeNew
  rw [leads_bind, leads_onFiles]
  apply (leads_createNew path before.fs).mono
  intro result fs opened
  cases result with
  | error error => exact fun impossible => nomatch impossible
  | ok _ =>
    dsimp only [Except.mapError]
    rw [leads_modify_bind, leads_onFiles]
    unfold Leads writeAll
    cases faults.writeAll path with
    | none => exact fun _ => Fs.node_put_self _ _ _
    | some partially => exact fun impossible => nomatch impossible

/-- A placement that succeeds has written what was rendered. -/
theorem leads_placeProposal_content (scopeFailure : MergeError → Err) (report : Path → Str → Err)
    (scopeRoot : Path) (pendingDirectoryName directoryName : Str) (recheck : Bool)
    (render : Except Err Str) (proposed : Proposed) (before : Workspace F) :
    Leads (placeProposal faults scopeFailure report scopeRoot pendingDirectoryName directoryName recheck
      render proposed) before (LeavesFile id fun markdown => render = .ok markdown) := by
  unfold placeProposal
  rw [leads_bind]
  apply (leads_openProposalRoot _ _ _ _ _ _ before).mono
  intro result between opened
  cases result with
  | error error => exact fun _ impossible => nomatch impossible
  | ok proposalRoot =>
  dsimp only
  rw [leads_ofExcept_bind]
  cases render with
  | error error => exact fun _ impossible => nomatch impossible
  | ok markdown =>
  dsimp only
  rw [leads_bind]
  apply (leads_writeNew_content report _ markdown proposed between).mono
  intro result after written
  cases result with
  | error error => exact fun _ impossible => nomatch impossible
  | ok _ =>
    intro path same
    cases same
    exact ⟨markdown, rfl, written rfl⟩

/-- The caller's terms for a failure do not change what is written. -/
theorem leads_reportAs {Problem Out : Type} {report : Err → Problem} {action : EStateM Err (Workspace F) Out}
    {before : Workspace F} {post : Except Problem Out → Workspace F → Prop} :
    Leads (reportAs report action) before post ↔
      Leads action before fun result after => post (result.mapError report) after := by
  unfold Leads reportAs
  cases action before <;> exact Iff.rfl

end Written

/-! ### The texts that the reader yields -/

/-- A text as the reader leaves it: on one line, without surrounding blanks, and not empty. -/
structure PlainText (text : Str) : Prop where
  trimmed : Str.trim text = text
  visible : text ≠ []
  oneLine : '\n' ∉ text

instance (text : Str) : Decidable (PlainText text) :=
  decidable_of_iff (Str.trim text = text ∧ text ≠ [] ∧ '\n' ∉ text)
    ⟨fun ⟨trimmed, visible, oneLine⟩ => ⟨trimmed, visible, oneLine⟩,
      fun ⟨trimmed, visible, oneLine⟩ => ⟨trimmed, visible, oneLine⟩⟩

/-- A subunit as far as a draft is to preserve it. -/
def lesson (subunit : ExtractedSubunit) : SubunitType × Str := (subunit.kind, subunit.content)

theorem PlainText.trimEnd {text : Str} (plain : PlainText text) : '\n' ∉ Str.trimEnd text :=
  fun inside => plain.oneLine ((List.rdropWhile_prefix Str.isWhitespace _).subset inside)

/-- Tidy entries are left as they are. -/
theorem trimmedEntries_tidy {entries : List Str} (tidy : ∀ entry ∈ entries, Str.trim entry = entry ∧ entry ≠ []) :
    trimmedEntries entries = entries := by
  have trimmed : entries.map Str.trim = entries :=
    (List.map_congr_left fun entry member => (tidy entry member).1).trans (List.map_id' entries)
  rw [trimmedEntries, trimmed, List.filter_eq_self]
  intro entry member
  simpa using (tidy entry member).2

/-- A note of a body is plain text under the title of its kind. -/
theorem notes_plain {body : Str} {kind : SubunitType} {subunit : ExtractedSubunit}
    (member : subunit ∈ notes kind (Str.trimmedLines body)) :
    PlainText subunit.content ∧ subunit.title = subunit.kind.debug ++ " note".toList := by
  obtain ⟨line, inLines, content, bullet, its, rfl⟩ := exists_bullet_of_mem_notes member
  have visible := bullet_visible (Str.trim_of_mem_trimmedLines inLines) bullet
  refine ⟨⟨Str.trim_trim content, ?_, ?_⟩, rfl⟩
  · rw [note, ne_eq, Str.trim_eq_nil, visible]
    exact Bool.false_ne_true
  · intro inside
    apply Str.newline_not_mem_trimmedLines inLines
    rw [Str.eq_append_of_stripPrefix? bullet]
    exact List.mem_append_right _ (Str.mem_of_mem_trim inside)

/-! ### What the reader yields -/

/-- What the line loop keeps about the texts that it has inferred. -/
structure TidyScan (scan : BodyScan) : Prop where
  name : Str.trim scan.skillName = scan.skillName ∧ scan.skillName ≠ []
  description : Str.trim scan.description = scan.description
  tags : ∀ tag ∈ scan.tags, Str.trim tag = tag ∧ tag ≠ []

theorem mem_trimmedEntries {entries : List Str} {entry : Str} (member : entry ∈ trimmedEntries entries) :
    Str.trim entry = entry ∧ entry ≠ [] := by
  obtain ⟨trimmed, visible⟩ := List.mem_filter.mp member
  obtain ⟨source, _, rfl⟩ := List.mem_map.mp trimmed
  exact ⟨Str.trim_trim source, by simpa using visible⟩

theorem TidyScan.describe {scan : BodyScan} (tidy : TidyScan scan) {trimmed : Str}
    (line : Str.trim trimmed = trimmed) : TidyScan (scan.describe trimmed) := by
  unfold BodyScan.describe
  split
  · exact ⟨tidy.name, line, tidy.tags⟩
  · exact tidy

theorem TidyScan.scanLine {scan : BodyScan} (tidy : TidyScan scan) {trimmed : Str}
    (line : Str.trim trimmed = trimmed) : TidyScan (scan.scanLine trimmed) := by
  unfold BodyScan.scanLine
  cases Str.stripPrefix? "# " trimmed with
  | some title =>
    dsimp only
    split
    · exact tidy
    · rename_i visible
      exact ⟨⟨Str.trim_trim title, by simpa using visible⟩, tidy.description, tidy.tags⟩
  | none =>
  cases Str.stripPrefix? "tags:" trimmed with
  | some tagLine =>
    refine ⟨tidy.name, tidy.description, ?_⟩
    intro tag member
    rcases List.mem_append.mp member with before | here
    · exact tidy.tags tag before
    · exact mem_trimmedEntries here
  | none =>
  cases headingKind (Str.toAsciiLowercase trimmed) with
  | some kind => exact ⟨tidy.name, tidy.description, tidy.tags⟩
  | none =>
    have described := tidy.describe line
    unfold BodyScan.scanProse
    cases Str.stripPrefix? "- " trimmed with
    | none => exact described
    | some content => exact ⟨described.name, described.description, described.tags⟩

theorem TidyScan.foldl {scan : BodyScan} (tidy : TidyScan scan) {lines : List Str}
    (trimmed : ∀ line ∈ lines, Str.trim line = line) : TidyScan (lines.foldl BodyScan.scanLine scan) := by
  induction lines generalizing scan with
  | nil => exact tidy
  | cons line rest ih =>
    exact ih (tidy.scanLine (trimmed line List.mem_cons_self)) fun other member =>
      trimmed other (List.mem_cons_of_mem _ member)

theorem overrideText_tidy {field : Option Str} {inferred : Str} (tidy : Str.trim inferred = inferred) :
    Str.trim (overrideText field inferred) = overrideText field inferred ∧
      (inferred ≠ [] → overrideText field inferred ≠ []) := by
  unfold overrideText
  cases present : (field.map Str.trim).filter fun text => !text.isEmpty with
  | none => exact ⟨tidy, id⟩
  | some text =>
    obtain ⟨trimmed, visible⟩ := Option.filter_eq_some_iff.mp present
    obtain ⟨source, _, rfl⟩ := Option.map_eq_some_iff.mp trimmed
    exact ⟨Str.trim_trim source, fun _ => by simpa using visible⟩

/-- The texts that the reader yields for a file are trimmed and not empty, and every subunit is a
note of the body. -/
structure TidyExtraction (extraction : StructuralExtraction) : Prop where
  name : Str.trim extraction.skillName = extraction.skillName ∧ extraction.skillName ≠ []
  description : Str.trim extraction.description = extraction.description ∧ extraction.description ≠ []
  tags : ∀ tag ∈ extraction.tags, Str.trim tag = tag ∧ tag ≠ []
  subunits : ∃ body, extraction.subunits = notes .summary (Str.trimmedLines body)

theorem TidyScan.finish {scan : BodyScan} (tidy : TidyScan scan) {body : Str}
    (noted : scan.subunits = notes .summary (Str.trimmedLines body)) : TidyExtraction scan.finish where
  name := tidy.name
  description := by
    unfold BodyScan.finish
    dsimp only
    split
    · decide
    · rename_i visible
      exact ⟨tidy.description, by simpa using visible⟩
  tags := tidy.tags
  subunits := ⟨body, noted⟩

theorem TidyScan.override {scan : BodyScan} (tidy : TidyScan scan) (frontmatter : SkillFrontmatter) :
    TidyScan (scan.override frontmatter) where
  name := ⟨(overrideText_tidy tidy.name.1).1, (overrideText_tidy tidy.name.1).2 tidy.name.2⟩
  description := (overrideText_tidy tidy.description).1
  tags := by
    intro tag member
    unfold BodyScan.override at member
    dsimp only at member
    split at member
    · exact tidy.tags tag member
    · unfold SkillFrontmatter.resolvedTags at member
      cases chosen : frontmatter.tags.or frontmatter.suggestedTags with
      | none => simp [chosen] at member
      | some entries =>
        rw [chosen] at member
        exact mem_trimmedEntries member

/-- Every subunit of a file is a note of its body. -/
theorem extract_noted (fromStr : Str → Except Str SkillFrontmatter) (path : Path) (markdown : Str) :
    (extractStructuralSubunits fromStr path markdown).subunits =
      notes .summary (Str.trimmedLines (splitFrontmatter markdown).2) := by
  have noted := (scan_fields (Str.trimmedLines (splitFrontmatter markdown).2)
    ⟨path.fileStem.getD "unnamed-skill", [], [], [], .summary⟩).2
  unfold extractStructuralSubunits
  dsimp only
  split <;> exact noted

/-- The reader tidies every file whose stem is a tidy name. -/
theorem extract_tidy (fromStr : Str → Except Str SkillFrontmatter) {path : Path} {stem : Str}
    (named : path.fileStem = some stem) (tidyStem : Str.trim stem = stem ∧ stem ≠ []) (markdown : Str) :
    TidyExtraction (extractStructuralSubunits fromStr path markdown) := by
  have noted := extract_noted fromStr path markdown
  unfold extractStructuralSubunits at noted ⊢
  dsimp only at noted ⊢
  rw [named, Option.getD_some] at noted ⊢
  have opening : TidyScan ⟨stem, [], [], [], .summary⟩ := ⟨tidyStem, rfl, by simp⟩
  have scanned : TidyScan (scanBody stem (splitFrontmatter markdown).2) :=
    opening.foldl fun line member => Str.trim_of_mem_trimmedLines member
  split at noted
  · exact (scanned.override _).finish noted
  · exact scanned.finish noted

theorem trim_of_visible {text : Str} (visible : ∀ c ∈ text, Str.isWhitespace c = false) :
    Str.trim text = text := by
  have kept : text.dropWhile Str.isWhitespace = text := by
    rw [List.dropWhile_eq_self_iff]
    intro nonempty
    simp [visible _ (List.getElem_mem nonempty)]
  rw [Str.trim, kept, Str.trimEnd, List.rdropWhile_eq_self_iff]
  intro nonempty
  simp [visible _ (List.getLast_mem nonempty)]

theorem mem_join {sep : Char} {pieces : List Str} {c : Char} (member : c ∈ Str.join [sep] pieces) :
    c = sep ∨ ∃ piece ∈ pieces, c ∈ piece := by
  induction pieces with
  | nil => cases member
  | cons first rest ih =>
    cases rest with
    | nil =>
      rw [Str.join, List.intercalate_singleton] at member
      exact Or.inr ⟨first, List.mem_cons_self, member⟩
    | cons second rest =>
      rw [Str.join, List.intercalate_cons_cons, List.append_assoc, List.mem_append, List.mem_append,
        List.mem_singleton] at member
      rcases member with here | same | later
      · exact Or.inr ⟨first, List.mem_cons_self, here⟩
      · exact Or.inl same
      · rcases ih later with same | ⟨piece, inRest, inside⟩
        · exact Or.inl same
        · exact Or.inr ⟨piece, List.mem_cons_of_mem _ inRest, inside⟩

/-- The stem of an active skill file is a tidy name. -/
theorem stem_of_active {path : Path} (active : isActiveSkillFile path = true) :
    ∃ stem, path.fileStem = some stem ∧ Str.trim stem = stem ∧ stem ≠ [] := by
  obtain ⟨name, named, same⟩ := (Option.any_eq_true _ _).mp active
  have lowered : Str.toAsciiLowercase name = Str.toAsciiLowercase activeSkillFileName := by
    simpa using same
  have visibleName : ∀ c ∈ name, Str.isWhitespace c = false := by
    intro c member
    rw [← Str.isWhitespace_toLower]
    have inFile : c.toLower ∈ Str.toAsciiLowercase activeSkillFileName :=
      lowered ▸ List.mem_map_of_mem member
    have visible : (Str.toAsciiLowercase activeSkillFileName).all (fun lower => !Str.isWhitespace lower) = true := by
      decide +kernel
    simpa using List.all_eq_true.mp visible _ inFile
  have visibleStem : ∀ c ∈ Str.join ['.'] (Str.splitOn '.' name).dropLast, Str.isWhitespace c = false := by
    intro c member
    rcases mem_join member with rfl | ⟨piece, inPieces, inside⟩
    · decide
    · exact visibleName c ((Str.mem_splitOn (List.mem_of_mem_dropLast inPieces)).2 c inside)
  rw [Path.fileStem, named, Option.map_some]
  refine ⟨_, rfl, ?_⟩
  dsimp only
  split
  · refine ⟨trim_of_visible visibleName, ?_⟩
    rintro rfl
    cases lowered
  · rename_i nonempty
    exact ⟨trim_of_visible visibleStem, by simpa using nonempty⟩

/-! ### Reading a proposal back -/

/-- The YAML of a frontmatter without its opening fence. -/
def yamlOf (serialized : Str) : Str := (Str.stripPrefix? "---\n" serialized).getD serialized

/-- The YAML library reads back the texts that it wrote, and writes no bare fence line. -/
structure ReadsBack (fromStr : Str → Except Str SkillFrontmatter) (serialized name description : Str)
    (tags : List Str) : Prop where
  reads : ∃ read, fromStr (unterminated (yamlOf serialized)) = .ok read ∧ read.name = some name ∧
    read.description = some description ∧ read.tags = some tags
  noFence : "---".toList ∉ Str.splitOn '\n' (yamlOf serialized)

/-- The lines of a name and a description, but for the title. -/
def proseLines (name description : Str) : List Str :=
  ((Str.splitOn '\n' name).tail ++ Str.splitOn '\n' description).map Str.trim

/-- The list items among the lines of a name and a description, under the headings among them. -/
def proseItems (name description : Str) : List ExtractedSubunit := notes .summary (proseLines name description)

def proseTags (name description : Str) : List Str := (proseLines name description).flatMap tagsOf

/-- The trimmed lines of a proposal before its bullets. -/
def openingLines (name description : Str) : List Str :=
  [] :: ((Str.splitOn '\n' ("# ".toList ++ name)).map Str.trim ++
    [] :: ((Str.splitOn '\n' description).map Str.trim ++ [[]]))

theorem trimmedLines_opening (name description listing : Str) :
    Str.trimmedLines ('\n' :: ("# ".toList ++ name ++ "\n\n".toList ++ description ++ "\n\n".toList ++
      listing)) = openingLines name description ++ Str.trimmedLines listing := by
  have shape : "# ".toList ++ name ++ "\n\n".toList ++ description ++ "\n\n".toList ++ listing =
      ("# ".toList ++ name) ++ '\n' :: ('\n' :: (description ++ '\n' :: ('\n' :: listing))) := by
    simp only [List.append_assoc]
    rfl
  rw [shape, trimmedLines_newline, Str.trimmedLines_append, trimmedLines_newline, Str.trimmedLines_append,
    trimmedLines_newline, openingLines]
  simp only [List.append_assoc, List.cons_append, List.nil_append]

theorem notes_insert_blank (kind : SubunitType) (lines others : List Str) :
    notes kind (lines ++ [] :: others) = notes kind (lines ++ others) := by
  obtain ⟨-, bullet, same⟩ := blank_silent (lines.foldl kindAfter kind)
  rw [notes_append, notes_append, notes, bullet, same]
  rfl

/-- The title and the blank lines say nothing. -/
theorem read_opening (name description : Str) :
    notes .summary (openingLines name description) = proseItems name description ∧
      (openingLines name description).flatMap tagsOf = proseTags name description := by
  obtain ⟨first, rest, pieces⟩ := Str.exists_splitOn '\n' name
  have marked : Str.splitOn '\n' ("# ".toList ++ name) = ('#' :: ' ' :: first) :: rest :=
    splitOn_marked (by decide) pieces
  obtain ⟨blankTags, blankBullet, blankKind⟩ := blank_silent .summary
  obtain ⟨titleTags, titleBullet, titleKind⟩ := title_silent first .summary
  have prose : proseLines name description = rest.map Str.trim ++ (Str.splitOn '\n' description).map Str.trim := by
    rw [proseLines, pieces, List.tail_cons, List.map_append]
  rw [openingLines, marked, List.map_cons, proseItems, proseTags, prose]
  have spaced (front back : List Str) :
      notes .summary (front ++ [] :: (back ++ [[]])) = notes .summary (front ++ back) := by
    rw [notes_insert_blank, ← List.append_assoc, notes_insert_blank, List.append_nil]
  constructor
  · rw [notes, blankBullet, blankKind, List.cons_append, notes, titleBullet, titleKind, spaced]
    rfl
  · simp [blankTags, titleTags]

/-- The bullets of some texts, line by line. -/
def bulletLines (texts : List Str) : List Str :=
  texts.flatMap fun text => (Str.splitOn '\n' ("- ".toList ++ text)).map Str.trim

/-- A listing that reads as the texts under the heading of procedures. -/
structure Lists (listing : Str) (texts : List Str) : Prop where
  tags : (Str.trimmedLines listing).flatMap tagsOf = (bulletLines texts).flatMap tagsOf
  noted : ∀ kind, notes kind (Str.trimmedLines listing) = notes .procedure (bulletLines texts)

theorem lists_procedures (texts : List Str) :
    Lists ("## Procedures\n".toList ++ texts.flatMap fun text => "- ".toList ++ text ++ ['\n']) texts := by
  have lines : Str.trimmedLines ("## Procedures\n".toList ++ texts.flatMap fun text =>
      "- ".toList ++ text ++ ['\n']) = "## Procedures".toList :: bulletLines texts := by
    have cut := Str.trimmedLines_append "## Procedures" (texts.flatMap fun text => "- ".toList ++ text ++ ['\n'])
    have bullets := trimmedLines_bullets texts []
    have empty : Str.trimmedLines [] = [] := rfl
    have title : (Str.splitOn '\n' "## Procedures").map Str.trim = ["## Procedures".toList] := by decide
    rw [List.append_nil, empty, List.append_nil] at bullets
    rw [title, bullets] at cut
    exact cut
  have silent : tagsOf "## Procedures" = [] ∧ bulletOf "## Procedures" = none := by decide
  have starts (kind : SubunitType) : kindAfter kind "## Procedures" = .procedure := by
    have known : headingKind (Str.toAsciiLowercase "## Procedures") = some .procedure := by decide
    rw [kindAfter, known]
    rfl
  constructor
  · rw [lines, List.flatMap_cons, silent.1, List.nil_append]
  · intro kind
    rw [lines, notes, silent.2, starts]
    rfl

/-- The reader on a proposal: the frontmatter fixes the texts, and the subunits are the list items
of the prose with the bullets of the listing. -/
theorem extract_proposal {fromStr : Str → Except Str SkillFrontmatter} {serialized name description : Str}
    {tags : List Str} (readsBack : ReadsBack fromStr serialized name description tags) (path : Path)
    (named : Str.trim name ≠ []) (described : Str.trim description ≠ []) {listing : Str} {texts : List Str}
    (lists : Lists listing texts) :
    extractStructuralSubunits fromStr path (frontmatterBlock serialized ++ "# ".toList ++ name ++
        "\n\n".toList ++ description ++ "\n\n".toList ++ listing) =
      ⟨Str.trim name, Str.trim description,
        if trimmedEntries tags = [] then proseTags name description ++ (bulletLines texts).flatMap tagsOf
        else trimmedEntries tags,
        proseItems name description ++ notes .procedure (bulletLines texts)⟩ := by
  obtain ⟨⟨read, parsed, nameRead, descriptionRead, tagsRead⟩, noFence⟩ := readsBack
  have document : frontmatterBlock serialized ++ "# ".toList ++ name ++ "\n\n".toList ++ description ++
      "\n\n".toList ++ listing = "---\n".toList ++ terminated (yamlOf serialized) ++ "---\n".toList ++
        '\n' :: ("# ".toList ++ name ++ "\n\n".toList ++ description ++ "\n\n".toList ++ listing) := by
    have fence : "---\n\n".toList = "---\n".toList ++ ['\n'] := by decide
    rw [frontmatterBlock, fence]
    simp only [List.append_assoc]
    rfl
  have text (field : Option Str) (source inferred : Str) (same : field = some source)
      (visible : Str.trim source ≠ []) : overrideText field inferred = Str.trim source := by
    rw [overrideText, same, Option.map_some, Option.filter_some, if_pos (by simpa using visible)]
    rfl
  have resolved : read.resolvedTags = trimmedEntries tags := by
    rw [SkillFrontmatter.resolvedTags, tagsRead]
    rfl
  obtain ⟨openingNotes, openingTags⟩ := read_opening name description
  obtain ⟨scannedTags, scannedNotes⟩ := scan_fields
    (openingLines name description ++ Str.trimmedLines listing)
    ⟨path.fileStem.getD "unnamed-skill", [], [], [], .summary⟩
  rw [List.flatMap_append, openingTags, lists.tags] at scannedTags
  rw [notes_append, openingNotes, lists.noted] at scannedNotes
  rw [document, extractStructuralSubunits, splitFrontmatter_document noFence]
  dsimp only [Option.bind_some]
  rw [parsed]
  dsimp only [Except.toOption]
  rw [BodyScan.override, text _ _ _ nameRead named, text _ _ _ descriptionRead described, resolved, scanBody,
    trimmedLines_opening, scannedTags, scannedNotes]
  simp [BodyScan.finish, described]

/-- Plain texts are read as one procedure each. -/
theorem notes_bulletLines {texts : List Str} (plain : ∀ text ∈ texts, PlainText text) :
    notes .procedure (bulletLines texts) = expectedNotes .procedure texts ∧
      (bulletLines texts).flatMap tagsOf = [] ∧
      (expectedNotes .procedure texts).map lesson = texts.map (Prod.mk .procedure) := by
  obtain ⟨tags, noted, -⟩ := bullets_expected (fun text member => (plain text member).trimEnd) .procedure
  refine ⟨noted, tags, ?_⟩
  rw [expectedNotes, trimmedEntries_tidy fun text member => ⟨(plain text member).trimmed, (plain text member).visible⟩,
    List.map_map]
  rfl

end SkillLayer.Maintenance

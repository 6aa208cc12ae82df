import SkillLayer.Domain.Types
import SkillLayer.Path

/-! The structural reader of skill files: frontmatter over a line-oriented body. -/

namespace SkillLayer.GraphBuilder

open Domain

structure ExtractedSubunit where
  kind : SubunitType
  title : Str
  content : Str
deriving DecidableEq

structure StructuralExtraction where
  skillName : Str
  description : Str
  tags : List Str
  subunits : List ExtractedSubunit
deriving DecidableEq

/-- The frontmatter fields that the reader deserialises, each optional. -/
structure SkillFrontmatter where
  name : Option Str
  description : Option Str
  tags : Option (List Str)
  suggestedTags : Option (List Str)
deriving DecidableEq

/-- The trimmed entries of a list that are not blank. -/
def trimmedEntries (entries : List Str) : List Str :=
  (entries.map Str.trim).filter fun entry => !entry.isEmpty

def SkillFrontmatter.resolvedTags (frontmatter : SkillFrontmatter) : List Str :=
  ((frontmatter.tags.or frontmatter.suggestedTags).map trimmedEntries).getD []

def splitFrontmatter (markdown : Str) : Option Str × Str :=
  match Str.stripPrefix? "---\n" markdown with
  | none => (none, markdown)
  | some afterOpen =>
    match Str.splitOnce "\n---\n" afterOpen with
    | some (frontmatter, body) => (some frontmatter, body)
    | none => (none, markdown)

/-! ### The body scan -/

/-- What the line loop has inferred so far. -/
structure BodyScan where
  skillName : Str
  description : Str
  tags : List Str
  subunits : List ExtractedSubunit
  currentKind : SubunitType
deriving DecidableEq

def tagCandidates (tagLine : Str) : List Str := trimmedEntries (Str.splitOn ',' tagLine)

def headingKind (heading : Str) : Option SubunitType :=
  if heading = "## procedures".toList then some .procedure
  else if heading = "## conventions".toList then some .convention
  else if heading = "## assets".toList then some .asset
  else if heading = "## evidence".toList then some .evidence
  else if heading = "## summary".toList then some .summary
  else none

def note (kind : SubunitType) (content : Str) : ExtractedSubunit :=
  ⟨kind, kind.debug ++ " note".toList, Str.trim content⟩

/-- The first line of prose is the inferred description. -/
def BodyScan.describe (scan : BodyScan) (trimmed : Str) : BodyScan :=
  if scan.description.isEmpty && !trimmed.isEmpty && trimmed.head? != some '#' then
    { scan with description := trimmed }
  else scan

/-- A line that is neither a title, a tag line nor a known heading. -/
def BodyScan.scanProse (scan : BodyScan) (trimmed : Str) : BodyScan :=
  let described := scan.describe trimmed
  match Str.stripPrefix? "- " trimmed with
  | some content =>
    { described with subunits := described.subunits ++ [note described.currentKind content] }
  | none => described

/-- One iteration of the line loop, on the trimmed line. -/
def BodyScan.scanLine (scan : BodyScan) (trimmed : Str) : BodyScan :=
  match Str.stripPrefix? "# " trimmed with
  | some title =>
    if (Str.trim title).isEmpty then scan else { scan with skillName := Str.trim title }
  | none =>
    match Str.stripPrefix? "tags:" trimmed with
    | some tagLine => { scan with tags := scan.tags ++ tagCandidates tagLine }
    | none =>
      match headingKind (Str.toAsciiLowercase trimmed) with
      | some kind => { scan with currentKind := kind }
      | none => scan.scanProse trimmed

def scanBody (fileStem : Str) (body : Str) : BodyScan :=
  (Str.trimmedLines body).foldl BodyScan.scanLine ⟨fileStem, [], [], [], .summary⟩

/-! ### The reader -/

/-- A frontmatter text overrides the inferred one when it is present and not blank. -/
def overrideText (field : Option Str) (inferred : Str) : Str :=
  ((field.map Str.trim).filter fun text => !text.isEmpty).getD inferred

/-- The frontmatter wins over the body wherever it says something. -/
def BodyScan.override (scan : BodyScan) (frontmatter : SkillFrontmatter) : BodyScan :=
  { scan with
    skillName := overrideText frontmatter.name scan.skillName
    description := overrideText frontmatter.description scan.description
    tags := if frontmatter.resolvedTags.isEmpty then scan.tags else frontmatter.resolvedTags }

def BodyScan.finish (scan : BodyScan) : StructuralExtraction :=
  ⟨scan.skillName,
    if scan.description.isEmpty then "No description provided" else scan.description,
    scan.tags, scan.subunits⟩

/-- The reader over a YAML parser for the frontmatter fields. -/
def extractStructuralSubunits (fromStr : Str → Except Str SkillFrontmatter) (path : Path)
    (markdown : Str) : StructuralExtraction :=
  let (frontmatterSrc, body) := splitFrontmatter markdown
  let frontmatter := frontmatterSrc.bind fun src => (fromStr src).toOption
  let scan := scanBody (path.fileStem.getD "unnamed-skill") body
  match frontmatter with
  | some frontmatter => (scan.override frontmatter).finish
  | none => scan.finish

/-! ### Completing the extraction -/

structure SkillExtraction where
  skillName : Str
  description : Str
  tags : List Str
  subunits : List ExtractedSubunit
  usedOllamaFallback : Bool
deriving DecidableEq

def dedupKey (subunit : ExtractedSubunit) : Str :=
  Str.toAsciiLowercase subunit.kind.debug ++ [':'] ++
    Str.toAsciiLowercase (Str.trim subunit.title) ++ [':'] ++
    Str.toAsciiLowercase (Str.trim subunit.content)

/-- Keep the first subunit of each key. -/
def deduplicateSubunits (subunits : List ExtractedSubunit) : List ExtractedSubunit :=
  (subunits.foldl
    (fun (seen, unique) subunit =>
      if dedupKey subunit ∈ seen then (seen, unique)
      else (dedupKey subunit :: seen, unique ++ [subunit]))
    (([], []) : List Str × List ExtractedSubunit)).2

/-- The calls of the reader that leave the program: YAML and the fallback provider. -/
structure SkillReader where
  fromStr : Str → Except Str SkillFrontmatter
  fallbackExtractor : Str → List ExtractedSubunit

def extractSkill (reader : SkillReader) (path : Path) (markdown : Str) : SkillExtraction :=
  let structural := extractStructuralSubunits reader.fromStr path markdown
  let thin := structural.subunits.length < 2
  let subunits :=
    if thin then structural.subunits ++ reader.fallbackExtractor markdown else structural.subunits
  ⟨structural.skillName, structural.description, structural.tags, deduplicateSubunits subunits, thin⟩

/-! ### What one line contributes -/

def tagsOf (trimmed : Str) : List Str := ((Str.stripPrefix? "tags:" trimmed).map tagCandidates).getD []

def bulletOf (trimmed : Str) : Option Str := Str.stripPrefix? "- " trimmed

def kindAfter (kind : SubunitType) (trimmed : Str) : SubunitType :=
  (headingKind (Str.toAsciiLowercase trimmed)).getD kind

theorem headingKind_eq_none {c second : Char} {rest : Str} (notHeading : c ≠ '#' ∨ second ≠ '#') :
    headingKind (c :: second :: rest) = none := by
  unfold headingKind
  rcases notHeading with first | second <;> simp [*]

theorem headingKind_singleton (c : Char) : headingKind [c] = none := by
  simp [headingKind]

theorem stripPrefix?_eq_none_of_head {c head : Char} {pattern rest : Str} (differs : c ≠ head) :
    Str.stripPrefix? (c :: pattern) (head :: rest) = none := by
  simp [Str.stripPrefix?, differs]

theorem describe_fields (scan : BodyScan) (trimmed : Str) :
    (scan.describe trimmed).tags = scan.tags ∧
      (scan.describe trimmed).currentKind = scan.currentKind ∧
      (scan.describe trimmed).subunits = scan.subunits := by
  unfold BodyScan.describe
  split <;> exact ⟨rfl, rfl, rfl⟩

theorem scanProse_fields (scan : BodyScan) (trimmed : Str) :
    (scan.scanProse trimmed).tags = scan.tags ∧
      (scan.scanProse trimmed).currentKind = scan.currentKind ∧
      (scan.scanProse trimmed).subunits =
        scan.subunits ++ (bulletOf trimmed).toList.map (note scan.currentKind) := by
  obtain ⟨tags, kind, subunits⟩ := describe_fields scan trimmed
  unfold BodyScan.scanProse bulletOf
  cases Str.stripPrefix? "- " trimmed with
  | none => exact ⟨tags, kind, by simpa using subunits⟩
  | some content => exact ⟨tags, kind, by simp only [kind, subunits]; rfl⟩

/-- The four shapes that the reader tells apart exclude each other, so one line
adds its own tags, notes and kind whatever was read before. -/
theorem scanLine_fields (scan : BodyScan) (trimmed : Str) :
    (scan.scanLine trimmed).tags = scan.tags ++ tagsOf trimmed ∧
      (scan.scanLine trimmed).currentKind = kindAfter scan.currentKind trimmed ∧
      (scan.scanLine trimmed).subunits =
        scan.subunits ++ (bulletOf trimmed).toList.map (note scan.currentKind) := by
  unfold BodyScan.scanLine
  cases title : Str.stripPrefix? "# " trimmed with
  | some rest =>
    obtain rfl := Str.eq_append_of_stripPrefix? title
    have noTagLine : Str.stripPrefix? "tags:" ("# ".toList ++ rest) = none :=
      stripPrefix?_eq_none_of_head (by decide)
    have noTags : tagsOf ("# ".toList ++ rest) = [] := by
      rw [tagsOf, noTagLine]
      rfl
    have noBullet : bulletOf ("# ".toList ++ rest) = none :=
      stripPrefix?_eq_none_of_head (by decide)
    have noHeading : headingKind (Str.toAsciiLowercase ("# ".toList ++ rest)) = none :=
      headingKind_eq_none (.inr (by decide))
    rw [noTags, noBullet, kindAfter, noHeading]
    dsimp only
    split <;> simp
  | none =>
    cases tagLine : Str.stripPrefix? "tags:" trimmed with
    | some rest =>
      obtain rfl := Str.eq_append_of_stripPrefix? tagLine
      have noBullet : bulletOf ("tags:".toList ++ rest) = none :=
        stripPrefix?_eq_none_of_head (by decide)
      have noHeading : headingKind (Str.toAsciiLowercase ("tags:".toList ++ rest)) = none :=
        headingKind_eq_none (.inl (by decide))
      rw [tagsOf, tagLine, noBullet, kindAfter, noHeading]
      simp
    | none =>
      cases heading : headingKind (Str.toAsciiLowercase trimmed) with
      | some kind =>
        have noBullet : bulletOf trimmed = none := by
          cases bullet : bulletOf trimmed with
          | none => rfl
          | some rest =>
            obtain rfl := Str.eq_append_of_stripPrefix? bullet
            have noHeading : headingKind (Str.toAsciiLowercase ("- ".toList ++ rest)) = none :=
              headingKind_eq_none (.inl (by decide))
            rw [noHeading] at heading
            cases heading
        rw [tagsOf, tagLine, noBullet, kindAfter, heading]
        simp
      | none =>
        obtain ⟨tags, kind, subunits⟩ := scanProse_fields scan trimmed
        rw [tagsOf, tagLine, kindAfter, heading]
        exact ⟨by simpa using tags, kind, subunits⟩

/-- The notes of a list of lines read from a given kind on. -/
def notes : SubunitType → List Str → List ExtractedSubunit
  | _, [] => []
  | kind, trimmed :: rest =>
    (bulletOf trimmed).toList.map (note kind) ++ notes (kindAfter kind trimmed) rest

theorem notes_append (kind : SubunitType) (lines others : List Str) :
    notes kind (lines ++ others) = notes kind lines ++ notes (lines.foldl kindAfter kind) others := by
  induction lines generalizing kind with
  | nil => rfl
  | cons line rest ih => simp [notes, ih]

/-- A note is what some line has after its bullet. -/
theorem exists_bullet_of_mem_notes {kind : SubunitType} {lines : List Str} {subunit : ExtractedSubunit}
    (member : subunit ∈ notes kind lines) :
    ∃ line ∈ lines, ∃ content, bulletOf line = some content ∧ ∃ its, subunit = note its content := by
  induction lines generalizing kind with
  | nil => cases member
  | cons line rest ih =>
    rcases List.mem_append.mp member with here | later
    · obtain ⟨content, found, rfl⟩ := List.mem_map.mp here
      exact ⟨line, List.mem_cons_self, content, by simpa using found, kind, rfl⟩
    · obtain ⟨other, inRest, bullet⟩ := ih later
      exact ⟨other, List.mem_cons_of_mem _ inRest, bullet⟩

/-- The whole scan: tags accumulate and every bullet becomes a note of its kind. -/
theorem scan_fields (lines : List Str) (scan : BodyScan) :
    (lines.foldl BodyScan.scanLine scan).tags = scan.tags ++ lines.flatMap tagsOf ∧
      (lines.foldl BodyScan.scanLine scan).subunits =
        scan.subunits ++ notes scan.currentKind lines := by
  induction lines generalizing scan with
  | nil => simp [notes]
  | cons line rest ih =>
    obtain ⟨tags, kind, subunits⟩ := scanLine_fields scan line
    obtain ⟨laterTags, laterSubunits⟩ := ih (scan.scanLine line)
    rw [List.foldl_cons, laterTags, laterSubunits, tags, kind, subunits]
    simp [notes]

end SkillLayer.GraphBuilder

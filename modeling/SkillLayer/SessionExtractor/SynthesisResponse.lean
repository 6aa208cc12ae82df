import SkillLayer.SessionExtractor.RoundTrip

/-! The candidates that a synthesis response adds, and which of them teach something once
their draft is read back. -/

namespace SkillLayer.SessionExtractor

open Domain GraphBuilder

inductive SynthesisError where
  | providerFailure (message : Str)
  | parseFailure (message : Str)
deriving DecidableEq

/-- A parsed candidate, missing lists read as empty ones. -/
structure SynthesisCandidate where
  name : Str
  description : Str
  tags : List Str
  procedures : List Str
  conventions : List Str
  assets : List Str
  generality : Option Str
  generalityRationale : Option Str

structure SynthesisResponse where
  candidates : List SynthesisCandidate

namespace SynthesisCandidate

def hasUsablePayload (c : SynthesisCandidate) : Bool :=
  !c.procedures.isEmpty || !c.conventions.isEmpty || !c.assets.isEmpty

/-- What is wrong with a candidate. -/
def broken? (rawJson : Str) (c : SynthesisCandidate) : Option SynthesisError :=
  let name := Str.trim c.name
  if name.isEmpty then
    some (.parseFailure ("synthesis candidate has an empty name — no content-free skill may reach ".toList ++
        ".pending; raw body: ".toList ++ rawJson))
  else if !c.hasUsablePayload then
    some (.parseFailure ("synthesis candidate '".toList ++ name ++ "' has no usable payload ".toList ++
        "(procedures, conventions, and assets are all empty) — no content-free skill may reach ".toList ++
        ".pending; raw body: ".toList ++ rawJson))
  else none

def toExtracted (c : SynthesisCandidate) : ExtractedSkillCandidate where
  name := Str.trim c.name
  description := Str.trim c.description
  tags := c.tags
  procedures := c.procedures
  conventions := c.conventions
  assets := c.assets
  generality := c.generality
  generalityRationale := c.generalityRationale

end SynthesisCandidate

/-- One broken candidate fails the whole batch. -/
def parseSynthesisResponse (fromStr : Str → Except Str SynthesisResponse) (rawJson : Str) :
    Except SynthesisError (List ExtractedSkillCandidate) :=
  match fromStr rawJson with
  | .error error => .error (.parseFailure
      ("synthesis response was not valid JSON \x7bcandidates:[...]\x7d: ".toList ++ error))
  | .ok parsed =>
    match parsed.candidates.findSome? (SynthesisCandidate.broken? rawJson) with
    | some error => .error error
    | none => .ok (parsed.candidates.map SynthesisCandidate.toExtracted)

/-! ### What the reader finds in a draft -/

/-- The draft read back has a subunit that says something. -/
def Teaches (extraction : StructuralExtraction) : Prop :=
  ∃ subunit ∈ extraction.subunits, Str.isBlank subunit.content = false

instance (extraction : StructuralExtraction) : Decidable (Teaches extraction) :=
  inferInstanceAs (Decidable (∃ subunit ∈ extraction.subunits, _))

def firstLine (entry : Str) : Str := (Str.splitOn '\n' entry).headD []

def laterLines (entry : Str) : List Str := (Str.splitOn '\n' entry).tail

/-- Every entry starts with a blank line, and no other line of the candidate's texts is a
bullet of its own. -/
structure Hollow (candidate : ExtractedSkillCandidate) : Prop where
  blankEntries : ∀ entry ∈ entries candidate, Str.isBlank (firstLine entry) = true
  noBullet : ∀ line ∈ freeLines candidate ++ (entries candidate).flatMap laterLines,
    bulletOf (Str.trim line) = none

/-- A trimmed bullet line says something. -/
theorem bullet_visible {line content : Str} (trimmed : Str.trim line = line)
    (bullet : bulletOf line = some content) : Str.isBlank content = false := by
  obtain rfl := Str.eq_append_of_stripPrefix? bullet
  have shape := trim_marked (show Str.isWhitespace '-' = false by decide) content
  by_contra blank
  rw [if_pos (by simpa using blank)] at shape
  have lengths := congrArg List.length (trimmed.symm.trans shape)
  simp at lengths

theorem notes_visible {lines : List Str} (trimmed : ∀ line ∈ lines, Str.trim line = line)
    (kind : SubunitType) : ∀ subunit ∈ notes kind lines, Str.isBlank subunit.content = false := by
  intro subunit member
  obtain ⟨line, inLines, content, bullet, its, rfl⟩ := exists_bullet_of_mem_notes member
  rw [note, Str.isBlank_trim]
  exact bullet_visible (trimmed line inLines) bullet

theorem bodyLines_trimmed (candidate : ExtractedSkillCandidate) :
    ∀ line ∈ bodyLines candidate, Str.trim line = line := by
  rw [← show _ = bodyLines candidate from trimmedLines_draftBody candidate]
  exact fun line member => Str.trim_of_mem_trimmedLines member

/-- The bullet of an entry is one exactly when its first line says something. -/
theorem entry_silent (entry : Str) :
    (∀ line ∈ (Str.splitOn '\n' ("- ".toList ++ entry)).map Str.trim, bulletOf line = none) ↔
      Str.isBlank (firstLine entry) = true ∧
        ∀ line ∈ laterLines entry, bulletOf (Str.trim line) = none := by
  obtain ⟨first, rest, pieces⟩ := Str.exists_splitOn '\n' entry
  have marked : Str.splitOn '\n' ("- ".toList ++ entry) = ('-' :: ' ' :: first) :: rest :=
    splitOn_marked (by decide) pieces
  have bullet : bulletOf (Str.trim ('-' :: ' ' :: first)) = none ↔ Str.isBlank first = true := by
    rw [trim_marked (by decide)]
    split
    · rename_i blank
      exact iff_of_true (by decide) blank
    · rename_i visible
      have found : bulletOf ('-' :: ' ' :: Str.trimEnd first) = some (Str.trimEnd first) :=
        Str.stripPrefix?_append "- ".toList (Str.trimEnd first)
      simp [found, visible]
  rw [marked, List.map_cons, List.forall_mem_cons, bullet, firstLine, laterLines, pieces]
  simp

theorem section_silent (heading : Str)
    (headed : (Str.splitOn '\n' ("## ".toList ++ heading)).map Str.trim = ["## ".toList ++ heading])
    (plain : bulletOf ("## ".toList ++ heading) = none) (lines : List Str) :
    (∀ line ∈ sectionLines heading lines, bulletOf line = none) ↔
      ∀ entry ∈ lines, Str.isBlank (firstLine entry) = true ∧
        ∀ line ∈ laterLines entry, bulletOf (Str.trim line) = none := by
  have blank : bulletOf [] = none := (blank_silent .summary).2.1
  unfold sectionLines
  split
  · rename_i empty
    rw [List.isEmpty_iff.mp empty]
    simp
  · simp only [headed, List.forall_mem_append, List.forall_mem_singleton, plain, blank, true_and,
      and_true, List.forall_mem_flatMap, entry_silent]

/-- The reader finds nothing in the body exactly when the candidate is hollow. -/
theorem notes_bodyLines_eq_nil (candidate : ExtractedSkillCandidate) :
    notes .summary (bodyLines candidate) = [] ↔ Hollow candidate := by
  have intro := forall_introLines (fun line => bulletOf line = none)
    (blank_silent .summary).2.1 (fun text => (title_silent text .summary).2.1) candidate
  rw [notes_eq_nil]
  simp only [bodyLines, List.forall_mem_append, intro,
    section_silent "Procedures" (by decide) (by decide),
    section_silent "Conventions" (by decide) (by decide),
    section_silent "Assets" (by decide) (by decide)]
  constructor
  · intro silent
    obtain ⟨free, procedures, conventions, assets⟩ := silent
    have whole (entry : Str) (member : entry ∈ entries candidate) :
        Str.isBlank (firstLine entry) = true ∧
          ∀ line ∈ laterLines entry, bulletOf (Str.trim line) = none := by
      simp only [entries, List.mem_append] at member
      rcases member with (procedure | convention) | asset
      · exact procedures entry procedure
      · exact conventions entry convention
      · exact assets entry asset
    refine ⟨fun entry member => (whole entry member).1, fun line member => ?_⟩
    rcases List.mem_append.mp member with inFree | inEntry
    · exact free line inFree
    · obtain ⟨entry, inEntries, found⟩ := List.mem_flatMap.mp inEntry
      exact (whole entry inEntries).2 line found
  · intro hollow
    have whole (entry : Str) (member : entry ∈ entries candidate) :
        Str.isBlank (firstLine entry) = true ∧
          ∀ line ∈ laterLines entry, bulletOf (Str.trim line) = none :=
      ⟨hollow.blankEntries entry member, fun line found => hollow.noBullet line
        (List.mem_append_right _ (List.mem_flatMap.mpr ⟨entry, member, found⟩))⟩
    refine ⟨fun line member => hollow.noBullet line (List.mem_append_left _ member), ?_, ?_, ?_⟩
    · exact fun entry member => whole entry (by simp [entries, member])
    · exact fun entry member => whole entry (by simp [entries, member])
    · exact fun entry member => whole entry (by simp [entries, member])

/-- The subunits read from a rendered draft are the bullets of its body. -/
theorem rendered_subunits {format : DraftFormat} (fromStr : Str → Except Str SkillFrontmatter)
    (noFence : ∀ frontmatter yaml, serializeFrontmatter format frontmatter = .ok yaml →
      "---".toList ∉ Str.splitOn '\n' yaml)
    {createdAt : Timestamp} {candidate : ExtractedSkillCandidate} {sourceSessionId providerName : Str}
    (path : Path) {markdown : Str}
    (rendered : renderPendingMarkdown format createdAt candidate sourceSessionId providerName =
      .ok markdown) :
    (extractStructuralSubunits fromStr path markdown).subunits =
      notes .summary (bodyLines candidate) := by
  unfold renderPendingMarkdown at rendered
  cases serialized : serializeFrontmatter format
      (draftFrontmatter format createdAt candidate sourceSessionId providerName) with
  | error error => simp [serialized, bind, Except.bind] at rendered
  | ok yaml =>
    simp only [serialized, bind, Except.bind, pure, Except.pure, Except.ok.injEq] at rendered
    have scanned := (scan_fields (bodyLines candidate)
      ⟨path.fileStem.getD "unnamed-skill", [], [], [], .summary⟩).2
    rw [extractStructuralSubunits, ← rendered, splitFrontmatter_document (noFence _ _ serialized)]
    dsimp only
    split <;>
      · simp only [BodyScan.finish, BodyScan.override, scanBody, trimmedLines_draftBody]
        exact scanned

/-- A candidate that the response parser accepts teaches something once its draft is read back,
exactly when it is not hollow. -/
theorem synthesized_teaches_iff (fromJson : Str → Except Str SynthesisResponse) (rawJson : Str)
    (candidates : List ExtractedSkillCandidate)
    (_ : parseSynthesisResponse fromJson rawJson = .ok candidates)
    (candidate : ExtractedSkillCandidate) (_ : candidate ∈ candidates) (format : DraftFormat)
    (fromStr : Str → Except Str SkillFrontmatter)
    (noFence : ∀ frontmatter yaml, serializeFrontmatter format frontmatter = .ok yaml →
      "---".toList ∉ Str.splitOn '\n' yaml)
    (createdAt : Timestamp) (sourceSessionId providerName : Str) (path : Path) (markdown : Str)
    (rendered : renderPendingMarkdown format createdAt candidate sourceSessionId providerName =
      .ok markdown) :
    Teaches (extractStructuralSubunits fromStr path markdown) ↔ ¬ Hollow candidate := by
  have visible := notes_visible (bodyLines_trimmed candidate) .summary
  rw [Teaches, rendered_subunits fromStr noFence path rendered, ← notes_bodyLines_eq_nil]
  constructor
  · intro ⟨subunit, member, _⟩ empty
    rw [empty] at member
    cases member
  · intro nonempty
    obtain ⟨subunit, rest, found⟩ := List.exists_cons_of_ne_nil nonempty
    exact ⟨subunit, found ▸ List.mem_cons_self, visible subunit (found ▸ List.mem_cons_self)⟩

/-! ### Two responses -/

/-- A response with one candidate, whose procedures are given. -/
def buildResponse (procedures : List Str) (_ : Str) : Except Str SynthesisResponse :=
  .ok ⟨[⟨"Cache builds", "Keep it.", ["ci"], procedures, [], [], none, none⟩]⟩

def hollowCandidate : ExtractedSkillCandidate :=
  { buildCandidate "Keep it." with procedures := ["  "] }

def hollowDraft : Str :=
  "---\n".toList ++ buildYaml "Keep it." ++ "---\n\n# Cache builds\n\nKeep it.\n\n".toList ++
    "## Procedures\n-   \n\n".toList

/-- A blank procedure passes for a payload, and its draft has no subunit at all. -/
theorem blankProcedure_teachesNothing :
    LawfulFrontmatter (epochFormat (buildFrontmatter "Keep it.") (buildYaml "Keep it."))
        (readFrontmatter (buildFrontmatter "Keep it.") (buildYaml "Keep it.")) ∧
      parseSynthesisResponse (buildResponse ["  "]) [] = .ok [hollowCandidate] ∧
      renderPendingMarkdown (epochFormat (buildFrontmatter "Keep it.") (buildYaml "Keep it.")) 0
        hollowCandidate "s1" "ollama" = .ok hollowDraft ∧
      (extractStructuralSubunits (readFrontmatter (buildFrontmatter "Keep it.") (buildYaml "Keep it."))
        ["SKILL.md"] hollowDraft).subunits = [] := by
  refine ⟨lawful_epochFormat _ _ ?_ ?_, ?_, ?_, ?_⟩ <;> decide +kernel

theorem synthesized_teaches_iff_oneProcedure :
    Teaches (extractStructuralSubunits
      (readFrontmatter (buildFrontmatter "Keep it.") (buildYaml "Keep it.")) ["SKILL.md"]
      (buildDraft "Keep it." (buildYaml "Keep it."))) := by
  have lawful := lawful_epochFormat (buildFrontmatter "Keep it.")
    (buildYaml "Keep it.") (by decide +kernel) (by decide +kernel)
  refine (synthesized_teaches_iff (buildResponse ["Reuse the cache"]) [] [buildCandidate "Keep it."]
    (by decide +kernel) _ List.mem_cons_self _ _ lawful.noFence 0 "s1" "ollama" _ _
    (by decide +kernel)).mpr ?_
  intro hollow
  have blank := hollow.blankEntries "Reuse the cache" (by decide +kernel)
  exact absurd blank (by decide +kernel)

end SkillLayer.SessionExtractor

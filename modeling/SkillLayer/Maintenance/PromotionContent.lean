import SkillLayer.GraphBuilder.DurableState
import SkillLayer.Maintenance.ProposalReading
import SkillLayer.Maintenance.Recurrence

/-! What a promotion draft keeps of the skill that it proposes, on the intrinsic and on the
recurrence path. -/

namespace SkillLayer.Maintenance

open Domain GraphBuilder
open Infrastructure hiding Timestamp
open SessionExtractor (expectedNotes firstLine unterminated)

/-! ### Distinct subunits -/

/-- The subunits whose keys are new. -/
def distinctFrom (seen : List Str) : List ExtractedSubunit → List ExtractedSubunit
  | [] => []
  | subunit :: rest =>
    if dedupKey subunit ∈ seen then distinctFrom seen rest
    else subunit :: distinctFrom (dedupKey subunit :: seen) rest

theorem deduplicate_fold (seen : List Str) (unique subunits : List ExtractedSubunit) :
    (subunits.foldl (fun (seen, unique) subunit =>
      if dedupKey subunit ∈ seen then (seen, unique) else (dedupKey subunit :: seen, unique ++ [subunit]))
      (seen, unique)).2 = unique ++ distinctFrom seen subunits := by
  induction subunits generalizing seen unique with
  | nil => simp [distinctFrom]
  | cons subunit rest ih =>
    rw [List.foldl_cons, distinctFrom]
    by_cases known : dedupKey subunit ∈ seen
    · simp only [known, if_true]
      exact ih seen unique
    · simp only [known, if_false]
      rw [ih, List.append_assoc]
      rfl

theorem deduplicate_eq (subunits : List ExtractedSubunit) :
    deduplicateSubunits subunits = distinctFrom [] subunits :=
  deduplicate_fold [] [] subunits

theorem distinctFrom_sublist (seen : List Str) (subunits : List ExtractedSubunit) :
    (distinctFrom seen subunits).Sublist subunits := by
  induction subunits generalizing seen with
  | nil => exact List.Sublist.slnil
  | cons subunit rest ih =>
    rw [distinctFrom]
    split
    · exact (ih seen).cons subunit
    · exact (ih _).cons_cons subunit

/-- Nothing is dropped exactly when the keys are new and distinct. -/
theorem length_distinctFrom (seen : List Str) (subunits : List ExtractedSubunit) :
    (distinctFrom seen subunits).length = subunits.length ↔
      (subunits.map dedupKey).Nodup ∧ ∀ subunit ∈ subunits, dedupKey subunit ∉ seen := by
  induction subunits generalizing seen with
  | nil => simp [distinctFrom]
  | cons subunit rest ih =>
    have shorter := (distinctFrom_sublist seen rest).length_le
    rw [distinctFrom]
    by_cases known : dedupKey subunit ∈ seen
    · rw [if_pos known, List.length_cons]
      constructor
      · intro same
        omega
      · intro ⟨_, fresh⟩
        exact absurd known (fresh subunit List.mem_cons_self)
    · rw [if_neg known, List.length_cons, List.length_cons, Nat.add_right_cancel_iff, ih]
      rw [List.map_cons, List.nodup_cons, List.forall_mem_cons]
      constructor
      · intro ⟨distinct, fresh⟩
        refine ⟨⟨?_, distinct⟩, known, fun other inRest seenBefore => ?_⟩
        · intro repeated
          obtain ⟨other, inRest, same⟩ := List.mem_map.mp repeated
          exact fresh other inRest (same ▸ List.mem_cons_self)
        · exact fresh other inRest (List.mem_cons_of_mem _ seenBefore)
      · intro ⟨⟨apart, distinct⟩, _, fresh⟩
        refine ⟨distinct, fun other inRest seenBefore => ?_⟩
        rcases List.mem_cons.mp seenBefore with same | before
        · exact apart (same ▸ List.mem_map_of_mem inRest)
        · exact fresh other inRest before

/-! ### The bullets of arbitrary texts -/

/-- Every text whose first line says something gives a note at least. -/
theorem length_notes_bulletLines (kind : SubunitType) (texts : List Str) :
    (texts.filter fun text => !Str.isBlank (firstLine text)).length ≤ (notes kind (bulletLines texts)).length := by
  induction texts generalizing kind with
  | nil => exact Nat.le_refl 0
  | cons text rest ih =>
    have lines : bulletLines (text :: rest) =
        (Str.splitOn '\n' ("- ".toList ++ text)).map Str.trim ++ bulletLines rest := List.flatMap_cons
    rw [lines, notes_append, List.length_append]
    have later := ih (List.foldl kindAfter kind ((Str.splitOn '\n' ("- ".toList ++ text)).map Str.trim))
    by_cases blank : Str.isBlank (firstLine text) = true
    · rw [List.filter_cons_of_neg (by simp [blank])]
      omega
    · rw [List.filter_cons_of_pos (by simp [blank]), List.length_cons]
      have here : notes kind ((Str.splitOn '\n' ("- ".toList ++ text)).map Str.trim) ≠ [] := by
        rw [ne_eq, SessionExtractor.notes_eq_nil, SessionExtractor.entry_silent]
        exact fun silent => blank silent.1
      have positive := List.length_pos_iff.mpr here
      omega

theorem firstLine_visible {text : Str} (trimmed : Str.trim text = text) (nonempty : text ≠ []) :
    Str.isBlank (firstLine text) = false := by
  obtain ⟨c, rest, rfl⟩ := List.exists_cons_of_ne_nil nonempty
  have visible : Str.isWhitespace c = false := by
    by_contra blank
    rw [Bool.not_eq_false] at blank
    rw [Str.trim_cons_whitespace blank] at trimmed
    have shorter : (Str.trim rest).length ≤ rest.length :=
      (List.rdropWhile_prefix _ _).length_le.trans (List.dropWhile_suffix _).length_le
    rw [trimmed, List.length_cons] at shorter
    omega
  obtain ⟨first, later, pieces⟩ := Str.exists_splitOn '\n' rest
  have apart : c ≠ '\n' := by
    rintro rfl
    cases visible
  rw [firstLine, Str.splitOn_cons_of_ne apart, pieces, Str.consHead, List.headD_cons, Str.isBlank, List.all_cons,
    visible, Bool.false_and]

/-! ### The draft of a promotion -/

section Drafts

variable {F : Type} {services : ScopeServices F} {faults : HostFaults F} {runner : PromotionPassRunner F}
  {now : Timestamp}

theorem leads_proposePromotion (snapshot : SkillSnapshot) (evidence : PromotionEvidence) (before : Workspace F) :
    Leads (proposePromotion services faults runner now snapshot evidence) before
      (LeavesFile PromotionProposal.pendingPath fun markdown =>
        renderPromotionMarkdown services snapshot evidence now = .ok markdown) := by
  rw [proposePromotion, leads_reportAs, writePromotionProposal, leads_bind]
  apply (leads_placeProposal_content _ _ _ _ _ _ _ _ before).mono
  intro result after written
  cases result with
  | error error =>
    intro _ impossible
    cases impossible
  | ok pendingPath =>
    intro proposal same
    cases same
    exact written pendingPath rfl

/-- What a proposed skill leaves on disk. -/
def Drafted (services : ScopeServices F) (snapshot : SkillSnapshot) (evidence : PromotionEvidence) (now : Timestamp)
    (fs : Fs) (proposal : PromotionProposal) : Prop :=
  ∃ markdown, renderPromotionMarkdown services snapshot evidence now = .ok markdown ∧
    fs.node proposal.pendingPath = some (.file markdown)

theorem drafted_of_proposed {snapshot : SkillSnapshot} {evidence : PromotionEvidence} {before after : Workspace F}
    {proposals : List PromotionProposal}
    (ran : (do return [← proposePromotion services faults runner now snapshot evidence] :
      EStateM CronError (Workspace F) (List PromotionProposal)) before = .ok proposals after) :
    ∀ proposal ∈ proposals, Drafted services snapshot evidence now after.fs proposal := by
  have leads : Leads (do return [← proposePromotion services faults runner now snapshot evidence] :
      EStateM CronError (Workspace F) (List PromotionProposal)) before fun result after =>
        ∀ proposals, result = .ok proposals → ∀ proposal ∈ proposals,
          Drafted services snapshot evidence now after.fs proposal := by
    rw [leads_bind]
    apply (leads_proposePromotion snapshot evidence before).mono
    intro result after written
    cases result with
    | error error => exact fun _ impossible => nomatch impossible
    | ok proposal =>
      intro proposals same other member
      cases same
      rw [List.mem_singleton.mp member]
      exact written proposal rfl
  exact leads.of_ok ran proposals rfl

theorem drafted_of_evaluateSnapshot {snapshot : SkillSnapshot} {before after : Workspace F}
    {proposals : List PromotionProposal}
    (ran : evaluateSnapshot services faults runner now snapshot before = .ok proposals after) :
    ∀ proposal ∈ proposals, Drafted services snapshot .intrinsic now after.fs proposal := by
  unfold evaluateSnapshot at ran
  cases gate : passesIntrinsicGate services runner snapshot with
  | error error =>
    rw [gate] at ran
    cases ran
  | ok passed =>
    rw [gate] at ran
    cases passed with
    | false =>
      cases ran
      simp
    | true => exact drafted_of_proposed ran

theorem drafted_of_proposeCluster {representative : ProjectSkillRow} {others : List ProjectSkillRow}
    {before after : Workspace F} {proposals : List PromotionProposal}
    (ran : proposeCluster services faults runner now (representative :: others) before = .ok proposals after) :
    ∃ projectCount, ∀ proposal ∈ proposals,
      Drafted services (projectSkillRowToSnapshot representative) (.recurrence projectCount) now after.fs proposal := by
  unfold proposeCluster at ran
  dsimp only at ran
  split at ran
  · cases ran
    exact ⟨0, by simp⟩
  · exact ⟨_, drafted_of_proposed ran⟩

end Drafts

/-! ### What a draft keeps -/

/-- Two readings agree in name, description and set of tags, and list the same kinds and texts. -/
structure Preserves (draft source : StructuralExtraction) : Prop where
  name : draft.skillName = source.skillName
  description : draft.description = source.description
  tags : ∀ tag, tag ∈ draft.tags ↔ tag ∈ source.tags
  subunits : draft.subunits.map lesson = source.subunits.map lesson

/-- The proposal's file reads like the source. -/
def DraftPreserves (fromStr : Str → Except Str SkillFrontmatter) (fs : Fs) (proposal : PromotionProposal)
    (source : StructuralExtraction) : Prop :=
  ∃ markdown, fs.node proposal.pendingPath = some (.file markdown) ∧
    Preserves (extractStructuralSubunits fromStr proposal.pendingPath markdown) source

/-- A skill without tags has no tag line in its name and description. -/
def NoStrayTags (source : StructuralExtraction) : Prop :=
  source.tags = [] → proseTags source.skillName source.description = []

/-- The skills that the intrinsic path keeps whole: several subunits, namely the list items of the
prose and, as procedures, the distinct texts of all subunits. -/
structure WholeOnIntrinsic (source : StructuralExtraction) : Prop where
  several : 2 ≤ source.subunits.length
  listed : source.subunits.map lesson = (proseItems source.skillName source.description).map lesson ++
    (deduplicateSubunits source.subunits).map fun subunit => (.procedure, subunit.content)
  untagged : NoStrayTags source

/-- The skills that the recurrence path keeps whole: no subunits but the list items of the prose. -/
structure WholeOnRecurrence (source : StructuralExtraction) : Prop where
  listed : source.subunits.map lesson = (proseItems source.skillName source.description).map lesson
  untagged : NoStrayTags source

theorem mem_sorted {texts : List Str} {text : Str} : text ∈ Str.sorted texts ↔ text ∈ texts :=
  (List.perm_insertionSort _ texts).mem_iff

theorem sorted_eq_nil {texts : List Str} : Str.sorted texts = [] ↔ texts = [] := by
  rw [← List.length_eq_zero_iff, ← List.length_eq_zero_iff, Str.sorted, List.length_insertionSort]

section Reading

variable {F : Type} {services : ScopeServices F} {fromStr : Str → Except Str SkillFrontmatter}

theorem preserves_rendered
    (lawful : ∀ frontmatter serialized, services.promotionYaml frontmatter = .ok serialized →
      ReadsBack fromStr serialized frontmatter.name frontmatter.description frontmatter.tags)
    {source : StructuralExtraction} (tidy : TidyExtraction source) {snapshot : SkillSnapshot}
    (named : snapshot.name = source.skillName) (described : snapshot.description = source.description)
    (tagged : snapshot.tags = source.tags) {evidence : PromotionEvidence} {now : Timestamp} {markdown : Str}
    (rendered : renderPromotionMarkdown services snapshot evidence now = .ok markdown) (path : Path) :
    Preserves (extractStructuralSubunits fromStr path markdown) source ↔
      (source.tags = [] → proseTags source.skillName source.description ++
        (bulletLines snapshot.subunits).flatMap tagsOf = []) ∧
      (proseItems source.skillName source.description).map lesson ++
        (notes .procedure (bulletLines snapshot.subunits)).map lesson = source.subunits.map lesson := by
  unfold renderPromotionMarkdown at rendered
  cases serialized : services.promotionYaml (promotionFrontmatter services snapshot evidence now) with
  | error error => simp [serialized] at rendered
  | ok yaml =>
  simp only [serialized, Except.ok.injEq] at rendered
  have readsBack := lawful _ _ serialized
  dsimp only [promotionFrontmatter] at readsBack
  rw [named, described, tagged] at readsBack
  have lists : Lists (if snapshot.subunits.isEmpty then []
      else "## Procedures\n".toList ++ snapshot.subunits.flatMap fun subunit => "- ".toList ++ subunit ++ ['\n'])
      snapshot.subunits := by
    split
    · rename_i empty
      rw [List.isEmpty_iff.mp empty]
      exact ⟨rfl, fun _ => rfl⟩
    · exact lists_procedures snapshot.subunits
  have tidyTags : trimmedEntries (Str.sorted source.tags) = Str.sorted source.tags :=
    trimmedEntries_tidy fun tag member => tidy.tags tag (mem_sorted.mp member)
  rw [← rendered, named, described, extract_proposal readsBack path (by rw [tidy.name.1]; exact tidy.name.2)
    (by rw [tidy.description.1]; exact tidy.description.2) lists, tidyTags, tidy.name.1, tidy.description.1]
  have sameTags : (∀ tag, tag ∈ (if Str.sorted source.tags = [] then proseTags source.skillName source.description ++
        (bulletLines snapshot.subunits).flatMap tagsOf else Str.sorted source.tags) ↔ tag ∈ source.tags) ↔
      (source.tags = [] → proseTags source.skillName source.description ++
        (bulletLines snapshot.subunits).flatMap tagsOf = []) := by
    by_cases untagged : source.tags = []
    · rw [if_pos (sorted_eq_nil.mpr untagged), untagged]
      constructor
      · intro same _
        exact List.eq_nil_iff_forall_not_mem.mpr fun tag member => List.not_mem_nil ((same tag).mp member)
      · intro nothing tag
        rw [nothing rfl]
    · rw [if_neg (mt sorted_eq_nil.mp untagged)]
      exact iff_of_true (fun tag => mem_sorted) fun empty => absurd empty untagged
  rw [← sameTags, ← List.map_append]
  constructor
  · intro preserved
    exact ⟨preserved.tags, preserved.subunits⟩
  · intro ⟨tags, subunits⟩
    exact ⟨rfl, rfl, tags, subunits⟩

end Reading

/-! ### The two paths -/

/-- The fallback provider opens with a summary that says something. -/
def SummaryFirst (fallbackExtractor : Str → List ExtractedSubunit) : Prop :=
  ∀ markdown, ∃ content rest,
    fallbackExtractor markdown = ⟨.summary, "Fallback summary", content⟩ :: rest ∧
      Str.trim content = content ∧ content ≠ []

def firstExtractableLine (markdown : Str) : Str :=
  ((Str.trimmedLines markdown).find? fun line => !line.isEmpty && line.head? != some '#').getD
    "No extractable content"

/-- What the fallback yields without its provider. -/
def explicitUnavailableSubunits (error markdown : Str) : List ExtractedSubunit :=
  [⟨.summary, "Fallback summary", firstExtractableLine markdown⟩,
    ⟨.evidence, "Fallback provider unavailable", "Ollama fallback unavailable: " ++ error⟩]

theorem summaryFirst_unavailable (error : Str) : SummaryFirst (explicitUnavailableSubunits error) := by
  intro markdown
  refine ⟨firstExtractableLine markdown, _, rfl, ?_⟩
  unfold firstExtractableLine
  cases found : (Str.trimmedLines markdown).find? fun line => !line.isEmpty && line.head? != some '#' with
  | none => exact ⟨by decide, by decide⟩
  | some line =>
    have visible := List.find?_some found
    exact ⟨Str.trim_of_mem_trimmedLines (List.mem_of_find?_eq_some found), by rintro rfl; cases visible⟩

/-- The part of a key before the text. -/
def keyHead (kind : SubunitType) (title : Str) : Str :=
  Str.toAsciiLowercase kind.debug ++ [':'] ++ Str.toAsciiLowercase (Str.trim title) ++ [':']

/-- A note of the body never hides the summary of the fallback provider. -/
theorem dedupKey_note_ne {subunit : ExtractedSubunit}
    (titled : subunit.title = subunit.kind.debug ++ " note".toList) (content : Str) :
    dedupKey ⟨.summary, "Fallback summary", content⟩ ≠ dedupKey subunit := by
  intro same
  have heads (kind : SubunitType) : 9 ≤ (keyHead kind (kind.debug ++ " note".toList)).length ∧
      (keyHead .summary "Fallback summary").take 9 ≠ (keyHead kind (kind.debug ++ " note".toList)).take 9 := by
    cases kind <;> decide
  have front : (keyHead .summary "Fallback summary" ++ Str.toAsciiLowercase (Str.trim content)).take 9 =
      (keyHead subunit.kind subunit.title ++ Str.toAsciiLowercase (Str.trim subunit.content)).take 9 :=
    congrArg (List.take 9) same
  rw [titled, List.take_append_of_le_length (by decide), List.take_append_of_le_length (heads subunit.kind).1] at front
  exact (heads subunit.kind).2 front

/-- A thin skill gets more texts than it has subunits. -/
theorem thin_gains (markdown : Str) {body : Str} {subunits : List ExtractedSubunit}
    (noted : subunits = notes .summary (Str.trimmedLines body)) (thin : subunits.length < 2)
    {fallbackExtractor : Str → List ExtractedSubunit} (summarizes : SummaryFirst fallbackExtractor) :
    subunits.length < (((deduplicateSubunits (subunits ++ fallbackExtractor markdown)).map
      ExtractedSubunit.content).filter fun text => !Str.isBlank (firstLine text)).length := by
  obtain ⟨content, rest, opened, trimmed, nonempty⟩ := summarizes markdown
  have summary : Str.isBlank (firstLine content) = false := firstLine_visible trimmed nonempty
  rw [deduplicate_eq, opened]
  cases subunits with
  | nil =>
    rw [List.nil_append, distinctFrom, if_neg List.not_mem_nil, List.map_cons, List.filter_cons_of_pos (by simp [summary])]
    simp
  | cons subunit more =>
    obtain rfl : more = [] := List.eq_nil_of_length_eq_zero (by rw [List.length_cons] at thin; omega)
    obtain ⟨plain, titled⟩ := notes_plain (show subunit ∈ notes .summary (Str.trimmedLines body) by
      rw [← noted]
      exact List.mem_singleton_self subunit)
    have own : Str.isBlank (firstLine subunit.content) = false := firstLine_visible plain.trimmed plain.visible
    have apart : dedupKey ⟨.summary, "Fallback summary", content⟩ ∉ [dedupKey subunit] := by
      rw [List.mem_singleton]
      exact dedupKey_note_ne titled content
    rw [List.singleton_append, distinctFrom, if_neg List.not_mem_nil, distinctFrom, if_neg apart, List.map_cons,
      List.map_cons, List.filter_cons_of_pos (by simp [own]), List.filter_cons_of_pos (by simp [summary])]
    simp

theorem keptWhole_intrinsic {source : StructuralExtraction} (tidy : TidyExtraction source)
    {fallbackExtractor : Str → List ExtractedSubunit} (summarizes : SummaryFirst fallbackExtractor) (markdown : Str)
    {texts : List Str} (flattened : texts = (deduplicateSubunits (if source.subunits.length < 2 then
      source.subunits ++ fallbackExtractor markdown else source.subunits)).map ExtractedSubunit.content) :
    (source.tags = [] → proseTags source.skillName source.description ++ (bulletLines texts).flatMap tagsOf = []) ∧
      (proseItems source.skillName source.description).map lesson ++
        (notes .procedure (bulletLines texts)).map lesson = source.subunits.map lesson ↔
      WholeOnIntrinsic source := by
  obtain ⟨body, noted⟩ := tidy.subunits
  by_cases thin : source.subunits.length < 2
  · rw [if_pos thin] at flattened
    refine iff_of_false ?_ fun whole => absurd whole.several (by omega)
    intro ⟨_, same⟩
    have more := thin_gains markdown noted thin summarizes
    have lengths := congrArg List.length same
    have read := length_notes_bulletLines .procedure texts
    rw [← flattened] at more
    simp only [List.length_append, List.length_map] at lengths
    omega
  · rw [if_neg thin] at flattened
    have plain : ∀ text ∈ texts, PlainText text := by
      intro text member
      rw [flattened] at member
      obtain ⟨subunit, kept, rfl⟩ := List.mem_map.mp member
      rw [deduplicate_eq] at kept
      have inSource := (distinctFrom_sublist _ _).subset kept
      rw [noted] at inSource
      exact (notes_plain inSource).1
    obtain ⟨read, noTags, lessons⟩ := notes_bulletLines plain
    have listed : texts.map (Prod.mk SubunitType.procedure) =
        (deduplicateSubunits source.subunits).map fun subunit => (.procedure, subunit.content) := by
      rw [flattened, List.map_map]
      rfl
    rw [noTags, List.append_nil, read, lessons, listed]
    constructor
    · intro ⟨untagged, same⟩
      exact ⟨by omega, same.symm, untagged⟩
    · intro whole
      exact ⟨whole.untagged, whole.listed.symm⟩

/-- Where the prose lists nothing, the intrinsic path keeps the skills whose subunits are several
procedures with distinct keys, and the recurrence path those without subunits. -/
theorem whole_iff_of_plainProse {source : StructuralExtraction}
    (plain : proseItems source.skillName source.description = []) :
    (WholeOnIntrinsic source ↔ 2 ≤ source.subunits.length ∧ (∀ subunit ∈ source.subunits, subunit.kind = .procedure) ∧
        (source.subunits.map dedupKey).Nodup ∧ NoStrayTags source) ∧
      (WholeOnRecurrence source ↔ source.subunits = [] ∧ NoStrayTags source) := by
  have distinct : (deduplicateSubunits source.subunits).length = source.subunits.length ↔
      (source.subunits.map dedupKey).Nodup := by
    rw [deduplicate_eq, length_distinctFrom]
    simp
  constructor
  · constructor
    · intro ⟨several, listed, untagged⟩
      rw [plain, List.map_nil, List.nil_append] at listed
      have lengths := congrArg List.length listed
      rw [List.length_map, List.length_map] at lengths
      have whole : deduplicateSubunits source.subunits = source.subunits := by
        rw [deduplicate_eq] at lengths ⊢
        exact (distinctFrom_sublist _ _).eq_of_length lengths.symm
      rw [whole, List.map_inj_left] at listed
      exact ⟨several, fun subunit member => congrArg Prod.fst (listed subunit member), distinct.mp lengths.symm, untagged⟩
    · intro ⟨several, procedures, nodup, untagged⟩
      have whole : deduplicateSubunits source.subunits = source.subunits := by
        have lengths := distinct.mpr nodup
        rw [deduplicate_eq] at lengths ⊢
        exact (distinctFrom_sublist _ _).eq_of_length lengths
      refine ⟨several, ?_, untagged⟩
      rw [plain, whole, List.map_nil, List.nil_append, List.map_inj_left]
      intro subunit member
      rw [lesson, procedures subunit member]
  · constructor
    · intro ⟨listed, untagged⟩
      rw [plain, List.map_nil, List.map_eq_nil_iff] at listed
      exact ⟨listed, untagged⟩
    · intro ⟨nothing, untagged⟩
      exact ⟨by rw [nothing, plain], untagged⟩

/-- The row of a built skill, as the query for project skills reads it. -/
def storedRow {F : Type} (loader : SnapshotLoader F) (skill : BuiltSkill F) : ProjectSkillRow :=
  let row := skillRow loader.blake3 (liveSkill skill)
  ⟨loader.uuidText row.id, row.name, row.description, row.tags, row.sourcePaths⟩

section Paths

variable {F : Type} {services : ScopeServices F} {faults : HostFaults F} {runner : PromotionPassRunner F}
  {now : Timestamp} {loader : SnapshotLoader F} {before after : Workspace F} {proposals : List PromotionProposal}
  {proposal : PromotionProposal}

theorem draftPreserves_of_there {fromStr : Str → Except Str SkillFrontmatter} {fs : Fs} {markdown : Str}
    (there : fs.node proposal.pendingPath = some (.file markdown)) (source : StructuralExtraction) :
    DraftPreserves fromStr fs proposal source ↔
      Preserves (extractStructuralSubunits fromStr proposal.pendingPath markdown) source := by
  constructor
  · intro ⟨other, found, preserved⟩
    rw [there] at found
    cases found
    exact preserved
  · exact fun preserved => ⟨markdown, there, preserved⟩

variable (lawful : ∀ frontmatter serialized, services.promotionYaml frontmatter = .ok serialized →
    ReadsBack loader.build.reader.fromStr serialized frontmatter.name frontmatter.description frontmatter.tags)
  (scope : ScopeRoot) {path : Path} (active : isActiveSkillFile path = true) (text : Str)
  (member : proposal ∈ proposals)

include lawful active member

theorem intrinsic_preserves_iff (summarizes : SummaryFirst loader.build.reader.fallbackExtractor)
    (ran : evaluateSnapshot services faults runner now
      (snapshotOf loader (readSkill loader.build scope path text).1) before = .ok proposals after) :
    DraftPreserves loader.build.reader.fromStr after.fs proposal
        (extractStructuralSubunits loader.build.reader.fromStr path text) ↔
      WholeOnIntrinsic (extractStructuralSubunits loader.build.reader.fromStr path text) := by
  obtain ⟨stem, named, tidyStem⟩ := stem_of_active active
  have tidy := extract_tidy loader.build.reader.fromStr named tidyStem text
  obtain ⟨markdown, rendered, there⟩ := drafted_of_evaluateSnapshot ran proposal member
  rw [draftPreserves_of_there there, preserves_rendered lawful tidy rfl rfl rfl rendered]
  exact keptWhole_intrinsic tidy summarizes text rfl

theorem recurrence_preserves_iff {others : List ProjectSkillRow}
    (ran : proposeCluster services faults runner now
      (storedRow loader (readSkill loader.build scope path text).1 :: others) before = .ok proposals after) :
    DraftPreserves loader.build.reader.fromStr after.fs proposal
        (extractStructuralSubunits loader.build.reader.fromStr path text) ↔
      WholeOnRecurrence (extractStructuralSubunits loader.build.reader.fromStr path text) := by
  obtain ⟨stem, named, tidyStem⟩ := stem_of_active active
  have tidy := extract_tidy loader.build.reader.fromStr named tidyStem text
  obtain ⟨projectCount, drafted⟩ := drafted_of_proposeCluster ran
  obtain ⟨markdown, rendered, there⟩ := drafted proposal member
  have nothing : (notes .procedure (bulletLines [])).map lesson = [] ∧ (bulletLines []).flatMap tagsOf = [] :=
    ⟨rfl, rfl⟩
  rw [draftPreserves_of_there there, preserves_rendered lawful tidy rfl rfl rfl rendered,
    projectSkillRowToSnapshot, nothing.1, nothing.2, List.append_nil, List.append_nil]
  constructor
  · intro ⟨untagged, same⟩
    exact ⟨same.symm, untagged⟩
  · intro whole
    exact ⟨whole.untagged, whole.listed.symm⟩

end Paths

/-- A promotion draft preserves the skill of a file exactly when its path keeps that skill whole. -/
theorem promotionDraft_preserves_iff {F : Type} (services : ScopeServices F) (faults : HostFaults F)
    (runner : PromotionPassRunner F) (now : Timestamp) (loader : SnapshotLoader F)
    (lawful : ∀ frontmatter serialized, services.promotionYaml frontmatter = .ok serialized →
      ReadsBack loader.build.reader.fromStr serialized frontmatter.name frontmatter.description frontmatter.tags)
    (summarizes : SummaryFirst loader.build.reader.fallbackExtractor) (scope : ScopeRoot) (path : Path)
    (active : isActiveSkillFile path = true) (text : Str) (before after : Workspace F)
    (proposals : List PromotionProposal) (proposal : PromotionProposal) (member : proposal ∈ proposals) :
    (evaluateSnapshot services faults runner now (snapshotOf loader (readSkill loader.build scope path text).1)
        before = .ok proposals after →
      (DraftPreserves loader.build.reader.fromStr after.fs proposal
          (extractStructuralSubunits loader.build.reader.fromStr path text) ↔
        WholeOnIntrinsic (extractStructuralSubunits loader.build.reader.fromStr path text))) ∧
    ∀ others, proposeCluster services faults runner now
        (storedRow loader (readSkill loader.build scope path text).1 :: others) before = .ok proposals after →
      (DraftPreserves loader.build.reader.fromStr after.fs proposal
          (extractStructuralSubunits loader.build.reader.fromStr path text) ↔
        WholeOnRecurrence (extractStructuralSubunits loader.build.reader.fromStr path text)) := by
  constructor
  · intro ran
    exact intrinsic_preserves_iff lawful scope active text member summarizes ran
  · intro others ran
    exact recurrence_preserves_iff lawful scope active text member ran

/-! ### One skill with two subunits -/

def epochTime (time : Timestamp) : Str :=
  if time = 0 then "1970-01-01T00:00:00+00:00"
  else if time = 30 * secondsPerDay then "1970-01-31T00:00:00+00:00"
  else "1970-04-01T00:00:00+00:00"

def tipFrontmatter (evidence : Str) : PromotionProposalFrontmatter :=
  ⟨"Tips", "Use it.", [], "promotion_proposal", "global", "project", "/repo/a/SKILL.md", evidence,
    "1970-01-01T00:00:00+00:00", "1970-01-31T00:00:00+00:00", "1970-04-01T00:00:00+00:00"⟩

def tipYaml (evidence : Str) : Str :=
  ["name: Tips".toList, "description: Use it.", "tags: []", "origin: promotion_proposal", "to_scope: global",
    "from_scope: project", "from_path: /repo/a/SKILL.md", "evidence: " ++ evidence,
    "created_at: 1970-01-01T00:00:00+00:00", "warning_at: 1970-01-31T00:00:00+00:00",
    "expires_at: 1970-04-01T00:00:00+00:00"].flatMap fun line => line ++ ['\n']

def readTip (text : Str) : Except Str SkillFrontmatter :=
  if text = unterminated (tipYaml "intrinsic") ∨ text = unterminated (tipYaml "recurrence") then
    .ok ⟨some "Tips", some "Use it.", some [], none⟩
  else .error "invalid type"

/-- The loader of `/repo/a/SKILL.md`, without a fallback provider. -/
def tipLoader : SnapshotLoader Nat where
  build := { sampleServices with reader := ⟨readTip, explicitUnavailableSubunits "connection refused"⟩ }
  blake3 := sampleDigest
  uuidText := Uuid.display

def tipServices : ScopeServices Nat where
  shared := { agreeing.shared with toRfc3339 := epochTime }
  promotionYaml frontmatter :=
    if frontmatter = tipFrontmatter "intrinsic" then .ok (tipYaml "intrinsic")
    else if frontmatter = tipFrontmatter "recurrence" then .ok (tipYaml "recurrence")
    else .error "unsupported value"
  demotionYaml _ := .error "unsupported value"
  clusterOrder _ := HashOrder.unchanged _

theorem tipServices_lawful : ∀ frontmatter serialized, tipServices.promotionYaml frontmatter = .ok serialized →
    ReadsBack readTip serialized frontmatter.name frontmatter.description frontmatter.tags := by
  intro frontmatter serialized written
  have reads (evidence : Str) (known : evidence = "intrinsic".toList ∨ evidence = "recurrence".toList) :
      ReadsBack readTip (tipYaml evidence) "Tips" "Use it." [] := by
    rcases known with rfl | rfl <;>
      exact ⟨⟨⟨some "Tips", some "Use it.", some [], none⟩, by decide +kernel, rfl, rfl, rfl⟩, by decide +kernel⟩
  unfold tipServices at written
  dsimp only at written
  split at written
  · rename_i same
    cases written
    rw [same]
    exact reads _ (Or.inl rfl)
  · split at written
    · rename_i same
      cases written
      rw [same]
      exact reads _ (Or.inr rfl)
    · cases written

def tipFile (heading : Str) : Str :=
  "# Tips\nUse it.\n".toList ++ heading ++ "\n- keep tests small\n- name them\n".toList

def builtTip (heading : Str) : BuiltSkill Nat :=
  (readSkill tipLoader.build ⟨"scope-0", .project, [[], "repo"]⟩ fileOfSkill (tipFile heading)).1

def evaluatedTip (heading : Str) : EStateM.Result CronError (Workspace Nat) (List PromotionProposal) :=
  evaluateSnapshot tipServices (HostFaults.none Nat) recurring 0 (snapshotOf tipLoader (builtTip heading)) globalRootOnly

/-- The same tip is in use in another project. -/
def recurredTip (heading : Str) : EStateM.Result CronError (Workspace Nat) (List PromotionProposal) :=
  proposeCluster tipServices (HostFaults.none Nat) recurring 0
    [storedRow tipLoader (builtTip heading), ⟨"b", "Tips", "Use it.", [], ["/p/two/SKILL.md"]⟩] globalRootOnly

def tipPromotion (evidence : PromotionEvidence) : PromotionProposal :=
  ⟨[[], "g", ".skills", "promote--c88fdb95-fe23-4377-8b37-c3e90aef7a4f", "SKILL.md.pending"],
    ["c88fdb95-fe23-4377-8b37-c3e90aef7a4f"], [.project], .global, evidence, [fileOfSkill]⟩

def sourceTip (heading : Str) : StructuralExtraction :=
  extractStructuralSubunits readTip fileOfSkill (tipFile heading)

theorem tips_proposed : returned? (evaluatedTip "## Conventions") = some [tipPromotion .intrinsic] ∧
    returned? (evaluatedTip "## Procedures") = some [tipPromotion .intrinsic] ∧
    returned? (recurredTip "## Procedures") = some [tipPromotion (.recurrence 2)] := by
  refine ⟨?_, ?_, ?_⟩ <;> decide +kernel

/-- A convention comes back as a procedure on the intrinsic path, and a procedure not at all on the
recurrence path. -/
theorem promotedTips_altered :
    (returned? (evaluatedTip "## Conventions") = some [tipPromotion .intrinsic] ∧
      ¬ DraftPreserves readTip (afterwards (evaluatedTip "## Conventions")).fs (tipPromotion .intrinsic)
        (sourceTip "## Conventions")) ∧
    (returned? (recurredTip "## Procedures") = some [tipPromotion (.recurrence 2)] ∧
      ¬ DraftPreserves readTip (afterwards (recurredTip "## Procedures")).fs (tipPromotion (.recurrence 2))
        (sourceTip "## Procedures")) := by
  obtain ⟨convention, -, recurred⟩ := tips_proposed
  have active : isActiveSkillFile fileOfSkill = true := by decide
  refine ⟨⟨convention, fun preserved => ?_⟩, ⟨recurred, fun preserved => ?_⟩⟩
  · have whole := (intrinsic_preserves_iff tipServices_lawful _ active _ (List.mem_singleton_self _)
      (summaryFirst_unavailable _) (of_returned convention)).mp preserved
    exact absurd whole.listed (by decide +kernel)
  · have whole := (recurrence_preserves_iff tipServices_lawful _ active _ (List.mem_singleton_self _)
      (of_returned recurred)).mp preserved
    exact absurd whole.listed (by decide +kernel)

/-- Two procedures come back from the intrinsic path. -/
theorem promotionDraft_preserves_iff_twoProcedures :
    DraftPreserves readTip (afterwards (evaluatedTip "## Procedures")).fs (tipPromotion .intrinsic)
      (sourceTip "## Procedures") := by
  have intrinsic := (promotionDraft_preserves_iff tipServices (HostFaults.none Nat) recurring 0 tipLoader
    tipServices_lawful (summaryFirst_unavailable _) ⟨"scope-0", .project, [[], "repo"]⟩ fileOfSkill (by decide)
    (tipFile "## Procedures") globalRootOnly (afterwards (evaluatedTip "## Procedures")) [tipPromotion .intrinsic]
    (tipPromotion .intrinsic) (List.mem_singleton_self _)).1
  exact (intrinsic (of_returned tips_proposed.2.1)).mpr
    ⟨by decide +kernel, by decide +kernel, fun _ => by decide +kernel⟩

end SkillLayer.Maintenance

import SkillLayer.Maintenance.PromotionContent

/-! What a merged draft keeps of the two skills that it merges. -/

namespace SkillLayer.Maintenance

open Domain GraphBuilder
open Infrastructure hiding Timestamp
open SessionExtractor (unterminated)

/-! ### The draft of a merge -/

section Drafts

variable {F : Type} {services : PassServices F} {faults : HostFaults F} {config : MergeConfig F}
  {now : Timestamp} {left right : SkillSnapshot}

theorem leads_writeMergeProposal (similarity : F) (before : Workspace F) :
    Leads (writeMergeProposal services faults config left right similarity now) before
      (LeavesFile MergeProposal.pendingPath fun markdown =>
        renderMergeMarkdown services left right (resolveScope [left.scope, right.scope]) similarity now =
          .ok markdown) := by
  unfold writeMergeProposal
  dsimp only
  rw [leads_ofExcept_bind]
  cases outputRootForScope (resolveScope [left.scope, right.scope]) left right with
  | error error => exact fun _ impossible => nomatch impossible
  | ok targetRoot =>
  dsimp only
  rw [leads_bind]
  apply (leads_placeProposal_content _ _ _ _ _ _ _ _ before).mono
  intro result between written
  cases result with
  | error error => exact fun _ impossible => nomatch impossible
  | ok pendingPath =>
  obtain ⟨markdown, rendered, there⟩ := written pendingPath rfl
  dsimp only
  rw [leads_bind]
  unfold Leads emitAudit
  cases faults.emit _ with
  | some error => exact fun _ impossible => nomatch impossible
  | none =>
    intro proposal same
    cases same
    exact ⟨markdown, rendered, there⟩

/-- A proposed merge has left its rendering on disk. -/
theorem drafted_of_proposeMerge {skills : List SkillSnapshot} {candidate : MergeCandidate F}
    (paired : candidateSkills skills candidate = .ok (left, right)) {before after : Workspace F}
    {proposal : MergeProposal}
    (ran : proposeMerge services faults config skills now candidate before = .ok proposal after) :
    ∃ markdown, renderMergeMarkdown services left right (resolveScope [left.scope, right.scope])
        candidate.cosineSimilarity now = .ok markdown ∧
      after.fs.node proposal.pendingPath = some (.file markdown) := by
  unfold proposeMerge at ran
  rw [paired] at ran
  exact (leads_writeMergeProposal candidate.cosineSimilarity before).of_ok ran proposal rfl

end Drafts

/-! ### What a draft keeps -/

section Skills

variable {F : Type}

def mergedName (left right : BuiltSkill F) : Str := left.name ++ " + ".toList ++ right.name

def mergedDescription (left right : BuiltSkill F) : Str := left.description ++ ['\n'] ++ right.description

/-- The subunits of both skills. -/
def allSubunits (left right : BuiltSkill F) : List ExtractedSubunit := left.subunits ++ right.subunits

/-- The draft has the tags and the subunits of the two skills, and no others. -/
structure HoldsUnion (draft : StructuralExtraction) (left right : BuiltSkill F) : Prop where
  tags : ∀ tag, tag ∈ draft.tags ↔ tag ∈ left.tags ∨ tag ∈ right.tags
  subunits : ∀ taught, taught ∈ draft.subunits.map lesson ↔
    taught ∈ left.subunits.map lesson ∨ taught ∈ right.subunits.map lesson

/-- The proposal's file holds the union of the two skills. -/
def DraftHoldsUnion (fromStr : Str → Except Str SkillFrontmatter) (fs : Fs) (proposal : MergeProposal)
    (left right : BuiltSkill F) : Prop :=
  ∃ markdown, fs.node proposal.pendingPath = some (.file markdown) ∧
    HoldsUnion (extractStructuralSubunits fromStr proposal.pendingPath markdown) left right

/-- The skills that can be merged without loss: their texts are plain and all occur as procedures,
the prose of the draft lists the subunits of other kinds and nothing foreign, and it has no tag
line when both are without tags. -/
structure Mergeable (left right : BuiltSkill F) : Prop where
  plain : ∀ subunit ∈ allSubunits left right, PlainText subunit.content
  procedures : ∀ subunit ∈ allSubunits left right,
    (.procedure, subunit.content) ∈ (allSubunits left right).map lesson
  otherKinds : ∀ subunit ∈ allSubunits left right, subunit.kind ≠ .procedure →
    lesson subunit ∈ (proseItems (mergedName left right) (mergedDescription left right)).map lesson
  nothingElse : ∀ item ∈ proseItems (mergedName left right) (mergedDescription left right),
    lesson item ∈ (allSubunits left right).map lesson
  untagged : left.tags = [] → right.tags = [] →
    proseTags (mergedName left right) (mergedDescription left right) = []

variable {services : PassServices F} {fromStr : Str → Except Str SkillFrontmatter} {loader : SnapshotLoader F}
  {left right : BuiltSkill F}

/-- The texts of a skill as a build has read it. -/
structure TidySkill (skill : BuiltSkill F) : Prop where
  name : Str.trim skill.name ≠ []
  description : Str.trim skill.description ≠ []
  tags : ∀ tag ∈ skill.tags, Str.trim tag = tag ∧ tag ≠ []

theorem readSkill_tidy (loader : SnapshotLoader F) (scope : ScopeRoot) {path : Path}
    (active : isActiveSkillFile path = true) (text : Str) : TidySkill (readSkill loader.build scope path text).1 := by
  obtain ⟨stem, named, tidyStem⟩ := stem_of_active active
  obtain ⟨name, description, tags, -⟩ := extract_tidy loader.build.reader.fromStr named tidyStem text
  exact ⟨by rw [← name.1] at name; exact name.2, by rw [← description.1] at description; exact description.2, tags⟩

theorem isBlank_append (first second : Str) :
    Str.isBlank (first ++ second) = (Str.isBlank first && Str.isBlank second) := List.all_append

theorem trim_append_ne_nil {first : Str} (visible : Str.trim first ≠ []) (second : Str) :
    Str.trim (first ++ second) ≠ [] := by
  rw [ne_eq, Str.trim_eq_nil] at visible ⊢
  rw [isBlank_append, Bool.and_eq_true]
  exact fun blank => visible blank.1

theorem extract_merged
    (lawful : ∀ frontmatter serialized, services.mergeYaml frontmatter = .ok serialized →
      ReadsBack fromStr serialized frontmatter.name frontmatter.description frontmatter.tags)
    (tidyLeft : TidySkill left) (tidyRight : TidySkill right) {canonicalScope : ScopeType} {similarity : F}
    {now : Timestamp} {markdown : Str}
    (rendered : renderMergeMarkdown services (snapshotOf loader left) (snapshotOf loader right) canonicalScope
      similarity now = .ok markdown) (path : Path) :
    (extractStructuralSubunits fromStr path markdown).tags =
        (if left.tags = [] ∧ right.tags = [] then proseTags (mergedName left right) (mergedDescription left right) ++
          (bulletLines ((allSubunits left right).map ExtractedSubunit.content)).flatMap tagsOf
        else Str.sorted (left.tags ++ right.tags).dedup) ∧
      (extractStructuralSubunits fromStr path markdown).subunits =
        proseItems (mergedName left right) (mergedDescription left right) ++
          notes .procedure (bulletLines ((allSubunits left right).map ExtractedSubunit.content)) := by
  unfold renderMergeMarkdown at rendered
  cases serialized : services.mergeYaml (mergeFrontmatter services (snapshotOf loader left) (snapshotOf loader right)
      canonicalScope similarity now) with
  | error error => simp [serialized] at rendered
  | ok yaml =>
  simp only [serialized, pure, Except.pure, Except.ok.injEq] at rendered
  have tags : trimmedEntries (Str.sorted (left.tags ++ right.tags).dedup) =
      Str.sorted (left.tags ++ right.tags).dedup := by
    refine trimmedEntries_tidy fun tag member => ?_
    rw [mem_sorted, List.mem_dedup, List.mem_append] at member
    rcases member with inLeft | inRight
    · exact tidyLeft.tags tag inLeft
    · exact tidyRight.tags tag inRight
  have none : Str.sorted (left.tags ++ right.tags).dedup = [] ↔ left.tags = [] ∧ right.tags = [] := by
    rw [sorted_eq_nil, List.dedup_eq_nil, List.append_eq_nil_iff]
  have texts : (snapshotOf loader left).subunits ++ (snapshotOf loader right).subunits =
      (allSubunits left right).map ExtractedSubunit.content := List.map_append.symm
  rw [texts] at rendered
  have read := extract_proposal (lawful _ _ serialized) path (trim_append_ne_nil (trim_append_ne_nil tidyLeft.name _) _)
    (trim_append_ne_nil (trim_append_ne_nil tidyLeft.description _) _)
    (lists_procedures ((allSubunits left right).map ExtractedSubunit.content))
  rw [← List.append_assoc, rendered] at read
  have merged : (mergeFrontmatter services (snapshotOf loader left) (snapshotOf loader right) canonicalScope
      similarity now).tags = Str.sorted (left.tags ++ right.tags).dedup := rfl
  rw [read]
  refine ⟨?_, rfl⟩
  rw [merged, tags]
  exact if_congr none rfl rfl

/-- When some items and one procedure for each text make up all subunits. -/
theorem lessons_eq_iff (left right : BuiltSkill F) (items : List ExtractedSubunit) :
    (∀ taught, taught ∈ items.map lesson ++
        ((allSubunits left right).map ExtractedSubunit.content).map (Prod.mk SubunitType.procedure) ↔
          taught ∈ (allSubunits left right).map lesson) ↔
      (∀ subunit ∈ allSubunits left right, (.procedure, subunit.content) ∈ (allSubunits left right).map lesson) ∧
      (∀ subunit ∈ allSubunits left right, subunit.kind ≠ .procedure → lesson subunit ∈ items.map lesson) ∧
      ∀ item ∈ items, lesson item ∈ (allSubunits left right).map lesson := by
  constructor
  · intro same
    refine ⟨fun subunit member => ?_, fun subunit member other => ?_, fun item member => ?_⟩
    · apply (same _).mp
      rw [List.map_map]
      exact List.mem_append_right _ (List.mem_map.mpr ⟨subunit, member, rfl⟩)
    · rcases List.mem_append.mp ((same _).mpr (List.mem_map_of_mem member)) with listed | flattened
      · exact listed
      · obtain ⟨text, _, taught⟩ := List.mem_map.mp flattened
        exact absurd (congrArg Prod.fst taught).symm other
    · exact (same _).mp (List.mem_append_left _ (List.mem_map_of_mem member))
  · intro ⟨procedures, otherKinds, nothingElse⟩ taught
    rw [List.mem_append]
    constructor
    · rintro (listed | flattened)
      · obtain ⟨item, member, rfl⟩ := List.mem_map.mp listed
        exact nothingElse item member
      · rw [List.map_map] at flattened
        obtain ⟨subunit, member, rfl⟩ := List.mem_map.mp flattened
        exact procedures subunit member
    · intro member
      obtain ⟨subunit, inAll, rfl⟩ := List.mem_map.mp member
      by_cases procedure : subunit.kind = .procedure
      · rw [List.map_map]
        exact Or.inr (List.mem_map.mpr ⟨subunit, inAll, by rw [lesson, procedure]; rfl⟩)
      · exact Or.inl (otherKinds subunit inAll procedure)

/-- Once the texts are plain, the rest is a comparison of sets. -/
theorem holdsUnion_iff_of_plain (plain : ∀ subunit ∈ allSubunits left right, PlainText subunit.content)
    {draft : StructuralExtraction}
    (tags : draft.tags =
      if left.tags = [] ∧ right.tags = [] then proseTags (mergedName left right) (mergedDescription left right) ++
        (bulletLines ((allSubunits left right).map ExtractedSubunit.content)).flatMap tagsOf
      else Str.sorted (left.tags ++ right.tags).dedup)
    (subunits : draft.subunits = proseItems (mergedName left right) (mergedDescription left right) ++
      notes .procedure (bulletLines ((allSubunits left right).map ExtractedSubunit.content))) :
    HoldsUnion draft left right ↔ Mergeable left right := by
  have plainTexts : ∀ text ∈ (allSubunits left right).map ExtractedSubunit.content, PlainText text := by
    intro text member
    obtain ⟨subunit, inAll, rfl⟩ := List.mem_map.mp member
    exact plain subunit inAll
  obtain ⟨read, noTags, taughtTexts⟩ := notes_bulletLines plainTexts
  have lessons : draft.subunits.map lesson =
      (proseItems (mergedName left right) (mergedDescription left right)).map lesson ++
        ((allSubunits left right).map ExtractedSubunit.content).map (Prod.mk SubunitType.procedure) := by
    rw [subunits, read, List.map_append, taughtTexts]
  have both (taught : SubunitType × Str) : taught ∈ (allSubunits left right).map lesson ↔
      taught ∈ left.subunits.map lesson ∨ taught ∈ right.subunits.map lesson := by
    rw [allSubunits, List.map_append, List.mem_append]
  have sameTags : (∀ tag, tag ∈ draft.tags ↔ tag ∈ left.tags ∨ tag ∈ right.tags) ↔
      (left.tags = [] → right.tags = [] → proseTags (mergedName left right) (mergedDescription left right) = []) := by
    rw [tags, noTags, List.append_nil]
    by_cases untagged : left.tags = [] ∧ right.tags = []
    · rw [if_pos untagged, untagged.1, untagged.2]
      constructor
      · intro same _ _
        exact List.eq_nil_iff_forall_not_mem.mpr fun tag member => by simpa using (same tag).mp member
      · intro nothing tag
        rw [nothing rfl rfl]
        simp
    · rw [if_neg untagged]
      refine iff_of_true (fun tag => ?_) fun noLeft noRight => absurd ⟨noLeft, noRight⟩ untagged
      rw [mem_sorted, List.mem_dedup, List.mem_append]
  have sameLessons := lessons_eq_iff left right (proseItems (mergedName left right) (mergedDescription left right))
  simp only [← lessons, both] at sameLessons
  constructor
  · intro holds
    obtain ⟨procedures, otherKinds, nothingElse⟩ := sameLessons.mp holds.subunits
    refine ⟨plain, ?_, otherKinds, ?_, sameTags.mp holds.tags⟩
    · exact fun subunit member => (both _).mpr (procedures subunit member)
    · exact fun item member => (both _).mpr (nothingElse item member)
  · intro mergeable
    refine ⟨sameTags.mpr mergeable.untagged, sameLessons.mpr ⟨?_, mergeable.otherKinds, ?_⟩⟩
    · exact fun subunit member => (both _).mp (mergeable.procedures subunit member)
    · exact fun item member => (both _).mp (mergeable.nothingElse item member)

/-- The reader yields plain texts only. -/
theorem plain_of_holdsUnion {path : Path} {markdown : Str}
    (holds : HoldsUnion (extractStructuralSubunits fromStr path markdown) left right) :
    ∀ subunit ∈ allSubunits left right, PlainText subunit.content := by
  intro subunit member
  have taught : lesson subunit ∈ (extractStructuralSubunits fromStr path markdown).subunits.map lesson := by
    rw [holds.subunits, ← List.mem_append, ← List.map_append]
    exact List.mem_map_of_mem member
  obtain ⟨read, inDraft, same⟩ := List.mem_map.mp taught
  rw [extract_noted] at inDraft
  have content : read.content = subunit.content := congrArg Prod.snd same
  rw [← content]
  exact (notes_plain inDraft).1

end Skills

/-- Where the prose of the draft lists nothing, the skills that merge without loss are those whose
subunits are procedures with plain texts. -/
theorem mergeable_iff_of_plainProse {F : Type} {left right : BuiltSkill F}
    (plainProse : proseItems (mergedName left right) (mergedDescription left right) = []) :
    Mergeable left right ↔
      (∀ subunit ∈ allSubunits left right, PlainText subunit.content ∧ subunit.kind = .procedure) ∧
      (left.tags = [] → right.tags = [] → proseTags (mergedName left right) (mergedDescription left right) = []) := by
  constructor
  · intro mergeable
    refine ⟨fun subunit member => ⟨mergeable.plain subunit member, ?_⟩, mergeable.untagged⟩
    by_contra other
    have listed := mergeable.otherKinds subunit member other
    rw [plainProse] at listed
    cases listed
  · intro ⟨procedures, untagged⟩
    refine ⟨fun subunit member => (procedures subunit member).1, fun subunit member => ?_, ?_, ?_, untagged⟩
    · refine List.mem_map.mpr ⟨subunit, member, ?_⟩
      rw [lesson, (procedures subunit member).2]
    · exact fun subunit member other => absurd (procedures subunit member).2 other
    · rw [plainProse]
      simp

section Merges

variable {F : Type} {services : PassServices F} {faults : HostFaults F} {config : MergeConfig F}
  {skills : List SkillSnapshot} {now : Timestamp} {loader : SnapshotLoader F}
  (lawful : ∀ frontmatter serialized, services.mergeYaml frontmatter = .ok serialized →
    ReadsBack loader.build.reader.fromStr serialized frontmatter.name frontmatter.description frontmatter.tags)
  {left right : BuiltSkill F} (tidyLeft : TidySkill left) (tidyRight : TidySkill right)
  {candidate : MergeCandidate F}
  (paired : candidateSkills skills candidate = .ok (snapshotOf loader left, snapshotOf loader right))
  {before after : Workspace F} {proposal : MergeProposal}
  (ran : proposeMerge services faults config skills now candidate before = .ok proposal after)

include lawful tidyLeft tidyRight paired ran

theorem mergeable_of_draft (holds : DraftHoldsUnion loader.build.reader.fromStr after.fs proposal left right) :
    Mergeable left right := by
  obtain ⟨markdown, rendered, there⟩ := drafted_of_proposeMerge paired ran
  obtain ⟨tags, subunits⟩ := extract_merged lawful tidyLeft tidyRight rendered proposal.pendingPath
  obtain ⟨other, found, union⟩ := holds
  rw [there] at found
  cases found
  exact (holdsUnion_iff_of_plain (plain_of_holdsUnion union) tags subunits).mp union

theorem draft_of_mergeable (mergeable : Mergeable left right) :
    DraftHoldsUnion loader.build.reader.fromStr after.fs proposal left right := by
  obtain ⟨markdown, rendered, there⟩ := drafted_of_proposeMerge paired ran
  obtain ⟨tags, subunits⟩ := extract_merged lawful tidyLeft tidyRight rendered proposal.pendingPath
  exact ⟨markdown, there, (holdsUnion_iff_of_plain mergeable.plain tags subunits).mpr mergeable⟩

end Merges

/-- A merged draft holds the union of its two skills exactly when they can be merged without loss. -/
theorem mergeDraft_holdsUnion_iff {F : Type} (services : PassServices F) (faults : HostFaults F)
    (config : MergeConfig F) (skills : List SkillSnapshot) (now : Timestamp) (loader : SnapshotLoader F)
    (lawful : ∀ frontmatter serialized, services.mergeYaml frontmatter = .ok serialized →
      ReadsBack loader.build.reader.fromStr serialized frontmatter.name frontmatter.description frontmatter.tags)
    (leftScope rightScope : ScopeRoot) (leftPath rightPath : Path)
    (leftActive : isActiveSkillFile leftPath = true) (rightActive : isActiveSkillFile rightPath = true)
    (leftText rightText : Str) (candidate : MergeCandidate F)
    (paired : candidateSkills skills candidate =
      .ok (snapshotOf loader (readSkill loader.build leftScope leftPath leftText).1,
        snapshotOf loader (readSkill loader.build rightScope rightPath rightText).1))
    (before after : Workspace F) (proposal : MergeProposal)
    (ran : proposeMerge services faults config skills now candidate before = .ok proposal after) :
    DraftHoldsUnion loader.build.reader.fromStr after.fs proposal
        (readSkill loader.build leftScope leftPath leftText).1
        (readSkill loader.build rightScope rightPath rightText).1 ↔
      Mergeable (readSkill loader.build leftScope leftPath leftText).1
        (readSkill loader.build rightScope rightPath rightText).1 := by
  have tidyLeft := readSkill_tidy loader leftScope leftActive leftText
  have tidyRight := readSkill_tidy loader rightScope rightActive rightText
  exact ⟨mergeable_of_draft lawful tidyLeft tidyRight paired ran, draft_of_mergeable lawful tidyLeft tidyRight paired ran⟩

/-! ### One tip in two scopes -/

def globalFile : Path := [[], "global", "b", "SKILL.md"]

def pairFrontmatter : MergeProposalFrontmatter Nat where
  name := "Tips + Tips"
  description := "Use it.\nUse it."
  tags := []
  origin := "merge_proposal"
  canonicalScope := "project"
  mergedFromScopes := ["project", "global"]
  mergedFrom := ["/global/b/SKILL.md", "/repo/a/SKILL.md"]
  similarity := 1
  createdAt := "1970-01-01T00:00:00+00:00"
  warningAt := "1970-01-31T00:00:00+00:00"
  expiresAt := "1970-04-01T00:00:00+00:00"

def pairYaml : Str :=
  ["name: Tips + Tips".toList, "description: |-", "  Use it.", "  Use it.", "tags: []", "origin: merge_proposal",
    "canonical_scope: project", "merged_from_scopes:", "- project", "- global", "merged_from:",
    "- /global/b/SKILL.md", "- /repo/a/SKILL.md", "similarity: 1.0",
    "created_at: 1970-01-01T00:00:00+00:00", "warning_at: 1970-01-31T00:00:00+00:00",
    "expires_at: 1970-04-01T00:00:00+00:00"].flatMap fun line => line ++ ['\n']

def readPair (text : Str) : Except Str SkillFrontmatter :=
  if text = unterminated pairYaml then .ok ⟨some "Tips + Tips", some "Use it.\nUse it.", some [], none⟩
  else .error "invalid type"

/-- The hash of `/global/b/SKILL.md`. -/
def globalStableId : Str :=
  "7936067adfe11fd1".toList ++ "d001ffde22b68a05".toList ++ "e02974e4d3c1a55c".toList ++ "cfc4c80c64fbdfab".toList

/-- The loader of `/repo/a/SKILL.md` and `/global/b/SKILL.md`, without a fallback provider. -/
def pairLoader : SnapshotLoader Nat where
  build :=
    { sampleServices with
      reader := ⟨readPair, explicitUnavailableSubunits "connection refused"⟩
      hash := fun bytes =>
        if bytes = Str.utf8 "/global/b/SKILL.md" then globalStableId else sampleServices.hash bytes }
  blake3 bytes :=
    if bytes = Str.utf8 ("skill:" ++ globalStableId) then
      [57, 194, 164, 179, 215, 47, 104, 51, 246, 177, 211, 95, 176, 172, 6, 210,
        175, 178, 255, 41, 161, 243, 203, 156, 255, 224, 237, 72, 63, 80, 42, 90]
    else sampleDigest bytes
  uuidText := Uuid.display

def pairServices : PassServices Nat :=
  { agreeing.shared with
    toRfc3339 := epochTime
    mergeYaml := fun frontmatter =>
      if frontmatter = pairFrontmatter then .ok pairYaml else .error "unsupported value" }

theorem pairServices_lawful : ∀ frontmatter serialized, pairServices.mergeYaml frontmatter = .ok serialized →
    ReadsBack readPair serialized frontmatter.name frontmatter.description frontmatter.tags := by
  intro frontmatter serialized written
  unfold pairServices at written
  dsimp only at written
  split at written
  · rename_i same
    cases written
    rw [same]
    exact ⟨⟨⟨some "Tips + Tips", some "Use it.\nUse it.", some [], none⟩, by decide +kernel, rfl, rfl, rfl⟩,
      by decide +kernel⟩
  · cases written

def globalTip (heading : Str) : BuiltSkill Nat :=
  (readSkill pairLoader.build ⟨"scope-1", .global, [[], "global"]⟩ globalFile (tipFile heading)).1

def projectTip (heading : Str) : BuiltSkill Nat :=
  (readSkill pairLoader.build ⟨"scope-0", .project, [[], "repo"]⟩ fileOfSkill (tipFile heading)).1

def tipSnapshots (heading : Str) : List SkillSnapshot :=
  [snapshotOf pairLoader (projectTip heading), snapshotOf pairLoader (globalTip heading)]

def tipsFs (heading : Str) : Fs where
  node path :=
    if path = fileOfSkill ∨ path = globalFile then some (.file (tipFile heading))
    else if [[[]], [[], "global".toList], globalFile.parent, [[], "repo".toList], skillDirectory].contains path then
      some .directory
    else none

def pairConfig : MergeConfig Nat := ⟨1, 0, ".skills"⟩

def pairCandidate : MergeCandidate Nat :=
  ⟨"39c2a4b3-d72f-4833-b6b1-d35fb0ac06d2", "c88fdb95-fe23-4377-8b37-c3e90aef7a4f", 1⟩

def mergedTips (heading : Str) : EStateM.Result MergeError (Workspace Nat) MergeProposal :=
  proposeMerge pairServices (HostFaults.none Nat) pairConfig (tipSnapshots heading) 0 pairCandidate
    ⟨tipsFs heading, [], []⟩

def tipsMerge (heading : Str) : MergeProposal :=
  ⟨skillDirectory ++ [".skills".toList, mergeDirectoryName (snapshotOf pairLoader (globalTip heading))
      (snapshotOf pairLoader (projectTip heading)), pendingSkillFileName],
    .project, [.project, .global], [globalFile, fileOfSkill]⟩

theorem tips_accepted (heading : Str) (known : heading ∈ ["## Conventions".toList, "## Procedures"]) :
    findCandidates pairServices pairConfig (tipSnapshots heading) = .ok [pairCandidate] ∧
      candidateSkills (tipSnapshots heading) pairCandidate =
        .ok (snapshotOf pairLoader (globalTip heading), snapshotOf pairLoader (projectTip heading)) ∧
      returned? (mergedTips heading) = some (tipsMerge heading) := by
  simp only [List.mem_cons, List.not_mem_nil, or_false] at known
  rcases known with rfl | rfl <;>
    · refine ⟨?_, ?_, ?_⟩ <;> decide +kernel

/-- Two conventions that both skills have come back as procedures. -/
theorem mergedConventions_altered :
    findCandidates pairServices pairConfig (tipSnapshots "## Conventions") = .ok [pairCandidate] ∧
      returned? (mergedTips "## Conventions") = some (tipsMerge "## Conventions") ∧
      ¬ DraftHoldsUnion readPair (afterwards (mergedTips "## Conventions")).fs (tipsMerge "## Conventions")
        (globalTip "## Conventions") (projectTip "## Conventions") := by
  obtain ⟨accepted, paired, ran⟩ := tips_accepted "## Conventions" (by decide)
  refine ⟨accepted, ran, fun holds => ?_⟩
  have mergeable := mergeable_of_draft pairServices_lawful (readSkill_tidy _ _ (by decide) _)
    (readSkill_tidy _ _ (by decide) _) paired (of_returned ran) holds
  have procedure := mergeable.procedures ⟨.convention, "Convention note", "name them"⟩ (by decide +kernel)
  exact absurd procedure (by decide +kernel)

/-- Two procedures that both skills have come back. -/
theorem mergeDraft_holdsUnion_iff_procedures :
    DraftHoldsUnion readPair (afterwards (mergedTips "## Procedures")).fs (tipsMerge "## Procedures")
      (globalTip "## Procedures") (projectTip "## Procedures") := by
  obtain ⟨-, paired, ran⟩ := tips_accepted "## Procedures" (by decide)
  refine (mergeDraft_holdsUnion_iff pairServices (HostFaults.none Nat) pairConfig (tipSnapshots "## Procedures") 0
    pairLoader pairServices_lawful ⟨"scope-1", .global, [[], "global"]⟩ ⟨"scope-0", .project, [[], "repo"]⟩
    globalFile fileOfSkill (by decide) (by decide) (tipFile "## Procedures") (tipFile "## Procedures")
    pairCandidate paired ⟨tipsFs "## Procedures", [], []⟩ _ _ (of_returned ran)).mpr ?_
  rw [mergeable_iff_of_plainProse (by decide +kernel)]
  exact ⟨by decide +kernel, fun _ _ => by decide +kernel⟩

end SkillLayer.Maintenance

import SkillLayer.SessionExtractor.Synthesis
import SkillLayer.SessionExtractor.WriterFrame
import SkillLayer.SessionExtractor.WriterRollback

/-! A batch of drafts is written as a whole or not at all. -/

namespace SkillLayer.SessionExtractor

open Domain

/-! ### All or nothing -/

/-- The directory of the pending drafts, where the scope is resolved. -/
def PendingDraftWriter.pendingRoot? (writer : PendingDraftWriter) : Option Path :=
  match writer.scopeRoot with
  | .ok scopeRoot => some (scopeRoot ++ [".skills".toList])
  | .error _ => none

/-- Clean-up and rollback are never refused. -/
structure UndoSucceeds (writer : PendingDraftWriter) : Prop where
  removes : Removes writer
  movesBack : ∀ directory index, writer.refusals
    (.rename (directory ++ [backupName writer.batchNonce index]) (directory ++ [pendingSkillFileName])) = none

section Outcomes

variable (writer : PendingDraftWriter) (extractionResult : ExtractionResult) (providerName : Str)

/-- The draft of a candidate is in place, without work files. -/
structure Persisted (root : Path) (entry : ExtractedSkillCandidate × Nat) (after : Fs) : Prop where
  draft : ∃ markdown, writer.render extractionResult.sourceSessionId providerName entry.1 entry.2 = .ok markdown ∧
    after.node (pendingPath root entry.1) = some (.file markdown)
  noTemp : ∀ content,
    after.node (proposalDirectory root entry.1 ++ [tempName writer.batchNonce entry.2]) ≠ some (.file content)
  noBackup : ∀ content,
    after.node (proposalDirectory root entry.1 ++ [backupName writer.batchNonce entry.2]) ≠ some (.file content)

/-- Every pending draft is as it was, and no work file of the batch is left that was not there. -/
structure Untouched (root : Path) (before after : Fs) : Prop where
  drafts : ∀ directory, ProposalDirectory directory →
    Spares (root ++ directory ++ [pendingSkillFileName]) before after
  workFiles : ∀ entry ∈ extractionResult.candidates.zipIdx, ∀ name,
    name = tempName writer.batchNonce entry.2 ∨ name = backupName writer.batchNonce entry.2 → ∀ content,
      after.node (proposalDirectory root entry.1 ++ [name]) = some (.file content) →
        before.node (proposalDirectory root entry.1 ++ [name]) = some (.file content)

/-- The batch is written as a whole or nothing of it is; other files are left alone. -/
structure AllOrNothing (before : Fs) (outcome : Except WriterError (List Path)) (after : Fs) : Prop where
  whole : ∀ paths, outcome = .ok paths → ∃ root, writer.pendingRoot? = some root ∧
    paths = extractionResult.candidates.map (pendingPath root) ∧
      ∀ entry ∈ extractionResult.candidates.zipIdx, Persisted writer extractionResult providerName root entry after
  nothing : ∀ error, outcome = .error error → ∀ root, writer.pendingRoot? = some root →
    Untouched writer extractionResult root before after
  others : ∀ path, (∀ root, writer.pendingRoot? = some root → ∀ candidate ∈ extractionResult.candidates,
    ¬ proposalDirectory root candidate <+: path) → Spares path before after

variable {writer extractionResult providerName}

theorem Untouched.of_gains {root : Path} {before after : Fs} (gains : before.Gains after) :
    Untouched writer extractionResult root before after :=
  ⟨fun _ _ => Spares.of_gains gains, fun _ _ _ _ content there => gains.files _ content there⟩

theorem AllOrNothing.of_gains {before after : Fs} (gains : before.Gains after) (error : WriterError) :
    AllOrNothing writer extractionResult providerName before (.error error) after where
  whole := by
    intro paths done
    cases done
  nothing _ _ _ _ := Untouched.of_gains gains
  others _ _ := Spares.of_gains gains

theorem Untouched.trans {root : Path} {before between after : Fs} (gains : before.Gains between)
    (untouched : Untouched writer extractionResult root between after) :
    Untouched writer extractionResult root before after where
  drafts directory proper := (Spares.of_gains gains).trans (untouched.drafts directory proper)
  workFiles entry member name isWork content there :=
    gains.files _ content (untouched.workFiles entry member name isWork content there)

end Outcomes

section Plans

variable {writer : PendingDraftWriter} {extractionResult : ExtractionResult} {providerName : Str} {root : Path} {fs : Fs}

theorem clears_of_outside {entry : ExtractedSkillCandidate × Nat} {path : Path} {sessionId : DomainId}
    (outside : ¬ proposalDirectory root entry.1 <+: path) :
    Clears path (planOf writer fs root sessionId providerName entry) := by
  have through (name : Str) : ¬ proposalDirectory root entry.1 ++ [name] <+: path :=
    fun inside => outside ((List.prefix_append _ _).trans inside)
  exact ⟨through _, through _, through _⟩

/-- A draft elsewhere is off the paths of a plan. -/
theorem clears_of_other {entry : ExtractedSkillCandidate × Nat} {directory : Path} {sessionId : DomainId}
    (proper : ProposalDirectory directory) (other : root ++ directory ++ [pendingSkillFileName] ≠ pendingPath root entry.1) :
    Clears (root ++ directory ++ [pendingSkillFileName]) (planOf writer fs root sessionId providerName entry) := by
  have elsewhere {work : Str} (isWork : WorkName work) :
      ¬ proposalDirectory root entry.1 ++ [work] <+: root ++ directory ++ [pendingSkillFileName] := by
    intro above
    rw [proposalDirectory, List.append_assoc, List.append_assoc, List.prefix_append_right_inj] at above
    have same := directory_eq_of_above proper isWork above
    apply other
    rw [pendingPath, proposalDirectory, same]
  exact ⟨elsewhere (Or.inl rfl), elsewhere (workName_temp _ _), elsewhere (workName_backup _ _)⟩

end Plans

section Batch

variable {writer : PendingDraftWriter} {extractionResult : ExtractionResult} {providerName : Str} {root : Path}
  {before after : Fs}

variable (writer extractionResult providerName root before) in
/-- The plans of the whole batch. -/
def batchPlans : List PendingWritePlan :=
  extractionResult.candidates.zipIdx.map (planOf writer before root extractionResult.sourceSessionId providerName)

theorem mem_batchPlans {entry : ExtractedSkillCandidate × Nat} (member : entry ∈ extractionResult.candidates.zipIdx) :
    planOf writer before root extractionResult.sourceSessionId providerName entry ∈
      batchPlans writer extractionResult providerName root before :=
  List.mem_map_of_mem member

theorem planUnder_batch : ∀ plan ∈ batchPlans writer extractionResult providerName root before, PlanUnder root plan := by
  intro plan known
  obtain ⟨entry, _, rfl⟩ := List.mem_map.mp known
  exact planUnder_planOf writer extractionResult.sourceSessionId providerName before root entry

variable (rooted : Rooted root before) (undo : UndoSucceeds writer)
  (distinct : (extractionResult.candidates.zipIdx.map fun entry => slugifySkillName entry.1.name).Nodup)

include rooted undo distinct

theorem persisted_of_succeeded {entry : ExtractedSkillCandidate × Nat}
    (member : entry ∈ extractionResult.candidates.zipIdx)
    (plannable : Plannable writer before root extractionResult.sourceSessionId providerName entry)
    (ran : Succeeds (writer.persistPlans (batchPlans writer extractionResult providerName root before)) before after) :
    Persisted writer extractionResult providerName root entry after := by
  have separate := pairwise_apart writer extractionResult.sourceSessionId providerName before root distinct
  have under := planUnder_planOf writer extractionResult.sourceSessionId providerName before root entry
  have left := slots_of_succeeded planUnder_batch separate (mem_batchPlans member) rooted undo.removes ran
  rw [slots_view under] at left
  obtain ⟨pending, noTemp, noBackup⟩ := left
  obtain ⟨markdown, rendered⟩ := plannable.renders
  refine ⟨⟨markdown, rendered, ?_⟩, fun content there => ?_, noBackup⟩
  · have sameText : markdownOf writer extractionResult.sourceSessionId providerName entry = markdown := by
      simp [markdownOf, rendered, Except.toOption]
    exact pending.trans (congrArg (fun text => some (Node.file text)) sameText)
  · exact absurd (noTemp.symm.trans there) (by simp)

theorem reverted_entry {entry : ExtractedSkillCandidate × Nat} {error : WriterError}
    (member : entry ∈ extractionResult.candidates.zipIdx)
    (failed : writer.persistPlans (batchPlans writer extractionResult providerName root before) before =
      .error error after) :
    after.node (pendingPath root entry.1) = before.node (pendingPath root entry.1) ∧
      ∀ name, name = tempName writer.batchNonce entry.2 ∨ name = backupName writer.batchNonce entry.2 → ∀ content,
        after.node (proposalDirectory root entry.1 ++ [name]) = some (.file content) →
          before.node (proposalDirectory root entry.1 ++ [name]) = some (.file content) := by
  have separate := pairwise_apart writer extractionResult.sourceSessionId providerName before root distinct
  have under := planUnder_planOf writer extractionResult.sourceSessionId providerName before root entry
  have movesBack : ∀ plan ∈ batchPlans writer extractionResult providerName root before, MovesBack writer plan := by
    intro plan known
    obtain ⟨other, _, rfl⟩ := List.mem_map.mp known
    exact undo.movesBack (proposalDirectory root other.1) other.2
  have reverted := reverted_of_failed planUnder_batch separate (mem_batchPlans member) rooted undo.removes movesBack rfl
    failed
  rw [slots_view under, slots_view under] at reverted
  refine ⟨reverted.pending, fun name isWork => ?_⟩
  rcases isWork with rfl | rfl
  · exact reverted.temp
  · exact reverted.backup

/-- A failing batch leaves every pending draft as it was. -/
theorem untouched_of_failed {error : WriterError}
    (failed : writer.persistPlans (batchPlans writer extractionResult providerName root before) before =
      .error error after) : Untouched writer extractionResult root before after where
  drafts directory proper := by
    by_cases ofBatch : ∃ entry ∈ extractionResult.candidates.zipIdx,
        root ++ directory ++ [pendingSkillFileName] = pendingPath root entry.1
    · obtain ⟨entry, member, here⟩ := ofBatch
      rw [here]
      exact Spares.of_node (reverted_entry rooted undo distinct member failed).1
    · have clears : ∀ plan ∈ batchPlans writer extractionResult providerName root before,
          Clears (root ++ directory ++ [pendingSkillFileName]) plan := by
        intro plan known
        obtain ⟨entry, member, rfl⟩ := List.mem_map.mp known
        exact clears_of_other proper fun same => ofBatch ⟨entry, member, same⟩
      exact (spares_persistPlans writer clears before).of_error failed
  workFiles entry member := (reverted_entry rooted undo distinct member failed).2

end Batch

/-! ### The whole call -/

/-- A batch ends with every draft in place or with everything as it was. -/
theorem writePendingDrafts_allOrNothing {writer : PendingDraftWriter} (undo : UndoSucceeds writer)
    (extractionResult : ExtractionResult) (providerName : Str) (before : Fs) :
    Leads (writer.writePendingDrafts extractionResult providerName) before
      fun outcome after => AllOrNothing writer extractionResult providerName before outcome after := by
  cases resolved : writer.scopeRoot with
  | error error =>
    have stopped : writer.writePendingDrafts extractionResult providerName before = .error error before := by
      unfold PendingDraftWriter.writePendingDrafts
      rw [resolved]
      rfl
    rw [Leads, stopped]
    exact AllOrNothing.of_gains (Fs.Gains.refl before) error
  | ok scopeRoot =>
  generalize named : scopeRoot ++ [".skills".toList] = root
  have rootOf : writer.pendingRoot? = some root := by rw [PendingDraftWriter.pendingRoot?, resolved, ← named]
  have grown := Fs.leads_createDirs writer.refusals root.inits.tail before
  cases made : Fs.createDirAll writer.refusals root before with
  | error message rootless =>
    have stopped : writer.writePendingDrafts extractionResult providerName before =
        .error (.writeFailure root.display message) rootless := by
      unfold PendingDraftWriter.writePendingDrafts
      simp only [resolved, ofExcept, named, bind, EStateM.bind, pure, EStateM.pure, orWriteFailure, made]
    rw [Leads, stopped]
    exact AllOrNothing.of_gains (grown.of_error made) _
  | ok done rooted =>
    have gains : before.Gains rooted := grown.of_ok made
    have levels : Rooted root rooted := (Fs.of_createDirs made).1
    have whole := writePendingDrafts_eq writer providerName resolved (by rw [named]; exact made) extractionResult
    rw [named] at whole
    rw [Leads, whole]
    cases built : writer.buildWritePlans rooted root extractionResult providerName with
    | error error => exact AllOrNothing.of_gains gains error
    | ok plans =>
      obtain ⟨plannable, paths, -, rfl⟩ := (planDrafts_eq_ok writer rooted root extractionResult.sourceSessionId
        providerName).mp built
      have distinct : (extractionResult.candidates.zipIdx.map fun entry => slugifySkillName entry.1.name).Nodup := by
        rw [List.Nodup, List.pairwise_map] at paths ⊢
        exact paths.imp fun different same => different (pendingPath_inj.mpr same)
      have apart (path : Path) (outside : ∀ root, writer.pendingRoot? = some root →
          ∀ candidate ∈ extractionResult.candidates, ¬ proposalDirectory root candidate <+: path) :
          ∀ plan ∈ batchPlans writer extractionResult providerName root rooted, Clears path plan := by
        intro plan known
        obtain ⟨entry, member, rfl⟩ := List.mem_map.mp known
        exact clears_of_outside (outside root rootOf entry.1 (List.fst_mem_of_mem_zipIdx member))
      have spared (path : Path) (outside : ∀ root, writer.pendingRoot? = some root →
          ∀ candidate ∈ extractionResult.candidates, ¬ proposalDirectory root candidate <+: path) :=
        spares_persistPlans writer (apart path outside) rooted
      dsimp only
      have folded : extractionResult.candidates.zipIdx.map (planOf writer rooted root extractionResult.sourceSessionId
          providerName) = batchPlans writer extractionResult providerName root rooted := rfl
      rw [folded]
      cases ran : writer.persistPlans (batchPlans writer extractionResult providerName root rooted) rooted with
      | error error after =>
        refine ⟨fun paths done => ?_, fun _ _ other isRoot => ?_, fun path outside => ?_⟩
        · cases done
        · obtain rfl := Option.some.inj (isRoot.symm.trans rootOf)
          exact (untouched_of_failed levels undo distinct ran).trans gains
        · exact (Spares.of_gains gains).trans ((spared path outside).of_error ran)
      | ok _ after =>
        refine ⟨fun paths done => ⟨root, rootOf, ?_, fun entry member => ?_⟩, fun error failed => ?_,
          fun path outside => ?_⟩
        · rw [← Except.ok.inj done, batchPlans, List.map_map]
          conv_rhs => rw [← List.zipIdx_map_fst 0 extractionResult.candidates, List.map_map]
          rfl
        · exact persisted_of_succeeded levels undo distinct member (plannable entry member) ran
        · cases failed
        · exact (Spares.of_gains gains).trans ((spared path outside).of_ok ran)

/-! ### A disk that fills up -/

/-- A writer on a disk without space: a write breaks off after its first line. -/
def fullDiskWriter : PendingDraftWriter :=
  { cacheWriter with
    refusals := fun operation =>
      match operation with
      | .write _ => some "No space left on device"
      | _ => none
    torn := fun _ => some "---" }

theorem fullDisk_allOrNothing :
    Leads (fullDiskWriter.writePendingDrafts ⟨⟨"s1"⟩, [cacheCandidate "Cache builds"], "ollama"⟩ "ollama") cacheFs
      fun outcome after => AllOrNothing fullDiskWriter ⟨⟨"s1"⟩, [cacheCandidate "Cache builds"], "ollama"⟩ "ollama"
        cacheFs outcome after :=
  writePendingDrafts_allOrNothing ⟨fun _ => rfl, fun _ _ => rfl⟩ _ _ _

end SkillLayer.SessionExtractor

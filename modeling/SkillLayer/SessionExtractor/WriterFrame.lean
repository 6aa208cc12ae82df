import SkillLayer.SessionExtractor.Writer

/-! What a batch of drafts leaves alone, however it ends: every file outside the paths of its
plans, and so every directory with a tombstone. -/

namespace SkillLayer.SessionExtractor

open Domain

/-- A file at the path is there before exactly when it is there after, with the same content. -/
def Spares (path : Path) (before after : Fs) : Prop :=
  ∀ content, after.node path = some (.file content) ↔ before.node path = some (.file content)

theorem Spares.refl (path : Path) (fs : Fs) : Spares path fs fs := fun _ => Iff.rfl

theorem Spares.trans {path : Path} {before between after : Fs} (first : Spares path before between)
    (second : Spares path between after) : Spares path before after :=
  fun content => (second content).trans (first content)

theorem Spares.of_gains {path : Path} {before after : Fs} (gains : before.Gains after) :
    Spares path before after :=
  fun content => ⟨gains.files path content, gains.kept path (.file content)⟩

theorem Spares.of_node {path : Path} {before after : Fs} (same : after.node path = before.node path) :
    Spares path before after := fun content => by rw [same]

/-- The path does not lead into or through any path of the plan. -/
structure Clears (path : Path) (plan : PendingWritePlan) : Prop where
  pending : ¬ plan.pendingPath <+: path
  temp : ¬ plan.tempPath <+: path
  backup : ¬ plan.backupPath <+: path

theorem ne_of_not_below {path other : Path} (off : ¬ other <+: path) : path ≠ other := by
  rintro rfl
  exact off (List.prefix_refl _)

section Operations

variable (refusals : Refusals) {path source target : Path} {before : Fs}

theorem spares_rename (offSource : ¬ source <+: path) (offTarget : ¬ target <+: path) :
    Leads (Fs.rename refusals source target) before fun _ after => Spares path before after := by
  rw [Fs.rename, Fs.leads_guarded]
  split
  · exact Spares.of_node (Fs.node_relocate_of_not_prefix offTarget offSource)
  · exact Spares.refl path before

theorem spares_write {torn : Path → Option Str} {content : Str} (off : ¬ target <+: path) :
    Leads (Fs.write refusals torn target content) before fun _ after => Spares path before after := by
  refine (Fs.leads_write refusals torn target content before).mono fun _ after ends => ?_
  rcases ends with rfl | ⟨part, rfl⟩
  · exact Spares.refl path _
  · exact Spares.of_node (Fs.node_put_of_ne (ne_of_not_below off))

theorem spares_removeFile (off : ¬ target <+: path) :
    Leads (Fs.removeFile refusals target) before fun _ after => Spares path before after := by
  rw [Fs.removeFile, Fs.leads_guarded]
  split
  · exact Spares.of_node (Fs.node_put_of_ne (ne_of_not_below off))
  · exact Spares.refl path before

theorem spares_attempt {action : EStateM Str Fs PUnit}
    (leads : Leads action before fun _ after => Spares path before after) :
    Spares path before (Fs.attempt action before) := by
  unfold Leads at leads
  unfold Fs.attempt
  cases ran : action before <;> rw [ran] at leads <;> exact leads

theorem leads_orWriteFailure {action : EStateM Str Fs PUnit} {Holds : Fs → Prop}
    (leads : Leads action before fun _ after => Holds after) :
    Leads (orWriteFailure target action) before fun _ after => Holds after := by
  unfold Leads orWriteFailure at *
  cases ran : action before <;> rw [ran] at leads <;> exact leads

/-- The clean-up after a failure adds its own changes. -/
theorem leads_recovering {action : EStateM WriterError Fs PUnit} {cleanup : Fs → Fs}
    (leads : Leads action before fun _ after => Spares path before after)
    (cleaned : ∀ fs, Spares path fs (cleanup fs)) :
    Leads (recovering action cleanup) before fun _ after => Spares path before after := by
  unfold Leads recovering at *
  cases ran : action before with
  | ok done after =>
    rw [ran] at leads
    exact leads
  | error error after =>
    rw [ran] at leads
    exact Spares.trans leads (cleaned after)

/-- One action after another, each sparing the path. -/
theorem leads_then {Out : Type} {first : EStateM WriterError Fs PUnit} {second : PUnit → EStateM WriterError Fs Out}
    (leading : Leads first before fun _ after => Spares path before after)
    (trailing : ∀ between, Leads (second ⟨⟩) between fun _ after => Spares path between after) :
    Leads (first >>= second) before fun _ after => Spares path before after := by
  rw [leads_bind]
  apply leading.mono
  intro result between spared
  cases result with
  | error error => exact spared
  | ok _ => exact (trailing between).mono fun _ after further => spared.trans further

end Operations

/-! ### The batch -/

section Batch

variable (writer : PendingDraftWriter) {path : Path} {plans : List PendingWritePlan}

theorem spares_cleanupPaths {targets : List Path} (off : ∀ target ∈ targets, ¬ target <+: path) (fs : Fs) :
    Spares path fs (writer.cleanupPaths targets fs) := by
  induction targets generalizing fs with
  | nil => exact Spares.refl path fs
  | cons target rest ih =>
    have later := ih (fun other member => off other (List.mem_cons_of_mem _ member)) (writer.cleanupPath fs target)
    refine Spares.trans ?_ later
    unfold PendingDraftWriter.cleanupPath
    split
    · exact spares_attempt (spares_removeFile writer.refusals (off target List.mem_cons_self))
    · exact Spares.refl path fs

theorem spares_rollback {moved : List PendingWritePlan} (clears : ∀ plan ∈ moved, Clears path plan) (fs : Fs) :
    Spares path fs (writer.rollbackBackupMoves moved fs) := by
  have onward (plans : List PendingWritePlan) (clears : ∀ plan ∈ plans, Clears path plan) (fs : Fs) :
      Spares path fs (plans.foldl (fun fs plan =>
        Fs.attempt (Fs.rename writer.refusals plan.backupPath plan.pendingPath) fs) fs) := by
    induction plans generalizing fs with
    | nil => exact Spares.refl path fs
    | cons plan rest ih =>
      have here := clears plan List.mem_cons_self
      exact Spares.trans (spares_attempt (spares_rename writer.refusals here.backup here.pending))
        (ih (fun other member => clears other (List.mem_cons_of_mem _ member)) _)
  exact onward moved.reverse (fun plan member => clears plan (List.mem_reverse.mp member)) fs

theorem spares_cleanup (clears : ∀ plan ∈ plans, Clears path plan) {part : PendingWritePlan → Path}
    (off : ∀ plan, Clears path plan → ¬ part plan <+: path) (fs : Fs) :
    Spares path fs (writer.cleanupPaths (plans.map part) fs) := by
  refine spares_cleanupPaths writer (fun target member => ?_) fs
  obtain ⟨plan, known, rfl⟩ := List.mem_map.mp member
  exact off plan (clears plan known)

theorem spares_forEach {step : PendingWritePlan → EStateM WriterError Fs PUnit} (before : Fs)
    (spares : ∀ plan ∈ plans, ∀ fs, Leads (step plan) fs fun _ after => Spares path fs after) :
    Leads (forEach step plans) before fun _ after => Spares path before after := by
  induction plans generalizing before with
  | nil => exact Spares.refl path before
  | cons plan rest ih =>
    exact leads_then (spares plan List.mem_cons_self before) fun between =>
      ih between fun other member => spares other (List.mem_cons_of_mem _ member)

theorem spares_createProposalDirectory (plan : PendingWritePlan) (fs : Fs) :
    Leads (writer.createProposalDirectory plan) fs fun _ after => Spares path fs after :=
  leads_orWriteFailure ((Fs.leads_createDirs writer.refusals _ fs).mono fun _ _ => Spares.of_gains)

theorem spares_moveBackups (clears : ∀ plan ∈ plans, Clears path plan) {moved rest : List PendingWritePlan}
    (clearsMoved : ∀ plan ∈ moved, Clears path plan) (clearsRest : ∀ plan ∈ rest, Clears path plan) (before : Fs) :
    Leads (writer.moveBackups plans moved rest) before fun _ after => Spares path before after := by
  induction rest generalizing moved before with
  | nil => exact Spares.refl path before
  | cons plan rest ih =>
    have here := clearsRest plan List.mem_cons_self
    refine leads_then (leads_recovering
      (leads_orWriteFailure (spares_rename writer.refusals here.pending here.backup)) fun fs => ?_) fun between => ?_
    · exact (spares_cleanup writer clears (fun _ => Clears.temp) fs).trans (spares_rollback writer clearsMoved _)
    · refine ih (fun other member => ?_) (fun other member => clearsRest other (List.mem_cons_of_mem _ member)) between
      rcases List.mem_append.mp member with known | last
      · exact clearsMoved other known
      · rw [List.mem_singleton.mp last]
        exact here

theorem spares_commitAll (clears : ∀ plan ∈ plans, Clears path plan) {committed rest : List PendingWritePlan}
    (clearsCommitted : ∀ plan ∈ committed, Clears path plan) (clearsRest : ∀ plan ∈ rest, Clears path plan)
    (before : Fs) :
    Leads (writer.commitAll plans committed rest) before fun _ after => Spares path before after := by
  induction rest generalizing committed before with
  | nil => exact Spares.refl path before
  | cons plan rest ih =>
    have here := clearsRest plan List.mem_cons_self
    refine leads_then (leads_recovering
      (leads_orWriteFailure (spares_rename writer.refusals here.temp here.pending)) fun fs => ?_) fun between => ?_
    · refine (spares_cleanup writer clears (fun _ => Clears.temp) fs).trans
        ((spares_cleanup writer clearsCommitted (fun _ => Clears.pending) _).trans (spares_rollback writer ?_ _))
      exact fun other member => clears other (List.mem_of_mem_filter member)
    · refine ih (fun other member => ?_) (fun other member => clearsRest other (List.mem_cons_of_mem _ member)) between
      rcases List.mem_append.mp member with known | last
      · exact clearsCommitted other known
      · rw [List.mem_singleton.mp last]
        exact here

/-- Persisting leaves every file alone that is off the paths of the plans. -/
theorem spares_persistPlans (clears : ∀ plan ∈ plans, Clears path plan) (before : Fs) :
    Leads (writer.persistPlans plans) before fun _ after => Spares path before after := by
  unfold PendingDraftWriter.persistPlans
  refine leads_then (spares_forEach before fun plan _ fs => spares_createProposalDirectory writer plan fs) fun made => ?_
  refine leads_then (leads_recovering (spares_forEach made fun plan known fs =>
    leads_orWriteFailure (spares_write writer.refusals (clears plan known).temp))
    (spares_cleanup writer clears fun _ => Clears.temp)) fun written => ?_
  refine leads_then (spares_moveBackups writer clears (by simp)
    (fun plan member => clears plan (List.mem_of_mem_filter member)) written) fun saved => ?_
  refine leads_then (spares_commitAll writer clears (by simp) clears saved) fun committed => ?_
  exact spares_cleanup writer clears (fun _ => Clears.backup) committed

/-! ### Directories with a tombstone -/

/-- A file name that the writers use while they work. -/
def WorkName (name : Str) : Prop :=
  name = pendingSkillFileName ∨ '.' :: pendingSkillFileName ++ ['.'] <+: name

instance : DecidablePred WorkName := fun _ => inferInstanceAs (Decidable (_ ∨ _))

/-- A directory that is not below a work file. -/
def ProposalDirectory (directory : Path) : Prop := ∀ segment ∈ directory, ¬ WorkName segment

instance : DecidablePred ProposalDirectory := fun directory =>
  inferInstanceAs (Decidable (∀ segment ∈ directory, ¬ WorkName segment))

def Tombstoned (directory : Path) (fs : Fs) : Prop :=
  ∃ content, fs.node (directory ++ [rejectedSkillFileName]) = some (.file content)

/-- Every plan of a batch is of a candidate without a tombstone. -/
theorem mem_planDrafts {fs : Fs} {pendingRoot : Path} {sourceSessionId : DomainId} {providerName : Str}
    {taken : List Path} {candidates : List (ExtractedSkillCandidate × Nat)}
    (planned : writer.planDrafts fs pendingRoot sourceSessionId providerName taken candidates = .ok plans)
    {plan : PendingWritePlan} (member : plan ∈ plans) :
    ∃ candidate index markdown, plan = writer.writePlan fs pendingRoot candidate index markdown ∧
      ¬ Tombstoned (proposalDirectory pendingRoot candidate) fs := by
  induction candidates generalizing taken plans with
  | nil =>
    cases planned
    cases member
  | cons entry rest ih =>
    obtain ⟨candidate, index⟩ := entry
    rw [PendingDraftWriter.planDrafts] at planned
    cases drafted : writer.planDraft fs pendingRoot sourceSessionId providerName taken candidate index with
    | error error => simp [drafted, bind, Except.bind] at planned
    | ok first =>
      cases others : writer.planDrafts fs pendingRoot sourceSessionId providerName (first.pendingPath :: taken)
          rest with
      | error error => simp [drafted, others, bind, Except.bind] at planned
      | ok more =>
        simp only [drafted, others, bind, Except.bind, pure, Except.pure, Except.ok.injEq] at planned
        subst planned
        rcases List.mem_cons.mp member with rfl | later
        · unfold PendingDraftWriter.planDraft at drafted
          split at drafted
          · cases drafted
          · rename_i noTombstone
            split at drafted
            · cases drafted
            · split at drafted
              · cases drafted
              · rename_i markdown _
                refine ⟨candidate, index, markdown, (Except.ok.inj drafted).symm, ?_⟩
                rintro ⟨content, there⟩
                exact noTombstone (by simp [Fs.isFile, rejectedTombstonePath, there])
        · exact ih others later

theorem workName_temp (batchNonce : Str) (index : Nat) : WorkName (tempName batchNonce index) := by
  refine Or.inr ⟨batchNonce ++ ['.'] ++ Str.ofNat index ++ ".tmp".toList, ?_⟩
  simp [tempName]

theorem workName_backup (batchNonce : Str) (index : Nat) : WorkName (backupName batchNonce index) := by
  refine Or.inr ⟨batchNonce ++ ['.'] ++ Str.ofNat index ++ ".bak".toList, ?_⟩
  simp [backupName]

/-- A work file leads to a file of a proposal directory only as a file of that directory. -/
theorem directory_eq_of_above {directory proposal : Path} {work name : Str}
    (proper : ProposalDirectory directory) (isWork : WorkName work)
    (above : proposal ++ [work] <+: directory ++ [name]) : proposal = directory := by
  rcases List.prefix_concat_iff.mp above with same | inside
  · exact (List.append_inj' same rfl).1
  · have member : work ∈ directory := inside.subset (by simp)
    exact absurd isWork (proper work member)

theorem clears_of_tombstone {fs : Fs} {pendingRoot directory : Path} {candidate : ExtractedSkillCandidate}
    {index : Nat} {markdown name : Str} (proper : ProposalDirectory directory) (tombstone : Tombstoned directory fs)
    (gated : ¬ Tombstoned (proposalDirectory pendingRoot candidate) fs) :
    Clears (directory ++ [name]) (writer.writePlan fs pendingRoot candidate index markdown) := by
  have elsewhere {work : Str} (isWork : WorkName work) :
      ¬ proposalDirectory pendingRoot candidate ++ [work] <+: directory ++ [name] := by
    intro above
    rw [directory_eq_of_above proper isWork above] at gated
    exact gated tombstone
  exact ⟨elsewhere (Or.inl rfl), elsewhere (workName_temp _ _), elsewhere (workName_backup _ _)⟩

/-- A batch, however it ends, leaves the files of a directory with a tombstone as they are. -/
theorem spares_writePendingDrafts {directory : Path} (name : Str) (proper : ProposalDirectory directory)
    {before : Fs} (tombstone : Tombstoned directory before) (extractionResult : ExtractionResult)
    (providerName : Str) :
    Leads (writer.writePendingDrafts extractionResult providerName) before
      fun _ after => Spares (directory ++ [name]) before after := by
  unfold PendingDraftWriter.writePendingDrafts
  cases writer.scopeRoot with
  | error error => exact Spares.refl _ before
  | ok scopeRoot =>
  change Leads (orWriteFailure _ _ >>= _) before _
  rw [leads_bind]
  have rootMade : Leads (Fs.createDirAll writer.refusals (scopeRoot ++ [".skills".toList])) before
      fun _ after => before.Gains after := Fs.leads_createDirs writer.refusals _ before
  apply (leads_orWriteFailure rootMade).mono
  intro result between gains
  cases result with
  | error error => exact Spares.of_gains gains
  | ok _ =>
  dsimp only
  rw [leads_get_bind]
  cases planned : writer.buildWritePlans between (scopeRoot ++ [".skills".toList]) extractionResult providerName with
  | error error => exact Spares.of_gains gains
  | ok plans =>
  have still : Tombstoned directory between := by
    obtain ⟨content, there⟩ := tombstone
    exact ⟨content, gains.kept _ _ there⟩
  have clears : ∀ plan ∈ plans, Clears (directory ++ [name]) plan := by
    intro plan member
    obtain ⟨candidate, index, markdown, rfl, gated⟩ := mem_planDrafts writer planned member
    exact clears_of_tombstone writer proper still gated
  change Leads (if plans.isEmpty = true then pure [] else _) between _
  split
  · exact Spares.of_gains gains
  · have persisted : Leads (do
          writer.persistPlans plans
          return plans.map PendingWritePlan.pendingPath) between
        fun _ after => Spares (directory ++ [name]) between after :=
      leads_then (spares_persistPlans writer clears between) fun after => Spares.refl _ after
    exact persisted.mono fun _ _ => (Spares.of_gains gains).trans

end Batch
end SkillLayer.SessionExtractor

import Mathlib.Data.List.Pairwise
import SkillLayer.SessionExtractor.WriterBatch

/-! What a batch of drafts that fails leaves of each draft: the clean-up and the moves back undo
what the loops had done. -/

namespace SkillLayer.SessionExtractor

open Domain

/-! ### The files of one draft -/

/-- The proposal directory of a draft and its three files. -/
structure Slots where
  directory : Option Node
  pending : Option Node
  temp : Option Node
  backup : Option Node

namespace Slots

def madeDirectory (slots : Slots) : Slots := { slots with directory := some .directory }

def written (markdown : Str) (slots : Slots) : Slots := { slots with temp := some (.file markdown) }

def backedUp (slots : Slots) : Slots := { slots with pending := none, backup := slots.pending }

def committed (slots : Slots) : Slots := { slots with pending := slots.temp, temp := none }

/-- What `remove_file` leaves of a path. -/
def removed : Option Node → Option Node
  | some (.file _) => none
  | node => node

def movedBack (slots : Slots) : Slots :=
  if Fs.renameBlocked slots.directory slots.backup slots.pending none = none then
    { slots with pending := slots.backup, backup := none }
  else slots

theorem removed_ne_file (node : Option Node) (content : Str) : removed node ≠ some (.file content) := by
  cases node with
  | none => simp [removed]
  | some node => cases node <;> simp [removed]

end Slots

def slots (plan : PendingWritePlan) (part : Fs) : Slots where
  directory := part.node []
  pending := part.node (inside plan plan.pendingPath)
  temp := part.node (inside plan plan.tempPath)
  backup := part.node (inside plan plan.backupPath)

/-- Three different names in the proposal directory. -/
structure Names (plan : PendingWritePlan) (pending temp backup : Str) : Prop where
  pendingIn : inside plan plan.pendingPath = [pending]
  tempIn : inside plan plan.tempPath = [temp]
  backupIn : inside plan plan.backupPath = [backup]
  tempPending : temp ≠ pending
  backupPending : backup ≠ pending
  tempBackup : temp ≠ backup

theorem PlanUnder.names {root : Path} {plan : PendingWritePlan} (under : PlanUnder root plan) :
    ∃ temp backup, Names plan pendingSkillFileName temp backup := by
  obtain ⟨temp, tempOther, tempAt⟩ := under.temp
  obtain ⟨backup, backupOther, backupAt⟩ := under.backup
  refine ⟨temp, backup, inside_of_eq under.pending, inside_of_eq tempAt, inside_of_eq backupAt, tempOther,
    backupOther, ?_⟩
  intro same
  rw [same] at tempAt
  exact under.distinct (tempAt.trans backupAt.symm)

/-- The slots of a draft are read off the file system. -/
theorem slots_view {root : Path} {plan : PendingWritePlan} (under : PlanUnder root plan) (fs : Fs) :
    slots plan (viewPlan plan fs) =
      ⟨fs.node plan.proposalDirectory, fs.node plan.pendingPath, fs.node plan.tempPath, fs.node plan.backupPath⟩ := by
  obtain ⟨temp, -, tempAt⟩ := under.temp
  obtain ⟨backup, -, backupAt⟩ := under.backup
  rw [slots, inside_of_eq under.pending, inside_of_eq tempAt, inside_of_eq backupAt, node_view fs under.pending,
    node_view fs tempAt, node_view fs backupAt, node_view_nil]

section Names

variable {plan : PendingWritePlan} {pending temp backup : Str} (names : Names plan pending temp backup) (part : Fs)

theorem slots_eq (names : Names plan pending temp backup) :
    slots plan part = ⟨part.node [], part.node [pending], part.node [temp], part.node [backup]⟩ := by
  rw [slots, names.pendingIn, names.tempIn, names.backupIn]

include names

theorem slots_withDirectory : slots plan (withDirectory part) = (slots plan part).madeDirectory := by
  simp [slots_eq _ names, withDirectory, Fs.put, Slots.madeDirectory]

theorem slots_put_temp (content : Str) :
    slots plan (part.put (inside plan plan.tempPath) (some (.file content))) = (slots plan part).written content := by
  have toPending := names.tempPending.symm
  have toBackup := names.tempBackup.symm
  simp [slots_eq _ names, names.tempIn, Fs.put, Slots.written, toPending, toBackup]

theorem slots_backedUp :
    slots plan (part.relocate (inside plan plan.pendingPath) (inside plan plan.backupPath)) =
      (slots plan part).backedUp := by
  have first := names.tempPending.symm
  have second := names.tempBackup.symm
  have third := names.backupPending
  simp [slots_eq _ names, names.pendingIn, names.backupIn, Fs.relocate, Slots.backedUp, first, second, third]

theorem slots_committed :
    slots plan (part.relocate (inside plan plan.tempPath) (inside plan plan.pendingPath)) =
      (slots plan part).committed := by
  have first := names.tempPending.symm
  have second := names.tempBackup
  have third := names.backupPending.symm
  simp [slots_eq _ names, names.pendingIn, names.tempIn, Fs.relocate, Slots.committed, first, second, third]

end Names

/-! ### Undoing -/

/-- No removal is refused. -/
def Removes (writer : PendingDraftWriter) : Prop := ∀ path, writer.refusals (.removeFile path) = none

/-- The move of a backup back to its pending path is not refused. -/
def MovesBack (writer : PendingDraftWriter) (plan : PendingWritePlan) : Prop :=
  writer.refusals (.rename plan.backupPath plan.pendingPath) = none

def dropFile (path : Path) (part : Fs) : Fs := if part.isFile path then part.put path none else part

def moveBack (backup pending : Path) (part : Fs) : Fs :=
  if Fs.renameBlocked (part.node []) (part.node backup) (part.node pending) none = none then
    part.relocate backup pending
  else part

theorem node_dropFile (path other : Path) (part : Fs) :
    (dropFile path part).node other = if other = path then Slots.removed (part.node path) else part.node other := by
  unfold dropFile Fs.isFile
  cases there : part.node path with
  | none => by_cases same : other = path <;> simp [same, there, Slots.removed]
  | some node =>
    cases node with
    | file content => by_cases same : other = path <;> simp [Fs.put, same, Slots.removed]
    | directory => by_cases same : other = path <;> simp [same, there, Slots.removed]

section Names

variable {plan : PendingWritePlan} {pending temp backup : Str} (names : Names plan pending temp backup) (part : Fs)

include names

theorem slots_dropTemp : slots plan (dropFile (inside plan plan.tempPath) part) =
    { slots plan part with temp := Slots.removed (slots plan part).temp } := by
  have toPending := names.tempPending.symm
  have toBackup := names.tempBackup.symm
  simp [slots_eq _ names, names.tempIn, node_dropFile, toPending, toBackup]

theorem slots_dropPending : slots plan (dropFile (inside plan plan.pendingPath) part) =
    { slots plan part with pending := Slots.removed (slots plan part).pending } := by
  have toTemp := names.tempPending
  have toBackup := names.backupPending
  simp [slots_eq _ names, names.pendingIn, node_dropFile, toTemp, toBackup]

theorem slots_dropBackup : slots plan (dropFile (inside plan plan.backupPath) part) =
    { slots plan part with backup := Slots.removed (slots plan part).backup } := by
  have toTemp := names.tempBackup
  have toPending := names.backupPending.symm
  simp [slots_eq _ names, names.backupIn, node_dropFile, toTemp, toPending]

theorem slots_moveBack : slots plan (moveBack (inside plan plan.backupPath) (inside plan plan.pendingPath) part) =
    (slots plan part).movedBack := by
  have first := names.tempPending.symm
  have second := names.tempBackup.symm
  have third := names.backupPending.symm
  unfold moveBack Slots.movedBack
  rw [names.pendingIn, names.backupIn]
  by_cases free : Fs.renameBlocked (part.node []) (part.node [backup]) (part.node [pending]) none = none
  · simp [slots_eq _ names, Fs.relocate, free, first, second, third]
  · simp [slots_eq _ names, free]

end Names

section Changes

variable {writer : PendingDraftWriter} {root : Path}

theorem cleanupPath_eq (removes : Removes writer) (fs : Fs) (path : Path) :
    writer.cleanupPath fs path = dropFile path fs := by
  unfold PendingDraftWriter.cleanupPath dropFile
  rw [Fs.removeFile, Fs.attempt_guarded]
  by_cases isFile : fs.isFile path = true
  · obtain ⟨content, there⟩ := Fs.isFile_iff.mp isFile
    rw [if_pos isFile, if_pos isFile, if_pos (removes path), Fs.exists?, there, Option.isSome_some, if_pos rfl]
  · rw [if_neg isFile, if_neg isFile, if_neg (Option.some_ne_none _), ite_self]

/-- A clean-up of one file of each draft, as a change of the drafts' directories. -/
theorem cleanup_local (removes : Removes writer) (file : PendingWritePlan → Path)
    (located : ∀ {plan}, PlanUnder root plan → ∃ name, file plan = plan.proposalDirectory ++ [name]) :
    LocalChange (PlanUnder root) viewPlan Apart (fun plan part => dropFile (inside plan (file plan)) part)
      (fun fs plan => writer.cleanupPath fs (file plan)) where
  acts := by
    intro plan fs under
    obtain ⟨name, here⟩ := located under
    rw [cleanupPath_eq removes, inside_of_eq here]
    have same : (viewPlan plan fs).isFile [name] = fs.isFile (file plan) := by
      rw [Fs.isFile, node_view fs here, Fs.isFile]
    unfold dropFile
    rw [same]
    split
    · rw [here]
      exact Fs.subtree_put fs _ _ _
    · rfl
  frame := by
    intro plan other fs under apart
    obtain ⟨name, here⟩ := located under
    rw [cleanupPath_eq removes, dropFile, here]
    split
    · exact Fs.subtree_of_within (Fs.within_put fs _ _ _) apart.1 apart.2
    · rfl

theorem moveBack_local :
    LocalChange (fun plan => PlanUnder root plan ∧ MovesBack writer plan) viewPlan Apart
      (fun plan part => moveBack (inside plan plan.backupPath) (inside plan plan.pendingPath) part)
      (fun fs plan => Fs.attempt (Fs.rename writer.refusals plan.backupPath plan.pendingPath) fs) := by
  have attempted {plan : PendingWritePlan} (movesBack : MovesBack writer plan) (fs : Fs) :
      Fs.attempt (Fs.rename writer.refusals plan.backupPath plan.pendingPath) fs =
        if Fs.renameBlocked (fs.node plan.pendingPath.parent) (fs.node plan.backupPath) (fs.node plan.pendingPath)
          none = none then fs.relocate plan.backupPath plan.pendingPath else fs := by
    rw [Fs.rename, Fs.attempt_guarded, movesBack]
  constructor
  · rintro plan fs ⟨under, movesBack⟩
    obtain ⟨backup, -, backupAt⟩ := under.backup
    rw [attempted movesBack, inside_of_eq backupAt, inside_of_eq under.pending, moveBack, node_view fs backupAt,
      node_view fs under.pending, node_view_nil, parent_of_eq under.pending]
    split
    · have moved := Fs.subtree_relocate fs plan.proposalDirectory [backup] [pendingSkillFileName]
      rwa [← backupAt, ← under.pending] at moved
    · rfl
  · rintro plan other fs ⟨under, movesBack⟩ apart
    obtain ⟨backup, -, backupAt⟩ := under.backup
    rw [attempted movesBack]
    split
    · have moved := Fs.within_relocate fs plan.proposalDirectory [backup] [pendingSkillFileName]
      rw [← backupAt, ← under.pending] at moved
      exact Fs.subtree_of_within moved apart.1 apart.2
    · rfl

end Changes

/-! ### Where a batch fails -/

section Failures

variable {writer : PendingDraftWriter} {error : WriterError} {before after : Fs}

theorem recovering_fails {action : EStateM WriterError Fs PUnit} {cleanup : Fs → Fs}
    (failed : recovering action cleanup before = .error error after) :
    ∃ broken, action before = .error error broken ∧ after = cleanup broken := by
  unfold recovering at failed
  cases ran : action before with
  | ok done between => simp [ran] at failed
  | error other between =>
    simp only [ran, EStateM.Result.error.injEq] at failed
    exact ⟨between, by rw [failed.1], failed.2.symm⟩

theorem orWriteFailure_fails {path : Path} {action : EStateM Str Fs PUnit}
    (failed : orWriteFailure path action before = .error error after) :
    ∃ message, action before = .error message after := by
  unfold orWriteFailure at failed
  cases ran : action before with
  | ok done between => simp [ran] at failed
  | error message between =>
    simp only [ran, EStateM.Result.error.injEq] at failed
    exact ⟨message, by rw [failed.2]⟩

theorem guarded_fails {blocked : Fs → Option Str} {effect : Fs → Fs} {message : Str}
    (failed : Fs.guarded blocked effect before = .error message after) : after = before := by
  unfold Fs.guarded at failed
  cases stopped : blocked before with
  | none => simp [stopped] at failed
  | some other =>
    simp only [stopped, EStateM.Result.error.injEq] at failed
    exact failed.2.symm

/-- A loop that cleans up after a failing step fails after a first part of its items. -/
theorem loop_fails {loop : List PendingWritePlan → List PendingWritePlan → EStateM WriterError Fs PUnit}
    {step : PendingWritePlan → EStateM WriterError Fs PUnit} {cleanup : List PendingWritePlan → Fs → Fs}
    (stops : ∀ past, loop past [] = pure ⟨⟩)
    (goesOn : ∀ past plan rest, loop past (plan :: rest) = do
      recovering (step plan) (cleanup past)
      loop (past ++ [plan]) rest)
    {past rest : List PendingWritePlan} (failed : loop past rest before = .error error after) :
    ∃ done plan others between broken, rest = done ++ plan :: others ∧
      Succeeds (forEach step done) before between ∧ step plan between = .error error broken ∧
        after = cleanup (past ++ done) broken := by
  induction rest generalizing past before with
  | nil =>
    rw [stops] at failed
    cases failed
  | cons plan rest ih =>
    rw [goesOn] at failed
    rcases fails_bind.mp failed with atOnce | ⟨between, first, later⟩
    · obtain ⟨broken, stopped, cleaned⟩ := recovering_fails atOnce
      refine ⟨[], plan, rest, before, broken, rfl, succeeds_forEach_nil.mpr rfl, stopped, ?_⟩
      rw [List.append_nil, cleaned]
    · obtain ⟨done, other, others, last, broken, split, finished, stopped, cleaned⟩ := ih later
      refine ⟨plan :: done, other, others, last, broken, ?_, ?_, stopped, ?_⟩
      · rw [split, List.cons_append]
      · exact succeeds_forEach_cons.mpr ⟨between, succeeds_recovering.mp first, finished⟩
      · rw [cleaned, List.append_assoc, List.singleton_append]

variable {plans : List PendingWritePlan}

theorem moveBackups_fails {past rest : List PendingWritePlan}
    (failed : writer.moveBackups plans past rest before = .error error after) :
    ∃ done plan others between, rest = done ++ plan :: others ∧
      Succeeds (forEach writer.moveBackup done) before between ∧
        after = writer.rollbackBackupMoves (past ++ done)
          (writer.cleanupPaths (plans.map PendingWritePlan.tempPath) between) := by
  obtain ⟨done, plan, others, between, broken, split, finished, stopped, cleaned⟩ :=
    loop_fails (fun _ => rfl) (fun _ _ _ => rfl) failed
  obtain ⟨message, refused⟩ := orWriteFailure_fails stopped
  rw [guarded_fails refused] at cleaned
  exact ⟨done, plan, others, between, split, finished, cleaned⟩

theorem commitAll_fails {past rest : List PendingWritePlan}
    (failed : writer.commitAll plans past rest before = .error error after) :
    ∃ done plan others between, rest = done ++ plan :: others ∧
      Succeeds (forEach writer.commit done) before between ∧
        after = writer.rollbackBackupMoves (plans.filter PendingWritePlan.targetPreexisted)
          (writer.cleanupPaths ((past ++ done).map PendingWritePlan.pendingPath)
            (writer.cleanupPaths (plans.map PendingWritePlan.tempPath) between)) := by
  obtain ⟨done, plan, others, between, broken, split, finished, stopped, cleaned⟩ :=
    loop_fails (fun _ => rfl) (fun _ _ _ => rfl) failed
  obtain ⟨message, refused⟩ := orWriteFailure_fails stopped
  rw [guarded_fails refused] at cleaned
  exact ⟨done, plan, others, between, split, finished, cleaned⟩

theorem createProposalDirectory_fails {root : Path} {plan : PendingWritePlan} (rooted : Rooted root before)
    (under : PlanUnder root plan) (failed : writer.createProposalDirectory plan before = .error error after) :
    after = before := by
  obtain ⟨slug, directory⟩ := under.directory
  obtain ⟨message, refused⟩ := orWriteFailure_fails failed
  obtain ⟨done, level, rest, between, split, finished, stopped⟩ := forEach_fails refused
  have levels : (root ++ [slug]).inits.tail = root.inits.tail ++ [root ++ [slug]] := by
    rw [List.inits_append]
    cases root <;> simp
  rw [directory, levels] at split
  have above : done <+: root.inits.tail ++ [root ++ [slug]] := ⟨level :: rest, split.symm⟩
  have exist : ∀ path ∈ done, before.node path = some .directory := by
    rcases List.prefix_concat_iff.mp above with whole | part
    · rw [whole] at split
      simp at split
    · exact fun path member => rooted path (part.subset member)
  have still : Succeeds (forEach (Fs.createDir writer.refusals) done) before before :=
    Fs.createDirs_of_exist writer.refusals exist
  have same : between = before := by
    have both := finished.symm.trans still
    injection both
  rw [guarded_fails stopped, same]

/-- The four places at which a batch fails. -/
theorem persistPlans_fails (failed : writer.persistPlans plans before = .error error after) :
    forEach writer.createProposalDirectory plans before = .error error after ∨
      ∃ made, Succeeds (forEach writer.createProposalDirectory plans) before made ∧
        ((∃ broken, forEach writer.writeTemp plans made = .error error broken ∧
            after = writer.cleanupPaths (plans.map PendingWritePlan.tempPath) broken) ∨
          ∃ written, Succeeds (forEach writer.writeTemp plans) made written ∧
            (writer.moveBackups plans [] (plans.filter PendingWritePlan.targetPreexisted) written = .error error after ∨
              ∃ moved, Succeeds (writer.moveBackups plans [] (plans.filter PendingWritePlan.targetPreexisted))
                  written moved ∧ writer.commitAll plans [] plans moved = .error error after)) := by
  rcases fails_bind.mp failed with directories | ⟨made, first, failed⟩
  · exact Or.inl directories
  refine Or.inr ⟨made, first, ?_⟩
  rcases fails_bind.mp failed with temps | ⟨written, second, failed⟩
  · exact Or.inl (recovering_fails temps)
  refine Or.inr ⟨written, succeeds_recovering.mp second, ?_⟩
  rcases fails_bind.mp failed with backups | ⟨moved, third, failed⟩
  · exact Or.inl backups
  refine Or.inr ⟨moved, third, ?_⟩
  rcases fails_bind.mp failed with commits | ⟨committed, fourth, failed⟩
  · exact commits
  · cases failed

end Failures

/-! ### What is left of one draft -/

/-- The pending file is as it was, and no work file is new or other than before. -/
structure Reverted (before after : Slots) : Prop where
  pending : after.pending = before.pending
  temp : ∀ content, after.temp = some (.file content) → before.temp = some (.file content)
  backup : ∀ content, after.backup = some (.file content) → before.backup = some (.file content)

section Slots

variable (slots : Slots)

theorem reverted_madeDirectory : Reverted slots slots.madeDirectory := ⟨rfl, fun _ there => there, fun _ there => there⟩

/-- Removing the temporary file undoes a temporary file, however much of it was written. -/
theorem reverted_written (part : Option Node) :
    Reverted slots { slots.madeDirectory with temp := Slots.removed part } :=
  ⟨rfl, fun content there => absurd there (Slots.removed_ne_file part content), fun _ there => there⟩

/-- A backup that is moved back leaves the file that was there, over nothing or over what was committed and removed. -/
theorem movedBack_backedUp {slots : Slots} (preexisted : slots.pending.isSome = true) (temp : Option Node) :
    Slots.movedBack ⟨some .directory, none, temp, slots.pending⟩ = ⟨some .directory, slots.pending, temp, none⟩ := by
  obtain ⟨node, there⟩ := Option.isSome_iff_exists.mp preexisted
  rw [Slots.movedBack, there]
  cases node <;> rfl

theorem reverted_movedBack {slots : Slots} (preexisted : slots.pending.isSome = true) (part : Option Node) :
    Reverted slots (Slots.movedBack ⟨some .directory, none, Slots.removed part, slots.pending⟩) := by
  rw [movedBack_backedUp preexisted]
  exact ⟨rfl, fun content there => absurd there (Slots.removed_ne_file part content),
    fun _ there => absurd there (by simp)⟩

end Slots

section Batch

theorem saveBackup_local (writer : PendingDraftWriter) {root : Path} :
    LocalStep (Rooted root) (PlanUnder root) viewPlan Apart
      (fun plan part => Fs.renameBlocked (part.node []) (part.node (inside plan plan.pendingPath))
        (part.node (inside plan plan.backupPath)) (writer.refusals (.rename plan.pendingPath plan.backupPath)) = none)
      (fun plan part => part.relocate (inside plan plan.pendingPath) (inside plan plan.backupPath))
      writer.moveBackup := by
  have located {plan : PendingWritePlan} (under : PlanUnder root plan) : ∃ old new,
      plan.pendingPath = plan.proposalDirectory ++ [old] ∧ plan.backupPath = plan.proposalDirectory ++ [new] := by
    obtain ⟨backup, -, backupAt⟩ := under.backup
    exact ⟨_, backup, under.pending, backupAt⟩
  have renamed := rename_local writer PendingWritePlan.pendingPath PendingWritePlan.backupPath located fun _ => true
  simp only [if_true, forall_const] at renamed
  exact renamed

theorem commitDraft_local (writer : PendingDraftWriter) {root : Path} :
    LocalStep (Rooted root) (PlanUnder root) viewPlan Apart
      (fun plan part => Fs.renameBlocked (part.node []) (part.node (inside plan plan.tempPath))
        (part.node (inside plan plan.pendingPath)) (writer.refusals (.rename plan.tempPath plan.pendingPath)) = none)
      (fun plan part => part.relocate (inside plan plan.tempPath) (inside plan plan.pendingPath))
      writer.commit := by
  simpa only [if_true, forall_const] using @commit_local writer root

variable {writer : PendingDraftWriter} {root : Path} {plans : List PendingWritePlan}
  (allUnder : ∀ plan ∈ plans, PlanUnder root plan) (separate : plans.Pairwise Apart)
  {plan : PendingWritePlan} (member : plan ∈ plans)

include separate member in
theorem apart_from {done : List PendingWritePlan} (part : done.Sublist plans) (outside : plan ∉ done) :
    ∀ other ∈ done, Apart other plan := by
  intro other known
  have different : other ≠ plan := by
    rintro rfl
    exact outside known
  have symmetric : Std.Symm Apart := ⟨apart_symm⟩
  exact separate.forall (part.subset known) member different

include allUnder separate member

/-- What a clean-up of some drafts leaves in the directory of a draft. -/
theorem view_cleanupPaths (removes : Removes writer) {file : PendingWritePlan → Path}
    (located : ∀ {plan}, PlanUnder root plan → ∃ name, file plan = plan.proposalDirectory ++ [name])
    {done : List PendingWritePlan} (part : done.Sublist plans) (fs : Fs) :
    (plan ∈ done → viewPlan plan (writer.cleanupPaths (done.map file) fs) =
        dropFile (inside plan (file plan)) (viewPlan plan fs)) ∧
      (plan ∉ done → viewPlan plan (writer.cleanupPaths (done.map file) fs) = viewPlan plan fs) := by
  rw [PendingDraftWriter.cleanupPaths, List.foldl_map]
  exact (cleanup_local removes file located).foldl_view apart_symm (fun other known => allUnder other (part.subset known))
    (separate.sublist part) (apart_from separate member part) fs

theorem view_rollback (movesBack : ∀ plan ∈ plans, MovesBack writer plan)
    {done : List PendingWritePlan} (part : done.Sublist plans) (fs : Fs) :
    (plan ∈ done → viewPlan plan (writer.rollbackBackupMoves done fs) =
        moveBack (inside plan plan.backupPath) (inside plan plan.pendingPath) (viewPlan plan fs)) ∧
      (plan ∉ done → viewPlan plan (writer.rollbackBackupMoves done fs) = viewPlan plan fs) := by
  have valid : ∀ other ∈ done.reverse, PlanUnder root other ∧ MovesBack writer other := by
    intro other known
    have inBatch := part.subset (List.mem_reverse.mp known)
    exact ⟨allUnder other inBatch, movesBack other inBatch⟩
  have reversed : done.reverse.Pairwise Apart :=
    List.pairwise_reverse.mpr ((separate.sublist part).imp fun apart => apart_symm _ _ apart)
  have elsewhere : plan ∉ done.reverse → ∀ other ∈ done.reverse, Apart other plan := by
    intro outside other known
    exact apart_from separate member part (mt List.mem_reverse.mpr outside) other (List.mem_reverse.mp known)
  have acted := moveBack_local.foldl_view apart_symm valid reversed elsewhere fs
  rwa [List.mem_reverse] at acted

/-- After the temporary files are cleaned up there is none of the draft. -/
theorem slots_cleanTemps (removes : Removes writer) (fs : Fs) :
    slots plan (viewPlan plan (writer.cleanupPaths (plans.map PendingWritePlan.tempPath) fs)) =
      { slots plan (viewPlan plan fs) with temp := Slots.removed (slots plan (viewPlan plan fs)).temp } := by
  obtain ⟨temp, backup, names⟩ := (allUnder plan member).names
  have located {plan : PendingWritePlan} (under : PlanUnder root plan) :
      ∃ name, plan.tempPath = plan.proposalDirectory ++ [name] := by
    obtain ⟨name, -, here⟩ := under.temp
    exact ⟨name, here⟩
  rw [(view_cleanupPaths allUnder separate member removes located (List.Sublist.refl plans) fs).1 member,
    slots_dropTemp names]

/-! ### The draft after a failing batch -/

variable {before after : Fs} (rooted : Rooted root before) {error : WriterError}

include rooted

/-- Once a loop is through a part of the batch, the drafts of that part have taken its step. -/
theorem view_of_part {accepts : PendingWritePlan → Fs → Prop} {effect : PendingWritePlan → Fs → Fs}
    {step : PendingWritePlan → EStateM WriterError Fs PUnit}
    (isLocal : LocalStep (Rooted root) (PlanUnder root) viewPlan Apart accepts effect step)
    {done : List PendingWritePlan} (part : done.Sublist plans) (finished : Succeeds (forEach step done) before after) :
    Rooted root after ∧ (plan ∈ done → viewPlan plan after = effect plan (viewPlan plan before)) ∧
      (plan ∉ done → viewPlan plan after = viewPlan plan before) := by
  have doneUnder : ∀ other ∈ done, PlanUnder root other := fun other known => allUnder other (part.subset known)
  exact ⟨(isLocal.forEach_frame doneUnder rooted finished).1, isLocal.forEach_view apart_symm doneUnder
    (separate.sublist part) rooted finished (apart_from separate member part)⟩

theorem reverted_of_directories (failed : forEach writer.createProposalDirectory plans before = .error error after) :
    Reverted (slots plan (viewPlan plan before)) (slots plan (viewPlan plan after)) := by
  obtain ⟨temp, backup, names⟩ := (allUnder plan member).names
  obtain ⟨done, stopped, others, between, split, finished, fails⟩ := forEach_fails failed
  have part : done.Sublist plans := split ▸ List.sublist_append_left done _
  have stoppedIn : stopped ∈ plans := by rw [split]; simp
  obtain ⟨stillRooted, acted, kept⟩ :=
    view_of_part allUnder separate member rooted (createProposalDirectory_local writer) part finished
  rw [createProposalDirectory_fails stillRooted (allUnder stopped stoppedIn) fails]
  by_cases inDone : plan ∈ done
  · have made := slots_withDirectory names (viewPlan plan before)
    rw [withDirectory] at made
    rw [acted inDone, made]
    exact reverted_madeDirectory _
  · rw [kept inDone]
    exact ⟨rfl, fun _ there => there, fun _ there => there⟩

/-- Writing the temporary files in part, the last one perhaps cut short, and cleaning up. -/
theorem slots_of_temps (removes : Removes writer) {broken : Fs}
    (failed : forEach writer.writeTemp plans before = .error error broken) :
    ∃ part, slots plan (viewPlan plan (writer.cleanupPaths (plans.map PendingWritePlan.tempPath) broken)) =
      { slots plan (viewPlan plan before) with temp := Slots.removed part } := by
  obtain ⟨temp, backup, names⟩ := (allUnder plan member).names
  obtain ⟨done, stopped, others, between, split, finished, fails⟩ := forEach_fails failed
  have part : done.Sublist plans := split ▸ List.sublist_append_left done _
  have stoppedIn : stopped ∈ plans := by rw [split]; simp
  obtain ⟨-, acted, kept⟩ := view_of_part allUnder separate member rooted (writeTemp_local writer) part finished
  have atBetween : ∃ temp, slots plan (viewPlan plan between) = { slots plan (viewPlan plan before) with temp := temp } := by
    by_cases inDone : plan ∈ done
    · rw [acted inDone, slots_put_temp names]
      exact ⟨_, rfl⟩
    · rw [kept inDone]
      exact ⟨_, rfl⟩
  have atBroken : ∃ temp, slots plan (viewPlan plan broken) = { slots plan (viewPlan plan before) with temp := temp } := by
    obtain ⟨message, refused⟩ := orWriteFailure_fails fails
    obtain ⟨leftover, same⟩ := atBetween
    rcases (Fs.leads_write writer.refusals writer.torn _ _ between).of_error refused with rfl | ⟨content, rfl⟩
    · exact ⟨leftover, same⟩
    · obtain ⟨name, -, here⟩ := (allUnder stopped stoppedIn).temp
      by_cases own : stopped = plan
      · subst own
        have put := Fs.subtree_put between stopped.proposalDirectory [name] (some (.file content))
        rw [← here, ← inside_of_eq here] at put
        rw [viewPlan, put]
        have written := slots_put_temp names (viewPlan stopped between) content
        rw [viewPlan] at written same
        rw [written, same]
        exact ⟨_, rfl⟩
      · have symmetric : Std.Symm Apart := ⟨apart_symm⟩
        have apart := separate.forall stoppedIn member own
        have within := Fs.within_put between stopped.proposalDirectory [name] (some (.file content))
        rw [← here] at within
        have unseen := Fs.subtree_of_within within apart.1 apart.2
        rw [viewPlan, unseen]
        exact ⟨leftover, same⟩
  obtain ⟨temp, same⟩ := atBroken
  rw [slots_cleanTemps allUnder separate member removes, same]
  exact ⟨_, rfl⟩

/-- Backing up some drafts, cleaning up the temporary files and moving the backups back. -/
theorem slots_of_backups (removes : Removes writer) (movesBack : ∀ plan ∈ plans, MovesBack writer plan)
    {done : List PendingWritePlan} (part : done.Sublist plans)
    (finished : Succeeds (forEach writer.moveBackup done) before after) :
    let start := slots plan (viewPlan plan before)
    let left := slots plan (viewPlan plan (writer.rollbackBackupMoves done
      (writer.cleanupPaths (plans.map PendingWritePlan.tempPath) after)))
    (plan ∈ done → left = { start.backedUp with temp := Slots.removed start.temp }.movedBack) ∧
      (plan ∉ done → left = { start with temp := Slots.removed start.temp }) := by
  intro start left
  obtain ⟨temp, backup, names⟩ := (allUnder plan member).names
  obtain ⟨-, acted, kept⟩ := view_of_part allUnder separate member rooted (saveBackup_local writer) part finished
  have cleaned := slots_cleanTemps allUnder separate member removes after
  have back := view_rollback allUnder separate member movesBack part
    (writer.cleanupPaths (plans.map PendingWritePlan.tempPath) after)
  constructor
  · intro inDone
    rw [show left = _ from congrArg (slots plan) (back.1 inDone), slots_moveBack names, cleaned, acted inDone,
      slots_backedUp names]
    rfl
  · intro outside
    rw [show left = _ from congrArg (slots plan) (back.2 outside), cleaned, kept outside]

/-- Committing some drafts and removing what was written and committed. -/
theorem slots_of_commits (removes : Removes writer) {done : List PendingWritePlan} (part : done.Sublist plans)
    (finished : Succeeds (forEach writer.commit done) before after) :
    let start := slots plan (viewPlan plan before)
    let left := slots plan (viewPlan plan (writer.cleanupPaths (done.map PendingWritePlan.pendingPath)
      (writer.cleanupPaths (plans.map PendingWritePlan.tempPath) after)))
    (plan ∈ done → left = ⟨start.directory, Slots.removed start.temp, none, start.backup⟩) ∧
      (plan ∉ done → left = { start with temp := Slots.removed start.temp }) := by
  intro start left
  obtain ⟨temp, backup, names⟩ := (allUnder plan member).names
  obtain ⟨-, acted, kept⟩ := view_of_part allUnder separate member rooted (commitDraft_local writer) part finished
  have cleaned := slots_cleanTemps allUnder separate member removes after
  have dropped := view_cleanupPaths allUnder separate member removes (fun under => ⟨_, under.pending⟩) part
    (writer.cleanupPaths (plans.map PendingWritePlan.tempPath) after)
  constructor
  · intro inDone
    rw [show left = _ from congrArg (slots plan) (dropped.1 inDone), slots_dropPending names, cleaned, acted inDone,
      slots_committed names]
    rfl
  · intro outside
    rw [show left = _ from congrArg (slots plan) (dropped.2 outside), cleaned, kept outside]

/-- However a batch fails, the clean-up reverts each of its drafts. -/
theorem reverted_of_failed (removes : Removes writer) (movesBack : ∀ plan ∈ plans, MovesBack writer plan)
    (recorded : plan.targetPreexisted = before.exists? plan.pendingPath)
    (failed : writer.persistPlans plans before = .error error after) :
    Reverted (slots plan (viewPlan plan before)) (slots plan (viewPlan plan after)) := by
  obtain ⟨temp, backup, names⟩ := (allUnder plan member).names
  have whole := List.Sublist.refl plans
  have savedPart : (plans.filter PendingWritePlan.targetPreexisted).Sublist plans := List.filter_sublist
  generalize started : slots plan (viewPlan plan before) = start
  have preexisted : plan.targetPreexisted = start.pending.isSome := by
    rw [recorded, ← started, slots_view (allUnder plan member), Fs.exists?]
  rcases persistPlans_fails failed with first | ⟨made, first, failed⟩
  · rw [← started]
    exact reverted_of_directories allUnder separate member rooted first
  obtain ⟨madeRooted, acted, -⟩ := view_of_part allUnder separate member rooted (createProposalDirectory_local writer)
    whole first
  have atMade : slots plan (viewPlan plan made) = start.madeDirectory := by
    rw [acted member, ← started]
    exact slots_withDirectory names _
  rcases failed with ⟨broken, second, rfl⟩ | ⟨written, second, failed⟩
  · obtain ⟨part, left⟩ := slots_of_temps allUnder separate member madeRooted removes second
    rw [left, atMade]
    exact reverted_written start part
  obtain ⟨writtenRooted, acted, -⟩ := view_of_part allUnder separate member madeRooted (writeTemp_local writer)
    whole second
  have atWritten : slots plan (viewPlan plan written) = start.madeDirectory.written plan.markdown := by
    rw [acted member, slots_put_temp names, atMade]
  rcases failed with third | ⟨moved, third, fourth⟩
  · obtain ⟨done, stopped, others, between, split, finished, rfl⟩ := moveBackups_fails third
    have inSaved : done.Sublist (plans.filter PendingWritePlan.targetPreexisted) :=
      split ▸ List.sublist_append_left done _
    obtain ⟨undone, untouched⟩ := slots_of_backups allUnder separate member writtenRooted removes movesBack
      (inSaved.trans savedPart) finished
    rw [List.nil_append]
    by_cases inDone : plan ∈ done
    · have isSome : start.pending.isSome = true := by
        rw [← preexisted]
        exact (List.mem_filter.mp (inSaved.subset inDone)).2
      rw [undone inDone, atWritten]
      exact reverted_movedBack isSome _
    · rw [untouched inDone, atWritten]
      exact reverted_written start _
  · have saves := (succeeds_moveBackups writer).mp third
    obtain ⟨movedRooted, acted, kept⟩ := view_of_part allUnder separate member writtenRooted (saveBackup_local writer)
      savedPart saves
    obtain ⟨done, stopped, others, between, split, finished, rfl⟩ := commitAll_fails fourth
    have part : done.Sublist plans := split ▸ List.sublist_append_left done _
    obtain ⟨committed, waiting⟩ := slots_of_commits allUnder separate member movedRooted removes part finished
    obtain ⟨back, untouched⟩ := view_rollback allUnder separate member movesBack savedPart
      (writer.cleanupPaths (done.map PendingWritePlan.pendingPath)
        (writer.cleanupPaths (plans.map PendingWritePlan.tempPath) between))
    rw [List.nil_append]
    by_cases saved : plan ∈ plans.filter PendingWritePlan.targetPreexisted
    · have isSome : start.pending.isSome = true := by
        rw [← preexisted]
        exact (List.mem_filter.mp saved).2
      have atMoved : slots plan (viewPlan plan moved) = (start.madeDirectory.written plan.markdown).backedUp := by
        rw [acted saved, slots_backedUp names, atWritten]
      rw [back saved, slots_moveBack names]
      by_cases inDone : plan ∈ done
      · rw [committed inDone, atMoved]
        exact reverted_movedBack isSome none
      · rw [waiting inDone, atMoved]
        exact reverted_movedBack isSome _
    · have isNone : start.pending = none := by
        rw [← Option.not_isSome_iff_eq_none, ← preexisted]
        exact fun preexisted => saved (List.mem_filter.mpr ⟨member, preexisted⟩)
      have atMoved : slots plan (viewPlan plan moved) = start.madeDirectory.written plan.markdown := by
        rw [kept saved, atWritten]
      rw [untouched saved]
      by_cases inDone : plan ∈ done
      · rw [committed inDone, atMoved]
        exact ⟨isNone.symm, fun content there => absurd there (by simp), fun _ there => there⟩
      · rw [waiting inDone, atMoved]
        exact reverted_written start _

/-- A batch that succeeds leaves the new draft and no work file. -/
theorem slots_of_succeeded (removes : Removes writer) (ran : Succeeds (writer.persistPlans plans) before after) :
    (slots plan (viewPlan plan after)).pending = some (.file plan.markdown) ∧
      (slots plan (viewPlan plan after)).temp = none ∧
        ∀ content, (slots plan (viewPlan plan after)).backup ≠ some (.file content) := by
  obtain ⟨temp, backup, names⟩ := (allUnder plan member).names
  have whole := List.Sublist.refl plans
  obtain ⟨made, written, moved, committed, first, second, third, fourth, rfl⟩ := (succeeds_persistPlans writer).mp ran
  obtain ⟨madeRooted, -, -⟩ := view_of_part allUnder separate member rooted (createProposalDirectory_local writer)
    whole first
  obtain ⟨writtenRooted, wrote, -⟩ := view_of_part allUnder separate member madeRooted (writeTemp_local writer)
    whole second
  obtain ⟨movedRooted, saved, -⟩ := view_of_part allUnder separate member writtenRooted (moveBackup_local writer)
    whole third
  obtain ⟨-, commits, -⟩ := view_of_part allUnder separate member movedRooted (commit_local writer) whole fourth
  have located {plan : PendingWritePlan} (under : PlanUnder root plan) :
      ∃ name, plan.backupPath = plan.proposalDirectory ++ [name] := by
    obtain ⟨name, -, here⟩ := under.backup
    exact ⟨name, here⟩
  have dropped := view_cleanupPaths allUnder separate member removes located whole committed
  have atWritten : (slots plan (viewPlan plan written)).temp = some (.file plan.markdown) := by
    rw [wrote member, slots_put_temp names]
    rfl
  have atMoved : (slots plan (viewPlan plan moved)).temp = some (.file plan.markdown) := by
    rw [saved member]
    split
    · rw [slots_backedUp names]
      exact atWritten
    · exact atWritten
  rw [dropped.1 member, slots_dropBackup names, commits member, if_pos rfl, slots_committed names]
  exact ⟨atMoved, rfl, Slots.removed_ne_file _⟩

end Batch

end SkillLayer.SessionExtractor

import SkillLayer.SessionExtractor.Writer

/-! When a batch of planned drafts is persisted, and what it leaves behind. -/

namespace SkillLayer.SessionExtractor

open Domain

/-! ### Plans under one root -/

/-- The paths of a plan: three different files of one proposal directory. -/
structure PlanUnder (root : Path) (plan : PendingWritePlan) : Prop where
  directory : ∃ slug, plan.proposalDirectory = root ++ [slug]
  pending : plan.pendingPath = plan.proposalDirectory ++ [pendingSkillFileName]
  temp : ∃ name, name ≠ pendingSkillFileName ∧ plan.tempPath = plan.proposalDirectory ++ [name]
  backup : ∃ name, name ≠ pendingSkillFileName ∧ plan.backupPath = plan.proposalDirectory ++ [name]
  distinct : plan.tempPath ≠ plan.backupPath

/-- Every level of the root is a directory. -/
def Rooted (root : Path) (fs : Fs) : Prop := ∀ path ∈ root.inits.tail, fs.node path = some .directory

def viewPlan (plan : PendingWritePlan) (fs : Fs) : Fs := fs.subtree plan.proposalDirectory

/-- Neither proposal directory contains the other. -/
def Apart (plan other : PendingWritePlan) : Prop :=
  ¬ plan.proposalDirectory <+: other.proposalDirectory ∧
    ¬ other.proposalDirectory <+: plan.proposalDirectory

theorem apart_symm (plan other : PendingWritePlan) (apart : Apart plan other) : Apart other plan :=
  ⟨apart.2, apart.1⟩

theorem apart_of_ne {root : Path} {plan other : PendingWritePlan} (planUnder : PlanUnder root plan)
    (otherUnder : PlanUnder root other) (different : plan.pendingPath ≠ other.pendingPath) :
    Apart plan other := by
  obtain ⟨slug, directory⟩ := planUnder.directory
  obtain ⟨otherSlug, otherDirectory⟩ := otherUnder.directory
  have distinct : slug ≠ otherSlug := by
    rintro rfl
    rw [planUnder.pending, otherUnder.pending, directory, otherDirectory] at different
    exact different rfl
  unfold Apart
  rw [directory, otherDirectory, List.prefix_append_right_inj, List.prefix_append_right_inj]
  simp [distinct, Ne.symm distinct]

/-- A step that works inside the proposal directory, depending only on it. -/
theorem localStep_of_within {root : Path} {accepts : PendingWritePlan → Fs → Prop}
    {effect : PendingWritePlan → Fs → Fs} {step : PendingWritePlan → EStateM WriterError Fs PUnit}
    (succeedsIff : ∀ {plan fs}, Rooted root fs → PlanUnder root plan →
      ((∃ after, Succeeds (step plan) fs after) ↔ accepts plan (viewPlan plan fs)))
    (ran : ∀ {plan fs after}, Rooted root fs → PlanUnder root plan → Succeeds (step plan) fs after →
      Fs.Within plan.proposalDirectory fs after ∧
        viewPlan plan after = effect plan (viewPlan plan fs)) :
    LocalStep (Rooted root) (PlanUnder root) viewPlan Apart accepts effect step where
  succeeds_iff := succeedsIff
  keeps := by
    intro plan fs after rooted under succeeded path level
    obtain ⟨slug, directory⟩ := under.directory
    rw [(ran rooted under succeeded).1 path, rooted path level]
    intro inside
    have bound := inside.length_le
    have short := (List.mem_inits _ _).mp (List.mem_of_mem_tail level) |>.length_le
    rw [directory, List.length_append, List.length_singleton] at bound
    omega
  acts := fun rooted under succeeded => (ran rooted under succeeded).2
  frame := by
    intro plan other fs after rooted under apart succeeded
    exact Fs.subtree_of_within (ran rooted under succeeded).1 apart.1 apart.2

theorem succeeds_orWriteFailure {path : Path} {action : EStateM Str Fs PUnit} {before after : Fs} :
    Succeeds (orWriteFailure path action) before after ↔ Succeeds action before after := by
  unfold Succeeds orWriteFailure
  cases action before <;> simp

theorem succeeds_recovering {action : EStateM WriterError Fs PUnit} {cleanup : Fs → Fs}
    {before after : Fs} :
    Succeeds (recovering action cleanup) before after ↔ Succeeds action before after := by
  unfold Succeeds recovering
  cases action before <;> simp

/-! ### The four loops -/

section Steps

variable (writer : PendingDraftWriter) {root : Path}

theorem createProposalDirectory_local :
    LocalStep (Rooted root) (PlanUnder root) viewPlan Apart
      (fun plan part => Fs.createBlocked (part.node [])
        (writer.refusals (.createDir plan.proposalDirectory)) = none)
      (fun _ part => part.put [] (some .directory))
      writer.createProposalDirectory := by
  have reduce {plan : PendingWritePlan} {fs after : Fs} (rooted : Rooted root fs)
      (under : PlanUnder root plan) :
      Succeeds (writer.createProposalDirectory plan) fs after ↔
        Fs.createBlocked (fs.node plan.proposalDirectory)
          (writer.refusals (.createDir plan.proposalDirectory)) = none ∧
        after = fs.put plan.proposalDirectory (some .directory) := by
    obtain ⟨slug, directory⟩ := under.directory
    rw [PendingDraftWriter.createProposalDirectory, succeeds_orWriteFailure, directory,
      Fs.succeeds_createDirAll_child rooted, Fs.createDir, Fs.succeeds_guarded]
  refine localStep_of_within ?_ ?_
  · intro plan fs rooted under
    simp [reduce rooted under, viewPlan, Fs.subtree]
  · intro plan fs after rooted under succeeded
    obtain ⟨-, rfl⟩ := (reduce rooted under).mp succeeded
    have put := Fs.subtree_put fs plan.proposalDirectory [] (some .directory)
    have within := Fs.within_put fs plan.proposalDirectory [] (some .directory)
    rw [List.append_nil] at put within
    exact ⟨within, put⟩

/-- The path of a plan file relative to its proposal directory. -/
def inside (plan : PendingWritePlan) (path : Path) : Path := path.drop plan.proposalDirectory.length

theorem inside_of_eq {plan : PendingWritePlan} {path : Path} {name : Str}
    (located : path = plan.proposalDirectory ++ [name]) : inside plan path = [name] := by
  rw [inside, located, List.drop_left]

theorem parent_of_eq {plan : PendingWritePlan} {path : Path} {name : Str}
    (located : path = plan.proposalDirectory ++ [name]) : path.parent = plan.proposalDirectory := by
  rw [located, Path.parent, List.dropLast_concat]

theorem node_view {plan : PendingWritePlan} {path : Path} {name : Str} (fs : Fs)
    (located : path = plan.proposalDirectory ++ [name]) :
    (viewPlan plan fs).node [name] = fs.node path := by
  rw [located]
  rfl

theorem node_view_nil (plan : PendingWritePlan) (fs : Fs) :
    (viewPlan plan fs).node [] = fs.node plan.proposalDirectory := by
  simp [viewPlan, Fs.subtree]

theorem writeTemp_local :
    LocalStep (Rooted root) (PlanUnder root) viewPlan Apart
      (fun plan part => Fs.writeBlocked (part.node []) (part.node (inside plan plan.tempPath))
        (writer.refusals (.write plan.tempPath)) = none)
      (fun plan part => part.put (inside plan plan.tempPath) (some (.file plan.markdown)))
      writer.writeTemp := by
  have reduce (plan : PendingWritePlan) (fs after : Fs) :
      Succeeds (writer.writeTemp plan) fs after ↔
        Fs.writeBlocked (fs.node plan.tempPath.parent) (fs.node plan.tempPath)
          (writer.refusals (.write plan.tempPath)) = none ∧
        after = fs.put plan.tempPath (some (.file plan.markdown)) := by
    rw [PendingDraftWriter.writeTemp, succeeds_orWriteFailure, Fs.succeeds_write]
  refine localStep_of_within ?_ ?_
  · intro plan fs _ under
    obtain ⟨name, -, located⟩ := under.temp
    simp only [reduce, exists_and_left, exists_eq, and_true]
    rw [inside_of_eq located, node_view fs located, node_view_nil, parent_of_eq located]
  · intro plan fs after _ under succeeded
    obtain ⟨name, -, located⟩ := under.temp
    obtain ⟨-, rfl⟩ := (reduce plan fs after).mp succeeded
    rw [inside_of_eq located, located]
    exact ⟨Fs.within_put _ _ _ _, Fs.subtree_put _ _ _ _⟩

/-- A rename between two files of the proposal directory. -/
theorem rename_local (source target : PendingWritePlan → Path)
    (located : ∀ {plan}, PlanUnder root plan → ∃ old new,
      source plan = plan.proposalDirectory ++ [old] ∧ target plan = plan.proposalDirectory ++ [new])
    (enabled : PendingWritePlan → Bool) :
    LocalStep (Rooted root) (PlanUnder root) viewPlan Apart
      (fun plan part => enabled plan = true →
        Fs.renameBlocked (part.node []) (part.node (inside plan (source plan)))
          (part.node (inside plan (target plan)))
          (writer.refusals (.rename (source plan) (target plan))) = none)
      (fun plan part =>
        if enabled plan then part.relocate (inside plan (source plan)) (inside plan (target plan))
        else part)
      (fun plan =>
        if enabled plan then
          orWriteFailure plan.pendingPath (Fs.rename writer.refusals (source plan) (target plan))
        else pure ⟨⟩) := by
  have reduce (plan : PendingWritePlan) (fs after : Fs) :
      Succeeds (orWriteFailure plan.pendingPath
          (Fs.rename writer.refusals (source plan) (target plan))) fs after ↔
        Fs.renameBlocked (fs.node (target plan).parent) (fs.node (source plan))
          (fs.node (target plan)) (writer.refusals (.rename (source plan) (target plan))) = none ∧
        after = fs.relocate (source plan) (target plan) := by
    rw [succeeds_orWriteFailure, Fs.rename, Fs.succeeds_guarded]
  have idle (fs after : Fs) :
      Succeeds (pure ⟨⟩ : EStateM WriterError Fs PUnit) fs after ↔ after = fs := by
    simp [Succeeds, pure, EStateM.pure, eq_comm]
  refine localStep_of_within ?_ ?_
  · intro plan fs _ under
    obtain ⟨old, new, oldHere, newHere⟩ := located under
    by_cases on : enabled plan = true
    · simp only [on, if_true, reduce, exists_and_left, exists_eq, and_true, forall_const]
      rw [inside_of_eq oldHere, inside_of_eq newHere, node_view fs oldHere, node_view fs newHere,
        node_view_nil, parent_of_eq newHere]
    · simp [on, idle]
  · intro plan fs after _ under succeeded
    obtain ⟨old, new, oldHere, newHere⟩ := located under
    by_cases on : enabled plan = true
    · simp only [on, if_true] at succeeded ⊢
      obtain ⟨-, rfl⟩ := (reduce plan fs after).mp succeeded
      rw [inside_of_eq oldHere, inside_of_eq newHere, oldHere, newHere]
      exact ⟨Fs.within_relocate _ _ _ _, Fs.subtree_relocate _ _ _ _⟩
    · simp only [on] at succeeded ⊢
      obtain rfl := (idle fs after).mp succeeded
      exact ⟨fun _ _ => rfl, rfl⟩

end Steps

/-! ### The whole batch -/

/-- What the file system must allow for one draft, read off the state in which the
batch was planned. -/
structure DraftAccepted (refusals : Refusals) (fs : Fs) (plan : PendingWritePlan) : Prop where
  directory : Fs.createBlocked (fs.node plan.proposalDirectory)
    (refusals (.createDir plan.proposalDirectory)) = none
  temp : fs.node plan.tempPath ≠ some .directory ∧ refusals (.write plan.tempPath) = none
  backup : fs.exists? plan.pendingPath = true →
    Fs.renameBlocked (some .directory) (fs.node plan.pendingPath) (fs.node plan.backupPath)
      (refusals (.rename plan.pendingPath plan.backupPath)) = none
  commit : refusals (.rename plan.tempPath plan.pendingPath) = none

variable (writer : PendingDraftWriter)

theorem succeeds_moveBackups {plans moved rest : List PendingWritePlan} {before after : Fs} :
    Succeeds (writer.moveBackups plans moved rest) before after ↔
      Succeeds (forEach writer.moveBackup rest) before after := by
  induction rest generalizing moved before with
  | nil => rfl
  | cons plan rest ih =>
    rw [PendingDraftWriter.moveBackups, succeeds_bind, succeeds_forEach_cons]
    simp only [succeeds_recovering, ih]

theorem succeeds_commitAll {plans committed rest : List PendingWritePlan} {before after : Fs} :
    Succeeds (writer.commitAll plans committed rest) before after ↔
      Succeeds (forEach writer.commit rest) before after := by
  induction rest generalizing committed before with
  | nil => rfl
  | cons plan rest ih =>
    rw [PendingDraftWriter.commitAll, succeeds_bind, succeeds_forEach_cons]
    simp only [succeeds_recovering, ih]

/-- A batch succeeds through its four loops; the final clean-up cannot fail. -/
theorem succeeds_persistPlans {plans : List PendingWritePlan} {before after : Fs} :
    Succeeds (writer.persistPlans plans) before after ↔
      ∃ made written moved committed,
        Succeeds (forEach writer.createProposalDirectory plans) before made ∧
        Succeeds (forEach writer.writeTemp plans) made written ∧
        Succeeds (forEach (fun plan =>
          if plan.targetPreexisted then writer.moveBackup plan else pure ⟨⟩) plans) written moved ∧
        Succeeds (forEach (fun plan => if true then writer.commit plan else pure ⟨⟩) plans)
          moved committed ∧
        after = writer.cleanupPaths (plans.map PendingWritePlan.backupPath) committed := by
  have cleaned (committed : Fs) :
      Succeeds (writer.removeBackups plans) committed after ↔
        after = writer.cleanupPaths (plans.map PendingWritePlan.backupPath) committed := by
    constructor
    · intro removed
      cases removed
      rfl
    · intro same
      cases same
      rfl
  simp only [PendingDraftWriter.persistPlans, succeeds_bind, PendingDraftWriter.writeTemps,
    succeeds_recovering, succeeds_moveBackups, succeeds_commitAll, succeeds_forEach_filter, cleaned,
    if_true]
  constructor
  · rintro ⟨made, first, written, second, moved, third, committed, fourth, last⟩
    exact ⟨made, written, moved, committed, first, second, third, fourth, last⟩
  · rintro ⟨made, written, moved, committed, first, second, third, fourth, last⟩
    exact ⟨made, first, written, second, moved, third, committed, fourth, last⟩

theorem node_cleanupPaths {paths : List Path} {other : Path} (spared : other ∉ paths) (fs : Fs) :
    (writer.cleanupPaths paths fs).node other = fs.node other := by
  have one {path : Path} (different : other ≠ path) (fs : Fs) :
      (writer.cleanupPath fs path).node other = fs.node other := by
    unfold PendingDraftWriter.cleanupPath Fs.attempt Fs.removeFile Fs.guarded
    dsimp only
    split
    · split
      · rename_i ran
        split at ran
        · cases ran
        · cases ran
          exact Fs.node_put_of_ne different
      · rename_i ran
        split at ran
        · cases ran
          rfl
        · cases ran
    · rfl
  unfold PendingDraftWriter.cleanupPaths
  induction paths generalizing fs with
  | nil => rfl
  | cons path rest ih =>
    rw [List.foldl_cons, ih (fun member => spared (List.mem_cons_of_mem _ member)),
      one fun same => spared (same ▸ List.mem_cons_self)]

/-! ### One proposal directory through the loops -/

section Chain

variable {root : Path} {plan : PendingWritePlan}

/-- The proposal directory as the loops leave it one after the other. -/
def withDirectory (part : Fs) : Fs := part.put [] (some .directory)

def withTemp (plan : PendingWritePlan) (part : Fs) : Fs :=
  (withDirectory part).put (inside plan plan.tempPath) (some (.file plan.markdown))

def withBackup (plan : PendingWritePlan) (part : Fs) : Fs :=
  if plan.targetPreexisted then
    (withTemp plan part).relocate (inside plan plan.pendingPath) (inside plan plan.backupPath)
  else withTemp plan part

def withCommit (plan : PendingWritePlan) (part : Fs) : Fs :=
  (withBackup plan part).relocate (inside plan plan.tempPath) (inside plan plan.pendingPath)

theorem node_withDirectory (part : Fs) (name : Str) :
    (withDirectory part).node [name] = part.node [name] :=
  Fs.node_put_of_ne (by simp)

theorem node_withTemp {part : Fs} {temp name : Str} (located : inside plan plan.tempPath = [temp])
    (other : name ≠ temp) : (withTemp plan part).node [name] = part.node [name] := by
  rw [withTemp, located, Fs.node_put_of_ne (by simpa using other), node_withDirectory]

theorem node_withTemp_nil {part : Fs} {temp : Str} (located : inside plan plan.tempPath = [temp]) :
    (withTemp plan part).node [] = some .directory := by
  rw [withTemp, located, Fs.node_put_of_ne (by simp), withDirectory, Fs.node_put_self]

theorem node_withBackup_nil {part : Fs} {temp pending backup : Str}
    (tempIn : inside plan plan.tempPath = [temp])
    (pendingIn : inside plan plan.pendingPath = [pending])
    (backupIn : inside plan plan.backupPath = [backup]) :
    (withBackup plan part).node [] = some .directory := by
  unfold withBackup
  split
  · rw [pendingIn, backupIn, Fs.node_relocate_of_not_prefix (by simp) (by simp),
      node_withTemp_nil tempIn]
  · exact node_withTemp_nil tempIn

theorem node_withBackup_temp {part : Fs} {temp pending backup : Str}
    (tempIn : inside plan plan.tempPath = [temp])
    (pendingIn : inside plan plan.pendingPath = [pending])
    (backupIn : inside plan plan.backupPath = [backup])
    (notPending : temp ≠ pending) (notBackup : temp ≠ backup) :
    (withBackup plan part).node [temp] = some (.file plan.markdown) := by
  have written : (withTemp plan part).node [temp] = some (.file plan.markdown) := by
    rw [withTemp, tempIn, Fs.node_put_self]
  unfold withBackup
  split
  · rw [pendingIn, backupIn, Fs.node_relocate_of_not_prefix (by simpa using notBackup.symm)
      (by simpa using notPending.symm), written]
  · exact written

theorem node_withBackup_pending {part : Fs} {temp pending backup : Str}
    (tempIn : inside plan plan.tempPath = [temp])
    (pendingIn : inside plan plan.pendingPath = [pending])
    (backupIn : inside plan plan.backupPath = [backup])
    (notPending : temp ≠ pending) (backupApart : backup ≠ pending)
    (recorded : plan.targetPreexisted = part.exists? [pending]) :
    (withBackup plan part).node [pending] = none := by
  unfold withBackup
  split
  · rw [pendingIn, backupIn, Fs.node_relocate_source (by simpa using backupApart)]
  · rename_i missing
    rw [node_withTemp tempIn notPending.symm]
    rw [recorded] at missing
    simpa [Fs.exists?] using missing

/-- The loops accept a plan exactly when the file system accepts the draft in the
state in which it was planned. -/
theorem chain_accepts (under : PlanUnder root plan) {fs : Fs}
    (recorded : plan.targetPreexisted = fs.exists? plan.pendingPath) :
    (Fs.createBlocked ((viewPlan plan fs).node [])
        (writer.refusals (.createDir plan.proposalDirectory)) = none ∧
      Fs.writeBlocked ((withDirectory (viewPlan plan fs)).node [])
        ((withDirectory (viewPlan plan fs)).node (inside plan plan.tempPath))
        (writer.refusals (.write plan.tempPath)) = none ∧
      (plan.targetPreexisted = true →
        Fs.renameBlocked ((withTemp plan (viewPlan plan fs)).node [])
          ((withTemp plan (viewPlan plan fs)).node (inside plan plan.pendingPath))
          ((withTemp plan (viewPlan plan fs)).node (inside plan plan.backupPath))
          (writer.refusals (.rename plan.pendingPath plan.backupPath)) = none) ∧
      Fs.renameBlocked ((withBackup plan (viewPlan plan fs)).node [])
        ((withBackup plan (viewPlan plan fs)).node (inside plan plan.tempPath))
        ((withBackup plan (viewPlan plan fs)).node (inside plan plan.pendingPath))
        (writer.refusals (.rename plan.tempPath plan.pendingPath)) = none) ↔
      DraftAccepted writer.refusals fs plan := by
  obtain ⟨temp, tempOther, tempAt⟩ := under.temp
  obtain ⟨backup, backupOther, backupAt⟩ := under.backup
  have distinct : temp ≠ backup := by
    rintro rfl
    exact under.distinct (tempAt.trans backupAt.symm)
  have tempIn := inside_of_eq tempAt
  have backupIn := inside_of_eq backupAt
  have pendingIn := inside_of_eq under.pending
  have viewRecorded : plan.targetPreexisted = (viewPlan plan fs).exists? [pendingSkillFileName] := by
    rw [recorded, Fs.exists?, Fs.exists?, node_view fs under.pending]
  rw [node_withBackup_nil tempIn pendingIn backupIn, tempIn, pendingIn, backupIn,
    node_withBackup_temp tempIn pendingIn backupIn tempOther distinct,
    node_withBackup_pending tempIn pendingIn backupIn tempOther backupOther viewRecorded,
    node_withTemp_nil tempIn, node_withTemp tempIn tempOther.symm, node_withTemp tempIn distinct.symm,
    node_withDirectory, node_view fs tempAt, node_view fs backupAt, node_view fs under.pending,
    node_view_nil, withDirectory, Fs.node_put_self, recorded]
  constructor
  · rintro ⟨directory, written, moved, committed⟩
    refine ⟨directory, ?_, moved, committed⟩
    unfold Fs.writeBlocked at written
    rw [if_neg (by simp)] at written
    split at written
    · cases written
    · rename_i plain
      exact ⟨plain, written⟩
  · rintro ⟨directory, written, moved, committed⟩
    refine ⟨directory, ?_, moved, committed⟩
    rw [Fs.writeBlocked, if_neg (by simp), if_neg written.1]
    exact written.2

theorem node_withCommit {part : Fs} (under : PlanUnder root plan) :
    (withCommit plan part).node (inside plan plan.pendingPath) = some (.file plan.markdown) := by
  obtain ⟨temp, tempOther, tempAt⟩ := under.temp
  obtain ⟨backup, backupOther, backupAt⟩ := under.backup
  have distinct : temp ≠ backup := by
    rintro rfl
    exact under.distinct (tempAt.trans backupAt.symm)
  rw [withCommit, Fs.node_relocate_target, inside_of_eq tempAt,
    node_withBackup_temp (inside_of_eq tempAt) (inside_of_eq under.pending)
      (inside_of_eq backupAt) tempOther distinct]

end Chain

/-! ### Batches -/

section Batch

variable {root : Path}

theorem moveBackup_local :
    LocalStep (Rooted root) (PlanUnder root) viewPlan Apart
      (fun plan part => plan.targetPreexisted = true →
        Fs.renameBlocked (part.node []) (part.node (inside plan plan.pendingPath))
          (part.node (inside plan plan.backupPath))
          (writer.refusals (.rename plan.pendingPath plan.backupPath)) = none)
      (fun plan part =>
        if plan.targetPreexisted then
          part.relocate (inside plan plan.pendingPath) (inside plan plan.backupPath)
        else part)
      (fun plan => if plan.targetPreexisted then writer.moveBackup plan else pure ⟨⟩) :=
  rename_local writer PendingWritePlan.pendingPath PendingWritePlan.backupPath
    (fun under => by
      obtain ⟨backup, -, backupAt⟩ := under.backup
      exact ⟨_, backup, under.pending, backupAt⟩)
    PendingWritePlan.targetPreexisted

theorem commit_local :
    LocalStep (Rooted root) (PlanUnder root) viewPlan Apart
      (fun plan part => true = true →
        Fs.renameBlocked (part.node []) (part.node (inside plan plan.tempPath))
          (part.node (inside plan plan.pendingPath))
          (writer.refusals (.rename plan.tempPath plan.pendingPath)) = none)
      (fun plan part =>
        if true then part.relocate (inside plan plan.tempPath) (inside plan plan.pendingPath)
        else part)
      (fun plan => if true then writer.commit plan else pure ⟨⟩) :=
  rename_local writer PendingWritePlan.tempPath PendingWritePlan.pendingPath
    (fun under => by
      obtain ⟨temp, -, tempAt⟩ := under.temp
      exact ⟨temp, _, tempAt, under.pending⟩)
    fun _ => true

variable {plans : List PendingWritePlan} (allUnder : ∀ plan ∈ plans, PlanUnder root plan)
  (separate : plans.Pairwise Apart) {fs : Fs} (rooted : Rooted root fs)

include allUnder separate rooted

/-- A batch under one root is persisted exactly when every draft is accepted. -/
theorem persistPlans_succeeds_iff
    (recorded : ∀ plan ∈ plans, plan.targetPreexisted = fs.exists? plan.pendingPath) :
    (∃ after, Succeeds (writer.persistPlans plans) fs after) ↔
      ∀ plan ∈ plans, DraftAccepted writer.refusals fs plan := by
  have directories := @createProposalDirectory_local writer root
  have temps := @writeTemp_local writer root
  have backups := @moveBackup_local writer root
  have commits := @commit_local writer root
  simp only [succeeds_persistPlans]
  constructor
  · rintro ⟨after, made, written, moved, committed, first, second, third, fourth, -⟩ plan member
    have madeRooted := (directories.forEach_frame allUnder rooted first).1
    have writtenRooted := (temps.forEach_frame allUnder madeRooted second).1
    have movedRooted := (backups.forEach_frame allUnder writtenRooted third).1
    have one := (directories.forEach_succeeds_iff allUnder separate rooted).mp ⟨_, first⟩ plan member
    have two := (temps.forEach_succeeds_iff allUnder separate madeRooted).mp ⟨_, second⟩ plan member
    have three := (backups.forEach_succeeds_iff allUnder separate writtenRooted).mp ⟨_, third⟩ plan
      member
    have four := (commits.forEach_succeeds_iff allUnder separate movedRooted).mp ⟨_, fourth⟩ plan
      member rfl
    have afterOne := directories.forEach_acts apart_symm allUnder separate rooted first plan member
    have afterTwo := temps.forEach_acts apart_symm allUnder separate madeRooted second plan member
    have afterThree := backups.forEach_acts apart_symm allUnder separate writtenRooted third plan
      member
    rw [afterOne] at two
    rw [afterTwo, afterOne] at three
    rw [afterThree, afterTwo, afterOne] at four
    exact (chain_accepts writer (allUnder plan member) (recorded plan member)).mp
      ⟨one, two, three, four⟩
  · intro accepted
    have chain (plan : PendingWritePlan) (member : plan ∈ plans) :=
      (chain_accepts writer (allUnder plan member) (recorded plan member)).mpr (accepted plan member)
    obtain ⟨made, first⟩ := (directories.forEach_succeeds_iff allUnder separate rooted).mpr
      fun plan member => (chain plan member).1
    have madeRooted := (directories.forEach_frame allUnder rooted first).1
    have afterOne := directories.forEach_acts apart_symm allUnder separate rooted first
    obtain ⟨written, second⟩ := (temps.forEach_succeeds_iff allUnder separate madeRooted).mpr
      fun plan member => by
        rw [afterOne plan member]
        exact (chain plan member).2.1
    have writtenRooted := (temps.forEach_frame allUnder madeRooted second).1
    have afterTwo := temps.forEach_acts apart_symm allUnder separate madeRooted second
    obtain ⟨moved, third⟩ := (backups.forEach_succeeds_iff allUnder separate writtenRooted).mpr
      fun plan member => by
        rw [afterTwo plan member, afterOne plan member]
        exact (chain plan member).2.2.1
    have movedRooted := (backups.forEach_frame allUnder writtenRooted third).1
    have afterThree := backups.forEach_acts apart_symm allUnder separate writtenRooted third
    obtain ⟨committed, fourth⟩ := (commits.forEach_succeeds_iff allUnder separate movedRooted).mpr
      fun plan member _ => by
        rw [afterThree plan member, afterTwo plan member, afterOne plan member]
        exact (chain plan member).2.2.2
    exact ⟨_, made, written, moved, committed, first, second, third, fourth, rfl⟩

/-- A persisted batch leaves the markdown of each plan at its pending path. -/
theorem persistPlans_writes {after : Fs} (ran : Succeeds (writer.persistPlans plans) fs after) :
    ∀ plan ∈ plans, after.node plan.pendingPath = some (.file plan.markdown) := by
  intro plan member
  obtain ⟨made, written, moved, committed, first, second, third, fourth, rfl⟩ :=
    (succeeds_persistPlans writer).mp ran
  have directories := @createProposalDirectory_local writer root
  have temps := @writeTemp_local writer root
  have backups := @moveBackup_local writer root
  have commits := @commit_local writer root
  have madeRooted := (directories.forEach_frame allUnder rooted first).1
  have writtenRooted := (temps.forEach_frame allUnder madeRooted second).1
  have movedRooted := (backups.forEach_frame allUnder writtenRooted third).1
  have final : viewPlan plan committed = withCommit plan (viewPlan plan fs) := by
    rw [commits.forEach_acts apart_symm allUnder separate movedRooted fourth plan member,
      backups.forEach_acts apart_symm allUnder separate writtenRooted third plan member,
      temps.forEach_acts apart_symm allUnder separate madeRooted second plan member,
      directories.forEach_acts apart_symm allUnder separate rooted first plan member]
    rfl
  have spared : plan.pendingPath ∉ plans.map PendingWritePlan.backupPath := by
    intro found
    obtain ⟨other, otherMember, same⟩ := List.mem_map.mp found
    obtain ⟨backup, different, backupAt⟩ := (allUnder other otherMember).backup
    have last := congrArg List.getLast? same
    rw [backupAt, (allUnder plan member).pending, List.getLast?_concat, List.getLast?_concat] at last
    exact different (Option.some.inj last)
  rw [node_cleanupPaths writer spared, ← node_view committed (allUnder plan member).pending, final,
    ← inside_of_eq (allUnder plan member).pending]
  exact node_withCommit (allUnder plan member)

end Batch

end SkillLayer.SessionExtractor

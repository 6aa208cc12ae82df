import SkillLayer.Maintenance.Repeatability
import SkillLayer.SessionExtractor.WriterFrame

/-! Rejections: the writers of pending proposals and the directories with a tombstone. -/

namespace SkillLayer.Maintenance

open Infrastructure hiding Timestamp
open Domain (ExtractionResult Timestamp activeSkillFileName pendingSkillFileName rejectedSkillFileName)
open SessionExtractor (PendingDraftWriter ProposalDirectory Spares Tombstoned spares_writePendingDrafts)

/-- What happens to the proposals: the three writers, each with whatever it is given and with
whatever fails, and anything a reviewer does to the files. -/
inductive Activity (F : Type) where
  | extraction (writer : PendingDraftWriter) (extractionResult : ExtractionResult) (providerName : Str)
  | merging (faults : HostFaults F) (services : ScopeServices F) (now : Timestamp) (config : MergeConfig F)
      (skills : List SkillSnapshot)
  | promoting (faults : HostFaults F) (services : ScopeServices F) (now : Timestamp)
      (runner : PromotionPassRunner F) (fetched : Except Str (List ProjectSkillRow))
  | review (edit : Fs → Fs)

namespace Activity

variable {F : Type}

def perform : Activity F → Workspace F → Workspace F
  | extraction writer extractionResult providerName, workspace =>
    { workspace with fs := afterwards (writer.writePendingDrafts extractionResult providerName workspace.fs) }
  | merging faults services now config skills, workspace =>
    afterwards (runMergePass services faults now config skills workspace)
  | promoting faults services now runner fetched, workspace =>
    afterwards (runPromotionPass services faults runner now fetched workspace)
  | review edit, workspace => { workspace with fs := edit workspace.fs }

/-- The proposals that qualify in a maintenance pass. -/
def qualifying : Activity F → List CreatedFile
  | merging _ services _ config skills => mergePlan services config skills
  | promoting _ services _ runner fetched => promotionPlan services runner fetched
  | _ => []

def IsReview : Activity F → Prop
  | review _ => True
  | _ => False

/-- No proposal qualifies whose directory has a tombstone but not already its file. -/
def Respectful (activity : Activity F) (before : Workspace F) : Prop :=
  ∀ file ∈ activity.qualifying, Tombstoned file.path.parent before.fs → before.fs.node file.path ≠ none

/-- The tombstone of a directory stays, and its pending file is neither made nor changed. -/
def Rests (directory : Path) (before after : Workspace F) : Prop :=
  Tombstoned directory after.fs ∧ Spares (directory ++ [pendingSkillFileName]) before.fs after.fs

/-! ### One step -/

/-- Files that are made elsewhere leave a directory alone. -/
theorem rests_of_extends {directory : Path} {before after : Workspace F} {written plan : List CreatedFile}
    (extended : Extends before after written) (planned : ∀ file ∈ written, file ∈ plan)
    (tombstone : Tombstoned directory before.fs)
    (respectful : ∀ file ∈ plan, Tombstoned file.path.parent before.fs → before.fs.node file.path ≠ none) :
    Rests directory before after := by
  constructor
  · obtain ⟨content, there⟩ := tombstone
    exact ⟨content, extended.grown _ _ there⟩
  · intro content
    constructor
    · intro there
      rcases extended.files _ content there with old | ⟨file, member, here⟩
      · exact old
      · refine absurd (extended.fresh file member) (respectful file (planned file member) ?_)
        rw [here, Path.parent, List.dropLast_concat]
        exact tombstone
    · exact extended.grown _ _

theorem rests_of_follows {Out : Type} {directory : Path} {before : Workspace F} {plan : List CreatedFile}
    {returns : Out → Prop} {pass : EStateM CronError (Workspace F) Out}
    (follows : Follows (PassDiscipline.loose F CronError) plan returns pass)
    (tombstone : Tombstoned directory before.fs)
    (respectful : ∀ file ∈ plan, Tombstoned file.path.parent before.fs → before.fs.node file.path ≠ none) :
    Rests directory before (afterwards (pass before)) := by
  refine Leads.afterwards (Leads.mono (follows before trivial) ?_)
  rintro result after ⟨-, written, rest, split, extended, -⟩
  refine rests_of_extends extended (fun file member => ?_) tombstone respectful
  rw [split]
  exact List.mem_append_left _ member

theorem rests_of_respectful {activity : Activity F} {directory : Path} {before : Workspace F}
    (isWriter : ¬ activity.IsReview) (proper : ProposalDirectory directory)
    (tombstone : Tombstoned directory before.fs) (respectful : activity.Respectful before) :
    Rests directory before (activity.perform before) := by
  cases activity with
  | extraction writer extractionResult providerName =>
    have spares (name : Str) :=
      (spares_writePendingDrafts writer name proper tombstone extractionResult providerName).afterwards
    refine ⟨?_, spares pendingSkillFileName⟩
    obtain ⟨content, there⟩ := tombstone
    exact ⟨content, (spares rejectedSkillFileName content).mpr there⟩
  | merging faults services now config skills => exact rests_of_follows follows_mergePass tombstone respectful
  | promoting faults services now runner fetched =>
    exact rests_of_follows follows_promotionPass tombstone respectful
  | review edit => exact absurd trivial isWriter

/-! ### Runs -/

/-- Every activity of a run meets the condition where it takes place. -/
def AllRespectful : List (Activity F) → Workspace F → Prop
  | [], _ => True
  | activity :: rest, before => activity.Respectful before ∧ AllRespectful rest (activity.perform before)

/-- Throughout a run, no writer touches the pending file of a directory while its tombstone stands. -/
def RejectionRespected (directory : Path) : List (Activity F) → Workspace F → Prop
  | [], _ => True
  | activity :: rest, before =>
    (¬ activity.IsReview → Tombstoned directory before.fs → Rests directory before (activity.perform before)) ∧
      RejectionRespected directory rest (activity.perform before)

/-- In every run of the writers and the reviewers in which no merge or promotion qualifies into a
directory with a tombstone, the rejection of every directory is respected. -/
theorem rejections_respected (activities : List (Activity F)) (start : Workspace F)
    (respectful : AllRespectful activities start) (directory : Path) (proper : ProposalDirectory directory) :
    RejectionRespected directory activities start := by
  induction activities generalizing start with
  | nil => exact trivial
  | cons activity rest ih =>
    obtain ⟨here, later⟩ := respectful
    refine ⟨fun isWriter tombstone => rests_of_respectful isWriter proper tombstone here, ?_⟩
    exact ih (activity.perform start) later

/-! ### A rejection that is not respected -/

def promotingTip : Activity Nat :=
  promoting (HostFaults.none Nat) agreeing 0 (reviewing [tip]).runner (.ok [])

def tipDirectory : Path := [[], "g", ".skills", "promote--a"]

/-- The reviewer rejects the proposal by renaming its file. -/
def rejectTip : Activity Nat :=
  review fun fs => fs.relocate (tipDirectory ++ [pendingSkillFileName]) (tipDirectory ++ [rejectedSkillFileName])

def afterRejection : Workspace Nat := rejectTip.perform (promotingTip.perform globalRootOnly)

/-- A promotion is written, rejected, and written again by the next pass. -/
theorem rejected_promotion_returns :
    (afterRejection.fs.isFile (tipDirectory ++ [rejectedSkillFileName]) = true ∧
      afterRejection.fs.node (tipDirectory ++ [pendingSkillFileName]) = none ∧
      (promotingTip.perform afterRejection).fs.isFile (tipDirectory ++ [rejectedSkillFileName]) = true ∧
      (promotingTip.perform afterRejection).fs.isFile (tipDirectory ++ [pendingSkillFileName]) = true) ∧
    ¬ ∀ (activities : List (Activity Nat)) (start : Workspace Nat) (directory : Path),
      ProposalDirectory directory → RejectionRespected directory activities start := by
  have tombstone : afterRejection.fs.isFile (tipDirectory ++ [rejectedSkillFileName]) = true := by decide +kernel
  have removed : afterRejection.fs.node (tipDirectory ++ [pendingSkillFileName]) = none := by decide +kernel
  have stands : (promotingTip.perform afterRejection).fs.isFile (tipDirectory ++ [rejectedSkillFileName]) = true := by
    decide +kernel
  have returned : (promotingTip.perform afterRejection).fs.isFile (tipDirectory ++ [pendingSkillFileName]) = true := by
    decide +kernel
  refine ⟨⟨tombstone, removed, stands, returned⟩, fun always => ?_⟩
  have respected := (always [promotingTip] afterRejection tipDirectory (by decide)).1 (fun isReview => isReview)
  generalize afterRejection = before at *
  generalize promotingTip.perform before = after at *
  obtain ⟨content, there⟩ := Fs.isFile_iff.mp tombstone
  obtain ⟨made, present⟩ := Fs.isFile_iff.mp returned
  have old := ((respected ⟨content, there⟩).2 made).mp present
  rw [removed] at old
  cases old

def trickDirectory : Path := [[], "g", ".skills", "promote--b"]

/-- The global root with the rejection of another skill. -/
def trickRejected : Workspace Nat :=
  { globalRootOnly with fs := globalRootOnly.fs.put (trickDirectory ++ [rejectedSkillFileName]) (some (.file [])) }

theorem rejections_respected_elsewhere : RejectionRespected trickDirectory [promotingTip] trickRejected := by
  refine rejections_respected [promotingTip] trickRejected ⟨?_, trivial⟩ trickDirectory (by decide)
  have planned : promotingTip.qualifying = [plannedPromotion recurring tip .intrinsic] := by decide +kernel
  rintro file member ⟨content, there⟩
  rw [planned, List.mem_singleton] at member
  subst member
  have missing : trickRejected.fs.node
      (Path.parent (plannedPromotion recurring tip .intrinsic).path ++ [rejectedSkillFileName]) = none := by
    decide +kernel
  rw [missing] at there
  cases there

end Activity
end SkillLayer.Maintenance

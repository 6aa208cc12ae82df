import SkillLayer.FileSystem
import SkillLayer.SessionExtractor.Draft

/-! The all-or-nothing batch writer of pending drafts. -/

namespace SkillLayer.SessionExtractor

open Domain

structure PendingWritePlan where
  pendingPath : Path
  tempPath : Path
  backupPath : Path
  targetPreexisted : Bool
  markdown : Str
deriving DecidableEq

def PendingWritePlan.proposalDirectory (plan : PendingWritePlan) : Path := plan.pendingPath.parent

/-- The writer with what it reads from its surroundings: the resolved and approved
scope root, the clock at each candidate, the nonce of the batch and what a write that
the system refuses leaves at its path. -/
structure PendingDraftWriter where
  format : DraftFormat
  refusals : Refusals
  torn : Path → Option Str
  scopeRoot : Except WriterError Path
  now : Nat → Timestamp
  batchNonce : Str

def tempName (batchNonce : Str) (index : Nat) : Str :=
  "." ++ pendingSkillFileName ++ ['.'] ++ batchNonce ++ ['.'] ++ Str.ofNat index ++ ".tmp".toList

def backupName (batchNonce : Str) (index : Nat) : Str :=
  "." ++ pendingSkillFileName ++ ['.'] ++ batchNonce ++ ['.'] ++ Str.ofNat index ++ ".bak".toList

def proposalDirectory (pendingRoot : Path) (candidate : ExtractedSkillCandidate) : Path :=
  pendingRoot ++ [slugifySkillName candidate.name]

def pendingPath (pendingRoot : Path) (candidate : ExtractedSkillCandidate) : Path :=
  proposalDirectory pendingRoot candidate ++ [pendingSkillFileName]

def rejectedTombstonePath (pendingRoot : Path) (candidate : ExtractedSkillCandidate) : Path :=
  proposalDirectory pendingRoot candidate ++ [rejectedSkillFileName]

namespace PendingDraftWriter

variable (writer : PendingDraftWriter)

/-- The plan of one candidate once its markdown is rendered. -/
def writePlan (fs : Fs) (pendingRoot : Path) (candidate : ExtractedSkillCandidate) (index : Nat)
    (markdown : Str) : PendingWritePlan where
  pendingPath := pendingPath pendingRoot candidate
  tempPath := proposalDirectory pendingRoot candidate ++ [tempName writer.batchNonce index]
  backupPath := proposalDirectory pendingRoot candidate ++ [backupName writer.batchNonce index]
  targetPreexisted := fs.exists? (pendingPath pendingRoot candidate)
  markdown := markdown

def render (sourceSessionId : DomainId) (providerName : Str) (candidate : ExtractedSkillCandidate)
    (index : Nat) : Except WriterError Str :=
  renderPendingMarkdown writer.format (writer.now index) candidate sourceSessionId.value providerName

/-- One step of the planning iterator; `taken` holds the pending paths planned so far. -/
def planDraft (fs : Fs) (pendingRoot : Path) (sourceSessionId : DomainId) (providerName : Str)
    (taken : List Path) (candidate : ExtractedSkillCandidate) (index : Nat) :
    Except WriterError PendingWritePlan :=
  if fs.isFile (rejectedTombstonePath pendingRoot candidate) then
    .error (.rejectedTombstonePresent (rejectedTombstonePath pendingRoot candidate).display)
  else if pendingPath pendingRoot candidate ∈ taken then
    .error (.batchValidation ("duplicate pending path resolved for candidate `".toList ++
      candidate.name ++ "` at `".toList ++ (pendingPath pendingRoot candidate).display ++
      "`".toList))
  else
    match writer.render sourceSessionId providerName candidate index with
    | .error error => .error error
    | .ok markdown => .ok (writer.writePlan fs pendingRoot candidate index markdown)

def planDrafts (fs : Fs) (pendingRoot : Path) (sourceSessionId : DomainId) (providerName : Str) :
    List Path → List (ExtractedSkillCandidate × Nat) → Except WriterError (List PendingWritePlan)
  | _, [] => .ok []
  | taken, (candidate, index) :: rest => do
    let plan ← writer.planDraft fs pendingRoot sourceSessionId providerName taken candidate index
    let plans ← planDrafts fs pendingRoot sourceSessionId providerName (plan.pendingPath :: taken) rest
    return plan :: plans

def buildWritePlans (fs : Fs) (pendingRoot : Path) (extractionResult : ExtractionResult)
    (providerName : Str) : Except WriterError (List PendingWritePlan) :=
  writer.planDrafts fs pendingRoot extractionResult.sourceSessionId providerName []
    extractionResult.candidates.zipIdx

end PendingDraftWriter

/-! ### Persisting the plans -/

/-- Report the failure of an operation on a path as a write failure. -/
def orWriteFailure (path : Path) (action : EStateM Str Fs PUnit) : EStateM WriterError Fs PUnit :=
  fun fs =>
    match action fs with
    | .ok done after => .ok done after
    | .error error after => .error (.writeFailure path.display error) after

/-- Run a clean-up when the action fails, and fail all the same. -/
def recovering (action : EStateM WriterError Fs PUnit) (cleanup : Fs → Fs) :
    EStateM WriterError Fs PUnit :=
  fun fs =>
    match action fs with
    | .ok done after => .ok done after
    | .error error after => .error error (cleanup after)

def ofExcept {α : Type} (result : Except WriterError α) : EStateM WriterError Fs α :=
  match result with
  | .ok value => pure value
  | .error error => throw error

namespace PendingDraftWriter

variable (writer : PendingDraftWriter)

def cleanupPath (fs : Fs) (path : Path) : Fs :=
  if fs.exists? path then Fs.attempt (Fs.removeFile writer.refusals path) fs else fs

def cleanupPaths (paths : List Path) (fs : Fs) : Fs := paths.foldl writer.cleanupPath fs

def rollbackBackupMoves (moved : List PendingWritePlan) (fs : Fs) : Fs :=
  moved.reverse.foldl
    (fun fs plan => Fs.attempt (Fs.rename writer.refusals plan.backupPath plan.pendingPath) fs) fs

def createProposalDirectory (plan : PendingWritePlan) : EStateM WriterError Fs PUnit :=
  orWriteFailure plan.proposalDirectory (Fs.createDirAll writer.refusals plan.proposalDirectory)

def writeTemp (plan : PendingWritePlan) : EStateM WriterError Fs PUnit :=
  orWriteFailure plan.tempPath (Fs.write writer.refusals writer.torn plan.tempPath plan.markdown)

def moveBackup (plan : PendingWritePlan) : EStateM WriterError Fs PUnit :=
  orWriteFailure plan.pendingPath (Fs.rename writer.refusals plan.pendingPath plan.backupPath)

def commit (plan : PendingWritePlan) : EStateM WriterError Fs PUnit :=
  orWriteFailure plan.pendingPath (Fs.rename writer.refusals plan.tempPath plan.pendingPath)

def writeTemps (plans : List PendingWritePlan) : EStateM WriterError Fs PUnit :=
  recovering (forEach writer.writeTemp plans)
    (writer.cleanupPaths (plans.map PendingWritePlan.tempPath))

/-- The backup loop; a failure removes the temps and moves the backups back. -/
def moveBackups (plans : List PendingWritePlan) :
    List PendingWritePlan → List PendingWritePlan → EStateM WriterError Fs PUnit
  | _, [] => pure ⟨⟩
  | moved, plan :: rest => do
    recovering (writer.moveBackup plan) fun fs =>
      writer.rollbackBackupMoves moved
        (writer.cleanupPaths (plans.map PendingWritePlan.tempPath) fs)
    moveBackups plans (moved ++ [plan]) rest

/-- The commit loop; a failure also removes what was committed. -/
def commitAll (plans : List PendingWritePlan) :
    List PendingWritePlan → List PendingWritePlan → EStateM WriterError Fs PUnit
  | _, [] => pure ⟨⟩
  | committed, plan :: rest => do
    recovering (writer.commit plan) fun fs =>
      writer.rollbackBackupMoves (plans.filter PendingWritePlan.targetPreexisted)
        (writer.cleanupPaths (committed.map PendingWritePlan.pendingPath)
          (writer.cleanupPaths (plans.map PendingWritePlan.tempPath) fs))
    commitAll plans (committed ++ [plan]) rest

def removeBackups (plans : List PendingWritePlan) : EStateM WriterError Fs PUnit :=
  modify (writer.cleanupPaths (plans.map PendingWritePlan.backupPath))

/-- The file-system part of a batch: directories, temps, backups, commits, clean-up. -/
def persistPlans (plans : List PendingWritePlan) : EStateM WriterError Fs PUnit := do
  forEach writer.createProposalDirectory plans
  writer.writeTemps plans
  writer.moveBackups plans [] (plans.filter PendingWritePlan.targetPreexisted)
  writer.commitAll plans [] plans
  writer.removeBackups plans

def writePendingDrafts (extractionResult : ExtractionResult) (providerName : Str) :
    EStateM WriterError Fs (List Path) := do
  let scopeRoot ← ofExcept writer.scopeRoot
  let pendingRoot := scopeRoot ++ [".skills".toList]
  orWriteFailure pendingRoot (Fs.createDirAll writer.refusals pendingRoot)
  let fs ← get
  let writePlans ← ofExcept (writer.buildWritePlans fs pendingRoot extractionResult providerName)
  if writePlans.isEmpty then return []
  writer.persistPlans writePlans
  return writePlans.map PendingWritePlan.pendingPath

end PendingDraftWriter
end SkillLayer.SessionExtractor

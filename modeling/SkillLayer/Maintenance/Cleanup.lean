import SkillLayer.Domain.LifecyclePolicy
import SkillLayer.GraphBuilder.Watcher
import SkillLayer.Maintenance.Snapshots
import SkillLayer.Sweep

/-! Tombstones: the check before a proposal is made again, and their removal when they have expired. -/

namespace SkillLayer.Maintenance

open Domain
open GraphBuilder (hasLifecycleFileName pathLe)

/-- An active tombstone that blocks an immediate reproposal. -/
structure ReproposalBlock where
  tombstonePath : Path
  ageDays : Int
deriving DecidableEq

inductive CleanupError where
  | invalidWarningThreshold (message : Str)
  | invalidScanRoot (message : Str)
  | traversalFailure (message : Str)
  | metadataReadFailure (path message : Str)
  | frontmatterParseFailure (path message : Str)
  | invalidTombstoneRetention (message : Str)
  | tombstonePruneFailure (path message : Str)
deriving DecidableEq

def CleanupError.display : CleanupError → Str
  | .invalidWarningThreshold message => "invalid warning threshold: " ++ message
  | .invalidScanRoot message => "invalid scan root: " ++ message
  | .traversalFailure message => "pending file traversal failed: " ++ message
  | .metadataReadFailure path message => "cannot read metadata for `".toList ++ path ++ "`: ".toList ++ message
  | .frontmatterParseFailure path message => "cannot parse frontmatter for `".toList ++ path ++ "`: ".toList ++ message
  | .invalidTombstoneRetention message => "invalid tombstone retention: " ++ message
  | .tombstonePruneFailure path message => "failed pruning tombstone `".toList ++ path ++ "`: ".toList ++ message

structure PendingLifecycle where
  createdAt : Timestamp
  warningAt : Timestamp
  expiresAt : Timestamp
  warningLoggedAt : Option Timestamp
deriving DecidableEq

structure PendingFrontmatter where
  createdAt : Option Str
  warningAt : Option Str
  expiresAt : Option Str
  warningLoggedAt : Option Str
deriving DecidableEq

inductive FrontmatterParseMode where
  | strict
  | lenient
deriving DecidableEq

/-- `num_days`: the whole days of a span, towards zero. -/
def numDays (span : Timestamp) : Int := span.tdiv secondsPerDay

/-- `is_rejected_tombstone`: by the presence and the name of the file, not by what is in it. -/
def isRejectedTombstone (fs : Fs) (path : Path) : Bool :=
  fs.isFile path && hasLifecycleFileName path rejectedSkillFileName

/-! ### Scan roots -/

def requestedRootName (root : Path) : Str := "scan root `".toList ++ root.display

/-- The `.skills` directory of a caller's root. -/
def resolveScanRoot (fs : Fs) (requestedRoot : Path) : Except CleanupError Path :=
  if requestedRoot.head? ≠ some [] then
    .error (.invalidScanRoot (requestedRootName requestedRoot ++ "` must be absolute".toList))
  else
    match canonicalize fs requestedRoot with
    | .error error => .error (.invalidScanRoot
        (requestedRootName requestedRoot ++ "` cannot be canonicalized: ".toList ++ error))
    | .ok canonicalRequestedRoot =>
      if fs.node canonicalRequestedRoot ≠ some .directory then
        .error (.invalidScanRoot (requestedRootName canonicalRequestedRoot ++ "` must resolve to a directory".toList))
      else if canonicalRequestedRoot.fileName.map Str.toAsciiLowercase = some ".skills".toList then
        .ok canonicalRequestedRoot
      else
        let proposalRoot := canonicalRequestedRoot ++ [".skills".toList]
        if fs.node proposalRoot ≠ some .directory then
          .error (.invalidScanRoot
            (requestedRootName canonicalRequestedRoot ++ "` must be a `.skills` directory or contain one".toList))
        else
          match canonicalize fs proposalRoot with
          | .error error => .error (.invalidScanRoot
              ("proposal root `".toList ++ proposalRoot.display ++ "` cannot be canonicalized: ".toList ++ error))
          | .ok canonicalProposalRoot =>
            if canonicalProposalRoot.startsWith canonicalRequestedRoot then .ok canonicalProposalRoot
            else .error (.invalidScanRoot
              ("proposal root `".toList ++ canonicalProposalRoot.display ++
                "` resolves outside requested root `".toList ++ canonicalRequestedRoot.display ++ ['`']))

def sortedPaths (paths : List Path) : List Path := paths.insertionSort fun one two => pathLe one two = true

/-- The scan roots of all callers' roots, as an ordered set. -/
def resolveScanRoots (fs : Fs) (rootPaths : List Path) : Except CleanupError (List Path) := do
  let canonicalScanRoots ← rootPaths.mapM (resolveScanRoot fs)
  return sortedPaths canonicalScanRoots.dedup

/-! ### The scanner -/

/-- The scanner with what it reads besides the files: the walk, the modification times, the YAML library and the
format of timestamps. -/
structure PendingWarningScanner where
  warningAfterDays : Int
  traversal : Traversal
  modified : Path → Except Str Timestamp
  refusals : Refusals
  fromStr : Str → Except Str PendingFrontmatter
  parseFromRfc3339 : Str → Option Timestamp

namespace PendingWarningScanner

variable (scanner : PendingWarningScanner)

def parseTimestamp (raw : Option Str) : Option Timestamp := raw.bind scanner.parseFromRfc3339

def readToString (fs : Fs) (path : Path) : Except Str Str :=
  match fs.node path, scanner.traversal.unreadable path with
  | none, _ => .error "No such file or directory"
  | some .directory, _ => .error "Is a directory"
  | some (.file _), some message => .error message
  | some (.file contents), none => .ok contents

def parseFrontmatter (fs : Fs) (proposalPath : Path) (parseMode : FrontmatterParseMode) :
    Except CleanupError (Option PendingFrontmatter) :=
  match scanner.readToString fs proposalPath with
  | .error error => .error (.metadataReadFailure proposalPath.display error)
  | .ok contents =>
    match Str.stripPrefix? "---\n" contents with
    | none => .ok none
    | some remaining =>
      match Str.splitOnce "\n---\n" remaining with
      | none => .ok none
      | some (frontmatterBody, _) =>
        match scanner.fromStr frontmatterBody, parseMode with
        | .ok value, _ => .ok (some value)
        | .error _, .lenient => .ok none
        | .error error, .strict => .error (.frontmatterParseFailure proposalPath.display error)

/-- The modification time of a file that exists. -/
def modifiedAt (fs : Fs) (path : Path) : Except Str Timestamp :=
  if fs.exists? path then scanner.modified path else .error "No such file or directory"

def lifecycleOf (frontmatter : Option PendingFrontmatter) (modifiedAt now : Timestamp) : PendingLifecycle :=
  let createdAt := (frontmatter.bind fun value => scanner.parseTimestamp value.createdAt).getD modifiedAt
  -- A date in the future is not believed.
  let effectiveCreatedAt := if now < createdAt then modifiedAt else createdAt
  { createdAt := effectiveCreatedAt
    warningAt := (frontmatter.bind fun value => scanner.parseTimestamp value.warningAt).getD
      (effectiveCreatedAt + scanner.warningAfterDays * secondsPerDay)
    expiresAt := (frontmatter.bind fun value => scanner.parseTimestamp value.expiresAt).getD
      (pendingDefaultExpiresAt effectiveCreatedAt)
    warningLoggedAt := frontmatter.bind fun value => scanner.parseTimestamp value.warningLoggedAt }

def readLifecycle (fs : Fs) (proposalPath : Path) (now : Timestamp) (parseMode : FrontmatterParseMode) :
    Except CleanupError PendingLifecycle :=
  match scanner.modifiedAt fs proposalPath with
  | .error error => .error (.metadataReadFailure proposalPath.display error)
  | .ok modifiedAt =>
    match scanner.parseFrontmatter fs proposalPath parseMode with
    | .error error => .error error
    | .ok frontmatter => .ok (scanner.lifecycleOf frontmatter modifiedAt now)

def tombstoneAge (now : Timestamp) (lifecycle : PendingLifecycle) : Int := numDays (now - lifecycle.createdAt)

def retentionFailure : CleanupError := .invalidTombstoneRetention "tombstone retention must be greater than zero"

/-! ### The two operations -/

def tombstonePath (proposalRoot : Path) (proposalSlug : Str) : Path :=
  proposalRoot ++ [proposalSlug, rejectedSkillFileName]

/-- The first root with an active tombstone for the slug. -/
def blockIn (fs : Fs) (proposalSlug : Str) (now : Timestamp) (tombstoneRetentionDays : Int) :
    List Path → Except CleanupError (Option ReproposalBlock)
  | [] => .ok none
  | proposalRoot :: rest =>
    if isRejectedTombstone fs (tombstonePath proposalRoot proposalSlug) then
      match scanner.readLifecycle fs (tombstonePath proposalRoot proposalSlug) now .lenient with
      | .error error => .error error
      | .ok lifecycle =>
        if tombstoneAge now lifecycle < tombstoneRetentionDays then
          .ok (some ⟨tombstonePath proposalRoot proposalSlug, tombstoneAge now lifecycle⟩)
        else blockIn fs proposalSlug now tombstoneRetentionDays rest
    else blockIn fs proposalSlug now tombstoneRetentionDays rest

def reproposalBlock (rootPaths : List Path) (proposalSlug : Str) (now : Timestamp) (tombstoneRetentionDays : Int)
    (fs : Fs) : Except CleanupError (Option ReproposalBlock) :=
  if tombstoneRetentionDays ≤ 0 then .error retentionFailure
  else
    match resolveScanRoots fs rootPaths with
    | .error error => .error error
    | .ok proposalRoots => scanner.blockIn fs proposalSlug now tombstoneRetentionDays proposalRoots

/-- One entry of the walk; what is gone by then is not listed. -/
def visitTombstone (now : Timestamp) (tombstoneRetentionDays : Int) (path : Path) :
    EStateM CleanupError Fs (List Path) := fun fs =>
  match fs.node path with
  | none => .ok [] fs
  | some .directory =>
    match scanner.traversal.unreadable path with
    | none => .ok [] fs
    | some message => .error (.traversalFailure message) fs
  | some (.file _) =>
    if isRejectedTombstone fs path then
      match scanner.readLifecycle fs path now .lenient with
      | .error error => .error error fs
      | .ok lifecycle =>
        if tombstoneRetentionDays ≤ tombstoneAge now lifecycle then
          match Fs.removeFile scanner.refusals path fs with
          | .ok _ after => .ok [path] after
          | .error error after => .error (.tombstonePruneFailure path.display error) after
        else .ok [] fs
    else .ok [] fs

/-- The entries below the roots, one root after the other. -/
def walkBelow (proposalRoots : List Path) : List Path :=
  proposalRoots.flatMap fun proposalRoot => scanner.traversal.paths.filter fun path => path.startsWith proposalRoot

def pruneExpiredTombstones (rootPaths : List Path) (now : Timestamp) (tombstoneRetentionDays : Int) :
    EStateM CleanupError Fs (List Path) := fun fs =>
  if tombstoneRetentionDays ≤ 0 then .error retentionFailure fs
  else
    match resolveScanRoots fs rootPaths with
    | .error error => .error error fs
    | .ok proposalRoots =>
      match collectEach (scanner.visitTombstone now tombstoneRetentionDays) (scanner.walkBelow proposalRoots) fs with
      | .error error after => .error error after
      | .ok prunedPaths after => .ok (sortedPaths prunedPaths.flatten) after

end PendingWarningScanner
end SkillLayer.Maintenance

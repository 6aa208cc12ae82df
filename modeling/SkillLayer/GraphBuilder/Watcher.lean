import SkillLayer.Grouping
import SkillLayer.Upsert
import SkillLayer.GraphBuilder.FileTree

/-! The file watcher: snapshots of the skill files, and the changes between two of them. -/

namespace SkillLayer.GraphBuilder

open Domain

inductive SkillFileChangeKind where
  | created
  | modified
  | deleted
  | approvedRename
  | rejectedRename
  | retiredRename
deriving DecidableEq

inductive FileChangeSource where
  | direct
  | pendingApproval
deriving DecidableEq

structure SkillFileChange where
  scopeId : Str
  scopeType : ScopeType
  filePath : Path
  kind : SkillFileChangeKind
  source : FileChangeSource
  contentHash : Str
  idempotencyKey : Str
deriving DecidableEq

structure SkillFileFingerprint where
  contentHash : Str
  modifiedNanos : Nat
deriving DecidableEq

/-- The files of a scan, each path once, in the order of the map. -/
structure SkillSnapshot where
  entries : List (Path × SkillFileFingerprint)
  nodup : (entries.map Prod.fst).Nodup

namespace SkillSnapshot

def paths (snapshot : SkillSnapshot) : List Path := snapshot.entries.map Prod.fst

def get? (snapshot : SkillSnapshot) (path : Path) : Option SkillFileFingerprint := snapshot.entries.lookup path

def empty : SkillSnapshot := ⟨[], List.nodup_nil⟩

end SkillSnapshot

inductive WatcherError where
  | missingScopeRoot (message : Str)
  | watchSetup (message : Str)
  | io (message : Str)
deriving DecidableEq

/-! ### Scanning -/

/-- The order of the map's keys: segment by segment. -/
def pathLe : Path → Path → Bool
  | [], _ => true
  | _ :: _, [] => false
  | segment :: rest, other :: others => if segment = other then pathLe rest others else Str.le segment other

/-- One walked entry: a fingerprint, nothing, or a failure of the whole scan. -/
def fingerprintOf (hash : List UInt8 → Str) (_ : ScopeRoot) (entry : Path × Entry) :
    Except WatcherError (List (Path × SkillFileFingerprint)) :=
  match entry.2 with
  | .unreadable message => .error (.io message)
  | .file content =>
    if isSkillFile entry.1 then
      match content.bytes with
      | .error message => .error (.io message)
      | .ok bytes => .ok [(entry.1, ⟨hash bytes, content.modifiedNanos.toOption.getD 0⟩)]
    else .ok []
  | _ => .ok []

def insertFingerprint (entries : List (Path × SkillFileFingerprint)) (entry : Path × SkillFileFingerprint) :
    List (Path × SkillFileFingerprint) :=
  upsert entry.1 entry.2 (fun _ => entry.2) entries

theorem nodup_insertFingerprints (found : List (Path × SkillFileFingerprint)) :
    ((found.foldl insertFingerprint []).map Prod.fst).Nodup := by
  have kept (entries : List (Path × SkillFileFingerprint)) (distinct : (entries.map Prod.fst).Nodup) :
      ((found.foldl insertFingerprint entries).map Prod.fst).Nodup := by
    induction found generalizing entries with
    | nil => exact distinct
    | cons entry rest ih => exact ih _ (nodup_keys_upsert distinct)
  exact kept [] List.nodup_nil

/-- The map into which the found files are inserted. -/
def snapshotOf (found : List (Path × SkillFileFingerprint)) : SkillSnapshot where
  entries := (found.foldl insertFingerprint []).insertionSort fun one two => pathLe one.1 two.1 = true
  nodup := (((List.perm_insertionSort _ _).map Prod.fst).nodup_iff).mpr (nodup_insertFingerprints found)

def missingWalkRoot (_ : ScopeRoot) : WatcherError := .io "No such file or directory"

def buildSnapshot (hash : List UInt8 → Str) (scopes : List ScopeRoot) (tree : FileTree) :
    Except WatcherError SkillSnapshot :=
  (collectWalks scopes tree missingWalkRoot (fingerprintOf hash)).map snapshotOf

/-! ### Scopes -/

/-- The map from roots to scopes, a later scope replacing an earlier one of the same root. -/
def scopeIndex (scopes : List ScopeRoot) : List (Path × (Str × ScopeType)) :=
  scopes.foldl (fun index scope =>
    upsert scope.root (scope.scopeId, scope.scopeType) (fun _ => (scope.scopeId, scope.scopeType)) index) []

/-- The first root, in the order of the map, that the path starts with. -/
def scopeForPath (path : Path) (index : List (Path × (Str × ScopeType))) : Option (Str × ScopeType) :=
  index.findSome? fun entry => if path.startsWith entry.1 then some entry.2 else none

def buildChange (scope : Str × ScopeType) (path : Path) (kind : SkillFileChangeKind) (source : FileChangeSource)
    (contentHash : Str) : SkillFileChange where
  scopeId := scope.1
  scopeType := scope.2
  filePath := path
  kind := kind
  source := source
  contentHash := contentHash
  idempotencyKey := path.display ++ ":" ++ contentHash

/-! ### Removed files by their hash -/

def sameSkillDirectory (left right : Path) : Bool := left.parent == right.parent

abbrev RemovedPaths := List (Str × List Path)

def pushRemovedPath (removed : RemovedPaths) (contentHash : Str) (path : Path) : RemovedPaths :=
  upsert contentHash [path] (fun paths => paths ++ [path]) removed

/-- The first candidate of the target's directory, and the others. -/
def takeCandidate (targetPath : Path) : List Path → Option (Path × List Path)
  | [] => none
  | candidate :: rest =>
    if sameSkillDirectory candidate targetPath then some (candidate, rest)
    else (takeCandidate targetPath rest).map fun found => (found.1, candidate :: found.2)

/-- The taken path and the map without it; a hash without paths left is removed. -/
def takeRemovedPathForDirectory (contentHash : Str) (targetPath : Path) :
    RemovedPaths → Option (Path × RemovedPaths)
  | [] => none
  | (hash, candidates) :: rest =>
    if hash = contentHash then
      (takeCandidate targetPath candidates).map fun found =>
        (found.1, if found.2.isEmpty then rest else (hash, found.2) :: rest)
    else
      (takeRemovedPathForDirectory contentHash targetPath rest).map fun found =>
        (found.1, (hash, candidates) :: found.2)

/-! ### The difference -/

/-- The iteration orders of the three hash maps of one call. -/
structure DiffOrders where
  scopes : HashOrder (Path × (Str × ScopeType))
  pending : HashOrder (Str × List Path)
  active : HashOrder (Str × List Path)

structure DiffState where
  changes : List SkillFileChange
  removedPending : RemovedPaths
  removedActive : RemovedPaths

section Diff

variable (index : List (Path × (Str × ScopeType)))

/-- A change of a path outside every scope is not recorded. -/
def DiffState.push (state : DiffState) (path : Path) (kind : SkillFileChangeKind) (source : FileChangeSource)
    (contentHash : Str) : DiffState :=
  match scopeForPath path index with
  | some scope => { state with changes := state.changes ++ [buildChange scope path kind source contentHash] }
  | none => state

/-- The pass over the previous snapshot. -/
def visitPrevious (current : SkillSnapshot) (state : DiffState) (entry : Path × SkillFileFingerprint) : DiffState :=
  if (current.get? entry.1).isSome then state
  else if isPendingFile entry.1 then
    { state with removedPending := pushRemovedPath state.removedPending entry.2.contentHash entry.1 }
  else if isActiveSkillFile entry.1 then
    { state with removedActive := pushRemovedPath state.removedActive entry.2.contentHash entry.1 }
  else state.push index entry.1 .deleted .direct entry.2.contentHash

def changeSource (path : Path) : FileChangeSource := if isPendingFile path then .pendingApproval else .direct

/-- A new file: a rename of a removed one with its content, or a creation. -/
def visitAdded (state : DiffState) (path : Path) (contentHash : Str) : DiffState :=
  match (if isActiveSkillFile path then takeRemovedPathForDirectory contentHash path state.removedPending
      else none) with
  | some taken =>
    ({ state with removedPending := taken.2 } : DiffState).push index path .approvedRename .pendingApproval contentHash
  | none =>
    match (if isRejectedFile path then takeRemovedPathForDirectory contentHash path state.removedPending
        else none) with
    | some taken =>
      ({ state with removedPending := taken.2 } : DiffState).push index path .rejectedRename .pendingApproval contentHash
    | none =>
      match (if isRetiredFile path then takeRemovedPathForDirectory contentHash path state.removedActive
          else none) with
      | some taken =>
        ({ state with removedActive := taken.2 } : DiffState).push index path .retiredRename .direct contentHash
      | none => state.push index path .created (changeSource path) contentHash

/-- The pass over the current snapshot. -/
def visitCurrent (previous : SkillSnapshot) (state : DiffState) (entry : Path × SkillFileFingerprint) : DiffState :=
  match previous.get? entry.1 with
  | none => visitAdded index state entry.1 entry.2.contentHash
  | some fingerprint =>
    if fingerprint.contentHash ≠ entry.2.contentHash then
      state.push index entry.1 .modified (changeSource entry.1) entry.2.contentHash
    else state

/-- What is left of the removed files of one kind was deleted. -/
def deleteRemaining (source : FileChangeSource) (removed : RemovedPaths) (state : DiffState) : DiffState :=
  removed.foldl (fun state entry =>
    entry.2.foldl (fun state path => state.push index path .deleted source entry.1) state) state

end Diff

def sortByKey (changes : List SkillFileChange) : List SkillFileChange :=
  changes.insertionSort fun left right => Str.le left.idempotencyKey right.idempotencyKey = true

def diffSkillSnapshots (orders : DiffOrders) (scopes : List ScopeRoot) (previous current : SkillSnapshot) :
    List SkillFileChange :=
  let index := orders.scopes.arrange (scopeIndex scopes)
  let removed := previous.entries.foldl (visitPrevious index current) ⟨[], [], []⟩
  let visited := current.entries.foldl (visitCurrent index previous) removed
  let pending := deleteRemaining index .pendingApproval (orders.pending.arrange visited.removedPending) visited
  let all := deleteRemaining index .direct (orders.active.arrange visited.removedActive) pending
  sortByKey all.changes

end SkillLayer.GraphBuilder

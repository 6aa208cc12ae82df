import Mathlib.Data.List.Nodup
import SkillLayer.Collect
import SkillLayer.Domain.Types
import SkillLayer.Path

/-! The file tree that the graph builder walks, and the walk below a scope root. -/

namespace SkillLayer.GraphBuilder

open Domain

/-- What reading a file gives: its bytes, the same as text, and its mtime. -/
structure FileContent where
  bytes : Except Str (List UInt8)
  text : Except Str Str
  modifiedNanos : Except Str Nat

inductive Entry where
  | file (content : FileContent)
  | directory
  | unreadable (message : Str)
  | other

/-- Everything that exists, in traversal order, each path once. `unreadable` is a
directory that cannot be listed. -/
structure FileTree where
  entries : List (Path × Entry)
  nodup : (entries.map Prod.fst).Nodup

def FileTree.exists? (tree : FileTree) (path : Path) : Bool :=
  tree.entries.any fun entry => entry.1 == path

structure ScopeRoot where
  scopeId : Str
  scopeType : ScopeType
  root : Path
deriving DecidableEq

/-- Directory names that are pruned from every walk. -/
def ignoredDirNames : List Str :=
  [".git", "target", "node_modules", ".github", ".claude", ".opencode", ".cursor", ".continue",
    ".aider", ".codeium", ".windsurf", ".gemini", ".amazonq"]

def hasLifecycleFileName (path : Path) (expectedFileName : Str) : Bool :=
  path.fileName.any fun fileName =>
    Str.toAsciiLowercase fileName == Str.toAsciiLowercase expectedFileName

def isActiveSkillFile (path : Path) : Bool := hasLifecycleFileName path activeSkillFileName
def isPendingFile (path : Path) : Bool := hasLifecycleFileName path pendingSkillFileName
def isRetiredFile (path : Path) : Bool := hasLifecycleFileName path retiredSkillFileName
def isRejectedFile (path : Path) : Bool := hasLifecycleFileName path rejectedSkillFileName

def isSkillFile (path : Path) : Bool :=
  isActiveSkillFile path || isPendingFile path || isRetiredFile path || isRejectedFile path

/-! ### The walk -/

/-- The names of the root and of the directories between it and the path. -/
def directoryNames (root path : Path) : List Str :=
  root.getLast?.toList ++ (path.drop root.length).dropLast

def namesKept (names : List Str) : Bool := names.all fun name => !ignoredDirNames.contains name

/-- `WalkDir` with the directory filter yields the path: it lies under the root and
no directory on the way is ignored. -/
def reached (root path : Path) : Bool :=
  root.isPrefixOf path && namesKept (directoryNames root path)

/-- A directory that fails to list is itself subject to the filter. -/
def visited (root : Path) (entry : Path × Entry) : Bool :=
  match entry.2 with
  | .unreadable _ => reached root entry.1 && namesKept entry.1.fileName.toList
  | _ => reached root entry.1

def walk (tree : FileTree) (root : Path) : List (Path × Entry) := tree.entries.filter (visited root)

variable {Out Err : Type}

/-- The loop over the scope roots and the entries below each; a missing root is a
failing entry. -/
def collectWalks (scopes : List ScopeRoot) (tree : FileTree) (missing : ScopeRoot → Err)
    (visit : ScopeRoot → Path × Entry → Except Err (List Out)) : Except Err (List Out) :=
  collect
    (fun scope =>
      if tree.exists? scope.root then collect (visit scope) (walk tree scope.root)
      else .error (missing scope))
    scopes

theorem mem_walk {tree : FileTree} {root : Path} {entry : Path × Entry} :
    entry ∈ walk tree root ↔ entry ∈ tree.entries ∧ visited root entry = true :=
  List.mem_filter

theorem reached_of_visited {root : Path} {entry : Path × Entry} (seen : visited root entry = true) :
    reached root entry.1 = true := by
  unfold visited at seen
  split at seen
  · exact (Bool.and_eq_true_iff.mp seen).1
  · exact seen

theorem namesKept_append (names others : List Str) :
    namesKept (names ++ others) = (namesKept names && namesKept others) :=
  List.all_append

/-- A finished loop has seen every root and collected the yields of all entries. -/
theorem collectWalks_eq_ok {scopes : List ScopeRoot} {tree : FileTree} {missing : ScopeRoot → Err}
    {visit : ScopeRoot → Path × Entry → Except Err (List Out)} {out : List Out}
    (finished : collectWalks scopes tree missing visit = .ok out) :
    (∀ scope ∈ scopes, tree.exists? scope.root = true ∧
      ∀ entry ∈ walk tree scope.root, ∃ more, visit scope entry = .ok more) ∧
      out = scopes.flatMap fun scope => (walk tree scope.root).flatMap (yielded (visit scope)) := by
  obtain ⟨ran, rfl⟩ := collect_eq_ok.mp finished
  have each (scope : ScopeRoot) (member : scope ∈ scopes) :
      (tree.exists? scope.root = true ∧
        ∀ entry ∈ walk tree scope.root, ∃ more, visit scope entry = .ok more) ∧
        yielded (fun scope =>
          if tree.exists? scope.root then collect (visit scope) (walk tree scope.root)
          else .error (missing scope)) scope =
        (walk tree scope.root).flatMap (yielded (visit scope)) := by
    obtain ⟨more, succeeded⟩ := ran scope member
    split at succeeded
    · rename_i present
      obtain ⟨entries, rfl⟩ := collect_eq_ok.mp succeeded
      refine ⟨⟨present, entries⟩, ?_⟩
      rw [yielded, if_pos present, succeeded]
    · cases succeeded
  exact ⟨fun scope member => (each scope member).1,
    List.flatMap_congr fun scope member => (each scope member).2⟩

end SkillLayer.GraphBuilder

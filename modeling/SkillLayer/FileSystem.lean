import Mathlib.Data.List.Infix
import SkillLayer.Path
import SkillLayer.Stateful

/-! A file system as a map from paths to nodes, with an oracle for the operations
that the operating system refuses for reasons of its own (permissions, space). -/

namespace SkillLayer

inductive Node where
  | file (content : Str)
  | directory
deriving DecidableEq

structure Fs where
  node : Path → Option Node

inductive FsOp where
  | createDir (path : Path)
  | write (path : Path)
  | rename (source target : Path)
  | removeFile (path : Path)
deriving DecidableEq

/-- The error text of each refused operation. -/
abbrev Refusals := FsOp → Option Str

namespace Fs

def exists? (fs : Fs) (path : Path) : Bool := (fs.node path).isSome

def isFile (fs : Fs) (path : Path) : Bool :=
  match fs.node path with
  | some (.file _) => true
  | _ => false

theorem isFile_iff {fs : Fs} {path : Path} :
    fs.isFile path = true ↔ ∃ content, fs.node path = some (.file content) := by
  unfold isFile
  cases fs.node path with
  | none => simp
  | some node => cases node <;> simp

def put (fs : Fs) (path : Path) (node : Option Node) : Fs :=
  ⟨fun other => if other = path then node else fs.node other⟩

/-- Move everything at or under `source` to `target`. -/
def relocate (fs : Fs) (source target : Path) : Fs :=
  ⟨fun path =>
    if target.isPrefixOf path then fs.node (source ++ path.drop target.length)
    else if source.isPrefixOf path then none
    else fs.node path⟩

/-! ### Operations -/

/-- An operation fails without effect where something blocks it. -/
def guarded (blocked : Fs → Option Str) (effect : Fs → Fs) : EStateM Str Fs PUnit := fun fs =>
  match blocked fs with
  | some error => .error error fs
  | none => .ok ⟨⟩ (effect fs)

def createBlocked (node : Option Node) (refusal : Option Str) : Option Str :=
  match node with
  | some .directory => none
  | some (.file _) => some "File exists"
  | none => refusal

def writeBlocked (parent node : Option Node) (refusal : Option Str) : Option Str :=
  if parent ≠ some .directory then some "No such file or directory"
  else if node = some .directory then some "Is a directory"
  else refusal

def renameBlocked (parent source target : Option Node) (refusal : Option Str) : Option Str :=
  if parent ≠ some .directory then some "No such file or directory"
  else
    match source, target with
    | none, _ => some "No such file or directory"
    | some (.file _), some .directory => some "Is a directory"
    | some .directory, some (.file _) => some "Not a directory"
    | _, _ => refusal

variable (refusals : Refusals)

def createDir (path : Path) : EStateM Str Fs PUnit :=
  guarded (fun fs => createBlocked (fs.node path) (refusals (.createDir path)))
    (fun fs => fs.put path (some .directory))

/-- `fs::create_dir_all`: every missing directory on the way down. -/
def createDirAll (path : Path) : EStateM Str Fs PUnit :=
  forEach (createDir refusals) path.inits.tail

/-- What a write that breaks off leaves at the path: the file as it was or a first part. -/
def cutShort (fs : Fs) (path : Path) : Option Str → Fs
  | none => fs
  | some part => fs.put path (some (.file part))

/-- `fs::write`: create or truncate the file, in an existing directory. A refused write may
have opened the file before it breaks off. -/
def write (torn : Path → Option Str) (path : Path) (content : Str) : EStateM Str Fs PUnit := fun fs =>
  match writeBlocked (fs.node path.parent) (fs.node path) none with
  | some error => .error error fs
  | none =>
    match refusals (.write path) with
    | some error => .error error (fs.cutShort path (torn path))
    | none => .ok ⟨⟩ (fs.put path (some (.file content)))

/-- `fs::rename`: a file may replace a file, a directory anything but a file. -/
def rename (source target : Path) : EStateM Str Fs PUnit :=
  guarded
    (fun fs => renameBlocked (fs.node target.parent) (fs.node source) (fs.node target)
      (refusals (.rename source target)))
    (fun fs => fs.relocate source target)

def removeFile (path : Path) : EStateM Str Fs PUnit :=
  guarded
    (fun fs => if fs.isFile path then refusals (.removeFile path) else some "No such file or directory")
    (fun fs => fs.put path none)

/-- `let _ = action`: keep what it did, ignore how it ended. -/
def attempt (action : EStateM Str Fs PUnit) (fs : Fs) : Fs :=
  match action fs with
  | .ok _ after => after
  | .error _ after => after

/-! ### What an operation touches -/

theorem succeeds_guarded {blocked : Fs → Option Str} {effect : Fs → Fs} {before after : Fs} :
    Succeeds (guarded blocked effect) before after ↔ blocked before = none ∧ after = effect before := by
  unfold Succeeds guarded
  cases blocked before <;> simp [eq_comm]

theorem leads_guarded {blocked : Fs → Option Str} {effect : Fs → Fs} {before : Fs}
    {post : Except Str PUnit → Fs → Prop} :
    Leads (guarded blocked effect) before post ↔
      match blocked before with
      | none => post (.ok ⟨⟩) (effect before)
      | some error => post (.error error) before := by
  unfold Leads guarded
  cases blocked before <;> exact Iff.rfl

theorem attempt_guarded (blocked : Fs → Option Str) (effect : Fs → Fs) (fs : Fs) :
    attempt (guarded blocked effect) fs = if blocked fs = none then effect fs else fs := by
  unfold attempt guarded
  cases blocked fs <;> simp

theorem writeBlocked_eq_none {parent node : Option Node} {refusal : Option Str} :
    writeBlocked parent node refusal = none ↔ writeBlocked parent node none = none ∧ refusal = none := by
  unfold writeBlocked
  split
  · simp
  · split <;> simp

theorem succeeds_write {refusals : Refusals} {torn : Path → Option Str} {path : Path} {content : Str}
    {before after : Fs} :
    Succeeds (write refusals torn path content) before after ↔
      writeBlocked (before.node path.parent) (before.node path) (refusals (.write path)) = none ∧
        after = before.put path (some (.file content)) := by
  rw [writeBlocked_eq_none]
  unfold Succeeds write
  cases writeBlocked (before.node path.parent) (before.node path) none with
  | some error => simp
  | none => cases refusals (.write path) <;> simp [eq_comm]

/-- A write ends with the file as it was or with some file at the path. -/
theorem leads_write (refusals : Refusals) (torn : Path → Option Str) (path : Path) (content : Str) (before : Fs) :
    Leads (write refusals torn path content) before fun _ after =>
      after = before ∨ ∃ part, after = before.put path (some (.file part)) := by
  unfold Leads write
  cases writeBlocked (before.node path.parent) (before.node path) none with
  | some error => exact Or.inl rfl
  | none =>
    cases refusals (.write path) with
    | none => exact Or.inr ⟨content, rfl⟩
    | some error =>
      cases torn path with
      | none => exact Or.inl rfl
      | some part => exact Or.inr ⟨part, rfl⟩

theorem node_put_of_ne {fs : Fs} {path other : Path} {node : Option Node} (apart : other ≠ path) :
    (fs.put path node).node other = fs.node other :=
  if_neg apart

theorem node_put_self (fs : Fs) (path : Path) (node : Option Node) :
    (fs.put path node).node path = node :=
  if_pos rfl

theorem node_relocate_of_not_prefix {fs : Fs} {source target path : Path}
    (offTarget : ¬ target <+: path) (offSource : ¬ source <+: path) :
    (fs.relocate source target).node path = fs.node path := by
  rw [relocate]
  dsimp only
  rw [if_neg (by simpa using offTarget), if_neg (by simpa using offSource)]

theorem put_directory_of_exists {fs : Fs} {path : Path} (isDirectory : fs.node path = some .directory) :
    fs.put path (some .directory) = fs := by
  have same : (fs.put path (some .directory)).node = fs.node := by
    funext other
    by_cases here : other = path
    · rw [here, node_put_self, isDirectory]
    · exact node_put_of_ne here
  cases fs
  exact congrArg Fs.mk same

/-- A finished `create_dir_all` has made every prefix a directory and touched
nothing else. -/
theorem of_createDirs {refusals : Refusals} {paths : List Path} {before after : Fs}
    (ran : Succeeds (forEach (createDir refusals) paths) before after) :
    (∀ path ∈ paths, after.node path = some .directory) ∧
      ∀ other ∉ paths, after.node other = before.node other := by
  induction paths generalizing before with
  | nil =>
    obtain rfl := succeeds_forEach_nil.mp ran
    exact ⟨by simp, fun _ _ => rfl⟩
  | cons path rest ih =>
    obtain ⟨between, first, later⟩ := succeeds_forEach_cons.mp ran
    obtain ⟨-, rfl⟩ := succeeds_guarded.mp first
    obtain ⟨made, kept⟩ := ih later
    constructor
    · intro target member
      by_cases inRest : target ∈ rest
      · exact made target inRest
      · obtain rfl := (List.mem_cons.mp member).resolve_right inRest
        rw [kept target inRest, node_put_self]
    · intro other outside
      obtain ⟨off, offRest⟩ := not_or.mp (mt List.mem_cons.mpr outside)
      rw [kept other offRest, node_put_of_ne off]

/-- On existing directories the loop changes nothing. -/
theorem createDirs_of_exist (refusals : Refusals) {paths : List Path} {fs : Fs}
    (exist : ∀ path ∈ paths, fs.node path = some .directory) :
    Succeeds (forEach (createDir refusals) paths) fs fs := by
  induction paths with
  | nil => exact succeeds_forEach_nil.mpr rfl
  | cons path rest ih =>
    have here := exist path List.mem_cons_self
    refine succeeds_forEach_cons.mpr ⟨fs, succeeds_guarded.mpr ⟨?_, ?_⟩, ih fun other member =>
      exist other (List.mem_cons_of_mem _ member)⟩
    · rw [here]
      rfl
    · rw [put_directory_of_exists here]

/-- Inside an existing directory only the last level is created. -/
theorem succeeds_createDirAll_child {refusals : Refusals} {root : Path} {name : Str}
    {before after : Fs} (rooted : ∀ path ∈ root.inits.tail, before.node path = some .directory) :
    Succeeds (createDirAll refusals (root ++ [name])) before after ↔
      Succeeds (createDir refusals (root ++ [name])) before after := by
  have levels : (root ++ [name]).inits.tail = root.inits.tail ++ [root ++ [name]] := by
    rw [List.inits_append]
    cases root <;> simp
  rw [createDirAll, levels, succeeds_forEach_append]
  constructor
  · rintro ⟨between, above, last⟩
    have same := createDirs_of_exist refusals rooted
    obtain rfl : between = before := by
      have both := above.symm.trans same
      injection both
    obtain ⟨_, made, done⟩ := succeeds_forEach_cons.mp last
    rwa [succeeds_forEach_nil.mp done]
  · intro made
    exact ⟨before, createDirs_of_exist refusals rooted,
      succeeds_forEach_cons.mpr ⟨after, made, succeeds_forEach_nil.mpr rfl⟩⟩

theorem node_relocate_target (fs : Fs) (source target : Path) :
    (fs.relocate source target).node target = fs.node source := by
  simp [relocate]

theorem node_relocate_source {fs : Fs} {source target : Path} (apart : ¬ target <+: source) :
    (fs.relocate source target).node source = none := by
  simp [relocate, apart]

/-! ### Growth -/

/-- Directories may be new; everything else is as it was. -/
structure Gains (before after : Fs) : Prop where
  kept : ∀ path node, before.node path = some node → after.node path = some node
  files : ∀ path content, after.node path = some (.file content) → before.node path = some (.file content)

theorem Gains.refl (fs : Fs) : Gains fs fs := ⟨fun _ _ there => there, fun _ _ there => there⟩

theorem Gains.trans {before between after : Fs} (first : Gains before between) (second : Gains between after) :
    Gains before after where
  kept path node there := second.kept path node (first.kept path node there)
  files path content there := first.files path content (second.files path content there)

theorem gains_put_directory {fs : Fs} {path : Path} (free : ∀ content, fs.node path ≠ some (.file content)) :
    Gains fs (fs.put path (some .directory)) where
  kept other node there := by
    by_cases here : other = path
    · subst here
      rw [node_put_self]
      cases node with
      | directory => rfl
      | file content => exact absurd there (free content)
    · rw [node_put_of_ne here, there]
  files other content there := by
    by_cases here : other = path
    · rw [here, node_put_self] at there
      cases there
    · rwa [node_put_of_ne here] at there

theorem createDir_free {path : Path} {fs : Fs} {refusal : Option Str}
    (allowed : createBlocked (fs.node path) refusal = none) (content : Str) :
    fs.node path ≠ some (.file content) := by
  intro there
  rw [there] at allowed
  cases allowed

/-- Wherever `create_dir_all` ends, it has made directories at most. -/
theorem leads_createDirs (refusals : Refusals) (paths : List Path) (before : Fs) :
    Leads (forEach (createDir refusals) paths) before fun _ after => Gains before after := by
  induction paths generalizing before with
  | nil => exact Gains.refl before
  | cons path rest ih =>
    rw [forEach, leads_bind]
    refine leads_of_ends ?_ ?_
    · intro _ between ran
      obtain ⟨allowed, rfl⟩ := succeeds_guarded.mp ran
      apply (ih _).mono
      intro _ after grown
      exact (gains_put_directory (createDir_free allowed)).trans grown
    · intro error between ran
      rw [createDir, guarded] at ran
      split at ran
      · cases ran
        exact Gains.refl before
      · cases ran

/-- Where no file is in the way and nothing is refused, every directory is made. -/
theorem createDirs_succeed {refusals : Refusals} {paths : List Path} {before : Fs}
    (allowed : ∀ path, refusals (.createDir path) = none)
    (free : ∀ path ∈ paths, ∀ content, before.node path ≠ some (.file content)) :
    ∃ after, Succeeds (forEach (createDir refusals) paths) before after := by
  induction paths generalizing before with
  | nil => exact ⟨before, rfl⟩
  | cons path rest ih =>
    have here := free path List.mem_cons_self
    have unblocked : createBlocked (before.node path) (refusals (.createDir path)) = none := by
      rw [allowed]
      cases there : before.node path with
      | none => rfl
      | some node =>
        cases node with
        | directory => rfl
        | file content => exact absurd there (here content)
    have made : Succeeds (createDir refusals path) before (before.put path (some .directory)) :=
      succeeds_guarded.mpr ⟨unblocked, rfl⟩
    have stillFree : ∀ other ∈ rest, ∀ content,
        (before.put path (some .directory)).node other ≠ some (.file content) := by
      intro other member content there
      exact free other (List.mem_cons_of_mem _ member) content ((gains_put_directory here).files _ _ there)
    obtain ⟨after, ran⟩ := ih stillFree
    exact ⟨after, succeeds_forEach_cons.mpr ⟨_, made, ran⟩⟩

/-! ### Subtrees -/

/-- The part of the file system below a directory, itself included as `[]`. -/
def subtree (fs : Fs) (directory : Path) : Fs := ⟨fun rest => fs.node (directory ++ rest)⟩

theorem subtree_put (fs : Fs) (directory rest : Path) (node : Option Node) :
    (fs.put (directory ++ rest) node).subtree directory = (fs.subtree directory).put rest node := by
  simp [subtree, put]

theorem subtree_relocate (fs : Fs) (directory source target : Path) :
    (fs.relocate (directory ++ source) (directory ++ target)).subtree directory =
      (fs.subtree directory).relocate source target := by
  have prefixed (first second : Path) :
      (directory ++ first).isPrefixOf (directory ++ second) = first.isPrefixOf second := by
    rw [Bool.eq_iff_iff, List.isPrefixOf_iff_prefix, List.isPrefixOf_iff_prefix,
      List.prefix_append_right_inj]
  simp only [subtree, relocate, prefixed, List.append_assoc, List.length_append, List.drop_append,
    List.drop_eq_nil_of_le (Nat.le_add_right _ _), Nat.add_sub_cancel_left, List.nil_append]

/-- Nothing changed outside a directory. -/
def Within (directory : Path) (before after : Fs) : Prop :=
  ∀ path, ¬ directory <+: path → after.node path = before.node path

theorem within_put (fs : Fs) (directory rest : Path) (node : Option Node) :
    Within directory fs (fs.put (directory ++ rest) node) := by
  intro path outside
  refine node_put_of_ne ?_
  rintro rfl
  exact outside (List.prefix_append _ _)

theorem within_relocate (fs : Fs) (directory source target : Path) :
    Within directory fs (fs.relocate (directory ++ source) (directory ++ target)) := by
  intro path outside
  refine node_relocate_of_not_prefix ?_ ?_
  · exact fun inside => outside ((List.prefix_append _ _).trans inside)
  · exact fun inside => outside ((List.prefix_append _ _).trans inside)

/-- A change inside one directory is invisible in any other. -/
theorem subtree_of_within {directory other : Path} {before after : Fs}
    (within : Within directory before after) (notAbove : ¬ directory <+: other)
    (notBelow : ¬ other <+: directory) : after.subtree other = before.subtree other := by
  have same : (after.subtree other).node = (before.subtree other).node := by
    funext rest
    refine within (other ++ rest) fun inside => ?_
    rcases List.prefix_or_prefix_of_prefix inside (List.prefix_append other rest) with above | below
    · exact notAbove above
    · exact notBelow below
  exact congrArg Fs.mk same

end Fs
end SkillLayer

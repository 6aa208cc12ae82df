import SkillLayer.GraphBuilder.SkillIds
import SkillLayer.Infrastructure.OutboxRelay
import SkillLayer.Maintenance.Workspace

/-! Loading the skill snapshots from the files below the scope roots. -/

namespace SkillLayer.Maintenance

open Domain GraphBuilder
open Infrastructure (Blake3 Uuid sampleDigest stableSkillUuid)

/-- How a walk over the files goes: its order, and what it cannot list or read. -/
structure Traversal where
  paths : List Path
  nodup : paths.Nodup
  unreadable : Path → Option Str

namespace Traversal

variable (traversal : Traversal) (fs : Fs)

/-- What the walk finds at a path; nothing here reads a modification time. -/
def entryAt (path : Path) : Option Entry :=
  match fs.node path, traversal.unreadable path with
  | none, _ => none
  | some .directory, none => some .directory
  | some .directory, some message => some (.unreadable message)
  | some (.file content), none => some (.file ⟨.ok (Str.utf8 content), .ok content, .ok 0⟩)
  | some (.file _), some message => some (.file ⟨.error message, .error message, .ok 0⟩)

def entries : List (Path × Entry) :=
  traversal.paths.filterMap fun path => (traversal.entryAt fs path).map (Prod.mk path)

theorem mem_entries {path : Path} {entry : Entry} :
    (path, entry) ∈ traversal.entries fs ↔ path ∈ traversal.paths ∧ traversal.entryAt fs path = some entry := by
  unfold entries
  rw [List.mem_filterMap]
  constructor
  · rintro ⟨other, member, found⟩
    obtain ⟨there, present, same⟩ := Option.map_eq_some_iff.mp found
    obtain ⟨rfl, rfl⟩ := Prod.mk.inj same
    exact ⟨member, present⟩
  · rintro ⟨member, present⟩
    exact ⟨path, member, by rw [present, Option.map_some]⟩

theorem entries_sublist : ((traversal.entries fs).map Prod.fst).Sublist traversal.paths := by
  unfold entries
  induction traversal.paths with
  | nil => exact List.Sublist.slnil
  | cons path rest ih =>
    rw [List.filterMap_cons]
    cases traversal.entryAt fs path with
    | none => exact ih.cons path
    | some entry => exact ih.cons_cons path

/-- The files as the walk sees them. -/
def listing : FileTree where
  entries := traversal.entries fs
  nodup := traversal.nodup.sublist (traversal.entries_sublist fs)

/-- The walk misses nothing. -/
def Complete : Prop := ∀ path, fs.node path ≠ none → path ∈ traversal.paths

variable {traversal fs}

theorem exists_listing {path : Path} (complete : traversal.Complete fs) (there : fs.node path ≠ none) :
    (traversal.listing fs).exists? path = true := by
  have found : ∃ entry, traversal.entryAt fs path = some entry := by
    unfold entryAt
    cases here : fs.node path with
    | none => exact absurd here there
    | some kind =>
      cases kind <;> cases traversal.unreadable path <;> exact ⟨_, rfl⟩
  obtain ⟨entry, present⟩ := found
  refine List.any_eq_true.mpr ⟨(path, entry), ?_, beq_self_eq_true path⟩
  exact (traversal.mem_entries fs).mpr ⟨complete path there, present⟩

theorem file_of_entry {path : Path} {content : FileContent} {text : Str}
    (member : (path, Entry.file content) ∈ (traversal.listing fs).entries) (read : content.text = .ok text) :
    fs.node path = some (.file text) := by
  have found := ((traversal.mem_entries fs).mp member).2
  unfold entryAt at found
  cases here : fs.node path with
  | none => simp [here] at found
  | some kind =>
    cases kind with
    | directory => cases refused : traversal.unreadable path <;> simp [here, refused] at found
    | file there =>
      cases refused : traversal.unreadable path with
      | some message =>
        simp only [here, refused, Option.some.injEq, Entry.file.injEq] at found
        rw [← found] at read
        cases read
      | none =>
        simp only [here, refused, Option.some.injEq, Entry.file.injEq] at found
        rw [← found] at read
        rw [Except.ok.inj read]

end Traversal

/-! ### Loading -/

/-- The services of the loader: the build of the skills, and the text of their persisted ids. -/
structure SnapshotLoader (F : Type) where
  build : BuildServices F
  blake3 : Blake3
  uuidText : Uuid → Str

variable {F : Type} (loader : SnapshotLoader F) (scopeRoots : List Path)

def displayBuildError : GraphBuildError → Str
  | .readFailure path message => "cannot read skill file `".toList ++ path ++ "`: ".toList ++ message
  | .embedding message => "embedding failed: " ++ message

/-- A root is global when its path says so. -/
def isGlobalRoot (root : Path) : Bool := decide ("global".toList <:+: root.display)

def loaderRoots : List ScopeRoot :=
  scopeRoots.zipIdx.map fun entry =>
    ⟨"scope-".toList ++ Str.ofNat entry.2, if isGlobalRoot entry.1 then .global else .project, entry.1⟩

/-- The snapshot of a built skill, under its persisted id. -/
def snapshotOf (skill : BuiltSkill F) : SkillSnapshot where
  id := loader.uuidText (stableSkillUuid loader.blake3 skill.id)
  name := skill.name
  description := skill.description
  scope := skill.scopeType
  sourcePath := skill.sourcePath
  tags := skill.tags
  subunits := skill.subunits.map ExtractedSubunit.content

def loadSkillSnapshots (tree : FileTree) : Except Str (List SkillSnapshot) :=
  if scopeRoots.isEmpty then .ok []
  else
    match buildSkillsFromScopeRoots loader.build (loaderRoots scopeRoots) tree with
    | .error error => .error (displayBuildError error)
    | .ok built => .ok (built.map (snapshotOf loader))

/-- The marker of a skill. -/
def markerPath (skill : SkillSnapshot) : Path := skill.sourcePath.parent ++ [retiredSkillFileName]

/-- The snapshot is what the files hold: an active skill file below a scope root, with its text. -/
structure OnDisk (fs : Fs) (skill : SkillSnapshot) (scope : ScopeRoot) (text : Str) : Prop where
  known : scope ∈ loaderRoots scopeRoots
  below : reached scope.root skill.sourcePath = true
  active : isActiveSkillFile skill.sourcePath = true
  present : fs.node skill.sourcePath = some (.file text)
  content : skill = snapshotOf loader (readSkill loader.build scope skill.sourcePath text).1

variable {loader scopeRoots} {traversal : Traversal} {fs : Fs} {skills : List SkillSnapshot}

/-- A loaded snapshot is what the files hold, and a complete walk has seen no marker beside it. -/
theorem of_loaded (loaded : loadSkillSnapshots loader scopeRoots (traversal.listing fs) = .ok skills)
    {skill : SkillSnapshot} (member : skill ∈ skills) :
    (∃ scope text, OnDisk loader scopeRoots fs skill scope text) ∧
      (traversal.Complete fs → fs.node (markerPath skill) = none) := by
  unfold loadSkillSnapshots at loaded
  split at loaded
  · obtain rfl := Except.ok.inj loaded
    cases member
  · split at loaded
    · cases loaded
    · rename_i built done
      obtain rfl := Except.ok.inj loaded
      obtain ⟨skill, inBuilt, rfl⟩ := List.mem_map.mp member
      obtain ⟨scope, known, path, content, text, embedding, walked, isText, active, unretired, rfl⟩ :=
        of_built loader.build done inBuilt
      obtain ⟨inTree, seen⟩ := mem_walk.mp walked
      refine ⟨⟨scope, text, known, reached_of_visited seen, active, Traversal.file_of_entry inTree isText, rfl⟩, ?_⟩
      intro complete
      by_contra there
      have marked : hasRetiredMarker (traversal.listing fs) path = true := Traversal.exists_listing complete there
      rw [unretired] at marked
      cases marked

/-! ### One skill -/

/-- The loader of the skill `/repo/a/SKILL.md`. -/
def sampleLoader : SnapshotLoader Nat where
  build := sampleServices
  blake3 := sampleDigest
  uuidText := Uuid.display

def skillDirectory : Path := [[], "repo", "a"]
def fileOfSkill : Path := skillDirectory ++ [activeSkillFileName]
def markerOfSkill : Path := skillDirectory ++ [retiredSkillFileName]

/-- One skill, in the directory `/repo/a`, and an empty directory `/global`. -/
def oneSkillFs : Fs where
  node path :=
    if path = fileOfSkill then some (.file "# Tips")
    else if [[[]], [[], "global".toList], [[], "repo".toList], skillDirectory].contains path then some .directory
    else none

def skillWalk : Traversal where
  paths := [[[]], [[], "global"], [[], "repo"], skillDirectory, fileOfSkill, markerOfSkill]
  nodup := by decide +kernel
  unreadable _ := none

theorem skillWalk_complete : skillWalk.Complete oneSkillFs := by
  intro path there
  unfold oneSkillFs at there
  dsimp only at there
  split at there
  · rename_i isSkill
    rw [isSkill]
    decide +kernel
  · split at there
    · rename_i member
      have walked : ∀ other ∈ ([[[]], [[], "global".toList], [[], "repo".toList], skillDirectory] : List Path),
          other ∈ skillWalk.paths := by decide +kernel
      exact walked path (List.contains_iff_mem.mp member)
    · exact absurd rfl there

end SkillLayer.Maintenance

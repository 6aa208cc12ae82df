import Mathlib.Data.List.Sort
import SkillLayer.GraphBuilder.Extraction
import SkillLayer.GraphBuilder.FileTree

/-! Building the skills of a rebuild from the active skill files below the scope
roots, and when their ids are distinct. -/

namespace SkillLayer.GraphBuilder

open Domain

structure BuiltSkill (F : Type) where
  id : Str
  scopeId : Str
  scopeType : ScopeType
  sourcePath : Path
  name : Str
  description : Str
  tags : List Str
  subunits : List ExtractedSubunit
  embedding : List F
deriving DecidableEq

inductive GraphBuildError where
  | readFailure (path message : Str)
  | embedding (message : Str)
deriving DecidableEq

/-- The services of a build: the reader, the content hash and the embedder. -/
structure BuildServices (F : Type) where
  reader : SkillReader
  hash : List UInt8 → Str
  embedBatch : List Str → Except Str (List (List F))

variable {F : Type} (services : BuildServices F)

/-- A skill's id is the hash of its displayed path. -/
def skillId (path : Path) : Str := services.hash (Str.utf8 path.display)

def hasRetiredMarker (tree : FileTree) (activeSkillPath : Path) : Bool :=
  tree.exists? (activeSkillPath.parent ++ [retiredSkillFileName])

/-- The skill of a file with the text that is embedded for it. -/
def readSkill (scope : ScopeRoot) (path : Path) (content : Str) : BuiltSkill F × Str :=
  let extraction := extractSkill services.reader path content
  ({  id := skillId services path
      scopeId := scope.scopeId
      scopeType := scope.scopeType
      sourcePath := path
      name := extraction.skillName
      description := extraction.description
      tags := extraction.tags
      subunits := extraction.subunits
      embedding := [] },
    extraction.skillName ++ [' '] ++ extraction.description ++ [' '] ++
      Str.join [' '] extraction.tags)

/-- One walked entry: a skill, nothing, or a failure of the whole build. -/
def visitSkill (tree : FileTree) (scope : ScopeRoot) (entry : Path × Entry) :
    Except GraphBuildError (List (BuiltSkill F × Str)) :=
  match entry.2 with
  | .unreadable message => .error (.readFailure scope.root.display message)
  | .file content =>
    if !isActiveSkillFile entry.1 || hasRetiredMarker tree entry.1 then .ok []
    else
      match content.text with
      | .error message => .error (.readFailure entry.1.display message)
      | .ok text => .ok [readSkill services scope entry.1 text]
  | _ => .ok []

def missingScopeRoot (scope : ScopeRoot) : GraphBuildError :=
  .readFailure scope.root.display "No such file or directory"

def sortById (skills : List (BuiltSkill F)) : List (BuiltSkill F) :=
  skills.insertionSort fun left right => Str.le left.id right.id = true

def buildSkillsFromScopeRoots (scopeRoots : List ScopeRoot) (tree : FileTree) :
    Except GraphBuildError (List (BuiltSkill F)) := do
  let found ← collectWalks scopeRoots tree missingScopeRoot (visitSkill services tree)
  if found.isEmpty then return []
  let embeddings ← (services.embedBatch (found.map Prod.snd)).mapError .embedding
  if embeddings.length ≠ found.length then
    throw (.embedding ("embedding count mismatch: expected ".toList ++ Str.ofNat found.length ++
      ", got ".toList ++ Str.ofNat embeddings.length))
  return sortById (List.zipWith (fun skill embedding => { skill with embedding := embedding })
    (found.map Prod.fst) embeddings)

/-! ### The files a build reads -/

/-- The walk from the root yields the path as an active skill file that is not retired. -/
def Discovered (tree : FileTree) (root path : Path) : Prop :=
  (∃ content, (path, Entry.file content) ∈ walk tree root) ∧
    isActiveSkillFile path = true ∧ hasRetiredMarker tree path = false

/-- The path of an entry that holds an active skill. -/
def activePath (tree : FileTree) (entry : Path × Entry) : List Path :=
  match entry.2 with
  | .file _ =>
    if !isActiveSkillFile entry.1 || hasRetiredMarker tree entry.1 then [] else [entry.1]
  | _ => []

/-- The paths discovered from a root, in traversal order. -/
def discoveredPaths (tree : FileTree) (root : Path) : List Path :=
  (walk tree root).flatMap (activePath tree)

theorem mem_discoveredPaths {tree : FileTree} {root path : Path} :
    path ∈ discoveredPaths tree root ↔ Discovered tree root path := by
  unfold discoveredPaths Discovered activePath
  rw [List.mem_flatMap]
  constructor
  · rintro ⟨⟨here, entry⟩, walked, member⟩
    cases entry with
    | file content =>
      dsimp only at member
      split at member
      · cases member
      · rename_i active
        obtain rfl := List.mem_singleton.mp member
        exact ⟨⟨content, walked⟩, by simpa using active⟩
    | directory => cases member
    | unreadable message => cases member
    | other => cases member
  · rintro ⟨⟨content, walked⟩, active, unretired⟩
    exact ⟨_, walked, by simp [active, unretired]⟩

theorem nodup_discoveredPaths (tree : FileTree) (root : Path) :
    (discoveredPaths tree root).Nodup := by
  have sublist : (discoveredPaths tree root).Sublist ((walk tree root).map Prod.fst) := by
    unfold discoveredPaths
    induction walk tree root with
    | nil => exact List.Sublist.slnil
    | cons entry rest ih =>
      have one : (activePath tree entry).Sublist [entry.1] := by
        unfold activePath
        split
        · split
          · exact List.nil_sublist _
          · exact List.Sublist.refl _
        · exact List.nil_sublist _
      exact one.append ih
  exact (tree.nodup.sublist (List.filter_sublist.map Prod.fst)).sublist sublist

/-- A visited entry yields one skill for its active path and none otherwise. -/
theorem paths_of_visitSkill {tree : FileTree} {scope : ScopeRoot} {entry : Path × Entry}
    {found : List (BuiltSkill F × Str)} (visited : visitSkill services tree scope entry = .ok found) :
    found.map (fun skill => skill.1.sourcePath) = activePath tree entry ∧
      ∀ skill ∈ found, skill.1.id = skillId services skill.1.sourcePath := by
  unfold visitSkill at visited
  unfold activePath
  split at visited
  · cases visited
  · rename_i content kind
    rw [kind]
    dsimp only
    split at visited
    · rename_i skipped
      rw [if_pos skipped]
      cases visited
      simp
    · rename_i active
      rw [if_neg active]
      split at visited
      · cases visited
      · cases visited
        simp [readSkill]
  · rename_i notUnreadable notFile
    cases visited
    cases kind : entry.2 with
    | file content => exact absurd kind (notFile content)
    | _ => simp

/-- A finished build has walked all roots, and embedded and sorted what the walks found. -/
theorem build_eq_ok {scopeRoots : List ScopeRoot} {tree : FileTree} {skills : List (BuiltSkill F)}
    (built : buildSkillsFromScopeRoots services scopeRoots tree = .ok skills) :
    ∃ found embeddings, collectWalks scopeRoots tree missingScopeRoot (visitSkill services tree) = .ok found ∧
      embeddings.length = found.length ∧
      skills = sortById (List.zipWith (fun skill embedding => { skill with embedding := embedding })
        (found.map Prod.fst) embeddings) := by
  unfold buildSkillsFromScopeRoots at built
  cases walked : collectWalks scopeRoots tree missingScopeRoot (visitSkill services tree) with
  | error error => simp [walked, bind, Except.bind] at built
  | ok found =>
    by_cases empty : found.isEmpty = true
    · simp only [walked, bind, Except.bind, empty, if_true, pure, Except.pure, Except.ok.injEq] at built
      obtain rfl := List.isEmpty_iff.mp empty
      exact ⟨[], [], rfl, rfl, built.symm⟩
    · cases embedded : services.embedBatch (found.map Prod.snd) with
      | error error =>
        simp [walked, bind, Except.bind, empty, embedded, Except.mapError] at built
      | ok embeddings =>
        by_cases count : embeddings.length = found.length
        · simp only [walked, bind, Except.bind, empty, embedded, Except.mapError, count, ne_eq,
            not_true_eq_false, if_false, pure, Except.pure, Except.ok.injEq, Bool.false_eq_true] at built
          exact ⟨found, embeddings, rfl, count, built.symm⟩
        · simp [walked, bind, Except.bind, empty, embedded, Except.mapError, count, throw, throwThe,
            MonadExceptOf.throw] at built

/-- The built skills are those of the discovered paths, each under the id of its path. -/
theorem paths_of_build {scopeRoots : List ScopeRoot} {tree : FileTree} {skills : List (BuiltSkill F)}
    (built : buildSkillsFromScopeRoots services scopeRoots tree = .ok skills) :
    (skills.map BuiltSkill.sourcePath).Perm
        (scopeRoots.flatMap fun scope => discoveredPaths tree scope.root) ∧
      ∀ skill ∈ skills, skill.id = skillId services skill.sourcePath := by
  obtain ⟨found, embeddings, walked, count, rfl⟩ := build_eq_ok services built
  obtain ⟨finished, collected⟩ := collectWalks_eq_ok walked
  have visits (scope : ScopeRoot) (inScopes : scope ∈ scopeRoots) (entry : Path × Entry)
      (inWalk : entry ∈ walk tree scope.root) :
      (yielded (visitSkill services tree scope) entry).map (fun skill => skill.1.sourcePath) =
          activePath tree entry ∧
        ∀ skill ∈ yielded (visitSkill services tree scope) entry,
          skill.1.id = skillId services skill.1.sourcePath := by
    obtain ⟨more, visited⟩ := (finished scope inScopes).2 entry inWalk
    rw [yielded, visited]
    exact paths_of_visitSkill services visited
  have foundPaths : found.map (fun skill => skill.1.sourcePath) =
      scopeRoots.flatMap fun scope => discoveredPaths tree scope.root := by
    rw [collected, List.map_flatMap]
    refine List.flatMap_congr fun scope inScopes => ?_
    rw [List.map_flatMap]
    exact List.flatMap_congr fun entry inWalk => (visits scope inScopes entry inWalk).1
  have foundIds : ∀ skill ∈ found, skill.1.id = skillId services skill.1.sourcePath := by
    intro skill member
    rw [collected] at member
    obtain ⟨scope, inScopes, later⟩ := List.mem_flatMap.mp member
    obtain ⟨entry, inWalk, yieldedHere⟩ := List.mem_flatMap.mp later
    exact (visits scope inScopes entry inWalk).2 skill yieldedHere
  have zipped (skills : List (BuiltSkill F)) (embeddings : List (List F))
      (same : embeddings.length = skills.length) :
      (List.zipWith (fun skill embedding => { skill with embedding := embedding })
        skills embeddings).map (fun skill => (skill.id, skill.sourcePath)) =
      skills.map fun skill => (skill.id, skill.sourcePath) := by
    induction skills generalizing embeddings with
    | nil => simp
    | cons skill rest ih =>
      cases embeddings with
      | nil => simp at same
      | cons embedding others => simp [ih others (by simpa using same)]
  have pairs := zipped (found.map Prod.fst) embeddings (by simpa using count)
  have sorted : ((sortById (List.zipWith (fun skill embedding => { skill with embedding := embedding })
      (found.map Prod.fst) embeddings)).map fun skill => (skill.id, skill.sourcePath)).Perm
      (found.map fun skill => (skill.1.id, skill.1.sourcePath)) := by
    rw [sortById]
    refine ((List.perm_insertionSort _ _).map _).trans ?_
    rw [pairs, List.map_map]
    rfl
  constructor
  · have paths := sorted.map Prod.snd
    rw [List.map_map, List.map_map] at paths
    rw [← foundPaths]
    exact paths
  · intro skill member
    have inFound := sorted.subset (List.mem_map_of_mem member)
    obtain ⟨original, originalMember, same⟩ := List.mem_map.mp inFound
    obtain ⟨sameId, samePath⟩ := Prod.mk.inj same
    rw [← sameId, ← samePath]
    exact foundIds original originalMember

/-- What a visit reads from an entry. -/
theorem read_of_visitSkill {tree : FileTree} {scope : ScopeRoot} {entry : Path × Entry}
    {found : List (BuiltSkill F × Str)} (visited : visitSkill services tree scope entry = .ok found)
    {skill : BuiltSkill F × Str} (member : skill ∈ found) :
    ∃ content text, entry.2 = .file content ∧ content.text = .ok text ∧ isActiveSkillFile entry.1 = true ∧
      hasRetiredMarker tree entry.1 = false ∧ skill = readSkill services scope entry.1 text := by
  unfold visitSkill at visited
  split at visited
  · cases visited
  · rename_i content kind
    split at visited
    · cases visited
      cases member
    · rename_i active
      split at visited
      · cases visited
      · rename_i text read
        cases visited
        rw [List.mem_singleton] at member
        obtain ⟨isActive, unretired⟩ : isActiveSkillFile entry.1 = true ∧ hasRetiredMarker tree entry.1 = false := by
          simpa using active
        exact ⟨content, text, kind, read, isActive, unretired, member⟩
  · cases visited
    cases member

/-- A built skill was read from an active skill file, apart from its embedding. -/
theorem of_built {scopeRoots : List ScopeRoot} {tree : FileTree} {skills : List (BuiltSkill F)}
    (built : buildSkillsFromScopeRoots services scopeRoots tree = .ok skills) {skill : BuiltSkill F}
    (member : skill ∈ skills) :
    ∃ scope ∈ scopeRoots, ∃ path content text embedding, (path, Entry.file content) ∈ walk tree scope.root ∧
      content.text = .ok text ∧ isActiveSkillFile path = true ∧ hasRetiredMarker tree path = false ∧
      skill = { (readSkill services scope path text).1 with embedding := embedding } := by
  obtain ⟨found, embeddings, walked, -, rfl⟩ := build_eq_ok services built
  obtain ⟨finished, collected⟩ := collectWalks_eq_ok walked
  rw [sortById] at member
  have inZip := (List.perm_insertionSort _ _).subset member
  rw [← List.map_uncurry_zip_eq_zipWith, List.mem_map] at inZip
  obtain ⟨⟨original, embedding⟩, paired, rfl⟩ := inZip
  obtain ⟨read, readMember, rfl⟩ := List.mem_map.mp (List.of_mem_zip paired).1
  rw [collected] at readMember
  obtain ⟨scope, inScopes, later⟩ := List.mem_flatMap.mp readMember
  obtain ⟨entry, inWalk, here⟩ := List.mem_flatMap.mp later
  obtain ⟨more, visited⟩ := (finished scope inScopes).2 entry inWalk
  rw [yielded, visited] at here
  obtain ⟨content, text, kind, isText, active, unretired, rfl⟩ := read_of_visitSkill services visited here
  refine ⟨scope, inScopes, entry.1, content, text, embedding, ?_, isText, active, unretired, rfl⟩
  rw [← kind]
  exact inWalk

end SkillLayer.GraphBuilder

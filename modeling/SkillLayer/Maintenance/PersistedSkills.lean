import Mathlib.Data.List.DropRight
import SkillLayer.GraphBuilder.DurableState
import SkillLayer.Maintenance.Snapshots

/-! The same skill files twice: as the graph builder persists them, and as the maintenance
worker loads them from the same scope roots. -/

namespace SkillLayer.GraphBuilder

open Domain

/-! ### The scope roots of the graph builder -/

/-- The variables of the process, and its current directory. -/
structure ProcessEnvironment where
  var : Str → Option Str
  currentDir : Path

/-- `PathBuf::from`; separators at the end do not count. -/
def pathOfText (text : Str) : Path :=
  match Str.splitOn '/' text with
  | [] => []
  | first :: rest => if text.isEmpty then [] else first :: rest.rdropWhile List.isEmpty

namespace ProcessEnvironment

variable (environment : ProcessEnvironment)

def projectRoot : Path :=
  (environment.var "GRAPH_BUILDER_PROJECT_ROOT").elim environment.currentDir pathOfText

def globalRoot : Path :=
  (environment.var "GRAPH_BUILDER_GLOBAL_ROOT").elim (environment.currentDir ++ ["docs".toList]) pathOfText

def buildScopeRoots : List ScopeRoot :=
  [⟨"project", .project, environment.projectRoot⟩, ⟨"global", .global, environment.globalRoot⟩]

end ProcessEnvironment

/-! ### What a build reads -/

/-- The active skill file of an entry, with its text. -/
def readingOf (tree : FileTree) (entry : Path × Entry) : List (Path × Str) :=
  match entry.2 with
  | .file content =>
    if !isActiveSkillFile entry.1 || hasRetiredMarker tree entry.1 then []
    else
      match content.text with
      | .ok text => [(entry.1, text)]
      | .error _ => []
  | _ => []

/-- The texts that a build reads below a root, whatever the type of the root. -/
def readings (tree : FileTree) (root : Path) : List (Path × Str) := (walk tree root).flatMap (readingOf tree)

variable {F : Type} (services : BuildServices F)

/-- A skill before its embedding is filled in. -/
def BuiltSkill.bare (skill : BuiltSkill F) : BuiltSkill F := { skill with embedding := [] }

def readBare (scope : ScopeRoot) (reading : Path × Str) : BuiltSkill F :=
  (readSkill services scope reading.1 reading.2).1

variable {tree : FileTree} {scopeRoots : List ScopeRoot} {skills : List (BuiltSkill F)}

/-- A visit that succeeds yields the skills of the entry's readings. -/
theorem visitSkill_readings {scope : ScopeRoot} {entry : Path × Entry} {found : List (BuiltSkill F × Str)}
    (visited : visitSkill services tree scope entry = .ok found) :
    found.map Prod.fst = (readingOf tree entry).map (readBare services scope) ∧
      (readingOf tree entry).map Prod.fst = activePath tree entry := by
  unfold visitSkill at visited
  unfold readingOf activePath
  split at visited
  · cases visited
  · rename_i content kind
    rw [kind]
    dsimp only
    split at visited
    · rename_i skipped
      rw [if_pos skipped, if_pos skipped]
      cases visited
      exact ⟨rfl, rfl⟩
    · rename_i active
      rw [if_neg active, if_neg active]
      split at visited
      · cases visited
      · rename_i text read
        cases visited
        rw [read]
        exact ⟨rfl, rfl⟩
  · rename_i notUnreadable notFile
    cases visited
    cases kind : entry.2 with
    | file content => exact absurd kind (notFile content)
    | _ => exact ⟨rfl, rfl⟩

theorem map_bare_zipWith {bare : List (BuiltSkill F)} {embeddings : List (List F)}
    (unembedded : bare.map BuiltSkill.bare = bare) (count : embeddings.length = bare.length) :
    (List.zipWith (fun skill embedding => { skill with embedding := embedding }) bare embeddings).map
      BuiltSkill.bare = bare := by
  induction bare generalizing embeddings with
  | nil => rfl
  | cons skill rest ih =>
    obtain ⟨first, others⟩ := List.cons.inj unembedded
    cases embeddings with
    | nil => cases count
    | cons embedding later =>
      rw [List.zipWith_cons_cons, List.map_cons, ih others (Nat.succ.inj count)]
      congr 1

theorem map_bare_sortById (skills : List (BuiltSkill F)) :
    (sortById skills).map BuiltSkill.bare = sortById (skills.map BuiltSkill.bare) :=
  List.map_insertionSort _ _ _ _ fun _ _ _ _ => Iff.rfl

/-- Apart from the embeddings, a build is what its roots' readings give, sorted by id. -/
theorem bare_build (built : buildSkillsFromScopeRoots services scopeRoots tree = .ok skills) :
    skills.map BuiltSkill.bare =
        sortById (scopeRoots.flatMap fun scope => (readings tree scope.root).map (readBare services scope)) ∧
      ∀ scope ∈ scopeRoots, (readings tree scope.root).map Prod.fst = discoveredPaths tree scope.root := by
  obtain ⟨found, embeddings, walked, count, rfl⟩ := build_eq_ok services built
  obtain ⟨finished, collected⟩ := collectWalks_eq_ok walked
  have visits (scope : ScopeRoot) (inScopes : scope ∈ scopeRoots) (entry : Path × Entry)
      (inWalk : entry ∈ walk tree scope.root) :
      (yielded (visitSkill services tree scope) entry).map Prod.fst =
          (readingOf tree entry).map (readBare services scope) ∧
        (readingOf tree entry).map Prod.fst = activePath tree entry := by
    obtain ⟨more, visited⟩ := (finished scope inScopes).2 entry inWalk
    rw [yielded, visited]
    exact visitSkill_readings services visited
  have foundBare : found.map Prod.fst =
      scopeRoots.flatMap fun scope => (readings tree scope.root).map (readBare services scope) := by
    rw [collected, List.map_flatMap]
    refine List.flatMap_congr fun scope inScopes => ?_
    rw [List.map_flatMap, readings, List.map_flatMap]
    exact List.flatMap_congr fun entry inWalk => (visits scope inScopes entry inWalk).1
  have unembedded : (found.map Prod.fst).map BuiltSkill.bare = found.map Prod.fst := by
    rw [foundBare, List.map_flatMap]
    exact List.flatMap_congr fun scope _ => List.map_map.trans rfl
  constructor
  · rw [map_bare_sortById, map_bare_zipWith unembedded (by rw [count, List.length_map]), foundBare]
  · intro scope inScopes
    rw [readings, List.map_flatMap, discoveredPaths]
    exact List.flatMap_congr fun entry inWalk => (visits scope inScopes entry inWalk).2

end SkillLayer.GraphBuilder

namespace SkillLayer.Maintenance

open Domain GraphBuilder
open Infrastructure hiding Timestamp

/-- The type that the loader gives a root. -/
def loaderScopeType (root : Path) : ScopeType := if isGlobalRoot root then .global else .project

/-- Each root below which there is a skill has the type that the loader gives its path. -/
def ClassifiedAlike (tree : FileTree) (scopeRoots : List ScopeRoot) : Prop :=
  ∀ scope ∈ scopeRoots, (∃ path, Discovered tree scope.root path) → loaderScopeType scope.root = scope.scopeType

variable {F : Type} (loader : SnapshotLoader F)

/-- The snapshot and the row are the same skill, apart from its scope. -/
structure SameContent (snapshot : SkillSnapshot) (row : SkillRow) : Prop where
  id : snapshot.id = loader.uuidText row.id
  name : snapshot.name = row.name
  description : snapshot.description = row.description
  tags : snapshot.tags = row.tags

/-- The snapshot and the row are the same skill of the same scope. -/
structure SameSkill (snapshot : SkillSnapshot) (row : SkillRow) : Prop extends SameContent loader snapshot row where
  scope : scopeToDbValue snapshot.scope = row.scope

/-! ### Two builds -/

/-- The scope root that the loader makes of the root at a position. -/
def loaderRoot (entry : ScopeRoot × Nat) : ScopeRoot :=
  ⟨"scope-".toList ++ Str.ofNat entry.2, loaderScopeType entry.1.root, entry.1.root⟩

theorem loaderRoots_roots (scopeRoots : List ScopeRoot) :
    loaderRoots (scopeRoots.map ScopeRoot.root) = scopeRoots.zipIdx.map loaderRoot := by
  unfold loaderRoots
  rw [List.zipIdx_map, List.map_map]
  rfl

/-- Every skill file as the graph builder reads it, and as the loader does. -/
def twins (tree : FileTree) (scopeRoots : List ScopeRoot) : List (BuiltSkill F × BuiltSkill F) :=
  scopeRoots.zipIdx.flatMap fun entry => (readings tree entry.1.root).map fun reading =>
    (readBare loader.build entry.1 reading, readBare loader.build (loaderRoot entry) reading)

variable {loader} {tree : FileTree} {scopeRoots : List ScopeRoot} {skills loaded : List (BuiltSkill F)}

theorem twins_fst : (twins loader tree scopeRoots).map Prod.fst =
    scopeRoots.flatMap fun scope => (readings tree scope.root).map (readBare loader.build scope) := by
  have unindexed : scopeRoots = scopeRoots.zipIdx.map Prod.fst := (List.zipIdx_map_fst 0 scopeRoots).symm
  unfold twins
  rw [List.map_flatMap]
  conv_rhs => rw [unindexed, List.flatMap_map]
  exact List.flatMap_congr fun entry _ => List.map_map

theorem twins_snd : (twins loader tree scopeRoots).map Prod.snd =
    (scopeRoots.zipIdx.map loaderRoot).flatMap fun scope =>
      (readings tree scope.root).map (readBare loader.build scope) := by
  unfold twins
  rw [List.map_flatMap, List.flatMap_map]
  exact List.flatMap_congr fun entry _ => List.map_map

/-- Twins have one id. -/
theorem twins_id {pair : BuiltSkill F × BuiltSkill F} (member : pair ∈ twins loader tree scopeRoots) :
    pair.1.id = pair.2.id := by
  obtain ⟨entry, -, later⟩ := List.mem_flatMap.mp member
  obtain ⟨reading, -, rfl⟩ := List.mem_map.mp later
  rfl

/-- The two builds list the twins in one order. -/
theorem exists_twins {embedBatch : List Str → Except Str (List (List F))}
    (built : buildSkillsFromScopeRoots { loader.build with embedBatch } scopeRoots tree = .ok skills)
    (reloaded : buildSkillsFromScopeRoots loader.build (loaderRoots (scopeRoots.map ScopeRoot.root)) tree = .ok loaded) :
    ∃ pairs : List (BuiltSkill F × BuiltSkill F), pairs.Perm (twins loader tree scopeRoots) ∧
      skills.map BuiltSkill.bare = pairs.map Prod.fst ∧ loaded.map BuiltSkill.bare = pairs.map Prod.snd := by
  have first := (bare_build _ built).1
  have second := (bare_build _ reloaded).1
  rw [loaderRoots_roots, ← twins_snd] at second
  change _ = sortById (scopeRoots.flatMap fun scope => (readings tree scope.root).map (readBare loader.build scope))
    at first
  rw [← twins_fst] at first
  refine ⟨(twins loader tree scopeRoots).insertionSort fun left right => Str.le left.1.id right.1.id = true,
    List.perm_insertionSort _ _, ?_, ?_⟩
  · rw [first, sortById]
    refine (List.map_insertionSort
      (fun (left right : BuiltSkill F × BuiltSkill F) => Str.le left.1.id right.1.id = true) _ _ _ ?_).symm
    intro left _ right _
    exact Iff.rfl
  · rw [second, sortById]
    refine (List.map_insertionSort
      (fun (left right : BuiltSkill F × BuiltSkill F) => Str.le left.1.id right.1.id = true) _ _ _ ?_).symm
    intro left inTwins right alsoInTwins
    rw [twins_id inTwins, twins_id alsoInTwins]

/-- Twins agree in all of a skill's content, and in its type when their root is classified alike. -/
theorem classifiedAlike_iff (classified : ∀ scope ∈ scopeRoots,
      (readings tree scope.root).map Prod.fst = discoveredPaths tree scope.root) :
    (∀ pair ∈ twins loader tree scopeRoots, pair.2.scopeType = pair.1.scopeType) ↔
      ClassifiedAlike tree scopeRoots := by
  constructor
  · intro alike scope member found
    obtain ⟨path, discovered⟩ := found
    rw [← mem_discoveredPaths, ← classified scope member] at discovered
    obtain ⟨reading, here, -⟩ := List.mem_map.mp discovered
    rw [← List.zipIdx_map_fst 0 scopeRoots] at member
    obtain ⟨entry, indexed, rfl⟩ := List.mem_map.mp member
    exact alike _ (List.mem_flatMap.mpr ⟨entry, indexed, List.mem_map_of_mem here⟩)
  · intro alike pair member
    obtain ⟨entry, inRoots, later⟩ := List.mem_flatMap.mp member
    obtain ⟨reading, here, rfl⟩ := List.mem_map.mp later
    have known : entry.1 ∈ scopeRoots := List.fst_mem_of_mem_zipIdx inRoots
    refine alike entry.1 known ⟨reading.1, mem_discoveredPaths.mp ?_⟩
    rw [← classified entry.1 known]
    exact List.mem_map_of_mem here

/-! ### Rows and snapshots -/

theorem scopeToDbValue_inj {scope other : ScopeType} :
    scopeToDbValue scope = scopeToDbValue other ↔ scope = other := by
  cases scope <;> cases other <;> decide

/-- The row of a persisted skill, under the version of its rebuild. -/
def persistedRow (blake3 : Blake3) (version : Int) (skill : BuiltSkill F) : SkillRow :=
  { skillRow blake3 (liveSkill skill) with graphVersion := version }

theorem skills_of_mutation {input : RebuildInput F} {mutation : DurableGraphMutation F}
    (built : buildMutation input = .ok mutation) :
    buildSkillsFromScopeRoots input.build input.scopeRoots input.tree = .ok mutation.skills := by
  unfold buildMutation at built
  cases skills : buildSkillsFromScopeRoots input.build input.scopeRoots input.tree with
  | error error => simp [skills, bind, Except.bind, Except.mapError] at built
  | ok found =>
    cases communities : assignCommunities input.communities found input.config with
    | error error => simp [skills, communities, bind, Except.bind, Except.mapError] at built
    | ok assigned =>
      simp only [skills, communities, bind, Except.bind, Except.mapError, pure, Except.pure,
        Except.ok.injEq] at built
      rw [← built]

theorem rows_of_stored {refused : Refused} {mutation : DurableGraphMutation F} {before after : Database} {version : Int}
    (stored : replaceSnapshotAndBumpVersion loader.blake3 refused mutation.live before = (.ok version, after)) :
    after.skills.rows = (mutation.skills.map BuiltSkill.bare).map (persistedRow loader.blake3 version) := by
  rcases replaceSnapshotAndBumpVersion_spec loader.blake3 refused mutation.live before with
    ⟨-, atVersion, done, committed, replaced⟩ | ⟨-, error, failed⟩
  · obtain ⟨same, rfl⟩ := Prod.mk.inj (committed.symm.trans stored)
    obtain rfl := Except.ok.inj same
    rw [replaced.skills, DurableGraphMutation.live, List.map_map, List.map_map]
    rfl
  · rw [failed] at stored
    cases stored

theorem snapshots_of_loaded {roots : List Path} {snapshots : List SkillSnapshot}
    (reloaded : loadSkillSnapshots loader roots tree = .ok snapshots) :
    ∃ loaded, buildSkillsFromScopeRoots loader.build (loaderRoots roots) tree = .ok loaded ∧
      snapshots = (loaded.map BuiltSkill.bare).map (snapshotOf loader) := by
  unfold loadSkillSnapshots at reloaded
  split at reloaded
  · rename_i none_
    obtain rfl := List.isEmpty_iff.mp none_
    cases reloaded
    exact ⟨[], rfl, rfl⟩
  · split at reloaded
    · cases reloaded
    · rename_i loaded done
      cases reloaded
      refine ⟨loaded, done, ?_⟩
      rw [List.map_map]
      rfl

/-- Twins differ at most in their scope. -/
theorem sameContent_twins {version : Int} {pair : BuiltSkill F × BuiltSkill F}
    (member : pair ∈ twins loader tree scopeRoots) :
    SameContent loader (snapshotOf loader pair.2) (persistedRow loader.blake3 version pair.1) := by
  obtain ⟨entry, -, later⟩ := List.mem_flatMap.mp member
  obtain ⟨reading, -, rfl⟩ := List.mem_map.mp later
  exact ⟨rfl, rfl, rfl, rfl⟩

theorem sameSkill_twins_iff {version : Int} {pair : BuiltSkill F × BuiltSkill F}
    (member : pair ∈ twins loader tree scopeRoots) :
    SameSkill loader (snapshotOf loader pair.2) (persistedRow loader.blake3 version pair.1) ↔
      pair.2.scopeType = pair.1.scopeType := by
  constructor
  · intro same
    exact scopeToDbValue_inj.mp same.scope
  · intro alike
    exact { sameContent_twins member with scope := congrArg scopeToDbValue alike }

theorem forall₂_map_pairs {Row : Type} {Related : SkillSnapshot → Row → Prop}
    {pairs : List (BuiltSkill F × BuiltSkill F)}
    (snapshot : BuiltSkill F → SkillSnapshot) (row : BuiltSkill F → Row) :
    List.Forall₂ Related ((pairs.map Prod.snd).map snapshot) ((pairs.map Prod.fst).map row) ↔
      ∀ pair ∈ pairs, Related (snapshot pair.2) (row pair.1) := by
  rw [List.map_map, List.map_map, List.forall₂_map_left_iff, List.forall₂_map_right_iff, List.forall₂_same]
  rfl

variable (loader) in
/-- The snapshots that the worker loads are, one by one, the skills that a rebuild has persisted from
the same roots, apart from their scopes; the scopes are the same exactly when each root below which there
is a skill has the type that the worker takes from its path. -/
theorem loadSkillSnapshots_persisted_iff {input : RebuildInput F} {mutation : DurableGraphMutation F}
    {before after : Database} {version : Int} {snapshots : List SkillSnapshot}
    (sameReader : input.build = { loader.build with embedBatch := input.build.embedBatch })
    (built : buildMutation input = .ok mutation)
    (stored : replaceSnapshotAndBumpVersion loader.blake3 input.refused mutation.live before = (.ok version, after))
    (reloaded : loadSkillSnapshots loader (input.scopeRoots.map ScopeRoot.root) input.tree = .ok snapshots) :
    List.Forall₂ (SameContent loader) snapshots after.skills.rows ∧
      (List.Forall₂ (SameSkill loader) snapshots after.skills.rows ↔
        ClassifiedAlike input.tree input.scopeRoots) := by
  obtain ⟨loaded, builtAgain, rfl⟩ := snapshots_of_loaded reloaded
  have builtSkills : buildSkillsFromScopeRoots { loader.build with embedBatch := input.build.embedBatch }
      input.scopeRoots input.tree = .ok mutation.skills := by
    rw [← sameReader]
    exact skills_of_mutation built
  obtain ⟨pairs, listed, skillsAre, loadedAre⟩ := exists_twins builtSkills builtAgain
  rw [rows_of_stored stored, skillsAre, loadedAre, forall₂_map_pairs, forall₂_map_pairs,
    ← classifiedAlike_iff (bare_build _ builtSkills).2]
  constructor
  · intro pair member
    exact sameContent_twins (listed.subset member)
  · constructor
    · intro same pair member
      exact (sameSkill_twins_iff member).mp (same pair (listed.symm.subset member))
    · intro alike pair member
      exact (sameSkill_twins_iff (listed.subset member)).mpr (alike pair (listed.subset member))

/-- For the two roots of the graph builder the condition is about the word `global` in their paths. -/
theorem classifiedAlike_buildScopeRoots (environment : ProcessEnvironment) :
    ClassifiedAlike tree environment.buildScopeRoots ↔
      ((∃ path, Discovered tree environment.projectRoot path) → isGlobalRoot environment.projectRoot = false) ∧
      ((∃ path, Discovered tree environment.globalRoot path) → isGlobalRoot environment.globalRoot = true) := by
  unfold ClassifiedAlike ProcessEnvironment.buildScopeRoots loaderScopeType
  rw [List.forall_mem_cons, List.forall_mem_singleton]
  cases isGlobalRoot environment.projectRoot <;> cases isGlobalRoot environment.globalRoot <;> simp

/-! ### A project directory with `global` in its name -/

def globalsFile : Path := [[], "globals", "a", "SKILL.md"]

def globalsId : Str := "c1eb59321ffbf004a987638d8257bc5ce0157415f71fdb82dfa7eb35dd8e004c"

def globalsDigest : Blake3 := fun bytes =>
  if bytes = Str.utf8 ("skill:" ++ globalsId) then
    [166, 200, 19, 64, 48, 87, 100, 110, 25, 119, 203, 150, 124, 32, 168, 10,
      136, 46, 10, 123, 72, 223, 69, 185, 109, 41, 209, 248, 127, 197, 48, 230]
  else smallDigest bytes

def globalsLoader : SnapshotLoader Rat where
  build := { smallBuild with
    hash := fun bytes => if bytes = Str.utf8 globalsFile.display then globalsId else smallBuild.hash bytes }
  blake3 := globalsDigest
  uuidText := Uuid.display

def projectRootIs (root : Str) : ProcessEnvironment where
  var name :=
    if name = "GRAPH_BUILDER_PROJECT_ROOT" then some root
    else if name = "GRAPH_BUILDER_GLOBAL_ROOT" then some "/skills/global"
    else none
  currentDir := [[]]

/-- A rebuild of a project directory and an empty directory of global skills. -/
def twoRootsInput (projectRoot : Str) (tree : FileTree) : RebuildInput Rat :=
  { smallInput tree (numbered 1) with
    build := globalsLoader.build
    scopeRoots := (projectRootIs projectRoot).buildScopeRoots }

/-- What a rebuild persists in a new database, and what the worker loads from the same roots. -/
structure Described (input : RebuildInput Rat) (snapshots : List SkillSnapshot) (rows : List SkillRow) : Prop where
  persisted : ∃ mutation version after, buildMutation input = .ok mutation ∧
    replaceSnapshotAndBumpVersion globalsDigest input.refused mutation.live freshDatabase = (.ok version, after) ∧
    after.skills.rows = rows
  loaded : loadSkillSnapshots globalsLoader (input.scopeRoots.map ScopeRoot.root) input.tree = .ok snapshots

def tipsRow (id : Uuid) (path : Str) : SkillRow where
  id := id
  name := "Tips"
  description := "No description provided"
  scope := "project"
  lifecycle := activeLifecycle
  tags := []
  sourcePaths := [path]
  graphVersion := 1

def tipsSnapshot (id : Uuid) (scope : ScopeType) (path : Path) : SkillSnapshot where
  id := Uuid.display id
  name := "Tips"
  description := "No description provided"
  scope := scope
  sourcePath := path
  tags := []
  subunits := []

def globalsTree : FileTree where
  entries :=
    [([[], "globals"], .directory), ([[], "globals", "a"], .directory), (globalsFile, skillFile "# Tips"),
      ([[], "skills", "global"], .directory)]
  nodup := by decide +kernel

def repoTree : FileTree where
  entries :=
    [([[], "repo"], .directory), ([[], "repo", "a"], .directory), (fileOfSkill, skillFile "# Tips"),
      ([[], "skills", "global"], .directory)]
  nodup := by decide +kernel

theorem described_of_facts {input : RebuildInput Rat} {snapshots : List SkillSnapshot} {rows : List SkillRow}
    (facts : (buildMutation input).toOption.map (fun mutation =>
      let stored := replaceSnapshotAndBumpVersion globalsDigest input.refused mutation.live freshDatabase
      (stored.1.toOption, stored.2.skills.rows)) = some (some 1, rows))
    (loaded : loadSkillSnapshots globalsLoader (input.scopeRoots.map ScopeRoot.root) input.tree = .ok snapshots) :
    Described input snapshots rows := by
  cases built : buildMutation input with
  | error error => simp [built, Except.toOption] at facts
  | ok mutation =>
    rcases stored : replaceSnapshotAndBumpVersion globalsDigest input.refused mutation.live freshDatabase with
      ⟨error | version, after⟩
    · simp [built, stored, Except.toOption] at facts
    · simp only [built, stored, Except.toOption, Option.map_some, Option.some.injEq, Prod.mk.injEq] at facts
      exact ⟨⟨mutation, version, after, built, stored, facts.2⟩, loaded⟩

def globalsSkillId : Uuid := stableSkillUuid globalsDigest globalsId

/-- The skill of the project is persisted as one of the project and loaded as a global one. -/
theorem globals_mistaken :
    let snapshots := [tipsSnapshot globalsSkillId .global globalsFile]
    let rows := [tipsRow globalsSkillId "/globals/a/SKILL.md"]
    Described (twoRootsInput "/globals" globalsTree) snapshots rows ∧
      ¬ List.Forall₂ (SameSkill globalsLoader) snapshots rows := by
  constructor
  · apply described_of_facts
    · decide +kernel
    · decide +kernel
  · intro same
    cases same with
    | cons first _ => exact absurd first.scope (by decide)

theorem repo_described : Described (twoRootsInput "/repo" repoTree)
    [tipsSnapshot sampleSkillId .project fileOfSkill] [tipsRow sampleSkillId "/repo/a/SKILL.md"] := by
  apply described_of_facts
  · decide +kernel
  · decide +kernel

theorem repo_alike : ClassifiedAlike repoTree (projectRootIs "/repo").buildScopeRoots := by
  rw [classifiedAlike_buildScopeRoots]
  constructor
  · intro _
    decide +kernel
  · intro _
    decide +kernel

/-- Without the word in its path the project is what it is. -/
theorem repo_sameSkills :
    Described (twoRootsInput "/repo" repoTree) [tipsSnapshot sampleSkillId .project fileOfSkill]
        [tipsRow sampleSkillId "/repo/a/SKILL.md"] ∧
      List.Forall₂ (SameSkill globalsLoader) [tipsSnapshot sampleSkillId .project fileOfSkill]
        [tipsRow sampleSkillId "/repo/a/SKILL.md"] := by
  obtain ⟨mutation, version, after, built, stored, rows⟩ := repo_described.persisted
  have agreement := (loadSkillSnapshots_persisted_iff globalsLoader rfl built stored repo_described.loaded).2
  refine ⟨repo_described, ?_⟩
  rw [← rows]
  exact agreement.mpr repo_alike

end SkillLayer.Maintenance

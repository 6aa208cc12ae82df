import Mathlib.Data.List.Infix
import SkillLayer.Infrastructure.Database
import SkillLayer.Path

/-! The stores of the scope passes: project skills across all roots, with the key of their
project, and global skills. -/

namespace SkillLayer.Infrastructure

/-- A project-scoped skill; its source paths are texts of paths in normal form. -/
structure ProjectSkillRow where
  id : Str
  name : Str
  description : Str
  tags : List Str
  sourcePaths : List Str
deriving DecidableEq

structure GlobalSkillRow where
  id : Str
  name : Str
  description : Str
  tags : List Str
  sourcePaths : List Str
deriving DecidableEq

def ProjectSkillRow.semanticText (row : ProjectSkillRow) : Str := row.name ++ '\n' :: row.description

def GlobalSkillRow.semanticText (row : GlobalSkillRow) : Str := row.name ++ '\n' :: row.description

/-! ### The project of a skill -/

/-- The path and its parents; below the root of the file system comes the empty path. -/
def ancestors (path : Path) : List Path := path.inits.reverse

/-- The text of a path, where the root of the file system is a single separator. -/
def displayed (path : Path) : Str := if path = [[]] then ['/'] else path.display

def parentOf? (path : Path) : Option Path := if path = [] ∨ path = [[]] then none else some path.parent

/-- Skill-namespace directories contain "skill" or start with a dot. -/
def isNamespaceName (name : Str) : Bool :=
  decide ("skill".toList <:+: Str.toAsciiLowercase name) || name.head? == some '.'

/-- A directory name at which the walk to the project root stops. -/
def isRootName (name : Str) : Bool := !name.isEmpty && !isNamespaceName name

def ProjectSkillRow.projectRootKey (row : ProjectSkillRow) : Option Str :=
  row.sourcePaths.head?.bind fun firstPath =>
    let path : Path := Str.splitOn '/' firstPath
    match ((ancestors path).drop 2).find? fun ancestor => isRootName (ancestor.fileName.getD []) with
    | some ancestor => some (displayed ancestor)
    | none => ((parentOf? path).bind parentOf?).map displayed

/-- The rows of a query over the live project skills of all roots. -/
def fetchAllProjectSkills (uuidText : Uuid → Str) (db : Database) : List ProjectSkillRow :=
  (db.skills.rows.filter fun row =>
    row.scope == "project".toList && (row.lifecycle == "ready".toList || row.lifecycle == "draft".toList) &&
      !row.sourcePaths.isEmpty).map fun row =>
    ⟨uuidText row.id, row.name, row.description, row.tags, row.sourcePaths⟩

def fetchAllGlobalSkills (uuidText : Uuid → Str) (db : Database) : List GlobalSkillRow :=
  (db.skills.rows.filter fun row =>
    row.scope == "global".toList &&
      (row.lifecycle == "ready".toList || row.lifecycle == "draft".toList)).map fun row =>
    ⟨uuidText row.id, row.name, row.description, row.tags, row.sourcePaths⟩

/-! ### Which roots the key recovers -/

/-- The directory of a project, by segments without separators. -/
structure ProjectRoot where
  path : Path
  segments : ∀ segment ∈ path, '/' ∉ segment

/-- The text of a skill file stored under the root, in a directory named after the skill in a
skill-namespace directory. -/
def SkillFileUnder (root : Path) (text : Str) : Prop :=
  ∃ namespaceName skillId fileName : Str, isNamespaceName namespaceName = true ∧
    (∀ segment ∈ root ++ [namespaceName, skillId, fileName], '/' ∉ segment) ∧
    text = Path.display (root ++ [namespaceName, skillId, fileName])

/-- The root has a name of its own that is not that of a skill-namespace directory. -/
def PlainRoot (root : Path) : Prop := ∃ name, root.fileName = some name ∧ isRootName name = true

theorem ancestors_concat (path : Path) (segment : Str) :
    ancestors (path ++ [segment]) = (path ++ [segment]) :: ancestors path := by
  simp [ancestors, List.inits_append]

theorem mem_ancestors {path ancestor : Path} : ancestor ∈ ancestors path ↔ ancestor <+: path := by
  rw [ancestors, List.mem_reverse]
  exact List.mem_inits _ _

theorem parentOf?_concat (path : Path) (segment last : Str) :
    parentOf? (path ++ [segment] ++ [last]) = some (path ++ [segment]) := by
  have notTop : path ++ [segment] ++ [last] ≠ [[]] := by
    intro same
    have lengths := congrArg List.length same
    simp at lengths
  have given : path ++ [segment] ++ [last] ≠ [] := List.concat_ne_nil _ _
  rw [parentOf?, if_neg (not_or.mpr ⟨given, notTop⟩), Path.parent, List.dropLast_concat]

theorem namespaceName_ne_nil {name : Str} (isNamespace : isNamespaceName name = true) : name ≠ [] := by
  rintro rfl
  exact absurd isNamespace (by decide)

theorem displayed_append {root : Path} {name : Str} (further : name ≠ []) :
    displayed (root ++ [name]) = Path.display (root ++ [name]) := by
  refine if_neg fun same => ?_
  have last := congrArg List.getLast? same
  rw [List.getLast?_concat] at last
  exact further (Option.some.inj last)

/-- A named directory below a path has another text than the path. -/
theorem displayed_ne_displayed_append (root : Path) {name : Str} (further : name ≠ []) :
    displayed (root ++ [name]) ≠ displayed root := by
  rw [displayed_append further]
  intro same
  have lengths := congrArg List.length same
  by_cases isEmpty : root = []
  · subst isEmpty
    exact further (List.eq_nil_of_length_eq_zero (by simpa [Path.display, Str.join, displayed] using lengths))
  by_cases isTop : root = [[]]
  · subst isTop
    rw [List.singleton_append, Path.display_cons_cons] at lengths
    simp only [List.nil_append, List.length_cons, displayed, if_true, List.length_nil] at lengths
    exact further (List.eq_nil_of_length_eq_zero (by simpa [Path.display, Str.join] using lengths))
  · rw [displayed, if_neg isTop] at lengths
    have longer := Path.length_display_append_lt isEmpty (List.cons_ne_nil name [])
    omega

/-- What the walk finds from a file of the layout on: the nearest ancestor of the root, itself
included, with the name of a root; failing that, the skill-namespace directory. -/
theorem projectRootKey_layout {root : Path} {row : ProjectSkillRow}
    {namespaceName skillId fileName : Str} (isNamespace : isNamespaceName namespaceName = true)
    (plain : ∀ segment ∈ root ++ [namespaceName, skillId, fileName], '/' ∉ segment)
    (first : row.sourcePaths.head? = some (Path.display (root ++ [namespaceName, skillId, fileName]))) :
    row.projectRootKey = some
      (match (ancestors root).find? fun ancestor => isRootName (ancestor.fileName.getD []) with
      | some ancestor => displayed ancestor
      | none => displayed (root ++ [namespaceName])) := by
  have split : root ++ [namespaceName, skillId, fileName] =
      ((root ++ [namespaceName]) ++ [skillId]) ++ [fileName] := by simp
  have passed : isRootName (Path.fileName (root ++ [namespaceName]) |>.getD []) = false := by
    rw [Path.fileName, List.getLast?_concat]
    simp [isRootName, isNamespace]
  unfold ProjectSkillRow.projectRootKey
  rw [first, Option.bind_some, Path.splitOn_display (by simp) plain, split]
  dsimp only
  rw [ancestors_concat,
    ancestors_concat, ancestors_concat, List.drop_succ_cons, List.drop_succ_cons, List.drop_zero,
    List.find?_cons, passed]
  cases found : (ancestors root).find? fun ancestor => isRootName (ancestor.fileName.getD []) with
  | some ancestor => rfl
  | none =>
    simp only [parentOf?_concat, Option.bind_some, Option.map_some]

theorem find_ancestors_of_plainRoot {root : Path} (isPlain : PlainRoot root) :
    (ancestors root).find? (fun ancestor => isRootName (ancestor.fileName.getD [])) = some root := by
  obtain ⟨name, named, rootName⟩ := isPlain
  obtain ⟨above, rfl⟩ := List.getLast?_eq_some_iff.mp named
  rw [ancestors_concat, List.find?_cons, Path.fileName, List.getLast?_concat, Option.getD_some, rootName]

/-- The key of a skill file is its root exactly under roots with a name of their own. -/
theorem projectRootKey_eq_iff {root : Path} {row : ProjectSkillRow} {text : Str}
    (located : SkillFileUnder root text) (first : row.sourcePaths.head? = some text) :
    row.projectRootKey = some (displayed root) ↔ PlainRoot root := by
  obtain ⟨namespaceName, skillId, fileName, isNamespace, plain, rfl⟩ := located
  rw [projectRootKey_layout isNamespace plain first]
  constructor
  · intro same
    have same := Option.some.inj same
    cases found : (ancestors root).find? fun ancestor => isRootName (ancestor.fileName.getD []) with
    | none =>
      rw [found] at same
      exact absurd same (displayed_ne_displayed_append root (namespaceName_ne_nil isNamespace))
    | some ancestor =>
      rw [found] at same
      have rootName := List.find?_some found
      obtain ⟨name, named⟩ : ∃ name, ancestor.fileName = some name := by
        cases named : ancestor.fileName with
        | none => exact absurd rootName (by rw [named]; decide)
        | some name => exact ⟨name, rfl⟩
      rw [named, Option.getD_some] at rootName
      obtain ⟨more, rfl⟩ := mem_ancestors.mp (List.mem_of_find?_eq_some found)
      by_cases here : more = []
      · subst here
        exact ⟨name, by rwa [List.append_nil], rootName⟩
      · obtain ⟨above, rfl⟩ := List.getLast?_eq_some_iff.mp named
        have nameGiven : name ≠ [] := by
          rintro rfl
          exact absurd rootName (by decide)
        have longer := Path.length_display_append_lt (show above ++ [name] ≠ [] by simp) here
        dsimp only at same
        rw [displayed_append nameGiven, displayed, if_neg] at same
        · rw [← same] at longer
          omega
        · intro top
          have lengths := congrArg List.length top
          have more := List.length_pos_iff.mpr here
          simp only [List.length_append, List.length_singleton] at lengths
          omega
  · intro isPlain
    rw [find_ancestors_of_plainRoot isPlain]

theorem displayed_injective {root other : ProjectRoot} (isPlain : PlainRoot root.path)
    (otherPlain : PlainRoot other.path) (same : displayed root.path = displayed other.path) :
    root.path = other.path := by
  have text {here : ProjectRoot} (isPlain : PlainRoot here.path) :
      Str.splitOn '/' (displayed here.path) = here.path := by
    obtain ⟨name, named, rootName⟩ := isPlain
    have given : here.path ≠ [] := by
      intro isEmpty
      rw [isEmpty] at named
      cases named
    rw [displayed, if_neg, Path.splitOn_display given here.segments]
    intro top
    rw [top] at named
    obtain rfl := Option.some.inj named
    exact absurd rootName (by decide)
  rw [← text isPlain, ← text otherPlain, same]

/-- A skill file has its root as its key exactly when the root has a name of its own; and under
two such roots two skills share their key exactly within one project. -/
theorem projectRootKey_exact (root other : ProjectRoot) :
    (∀ (row : ProjectSkillRow) (text : Str), SkillFileUnder root.path text →
      row.sourcePaths.head? = some text →
        (row.projectRootKey = some (displayed root.path) ↔ PlainRoot root.path)) ∧
    (PlainRoot root.path → PlainRoot other.path → ∀ (row otherRow : ProjectSkillRow) (text otherText : Str),
      SkillFileUnder root.path text → SkillFileUnder other.path otherText →
      row.sourcePaths.head? = some text → otherRow.sourcePaths.head? = some otherText →
        (row.projectRootKey = otherRow.projectRootKey ↔ root.path = other.path)) := by
  constructor
  · exact fun row text located first => projectRootKey_eq_iff located first
  · intro isPlain otherPlain row otherRow text otherText located otherLocated first otherFirst
    rw [(projectRootKey_eq_iff located first).mpr isPlain,
      (projectRootKey_eq_iff otherLocated otherFirst).mpr otherPlain]
    constructor
    · intro same
      exact displayed_injective isPlain otherPlain (Option.some.inj same)
    · intro same
      rw [same]

/-- A row whose only source path is the given text. -/
def storedAt (text : Str) : ProjectSkillRow := ⟨[], [], [], [], [text]⟩

/-- Two projects with the word skill in their names share the key of the directory above them,
and below a root of no other name the key is the skill-namespace directory. -/
theorem namespaceLikeRoot_passed :
    (storedAt "/home/dev/my-skills/.skills/tips/SKILL.md").projectRootKey = some "/home/dev".toList ∧
      (storedAt "/home/dev/skills-lab/.skills/tips/SKILL.md").projectRootKey = some "/home/dev".toList ∧
      (storedAt "/skills/.skills/tips/SKILL.md").projectRootKey = some "/skills/.skills".toList ∧
      (storedAt "/skills/skills/tips/SKILL.md").projectRootKey = some "/skills/skills".toList ∧
      ¬ ∀ (root : ProjectRoot) (row : ProjectSkillRow) (text : Str), SkillFileUnder root.path text →
        row.sourcePaths.head? = some text → row.projectRootKey = some (displayed root.path) := by
  refine ⟨by decide, by decide, by decide, by decide, fun always => ?_⟩
  have segments : ∀ segment ∈ [[], "home".toList, "dev".toList, "my-skills".toList], '/' ∉ segment := by
    decide
  have located : SkillFileUnder [[], "home".toList, "dev".toList, "my-skills".toList]
      "/home/dev/my-skills/.skills/tips/SKILL.md" :=
    ⟨".skills", "tips", "SKILL.md", by decide, by decide, rfl⟩
  have recovered : (storedAt "/home/dev/my-skills/.skills/tips/SKILL.md").projectRootKey =
      some (displayed [[], "home".toList, "dev".toList, "my-skills".toList]) :=
    always ⟨_, segments⟩ _ _ located rfl
  exact absurd recovered (by decide)

end SkillLayer.Infrastructure

import Mathlib.Data.List.Dedup
import Mathlib.Data.List.Sort
import SkillLayer.Infrastructure.Rebuild

/-! Reading the graph snapshot back: the queries of the loader and how it joins them. -/

namespace SkillLayer.Infrastructure

/-- The order of ids, byte by byte. -/
def Uuid.le : Uuid → Uuid → Bool
  | [], _ => true
  | _ :: _, [] => false
  | byte :: rest, other :: others =>
    if byte = other then Uuid.le rest others else byte.toNat < other.toNat

structure PersistedGraphSubunitRecord where
  subunitId : Uuid
  kind : Str
  title : Str
  content : Str
deriving DecidableEq

structure PersistedGraphSkillRecord where
  skillId : Uuid
  name : Str
  description : Str
  scope : Str
  tags : List Str
  sourcePaths : List Str
  communityIds : List Uuid
  subunits : List PersistedGraphSubunitRecord
deriving DecidableEq

/-- `ARRAY_AGG(DISTINCT communities.id)` over the memberships of a skill. -/
def communityIdsOf (db : Database) (skillId : Uuid) : List Uuid :=
  let joined := db.communitySkills.rows.filter fun row =>
    row.skillId = skillId ∧ row.communityId ∈ db.communities.keys
  (joined.map CommunitySkillRow.communityId).dedup.insertionSort fun left right =>
    Uuid.le left right = true

/-- The first query: active skills by id, still without subunits. -/
def selectSkills (db : Database) : List PersistedGraphSkillRecord :=
  let active := db.skills.rows.filter fun row => row.lifecycle = activeLifecycle
  let ordered := active.insertionSort fun left right => Uuid.le left.id right.id = true
  ordered.map fun row =>
    { skillId := row.id
      name := row.name
      description := row.description
      scope := row.scope
      tags := row.tags
      sourcePaths := row.sourcePaths
      communityIds := communityIdsOf db row.id
      subunits := [] }

def positionLe (left right : SkillSubunitRow) : Bool :=
  if left.skillId = right.skillId then left.position ≤ right.position
  else Uuid.le left.skillId right.skillId

/-- The second query: subunits under their skills, by position. -/
def selectSubunits (db : Database) : List (Uuid × PersistedGraphSubunitRecord) :=
  let ordered := db.skillSubunits.rows.insertionSort fun left right => positionLe left right = true
  ordered.filterMap fun link =>
    (db.subunits.rows.find? fun row => row.id = link.subunitId).map fun row =>
      (link.skillId, ⟨row.id, row.kind, row.title, row.content⟩)

/-- Hand the subunits out to their skills. -/
def joinSubunits (skillRows : List PersistedGraphSkillRecord)
    (subunitRows : List (Uuid × PersistedGraphSubunitRecord)) : List PersistedGraphSkillRecord :=
  skillRows.map fun skill =>
    { skill with subunits := (subunitRows.filter fun row => row.1 = skill.skillId).map Prod.snd }

/-- Both queries on one state of the database. -/
def listSkills (db : Database) : List PersistedGraphSkillRecord :=
  joinSubunits (selectSkills db) (selectSubunits db)

/-- The version of the singleton row, `0` before there is one. -/
def currentGraphVersion (db : Database) : Int := (db.graphState.map GraphStateRow.graphVersion).getD 0

theorem length_listSkills (db : Database) :
    (listSkills db).length = (db.skills.rows.filter fun row => row.lifecycle = activeLifecycle).length := by
  simp [listSkills, joinSubunits, selectSkills]

/-- A second bump changes nothing but the version. -/
theorem bumpGraphVersion_frame (refused : Refused) (db : Database) :
    let after := (bumpGraphVersion refused db).2
    selectSkills after = selectSkills db ∧ selectSubunits after = selectSubunits db ∧
      currentGraphVersion db ≤ currentGraphVersion after := by
  unfold bumpGraphVersion transaction
  cases ran : advanceReturning refused none db with
  | error error left => exact ⟨rfl, rfl, le_refl _⟩
  | ok version after =>
    obtain ⟨-, advanced⟩ := advanceReturning_eq_ok.mp ran
    obtain ⟨state, found, -, rfl, tables⟩ := advanceGraphVersion_eq_ok.mp advanced
    refine ⟨?_, ?_, ?_⟩
    · simp [selectSkills, communityIdsOf, tables]
    · simp [selectSubunits, tables]
    · simp only [currentGraphVersion, found, tables, Option.map_some, Option.getD_some]
      omega

theorem skills_bumpGraphVersion (refused : Refused) (db : Database) :
    (bumpGraphVersion refused db).2.skills = db.skills := by
  unfold bumpGraphVersion transaction
  cases ran : advanceReturning refused none db with
  | error error left => rfl
  | ok version after =>
    obtain ⟨-, advanced⟩ := advanceReturning_eq_ok.mp ran
    obtain ⟨state, found, -, rfl, tables⟩ := advanceGraphVersion_eq_ok.mp advanced
    change after.toTables.skills = _
    rw [tables]

/-- A stored snapshot gets the version after the one before it. -/
theorem currentGraphVersion_replaced {blake3 : Blake3} {mutation : LiveGraphSnapshotMutation}
    {db after : Database} {version : Int}
    (replaced : Replaced blake3 mutation db.toTables version after.toTables) :
    currentGraphVersion after = version ∧ version = currentGraphVersion db + 1 := by
  obtain ⟨state, before, rfl, now⟩ := replaced.graphState
  simp [currentGraphVersion, before, now]

end SkillLayer.Infrastructure

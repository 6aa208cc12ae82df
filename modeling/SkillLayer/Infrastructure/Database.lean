import Mathlib.Algebra.Group.Int.Defs
import Mathlib.Algebra.Group.Nat.Defs
import SkillLayer.Footprint
import SkillLayer.Keyed
import SkillLayer.Text

/-! The tables of a graph snapshot and of skill usage, with the keys, references and
checks of the migrations, and the statements that write them. -/

namespace SkillLayer.Infrastructure

abbrev Uuid := List UInt8

instance : LawfulBEq Uuid := inferInstance

/-- Microseconds. -/
abbrev Timestamp := Int

structure SkillRow where
  id : Uuid
  name : Str
  description : Str
  scope : Str
  lifecycle : Str
  tags : List Str
  sourcePaths : List Str
  graphVersion : Int
deriving DecidableEq

structure SubunitRow where
  id : Uuid
  kind : Str
  title : Str
  content : Str
deriving DecidableEq

structure SkillSubunitRow where
  skillId : Uuid
  subunitId : Uuid
  position : Int
deriving DecidableEq

structure CommunityRow where
  id : Uuid
  name : Str
  description : Str
  scope : Str
  lifecycle : Str
deriving DecidableEq

structure CommunitySkillRow where
  communityId : Uuid
  skillId : Uuid
  source : Str
deriving DecidableEq

structure SkillUsageRow where
  id : Uuid
  sessionId : Str
  skillId : Option Uuid
  contextStatus : Str
  usedAt : Timestamp
deriving DecidableEq

structure GraphStateRow where
  graphVersion : Int
  rebuiltAt : Option Timestamp
deriving DecidableEq

def SkillSubunitRow.key (row : SkillSubunitRow) : Uuid × Uuid := (row.skillId, row.subunitId)

def CommunitySkillRow.key (row : CommunitySkillRow) : Uuid × Uuid × Str :=
  (row.communityId, row.skillId, row.source)

structure Tables where
  skills : Keyed SkillRow SkillRow.id
  subunits : Keyed SubunitRow SubunitRow.id
  skillSubunits : Keyed SkillSubunitRow SkillSubunitRow.key
  communities : Keyed CommunityRow CommunityRow.id
  communitySkills : Keyed CommunitySkillRow CommunitySkillRow.key
  skillUsage : Keyed SkillUsageRow SkillUsageRow.id
  graphState : Option GraphStateRow

/-- Every reference names an existing row. -/
structure Tables.Referenced (tables : Tables) : Prop where
  skillSubunits : ∀ row ∈ tables.skillSubunits.rows,
    row.skillId ∈ tables.skills.keys ∧ row.subunitId ∈ tables.subunits.keys
  communitySkills : ∀ row ∈ tables.communitySkills.rows,
    row.communityId ∈ tables.communities.keys ∧ row.skillId ∈ tables.skills.keys
  skillUsage : ∀ row ∈ tables.skillUsage.rows, ∀ skillId, row.skillId = some skillId →
    skillId ∈ tables.skills.keys

structure Database extends Tables where
  referenced : toTables.Referenced

@[ext]
theorem Database.ext {db other : Database} (same : db.toTables = other.toTables) : db = other := by
  cases db
  cases other
  cases same
  rfl

inductive DbError where
  | uniqueViolation (table : Str)
  | foreignKeyViolation (table : Str)
  | checkViolation (table : Str)
  | rowNotFound
  | outOfRange
  | refused (message : Str)
deriving DecidableEq

def scopeValues : List Str := ["project", "global", "team"]
def lifecycleValues : List Str := ["proposed", "active", "deprecated", "retired"]
def activeLifecycle : Str := "active"
def kindValues : List Str := ["procedure", "convention", "asset", "evidence", "summary"]
def sourceValues : List Str := ["hdbscan", "tag"]

/-- The largest `BIGINT`. -/
def maxBigint : Int := 2 ^ 63 - 1

namespace Database

/-! ### Deletions, with the actions of the references -/

def deleteCommunitySkills (db : Database) : Database where
  toTables := { db.toTables with communitySkills := .empty }
  referenced := { db.referenced with communitySkills := fun _ member => by cases member }

def deleteSkillSubunits (db : Database) : Database where
  toTables := { db.toTables with skillSubunits := .empty }
  referenced := { db.referenced with skillSubunits := fun _ member => by cases member }

/-- Deletes the memberships of the deleted communities with them. -/
def deleteCommunities (db : Database) : Database where
  toTables :=
    { db.toTables with
      communities := .empty
      communitySkills := db.communitySkills.filter fun row => row.communityId ∉ db.communities.keys }
  referenced :=
    { db.referenced with
      communitySkills := by
        intro row member
        obtain ⟨inRows, outside⟩ := List.mem_filter.mp member
        exact absurd (db.referenced.communitySkills row inRows).1 (of_decide_eq_true outside) }

/-- Deletes the positions of the deleted subunits with them. -/
def deleteSubunits (db : Database) : Database where
  toTables :=
    { db.toTables with
      subunits := .empty
      skillSubunits := db.skillSubunits.filter fun row => row.subunitId ∉ db.subunits.keys }
  referenced :=
    { db.referenced with
      skillSubunits := by
        intro row member
        obtain ⟨inRows, outside⟩ := List.mem_filter.mp member
        exact absurd (db.referenced.skillSubunits row inRows).2 (of_decide_eq_true outside) }

/-- `ON DELETE SET NULL`. -/
def forgetSkills (deleted : List Uuid) (row : SkillUsageRow) : SkillUsageRow :=
  { row with skillId := row.skillId.filter fun skillId => skillId ∉ deleted }

/-- Deletes the skills' positions and memberships with them; usage rows stay and lose
their skill. -/
def deleteSkills (db : Database) : Database where
  toTables :=
    { db.toTables with
      skills := .empty
      skillSubunits := db.skillSubunits.filter fun row => row.skillId ∉ db.skills.keys
      communitySkills := db.communitySkills.filter fun row => row.skillId ∉ db.skills.keys
      skillUsage := db.skillUsage.update (forgetSkills db.skills.keys) fun _ => rfl }
  referenced := by
    refine ⟨?_, ?_, ?_⟩
    · intro row member
      obtain ⟨inRows, outside⟩ := List.mem_filter.mp member
      exact absurd (db.referenced.skillSubunits row inRows).1 (of_decide_eq_true outside)
    · intro row member
      obtain ⟨inRows, outside⟩ := List.mem_filter.mp member
      exact absurd (db.referenced.communitySkills row inRows).2 (of_decide_eq_true outside)
    · intro row member skillId found
      obtain ⟨original, inRows, rfl⟩ := List.mem_map.mp member
      obtain ⟨known, outside⟩ := Option.filter_eq_some_iff.mp found
      exact absurd (db.referenced.skillUsage original inRows skillId known)
        (of_decide_eq_true outside)

/-! ### Insertions -/

def insertSkill (row : SkillRow) (db : Database) : Except DbError Database :=
  if row.scope ∉ scopeValues ∨ row.lifecycle ∉ lifecycleValues then .error (.checkViolation "skills")
  else if fresh : row.id ∉ db.skills.keys then
    .ok {
      toTables := { db.toTables with skills := db.skills.insert row fresh }
      referenced :=
        { skillSubunits := fun link member =>
            ⟨Keyed.mem_insert_keys fresh (db.referenced.skillSubunits link member).1,
              (db.referenced.skillSubunits link member).2⟩
          communitySkills := fun link member =>
            ⟨(db.referenced.communitySkills link member).1,
              Keyed.mem_insert_keys fresh (db.referenced.communitySkills link member).2⟩
          skillUsage := fun usage member skillId known =>
            Keyed.mem_insert_keys fresh (db.referenced.skillUsage usage member skillId known) } }
  else .error (.uniqueViolation "skills")

def insertSubunit (row : SubunitRow) (db : Database) : Except DbError Database :=
  if row.kind ∉ kindValues then .error (.checkViolation "subunits")
  else if fresh : row.id ∉ db.subunits.keys then
    .ok {
      toTables := { db.toTables with subunits := db.subunits.insert row fresh }
      referenced :=
        { db.referenced with
          skillSubunits := fun link member =>
            ⟨(db.referenced.skillSubunits link member).1,
              Keyed.mem_insert_keys fresh (db.referenced.skillSubunits link member).2⟩ } }
  else .error (.uniqueViolation "subunits")

def insertSkillSubunit (row : SkillSubunitRow) (db : Database) : Except DbError Database :=
  if fresh : row.key ∉ db.skillSubunits.keys then
    if known : row.skillId ∈ db.skills.keys ∧ row.subunitId ∈ db.subunits.keys then
      .ok {
        toTables := { db.toTables with skillSubunits := db.skillSubunits.insert row fresh }
        referenced :=
          { db.referenced with
            skillSubunits := by
              intro link member
              rcases List.mem_append.mp member with old | new
              · exact db.referenced.skillSubunits link old
              · exact List.mem_singleton.mp new ▸ known } }
    else .error (.foreignKeyViolation "skill_subunits")
  else .error (.uniqueViolation "skill_subunits")

def insertCommunity (row : CommunityRow) (db : Database) : Except DbError Database :=
  if row.scope ∉ scopeValues ∨ row.lifecycle ∉ lifecycleValues then
    .error (.checkViolation "communities")
  else if fresh : row.id ∉ db.communities.keys then
    .ok {
      toTables := { db.toTables with communities := db.communities.insert row fresh }
      referenced :=
        { db.referenced with
          communitySkills := fun link member =>
            ⟨Keyed.mem_insert_keys fresh (db.referenced.communitySkills link member).1,
              (db.referenced.communitySkills link member).2⟩ } }
  else .error (.uniqueViolation "communities")

def insertCommunitySkill (row : CommunitySkillRow) (db : Database) : Except DbError Database :=
  if row.source ∉ sourceValues then .error (.checkViolation "community_skills")
  else if fresh : row.key ∉ db.communitySkills.keys then
    if known : row.communityId ∈ db.communities.keys ∧ row.skillId ∈ db.skills.keys then
      .ok {
        toTables := { db.toTables with communitySkills := db.communitySkills.insert row fresh }
        referenced :=
          { db.referenced with
            communitySkills := by
              intro link member
              rcases List.mem_append.mp member with old | new
              · exact db.referenced.communitySkills link old
              · exact List.mem_singleton.mp new ▸ known } }
    else .error (.foreignKeyViolation "community_skills")
  else .error (.uniqueViolation "community_skills")

/-! ### Versions -/

/-- Increments the graph version of the singleton row and returns the new one. -/
def advanceGraphVersion (rebuiltAt : Option Timestamp) (db : Database) :
    Except DbError (Int × Database) :=
  match db.graphState with
  | none => .error .rowNotFound
  | some state =>
    if maxBigint < state.graphVersion + 1 then .error .outOfRange
    else
      .ok (state.graphVersion + 1,
        { toTables :=
            { db.toTables with
              graphState := some ⟨state.graphVersion + 1, rebuiltAt.or state.rebuiltAt⟩ }
          referenced := { db.referenced with } })

def stampSkills (graphVersion : Int) (db : Database) : Database where
  toTables :=
    { db.toTables with
      skills := db.skills.update (fun row => { row with graphVersion }) fun _ => rfl }
  referenced := by
    have sameKeys := db.skills.update_keys (fun row => { row with graphVersion }) fun _ => rfl
    refine ⟨fun row member => ?_, fun row member => ?_, fun row member skillId known => ?_⟩
    · exact ⟨sameKeys ▸ (db.referenced.skillSubunits row member).1,
        (db.referenced.skillSubunits row member).2⟩
    · exact ⟨(db.referenced.communitySkills row member).1,
        sameKeys ▸ (db.referenced.communitySkills row member).2⟩
    · exact sameKeys ▸ db.referenced.skillUsage row member skillId known

end Database

/-! ### Statements -/

/-- A row of the graph snapshot. -/
inductive SnapshotRow where
  | skill (row : SkillRow)
  | subunit (row : SubunitRow)
  | skillSubunit (row : SkillSubunitRow)
  | community (row : CommunityRow)
  | communitySkill (row : CommunitySkillRow)
deriving DecidableEq

def Database.insert : SnapshotRow → Database → Except DbError Database
  | .skill row, db => db.insertSkill row
  | .subunit row, db => db.insertSubunit row
  | .skillSubunit row, db => db.insertSkillSubunit row
  | .community row, db => db.insertCommunity row
  | .communitySkill row, db => db.insertCommunitySkill row

inductive Statement where
  | deleteCommunitySkills
  | deleteSkillSubunits
  | deleteCommunities
  | deleteSubunits
  | deleteSkills
  | insert (row : SnapshotRow)
  | advanceGraphVersion (rebuiltAt : Option Timestamp)
  | stampSkills (graphVersion : Int)
deriving DecidableEq

/-- The statements that fail for a reason outside the schema, such as a lost connection. -/
abbrev Refused := Statement → Option DbError

/-- Work on a database, stopping at the first failing statement. -/
abbrev Session := EStateM DbError Database

def Session.guarded {α : Type} (refused : Refused) (statement : Statement) (act : Session α) :
    Session α := fun db =>
  match refused statement with
  | some error => .error error db
  | none => act db

/-- A write that fails leaves the tables as they are. -/
def Session.write (change : Database → Except DbError Database) : Session PUnit := fun db =>
  match change db with
  | .ok after => .ok ⟨⟩ after
  | .error error => .error error db

def effect : Statement → Database → Except DbError Database
  | .deleteCommunitySkills, db => .ok db.deleteCommunitySkills
  | .deleteSkillSubunits, db => .ok db.deleteSkillSubunits
  | .deleteCommunities, db => .ok db.deleteCommunities
  | .deleteSubunits, db => .ok db.deleteSubunits
  | .deleteSkills, db => .ok db.deleteSkills
  | .insert row, db => db.insert row
  | .advanceGraphVersion rebuiltAt, db => (db.advanceGraphVersion rebuiltAt).map Prod.snd
  | .stampSkills graphVersion, db => .ok (db.stampSkills graphVersion)

def execute (refused : Refused) (statement : Statement) : Session PUnit :=
  Session.guarded refused statement (Session.write (effect statement))

/-- `UPDATE graph_state ... RETURNING graph_version`. -/
def advanceReturning (refused : Refused) (rebuiltAt : Option Timestamp) : Session Int :=
  Session.guarded refused (.advanceGraphVersion rebuiltAt) fun db =>
    match db.advanceGraphVersion rebuiltAt with
    | .ok (version, after) => .ok version after
    | .error error => .error error db

/-- Begin, work and commit; an error rolls the work back. -/
def transaction {α : Type} (work : Session α) (db : Database) : Except DbError α × Database :=
  match work db with
  | .ok result after => (.ok result, after)
  | .error error _ => (.error error, db)

end SkillLayer.Infrastructure

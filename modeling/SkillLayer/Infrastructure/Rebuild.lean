import SkillLayer.Domain.Types
import SkillLayer.Infrastructure.SnapshotRows

/-! Replacing the graph snapshot in one transaction: exactly when it is stored. -/

namespace SkillLayer.Infrastructure

open Domain

structure LiveGraphSubunitRecord where
  kind : SubunitType
  title : Str
  content : Str
deriving DecidableEq

structure LiveGraphSkillRecord where
  stableId : Str
  name : Str
  description : Str
  scope : ScopeType
  tags : List Str
  sourcePaths : List Str
  subunits : List LiveGraphSubunitRecord
deriving DecidableEq

structure LiveGraphCommunityRecord where
  stableId : Str
  name : Str
  scope : ScopeType
  memberSkillIds : List Str
  source : Str
deriving DecidableEq

structure LiveGraphSnapshotMutation where
  rebuiltAt : Timestamp
  skills : List LiveGraphSkillRecord
  communities : List LiveGraphCommunityRecord
deriving DecidableEq

def scopeToDbValue : ScopeType → Str
  | .project => "project"
  | .global => "global"
  | .team => "team"

def subunitKindToDbValue : SubunitType → Str
  | .procedure => "procedure"
  | .convention => "convention"
  | .asset => "asset"
  | .evidence => "evidence"
  | .summary => "summary"

theorem scopeToDbValue_checked (scope : ScopeType) : scopeToDbValue scope ∈ scopeValues := by
  cases scope <;> decide

theorem subunitKindToDbValue_checked (kind : SubunitType) :
    subunitKindToDbValue kind ∈ kindValues := by
  cases kind <;> decide

/-- The digest of a byte string. -/
abbrev Blake3 := List UInt8 → List UInt8

variable (blake3 : Blake3)

def stableUuid (entityKind stableId : Str) : Uuid :=
  let bytes := (blake3 (Str.utf8 (entityKind ++ [':'] ++ stableId))).take 16
  (bytes.modify 6 fun byte => (byte &&& 0x0f) ||| 0x40).modify 8 fun byte =>
    (byte &&& 0x3f) ||| 0x80

def stableSkillUuid (stableId : Str) : Uuid := stableUuid blake3 "skill" stableId

def subunitUuid (skill : LiveGraphSkillRecord) (position : Nat) (subunit : LiveGraphSubunitRecord) :
    Uuid :=
  stableUuid blake3 "subunit"
    (skill.stableId ++ [':'] ++ Str.ofNat position ++ [':'] ++ subunit.title)

def communityUuid (community : LiveGraphCommunityRecord) : Uuid :=
  stableUuid blake3 "community" community.stableId

/-- `usize as i32`. -/
def asI32 (n : Nat) : Int := Int.bmod n (2 ^ 32)

/-! ### The rows of a snapshot -/

def skillRow (skill : LiveGraphSkillRecord) : SkillRow where
  id := stableSkillUuid blake3 skill.stableId
  name := skill.name
  description := skill.description
  scope := scopeToDbValue skill.scope
  lifecycle := activeLifecycle
  tags := skill.tags
  sourcePaths := skill.sourcePaths
  graphVersion := 0

def subunitRow (skill : LiveGraphSkillRecord) (subunit : LiveGraphSubunitRecord × Nat) : SubunitRow where
  id := subunitUuid blake3 skill subunit.2 subunit.1
  kind := subunitKindToDbValue subunit.1.kind
  title := subunit.1.title
  content := subunit.1.content

def skillSubunitRow (skill : LiveGraphSkillRecord) (subunit : LiveGraphSubunitRecord × Nat) :
    SkillSubunitRow where
  skillId := stableSkillUuid blake3 skill.stableId
  subunitId := subunitUuid blake3 skill subunit.2 subunit.1
  position := asI32 subunit.2

def communityRow (community : LiveGraphCommunityRecord) : CommunityRow where
  id := communityUuid blake3 community
  name := community.name
  description := "Auto-generated community " ++ community.name
  scope := scopeToDbValue community.scope
  lifecycle := activeLifecycle

def communitySkillRow (community : LiveGraphCommunityRecord) (memberSkillId : Str) :
    CommunitySkillRow where
  communityId := communityUuid blake3 community
  skillId := stableSkillUuid blake3 memberSkillId
  source := community.source

/-- The insertions of one skill. -/
def skillRows (skill : LiveGraphSkillRecord) : List SnapshotRow :=
  .skill (skillRow blake3 skill) :: skill.subunits.zipIdx.flatMap fun subunit =>
    [.subunit (subunitRow blake3 skill subunit), .skillSubunit (skillSubunitRow blake3 skill subunit)]

/-- The insertions of one community. -/
def communityRows (community : LiveGraphCommunityRecord) : List SnapshotRow :=
  .community (communityRow blake3 community) ::
    community.memberSkillIds.map fun member => .communitySkill (communitySkillRow blake3 community member)

def snapshotRows (mutation : LiveGraphSnapshotMutation) : List SnapshotRow :=
  mutation.skills.flatMap (skillRows blake3) ++ mutation.communities.flatMap (communityRows blake3)

def deletions : List Statement :=
  [.deleteCommunitySkills, .deleteSkillSubunits, .deleteCommunities, .deleteSubunits, .deleteSkills]

def replaceSnapshot (refused : Refused) (mutation : LiveGraphSnapshotMutation) : Session Int := do
  forEach (execute refused) deletions
  forEach (fun row => execute refused (.insert row)) (snapshotRows blake3 mutation)
  let graphVersion ← advanceReturning refused (some mutation.rebuiltAt)
  execute refused (.stampSkills graphVersion)
  pure graphVersion

def replaceSnapshotAndBumpVersion (refused : Refused) (mutation : LiveGraphSnapshotMutation)
    (db : Database) : Except DbError Int × Database :=
  transaction (replaceSnapshot blake3 refused mutation) db

/-- The separate second bump, in a transaction of its own. -/
def bumpGraphVersion (refused : Refused) (db : Database) : Except DbError Int × Database :=
  transaction (advanceReturning refused none) db

/-! ### When a snapshot is stored -/

/-- What the schema and the connection demand of a mutation. -/
structure Storable (refused : Refused) (mutation : LiveGraphSnapshotMutation) (db : Database) :
    Prop where
  allowed : ∀ statement ∈ deletions ++ (snapshotRows blake3 mutation).map Statement.insert ++
    [.advanceGraphVersion (some mutation.rebuiltAt)], refused statement = none
  skills : (mutation.skills.map fun skill => stableSkillUuid blake3 skill.stableId).Nodup
  subunits : (mutation.skills.flatMap fun skill => skill.subunits.zipIdx.map fun subunit =>
    subunitUuid blake3 skill subunit.2 subunit.1).Nodup
  communities : (mutation.communities.map (communityUuid blake3)).Nodup
  members : ∀ community ∈ mutation.communities,
    (community.memberSkillIds.map (stableSkillUuid blake3)).Nodup
  known : ∀ community ∈ mutation.communities, ∀ member ∈ community.memberSkillIds,
    stableSkillUuid blake3 member ∈
      mutation.skills.map fun skill => stableSkillUuid blake3 skill.stableId
  sources : ∀ community ∈ mutation.communities, ∀ member ∈ community.memberSkillIds,
    community.source ∈ sourceValues
  version : ∃ state, db.graphState = some state ∧ state.graphVersion + 1 ≤ maxBigint ∧
    refused (.stampSkills (state.graphVersion + 1)) = none

theorem flatMap_nil {Item Row : Type} (items : List Item) :
    (items.flatMap fun _ => ([] : List Row)) = [] :=
  List.flatMap_eq_nil_iff.mpr fun _ _ => rfl

theorem skills_snapshotRows (mutation : LiveGraphSnapshotMutation) :
    (snapshotRows blake3 mutation).filterMap SnapshotRow.skill? =
      mutation.skills.map (skillRow blake3) := by
  simp [snapshotRows, skillRows, communityRows, List.filterMap_flatMap, List.filterMap_cons,
    List.filterMap_map, Function.comp_def, flatMap_nil, ← List.map_eq_flatMap]

theorem subunits_snapshotRows (mutation : LiveGraphSnapshotMutation) :
    (snapshotRows blake3 mutation).filterMap SnapshotRow.subunit? =
      mutation.skills.flatMap fun skill => skill.subunits.zipIdx.map (subunitRow blake3 skill) := by
  simp [snapshotRows, skillRows, communityRows, List.filterMap_flatMap, List.filterMap_cons,
    List.filterMap_map, Function.comp_def, ← List.map_eq_flatMap]

theorem skillSubunits_snapshotRows (mutation : LiveGraphSnapshotMutation) :
    (snapshotRows blake3 mutation).filterMap SnapshotRow.skillSubunit? =
      mutation.skills.flatMap fun skill =>
        skill.subunits.zipIdx.map (skillSubunitRow blake3 skill) := by
  simp [snapshotRows, skillRows, communityRows, List.filterMap_flatMap, List.filterMap_cons,
    List.filterMap_map, Function.comp_def, ← List.map_eq_flatMap]

theorem communities_snapshotRows (mutation : LiveGraphSnapshotMutation) :
    (snapshotRows blake3 mutation).filterMap SnapshotRow.community? =
      mutation.communities.map (communityRow blake3) := by
  simp [snapshotRows, skillRows, communityRows, List.filterMap_flatMap, List.filterMap_cons,
    List.filterMap_map, Function.comp_def, ← List.map_eq_flatMap]

theorem communitySkills_snapshotRows (mutation : LiveGraphSnapshotMutation) :
    (snapshotRows blake3 mutation).filterMap SnapshotRow.communitySkill? =
      mutation.communities.flatMap fun community =>
        community.memberSkillIds.map (communitySkillRow blake3 community) := by
  simp [snapshotRows, skillRows, communityRows, List.filterMap_flatMap, List.filterMap_cons,
    List.filterMap_map, Function.comp_def]

/-- The rows of a skill refer to its own row and to the subunits before them. -/
theorem allKnown_skillRows (skill : LiveGraphSkillRecord) (skills subunits communities : List Uuid) :
    AllKnown skills subunits communities (skillRows blake3 skill) := by
  refine ⟨trivial, ?_⟩
  have own : (skillRow blake3 skill).id ∈
      skills ++ (SnapshotRow.skill? (.skill (skillRow blake3 skill))).toList.map SkillRow.id := by
    simp
  generalize skills ++ (SnapshotRow.skill? (.skill (skillRow blake3 skill))).toList.map SkillRow.id =
    known at own
  generalize subunits ++ (SnapshotRow.subunit? (.skill (skillRow blake3 skill))).toList.map
    SubunitRow.id = earlier
  generalize communities ++ (SnapshotRow.community? (.skill (skillRow blake3 skill))).toList.map
    CommunityRow.id = others
  induction skill.subunits.zipIdx generalizing earlier with
  | nil => trivial
  | cons subunit rest ih =>
    rw [List.flatMap_cons, allKnown_append]
    refine ⟨⟨trivial, ⟨?_, ?_⟩, trivial⟩, ?_⟩
    · simpa [skillRow, skillSubunitRow] using own
    · simp [subunitRow, skillSubunitRow]
    · simpa [List.filterMap_cons] using ih _

theorem allKnown_skills (records : List LiveGraphSkillRecord)
    (skills subunits communities : List Uuid) :
    AllKnown skills subunits communities (records.flatMap (skillRows blake3)) := by
  induction records generalizing skills subunits communities with
  | nil => trivial
  | cons skill rest ih =>
    rw [List.flatMap_cons, allKnown_append]
    exact ⟨allKnown_skillRows blake3 skill _ _ _, ih _ _ _⟩

/-- The rows of a community refer to its own row and to its members. -/
theorem allKnown_communityRows (community : LiveGraphCommunityRecord)
    (skills subunits communities : List Uuid) :
    AllKnown skills subunits communities (communityRows blake3 community) ↔
      ∀ member ∈ community.memberSkillIds, stableSkillUuid blake3 member ∈ skills := by
  have own : communityUuid blake3 community ∈ communities ++
      (SnapshotRow.community? (.community (communityRow blake3 community))).toList.map
        CommunityRow.id := by
    simp [communityRow]
  unfold communityRows
  rw [AllKnown, and_iff_right (show SnapshotRow.Known _ _ _ (.community _) from trivial)]
  generalize communities ++
    (SnapshotRow.community? (.community (communityRow blake3 community))).toList.map
      CommunityRow.id = known at own
  simp only [SnapshotRow.skill?, SnapshotRow.subunit?, Option.toList_none, List.map_nil, List.append_nil]
  induction community.memberSkillIds with
  | nil => simp [AllKnown]
  | cons member rest ih =>
    rw [List.map_cons, AllKnown, List.forall_mem_cons]
    simp only [SnapshotRow.skill?, SnapshotRow.subunit?, SnapshotRow.community?, Option.toList_none,
      List.map_nil, List.append_nil, ih]
    exact and_congr_left' ⟨And.right, fun known => ⟨own, known⟩⟩

theorem allKnown_communities (records : List LiveGraphCommunityRecord)
    (skills subunits communities : List Uuid) :
    AllKnown skills subunits communities (records.flatMap (communityRows blake3)) ↔
      ∀ community ∈ records, ∀ member ∈ community.memberSkillIds,
        stableSkillUuid blake3 member ∈ skills := by
  induction records generalizing communities with
  | nil => simp [AllKnown]
  | cons community rest ih =>
    have noSkill : (communityRows blake3 community).filterMap SnapshotRow.skill? = [] := by
      simp [communityRows, List.filterMap_cons, List.filterMap_map, Function.comp_def]
    have noSubunit : (communityRows blake3 community).filterMap SnapshotRow.subunit? = [] := by
      simp [communityRows, List.filterMap_cons, List.filterMap_map, Function.comp_def]
    rw [List.flatMap_cons, allKnown_append, allKnown_communityRows, noSkill, noSubunit,
      List.forall_mem_cons]
    simp only [List.map_nil, List.append_nil, ih]

/-- A database after the deletions. -/
structure Cleared (before after : Tables) : Prop where
  skills : after.skills.keys = []
  subunits : after.subunits.keys = []
  skillSubunits : after.skillSubunits.keys = []
  communities : after.communities.keys = []
  communitySkills : after.communitySkills.keys = []
  skillUsage : after.skillUsage.rows =
    before.skillUsage.rows.map (Database.forgetSkills before.skills.keys)
  graphState : after.graphState = before.graphState

def Database.cleared (db : Database) : Database :=
  db.deleteCommunitySkills.deleteSkillSubunits.deleteCommunities.deleteSubunits.deleteSkills

theorem cleared_spec (db : Database) : Cleared db.toTables db.cleared.toTables := by
  constructor <;> simp [Database.cleared, Database.deleteCommunitySkills,
    Database.deleteSkillSubunits, Database.deleteCommunities, Database.deleteSubunits,
    Database.deleteSkills, Keyed.keys]

theorem succeeds_deletions {refused : Refused} {before after : Database} :
    Succeeds (forEach (execute refused) deletions) before after ↔
      (∀ statement ∈ deletions, refused statement = none) ∧ after = before.cleared := by
  simp only [deletions, succeeds_forEach_cons, succeeds_execute, succeeds_forEach_nil, effect,
    Except.ok.injEq, List.forall_mem_cons]
  constructor
  · rintro ⟨_, ⟨first, rfl⟩, _, ⟨second, rfl⟩, _, ⟨third, rfl⟩, _, ⟨fourth, rfl⟩, _,
      ⟨fifth, rfl⟩, rfl⟩
    exact ⟨⟨first, second, third, fourth, fifth, fun _ member => absurd member List.not_mem_nil⟩, rfl⟩
  · rintro ⟨⟨first, second, third, fourth, fifth, -⟩, rfl⟩
    exact ⟨_, ⟨first, rfl⟩, _, ⟨second, rfl⟩, _, ⟨third, rfl⟩, _, ⟨fourth, rfl⟩, _, ⟨fifth, rfl⟩, rfl⟩

/-- The rows of a community have distinct keys exactly when its members have distinct ids,
provided the communities have. -/
theorem nodup_memberships {communities : List LiveGraphCommunityRecord}
    (distinct : (communities.map (communityUuid blake3)).Nodup) :
    ((communities.flatMap fun community =>
        community.memberSkillIds.map (communitySkillRow blake3 community)).map
      CommunitySkillRow.key).Nodup ↔
      ∀ community ∈ communities, (community.memberSkillIds.map (stableSkillUuid blake3)).Nodup := by
  have one (community : LiveGraphCommunityRecord) :
      (community.memberSkillIds.map (CommunitySkillRow.key ∘ communitySkillRow blake3 community)).Nodup ↔
        (community.memberSkillIds.map (stableSkillUuid blake3)).Nodup := by
    rw [List.Nodup, List.Nodup, List.pairwise_map, List.pairwise_map]
    simp [CommunitySkillRow.key, communitySkillRow]
  rw [List.map_flatMap, List.nodup_flatMap]
  simp only [List.map_map, one]
  refine and_iff_left ?_
  rw [List.Nodup, List.pairwise_map] at distinct
  refine distinct.imp ?_
  rintro community other different key inFirst inSecond
  obtain ⟨member, -, rfl⟩ := List.mem_map.mp inFirst
  obtain ⟨otherMember, -, same⟩ := List.mem_map.mp inSecond
  exact different (congrArg Prod.fst same).symm

/-- The rows of a snapshot can be inserted into cleared tables exactly under the demands
of the schema. -/
theorem insertable_snapshotRows_iff {refused : Refused} {mutation : LiveGraphSnapshotMutation}
    {before tables : Tables} (cleared : Cleared before tables) :
    Insertable refused tables (snapshotRows blake3 mutation) ↔
      (∀ row ∈ snapshotRows blake3 mutation, refused (.insert row) = none) ∧
      (mutation.skills.map fun skill => stableSkillUuid blake3 skill.stableId).Nodup ∧
      (mutation.skills.flatMap fun skill => skill.subunits.zipIdx.map fun subunit =>
        subunitUuid blake3 skill subunit.2 subunit.1).Nodup ∧
      (mutation.communities.map (communityUuid blake3)).Nodup ∧
      (∀ community ∈ mutation.communities,
        (community.memberSkillIds.map (stableSkillUuid blake3)).Nodup) ∧
      (∀ community ∈ mutation.communities, ∀ member ∈ community.memberSkillIds,
        stableSkillUuid blake3 member ∈
          mutation.skills.map fun skill => stableSkillUuid blake3 skill.stableId) ∧
      ∀ community ∈ mutation.communities, ∀ member ∈ community.memberSkillIds,
        community.source ∈ sourceValues := by
  have skillKeys : ((snapshotRows blake3 mutation).filterMap SnapshotRow.skill?).map SkillRow.id =
      mutation.skills.map fun skill => stableSkillUuid blake3 skill.stableId := by
    rw [skills_snapshotRows, List.map_map]
    rfl
  have subunitKeys : ((snapshotRows blake3 mutation).filterMap SnapshotRow.subunit?).map SubunitRow.id =
      mutation.skills.flatMap fun skill => skill.subunits.zipIdx.map fun subunit =>
        subunitUuid blake3 skill subunit.2 subunit.1 := by
    simp [subunits_snapshotRows, List.map_flatMap, Function.comp_def, subunitRow]
  have linkKeys : (((snapshotRows blake3 mutation).filterMap SnapshotRow.skillSubunit?).map
      SkillSubunitRow.key).map Prod.snd =
      mutation.skills.flatMap fun skill => skill.subunits.zipIdx.map fun subunit =>
        subunitUuid blake3 skill subunit.2 subunit.1 := by
    simp [skillSubunits_snapshotRows, List.map_flatMap, Function.comp_def, skillSubunitRow,
      SkillSubunitRow.key]
  have communityKeys : ((snapshotRows blake3 mutation).filterMap SnapshotRow.community?).map
      CommunityRow.id = mutation.communities.map (communityUuid blake3) := by
    rw [communities_snapshotRows, List.map_map]
    rfl
  have known : AllKnown [] [] [] (snapshotRows blake3 mutation) ↔
      ∀ community ∈ mutation.communities, ∀ member ∈ community.memberSkillIds,
        stableSkillUuid blake3 member ∈
          mutation.skills.map fun skill => stableSkillUuid blake3 skill.stableId := by
    have ids : ((mutation.skills.flatMap (skillRows blake3)).filterMap SnapshotRow.skill?).map
        SkillRow.id = mutation.skills.map fun skill => stableSkillUuid blake3 skill.stableId := by
      rw [← skillKeys, snapshotRows, List.filterMap_append]
      simp [communityRows, List.filterMap_flatMap, List.filterMap_cons, List.filterMap_map,
        Function.comp_def]
    rw [snapshotRows, allKnown_append, and_iff_right (allKnown_skills blake3 _ _ _ _),
      allKnown_communities, List.nil_append, ids]
  have checked : (∀ row ∈ snapshotRows blake3 mutation, row.Checked) ↔
      ∀ community ∈ mutation.communities, ∀ member ∈ community.memberSkillIds,
        community.source ∈ sourceValues := by
    have active : activeLifecycle ∈ lifecycleValues := by decide
    simp only [snapshotRows, skillRows, communityRows, List.mem_append, List.mem_flatMap,
      List.mem_cons, List.mem_map, List.not_mem_nil, or_false]
    constructor
    · intro all community inCommunities member inMembers
      exact all _ (.inr ⟨community, inCommunities, .inr ⟨member, inMembers, rfl⟩⟩)
    · rintro sources row (⟨skill, -, rfl | ⟨subunit, -, rfl | rfl⟩⟩ |
        ⟨community, inCommunities, rfl | ⟨member, inMembers, rfl⟩⟩)
      · exact ⟨scopeToDbValue_checked _, active⟩
      · exact subunitKindToDbValue_checked _
      · trivial
      · exact ⟨scopeToDbValue_checked _, active⟩
      · exact sources community inCommunities member inMembers
  constructor
  · intro insertable
    have communities := insertable.communities
    rw [cleared.communities, communityKeys, List.nil_append] at communities
    refine ⟨fun row member => (insertable.allowed row member).2, ?_, ?_, communities, ?_, ?_, ?_⟩
    · simpa only [cleared.skills, skillKeys, List.nil_append] using insertable.skills
    · simpa only [cleared.subunits, subunitKeys, List.nil_append] using insertable.subunits
    · rw [← nodup_memberships blake3 communities, ← communitySkills_snapshotRows]
      simpa only [cleared.communitySkills, List.nil_append] using insertable.communitySkills
    · simpa only [cleared.skills, cleared.subunits, cleared.communities, known] using insertable.known
    · exact checked.mp fun row member => (insertable.allowed row member).1
  · rintro ⟨allowed, skills, subunits, communities, members, references, sources⟩
    exact
      { allowed := fun row member => ⟨checked.mpr sources row member, allowed row member⟩
        skills := by simpa only [cleared.skills, skillKeys, List.nil_append] using skills
        subunits := by simpa only [cleared.subunits, subunitKeys, List.nil_append] using subunits
        skillSubunits := by
          rw [cleared.skillSubunits, List.nil_append]
          exact List.Nodup.of_map Prod.snd (linkKeys ▸ subunits)
        communities := by
          simpa only [cleared.communities, communityKeys, List.nil_append] using communities
        communitySkills := by
          rw [cleared.communitySkills, List.nil_append, communitySkills_snapshotRows]
          exact (nodup_memberships blake3 communities).mpr members
        known := by
          simpa only [cleared.skills, cleared.subunits, cleared.communities, known] using references }

theorem advanceGraphVersion_eq_ok {rebuiltAt : Option Timestamp} {db after : Database}
    {version : Int} :
    db.advanceGraphVersion rebuiltAt = .ok (version, after) ↔
      ∃ state, db.graphState = some state ∧ state.graphVersion + 1 ≤ maxBigint ∧
        version = state.graphVersion + 1 ∧
        after.toTables = { db.toTables with
          graphState := some ⟨version, rebuiltAt.or state.rebuiltAt⟩ } := by
  unfold Database.advanceGraphVersion
  cases db.graphState with
  | none => simp
  | some state =>
    by_cases room : maxBigint < state.graphVersion + 1
    · simp only [if_pos room, reduceCtorEq, Option.some.injEq, exists_eq_left', false_iff]
      exact fun found => absurd room (Int.not_lt.mpr found.1)
    · simp only [if_neg room, Except.ok.injEq, Prod.mk.injEq, Option.some.injEq, exists_eq_left']
      constructor
      · rintro ⟨rfl, rfl⟩
        exact ⟨Int.not_lt.mp room, rfl, rfl⟩
      · rintro ⟨-, rfl, same⟩
        exact ⟨rfl, Database.ext same.symm⟩

theorem advanceReturning_eq_ok {refused : Refused} {rebuiltAt : Option Timestamp}
    {db after : Database} {version : Int} :
    advanceReturning refused rebuiltAt db = .ok version after ↔
      refused (.advanceGraphVersion rebuiltAt) = none ∧
        db.advanceGraphVersion rebuiltAt = .ok (version, after) := by
  unfold advanceReturning Session.guarded
  cases refused (.advanceGraphVersion rebuiltAt) with
  | some error => simp
  | none =>
    dsimp only
    cases db.advanceGraphVersion rebuiltAt <;> simp [Prod.ext_iff]

/-- What a stored snapshot leaves in the tables. -/
structure Replaced (mutation : LiveGraphSnapshotMutation) (before : Tables) (version : Int)
    (after : Tables) : Prop where
  skills : after.skills.rows = mutation.skills.map fun skill =>
    { skillRow blake3 skill with graphVersion := version }
  subunits : after.subunits.rows = mutation.skills.flatMap fun skill =>
    skill.subunits.zipIdx.map (subunitRow blake3 skill)
  skillSubunits : after.skillSubunits.rows = mutation.skills.flatMap fun skill =>
    skill.subunits.zipIdx.map (skillSubunitRow blake3 skill)
  communities : after.communities.rows = mutation.communities.map (communityRow blake3)
  communitySkills : after.communitySkills.rows = mutation.communities.flatMap fun community =>
    community.memberSkillIds.map (communitySkillRow blake3 community)
  skillUsage : after.skillUsage.rows =
    before.skillUsage.rows.map (Database.forgetSkills before.skills.keys)
  graphState : ∃ state, before.graphState = some state ∧ version = state.graphVersion + 1 ∧
    after.graphState = some ⟨version, some mutation.rebuiltAt⟩

/-- A finished replacement has stored exactly the mutation, under the next version. -/
theorem replaced_of_ok {refused : Refused} {mutation : LiveGraphSnapshotMutation}
    {db after : Database} {version : Int}
    (ran : replaceSnapshot blake3 refused mutation db = .ok version after) :
    Storable blake3 refused mutation db ∧
      Replaced blake3 mutation db.toTables version after.toTables := by
  obtain ⟨_, cleared, deleted, ran⟩ := bind_eq_ok.mp ran
  obtain ⟨_, filled, inserted, ran⟩ := bind_eq_ok.mp ran
  obtain ⟨graphVersion, advanced, bumped, ran⟩ := bind_eq_ok.mp ran
  obtain ⟨_, stamped, wrote, ran⟩ := bind_eq_ok.mp ran
  obtain ⟨rfl, rfl⟩ : graphVersion = version ∧ stamped = after := by
    simpa [pure, EStateM.pure] using ran
  obtain ⟨deletable, rfl⟩ := succeeds_deletions.mp deleted
  have empty := cleared_spec db
  have grown := insertAll_grows inserted
  obtain ⟨allowed, skills, subunits, communities, members, known, sources⟩ :=
    (insertable_snapshotRows_iff blake3 empty).mp (insertAll_succeeds_iff.mp ⟨filled, inserted⟩)
  obtain ⟨bumpAllowed, advancedOk⟩ := advanceReturning_eq_ok.mp bumped
  obtain ⟨state, found, room, rfl, advancedTables⟩ := advanceGraphVersion_eq_ok.mp advancedOk
  rw [grown.graphState, empty.graphState] at found
  obtain ⟨stampAllowed, stampedOk⟩ := succeeds_execute.mp wrote
  obtain rfl : advanced.stampSkills (state.graphVersion + 1) = stamped := by
    simpa [effect] using stampedOk
  have rows {Row Key : Type} {key : Row → Key} {table : Keyed Row key} (cleared : table.keys = []) :
      table.rows = [] := List.map_eq_nil_iff.mp cleared
  constructor
  · refine ⟨?_, skills, subunits, communities, members, known, sources, state, found, room,
      stampAllowed⟩
    intro statement member
    rcases List.mem_append.mp member with early | last
    · rcases List.mem_append.mp early with deletion | insertion
      · exact deletable statement deletion
      · obtain ⟨row, inRows, rfl⟩ := List.mem_map.mp insertion
        exact allowed row inRows
    · exact List.mem_singleton.mp last ▸ bumpAllowed
  · refine ⟨?_, ?_, ?_, ?_, ?_, ?_, state, found, rfl, ?_⟩
    · simp [Database.stampSkills, advancedTables, grown.skills, rows empty.skills,
        skills_snapshotRows]
    · simp [Database.stampSkills, advancedTables, grown.subunits, rows empty.subunits,
        subunits_snapshotRows]
    · simp [Database.stampSkills, advancedTables, grown.skillSubunits, rows empty.skillSubunits,
        skillSubunits_snapshotRows]
    · simp [Database.stampSkills, advancedTables, grown.communities, rows empty.communities,
        communities_snapshotRows]
    · simp [Database.stampSkills, advancedTables, grown.communitySkills,
        rows empty.communitySkills, communitySkills_snapshotRows]
    · simp [Database.stampSkills, advancedTables, grown.skillUsage, empty.skillUsage]
    · simp [Database.stampSkills, advancedTables]

/-- A storable mutation is stored. -/
theorem ok_of_storable {refused : Refused} {mutation : LiveGraphSnapshotMutation} {db : Database}
    (storable : Storable blake3 refused mutation db) :
    ∃ version after, replaceSnapshot blake3 refused mutation db = .ok version after := by
  have allowed (statement : Statement) (member : statement ∈ deletions ∨
      (∃ row ∈ snapshotRows blake3 mutation, Statement.insert row = statement) ∨
      statement = .advanceGraphVersion (some mutation.rebuiltAt)) : refused statement = none := by
    refine storable.allowed statement ?_
    rw [List.mem_append, List.mem_append, List.mem_map, List.mem_singleton, or_assoc]
    exact member
  have empty := cleared_spec db
  have deleted : Succeeds (forEach (execute refused) deletions) db db.cleared :=
    succeeds_deletions.mpr ⟨fun statement member => allowed statement (.inl member), rfl⟩
  obtain ⟨filled, inserted⟩ := insertAll_succeeds_iff.mpr
    ((insertable_snapshotRows_iff blake3 empty).mpr
      ⟨fun row member => allowed _ (.inr (.inl ⟨row, member, rfl⟩)), storable.skills,
        storable.subunits, storable.communities, storable.members, storable.known,
        storable.sources⟩)
  have grown := insertAll_grows inserted
  obtain ⟨state, found, room, stampAllowed⟩ := storable.version
  have foundHere : filled.graphState = some state := by
    rw [grown.graphState, empty.graphState, found]
  have advancedOk : ∃ advanced, filled.advanceGraphVersion (some mutation.rebuiltAt) =
      .ok (state.graphVersion + 1, advanced) := by
    simp [Database.advanceGraphVersion, foundHere, Int.not_lt.mpr room]
  obtain ⟨advanced, advancedOk⟩ := advancedOk
  refine ⟨state.graphVersion + 1, advanced.stampSkills (state.graphVersion + 1), ?_⟩
  refine bind_eq_ok.mpr ⟨_, _, deleted, bind_eq_ok.mpr ⟨_, _, inserted, ?_⟩⟩
  refine bind_eq_ok.mpr ⟨_, _, advanceReturning_eq_ok.mpr ⟨allowed _ (.inr (.inr rfl)), advancedOk⟩, ?_⟩
  exact bind_eq_ok.mpr ⟨_, _, succeeds_execute.mpr ⟨stampAllowed, rfl⟩, rfl⟩

/-- The transaction commits exactly when the mutation is storable; otherwise it leaves
the database as it was. -/
theorem replaceSnapshotAndBumpVersion_spec (refused : Refused) (mutation : LiveGraphSnapshotMutation)
    (db : Database) :
    (Storable blake3 refused mutation db ∧ ∃ version after,
        replaceSnapshotAndBumpVersion blake3 refused mutation db = (.ok version, after) ∧
          Replaced blake3 mutation db.toTables version after.toTables) ∨
      (¬ Storable blake3 refused mutation db ∧ ∃ error,
        replaceSnapshotAndBumpVersion blake3 refused mutation db = (.error error, db)) := by
  unfold replaceSnapshotAndBumpVersion transaction
  cases ran : replaceSnapshot blake3 refused mutation db with
  | ok version after =>
    obtain ⟨storable, replaced⟩ := replaced_of_ok blake3 ran
    exact .inl ⟨storable, version, after, rfl, replaced⟩
  | error error left =>
    refine .inr ⟨fun storable => ?_, error, rfl⟩
    obtain ⟨version, after, finished⟩ := ok_of_storable blake3 storable
    rw [ran] at finished
    cases finished

/-! ### A snapshot of one skill -/

/-- The stable id of the skill file `/repo/a/SKILL.md`. -/
def sampleStableId : Str := "30aa148927d3e626813f670921347d3b37833789bf8a90d7bc766a46ea39528b"

def sampleSkillId : Uuid :=
  [200, 143, 219, 149, 254, 35, 67, 119, 139, 55, 195, 233, 10, 239, 122, 79]

def sampleDigest : Blake3 := fun bytes =>
  if bytes = Str.utf8 ("skill:" ++ sampleStableId) then
    [200, 143, 219, 149, 254, 35, 131, 119, 75, 55, 195, 233, 10, 239, 122, 79,
      147, 74, 48, 120, 62, 104, 252, 204, 235, 225, 244, 150, 210, 26, 70, 76]
  else []

def sampleMutation : LiveGraphSnapshotMutation where
  rebuiltAt := 1
  skills := [⟨sampleStableId, "Tips", "No description provided", .project, [], ["/repo/a/SKILL.md"], []⟩]
  communities := []

/-- The database of a first start. -/
def freshDatabase : Database where
  skills := .empty
  subunits := .empty
  skillSubunits := .empty
  communities := .empty
  communitySkills := .empty
  skillUsage := .empty
  graphState := some ⟨0, none⟩
  referenced := ⟨fun _ member => absurd member List.not_mem_nil,
    fun _ member => absurd member List.not_mem_nil, fun _ member => absurd member List.not_mem_nil⟩

end SkillLayer.Infrastructure

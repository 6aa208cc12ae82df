import Mathlib.Tactic.Tauto
import SkillLayer.Infrastructure.Database

/-! When a list of snapshot rows can be inserted, and what the tables hold afterwards. -/

namespace SkillLayer.Infrastructure

namespace SnapshotRow

@[simp] def skill? : SnapshotRow → Option SkillRow
  | .skill row => some row
  | _ => none

@[simp] def subunit? : SnapshotRow → Option SubunitRow
  | .subunit row => some row
  | _ => none

@[simp] def skillSubunit? : SnapshotRow → Option SkillSubunitRow
  | .skillSubunit row => some row
  | _ => none

@[simp] def community? : SnapshotRow → Option CommunityRow
  | .community row => some row
  | _ => none

@[simp] def communitySkill? : SnapshotRow → Option CommunitySkillRow
  | .communitySkill row => some row
  | _ => none

/-- The checks of the row's table. -/
def Checked : SnapshotRow → Prop
  | .skill row => row.scope ∈ scopeValues ∧ row.lifecycle ∈ lifecycleValues
  | .subunit row => row.kind ∈ kindValues
  | .skillSubunit _ => True
  | .community row => row.scope ∈ scopeValues ∧ row.lifecycle ∈ lifecycleValues
  | .communitySkill row => row.source ∈ sourceValues

/-- No row of the table has the row's key. -/
def Fresh (tables : Tables) : SnapshotRow → Prop
  | .skill row => row.id ∉ tables.skills.keys
  | .subunit row => row.id ∉ tables.subunits.keys
  | .skillSubunit row => row.key ∉ tables.skillSubunits.keys
  | .community row => row.id ∉ tables.communities.keys
  | .communitySkill row => row.key ∉ tables.communitySkills.keys

/-- The rows that the row refers to are among the given keys. -/
def Known (skills subunits communities : List Uuid) : SnapshotRow → Prop
  | .skillSubunit row => row.skillId ∈ skills ∧ row.subunitId ∈ subunits
  | .communitySkill row => row.communityId ∈ communities ∧ row.skillId ∈ skills
  | _ => True

end SnapshotRow

theorem filterMap_cons_eq {Row : Type} (pick : SnapshotRow → Option Row) (row : SnapshotRow)
    (rest : List SnapshotRow) :
    (row :: rest).filterMap pick = (pick row).toList ++ rest.filterMap pick := by
  cases picked : pick row <;> simp [picked]

/-- Each row refers to the given keys or to rows before it. -/
def AllKnown (skills subunits communities : List Uuid) : List SnapshotRow → Prop
  | [] => True
  | row :: rest => row.Known skills subunits communities ∧
      AllKnown (skills ++ row.skill?.toList.map SkillRow.id)
        (subunits ++ row.subunit?.toList.map SubunitRow.id)
        (communities ++ row.community?.toList.map CommunityRow.id) rest

theorem allKnown_append (rows others : List SnapshotRow) (skills subunits communities : List Uuid) :
    AllKnown skills subunits communities (rows ++ others) ↔
      AllKnown skills subunits communities rows ∧
        AllKnown (skills ++ (rows.filterMap SnapshotRow.skill?).map SkillRow.id)
          (subunits ++ (rows.filterMap SnapshotRow.subunit?).map SubunitRow.id)
          (communities ++ (rows.filterMap SnapshotRow.community?).map CommunityRow.id) others := by
  induction rows generalizing skills subunits communities with
  | nil => simp [AllKnown]
  | cons row rest ih =>
    rw [List.cons_append, AllKnown, AllKnown, ih, and_assoc, filterMap_cons_eq, filterMap_cons_eq,
      filterMap_cons_eq]
    simp only [List.map_append, List.append_assoc]

/-- The tables have grown by the given rows, in their order. -/
structure Grows (before : Tables) (rows : List SnapshotRow) (after : Tables) : Prop where
  skills : after.skills.rows = before.skills.rows ++ rows.filterMap SnapshotRow.skill?
  subunits : after.subunits.rows = before.subunits.rows ++ rows.filterMap SnapshotRow.subunit?
  skillSubunits : after.skillSubunits.rows =
    before.skillSubunits.rows ++ rows.filterMap SnapshotRow.skillSubunit?
  communities : after.communities.rows =
    before.communities.rows ++ rows.filterMap SnapshotRow.community?
  communitySkills : after.communitySkills.rows =
    before.communitySkills.rows ++ rows.filterMap SnapshotRow.communitySkill?
  skillUsage : after.skillUsage = before.skillUsage
  graphState : after.graphState = before.graphState

theorem Grows.refl (tables : Tables) : Grows tables [] tables := by
  constructor <;> simp

theorem Grows.trans {before between after : Tables} {rows others : List SnapshotRow}
    (first : Grows before rows between) (second : Grows between others after) :
    Grows before (rows ++ others) after where
  skills := by rw [second.skills, first.skills, List.append_assoc, List.filterMap_append]
  subunits := by rw [second.subunits, first.subunits, List.append_assoc, List.filterMap_append]
  skillSubunits := by
    rw [second.skillSubunits, first.skillSubunits, List.append_assoc, List.filterMap_append]
  communities := by
    rw [second.communities, first.communities, List.append_assoc, List.filterMap_append]
  communitySkills := by
    rw [second.communitySkills, first.communitySkills, List.append_assoc, List.filterMap_append]
  skillUsage := second.skillUsage.trans first.skillUsage
  graphState := second.graphState.trans first.graphState

/-- An insertion adds exactly its row. -/
theorem Database.insert_grows {row : SnapshotRow} {db after : Database}
    (inserted : db.insert row = .ok after) : Grows db.toTables [row] after.toTables := by
  cases row with
  | skill row =>
    change db.insertSkill row = .ok after at inserted
    unfold Database.insertSkill at inserted
    split at inserted
    · cases inserted
    · split at inserted
      · cases inserted
        constructor <;> simp
      · cases inserted
  | subunit row =>
    change db.insertSubunit row = .ok after at inserted
    unfold Database.insertSubunit at inserted
    split at inserted
    · cases inserted
    · split at inserted
      · cases inserted
        constructor <;> simp
      · cases inserted
  | skillSubunit row =>
    change db.insertSkillSubunit row = .ok after at inserted
    unfold Database.insertSkillSubunit at inserted
    split at inserted
    · split at inserted
      · cases inserted
        constructor <;> simp
      · cases inserted
    · cases inserted
  | community row =>
    change db.insertCommunity row = .ok after at inserted
    unfold Database.insertCommunity at inserted
    split at inserted
    · cases inserted
    · split at inserted
      · cases inserted
        constructor <;> simp
      · cases inserted
  | communitySkill row =>
    change db.insertCommunitySkill row = .ok after at inserted
    unfold Database.insertCommunitySkill at inserted
    split at inserted
    · cases inserted
    · split at inserted
      · split at inserted
        · cases inserted
          constructor <;> simp
        · cases inserted
      · cases inserted

/-- A row is accepted exactly when it passes its checks, its key is fresh and the rows
it refers to exist. -/
theorem Database.insert_accepts (row : SnapshotRow) (db : Database) :
    (∃ after, db.insert row = .ok after) ↔ row.Checked ∧ row.Fresh db.toTables ∧
      row.Known db.skills.keys db.subunits.keys db.communities.keys := by
  cases row with
  | skill row =>
    change (∃ after, db.insertSkill row = .ok after) ↔
      (row.scope ∈ scopeValues ∧ row.lifecycle ∈ lifecycleValues) ∧ row.id ∉ db.skills.keys ∧ True
    unfold Database.insertSkill
    by_cases checked : row.scope ∉ scopeValues ∨ row.lifecycle ∉ lifecycleValues
    · simp only [if_pos checked, reduceCtorEq, exists_false, false_iff]
      tauto
    · by_cases fresh : row.id ∉ db.skills.keys
      · simp only [if_neg checked, dif_pos fresh, Except.ok.injEq, exists_eq', true_iff]
        tauto
      · simp only [if_neg checked, dif_neg fresh, reduceCtorEq, exists_false, false_iff]
        tauto
  | subunit row =>
    change (∃ after, db.insertSubunit row = .ok after) ↔
      row.kind ∈ kindValues ∧ row.id ∉ db.subunits.keys ∧ True
    unfold Database.insertSubunit
    by_cases checked : row.kind ∉ kindValues
    · simp only [if_pos checked, reduceCtorEq, exists_false, false_iff]
      tauto
    · by_cases fresh : row.id ∉ db.subunits.keys
      · simp only [if_neg checked, dif_pos fresh, Except.ok.injEq, exists_eq', true_iff]
        tauto
      · simp only [if_neg checked, dif_neg fresh, reduceCtorEq, exists_false, false_iff]
        tauto
  | skillSubunit row =>
    change (∃ after, db.insertSkillSubunit row = .ok after) ↔ True ∧
      row.key ∉ db.skillSubunits.keys ∧ row.skillId ∈ db.skills.keys ∧ row.subunitId ∈ db.subunits.keys
    unfold Database.insertSkillSubunit
    by_cases fresh : row.key ∉ db.skillSubunits.keys
    · by_cases known : row.skillId ∈ db.skills.keys ∧ row.subunitId ∈ db.subunits.keys
      · simp only [dif_pos fresh, dif_pos known, Except.ok.injEq, exists_eq', true_iff]
        tauto
      · simp only [dif_pos fresh, dif_neg known, reduceCtorEq, exists_false, false_iff]
        tauto
    · simp only [dif_neg fresh, reduceCtorEq, exists_false, false_iff]
      tauto
  | community row =>
    change (∃ after, db.insertCommunity row = .ok after) ↔
      (row.scope ∈ scopeValues ∧ row.lifecycle ∈ lifecycleValues) ∧
        row.id ∉ db.communities.keys ∧ True
    unfold Database.insertCommunity
    by_cases checked : row.scope ∉ scopeValues ∨ row.lifecycle ∉ lifecycleValues
    · simp only [if_pos checked, reduceCtorEq, exists_false, false_iff]
      tauto
    · by_cases fresh : row.id ∉ db.communities.keys
      · simp only [if_neg checked, dif_pos fresh, Except.ok.injEq, exists_eq', true_iff]
        tauto
      · simp only [if_neg checked, dif_neg fresh, reduceCtorEq, exists_false, false_iff]
        tauto
  | communitySkill row =>
    change (∃ after, db.insertCommunitySkill row = .ok after) ↔
      row.source ∈ sourceValues ∧ row.key ∉ db.communitySkills.keys ∧
        row.communityId ∈ db.communities.keys ∧ row.skillId ∈ db.skills.keys
    unfold Database.insertCommunitySkill
    by_cases checked : row.source ∉ sourceValues
    · simp only [if_pos checked, reduceCtorEq, exists_false, false_iff]
      tauto
    · by_cases fresh : row.key ∉ db.communitySkills.keys
      · by_cases known : row.communityId ∈ db.communities.keys ∧ row.skillId ∈ db.skills.keys
        · simp only [if_neg checked, dif_pos fresh, dif_pos known, Except.ok.injEq, exists_eq', true_iff]
          tauto
        · simp only [if_neg checked, dif_pos fresh, dif_neg known, reduceCtorEq, exists_false, false_iff]
          tauto
      · simp only [if_neg checked, dif_neg fresh, reduceCtorEq, exists_false, false_iff]
        tauto

/-- What the rows need to be inserted one after the other. -/
structure Insertable (refused : Refused) (tables : Tables) (rows : List SnapshotRow) : Prop where
  allowed : ∀ row ∈ rows, row.Checked ∧ refused (.insert row) = none
  skills : (tables.skills.keys ++ (rows.filterMap SnapshotRow.skill?).map SkillRow.id).Nodup
  subunits : (tables.subunits.keys ++ (rows.filterMap SnapshotRow.subunit?).map SubunitRow.id).Nodup
  skillSubunits : (tables.skillSubunits.keys ++
    (rows.filterMap SnapshotRow.skillSubunit?).map SkillSubunitRow.key).Nodup
  communities : (tables.communities.keys ++
    (rows.filterMap SnapshotRow.community?).map CommunityRow.id).Nodup
  communitySkills : (tables.communitySkills.keys ++
    (rows.filterMap SnapshotRow.communitySkill?).map CommunitySkillRow.key).Nodup
  known : AllKnown tables.skills.keys tables.subunits.keys tables.communities.keys rows

/-- Growing by one row moves its key from the rows to come to the table. -/
theorem keys_grown {Row Key : Type} {key : Row → Key} {before after : Keyed Row key}
    (pick : SnapshotRow → Option Row) (row : SnapshotRow) (rest : List SnapshotRow)
    (grown : after.rows = before.rows ++ [row].filterMap pick) :
    after.keys ++ (rest.filterMap pick).map key =
      before.keys ++ ((row :: rest).filterMap pick).map key := by
  rw [filterMap_cons_eq pick row rest, Keyed.keys, Keyed.keys, grown, filterMap_cons_eq]
  simp

theorem keys_grown_one {Row Key : Type} {key : Row → Key} {before after : Keyed Row key}
    (pick : SnapshotRow → Option Row) (row : SnapshotRow)
    (grown : after.rows = before.rows ++ [row].filterMap pick) :
    after.keys = before.keys ++ (pick row).toList.map key := by
  rw [Keyed.keys, Keyed.keys, grown, filterMap_cons_eq]
  simp

theorem Insertable.fresh {refused : Refused} {tables : Tables} {row : SnapshotRow}
    {rest : List SnapshotRow} (insertable : Insertable refused tables (row :: rest)) :
    row.Fresh tables := by
  cases row with
  | skill row => exact fun taken => Keyed.not_nodup_append_cons taken _ insertable.skills
  | subunit row => exact fun taken => Keyed.not_nodup_append_cons taken _ insertable.subunits
  | skillSubunit row => exact fun taken => Keyed.not_nodup_append_cons taken _ insertable.skillSubunits
  | community row => exact fun taken => Keyed.not_nodup_append_cons taken _ insertable.communities
  | communitySkill row =>
    exact fun taken => Keyed.not_nodup_append_cons taken _ insertable.communitySkills

/-- The first row can be inserted with the others behind it exactly when the others can be
inserted into the tables that have grown by it. -/
theorem insertable_cons_iff {refused : Refused} {before after : Tables} {row : SnapshotRow}
    {rest : List SnapshotRow} (grown : Grows before [row] after) :
    Insertable refused before (row :: rest) ↔
      (row.Checked ∧ refused (.insert row) = none) ∧
        row.Known before.skills.keys before.subunits.keys before.communities.keys ∧
        Insertable refused after rest := by
  have known : AllKnown after.skills.keys after.subunits.keys after.communities.keys rest ↔
      AllKnown (before.skills.keys ++ row.skill?.toList.map SkillRow.id)
        (before.subunits.keys ++ row.subunit?.toList.map SubunitRow.id)
        (before.communities.keys ++ row.community?.toList.map CommunityRow.id) rest := by
    rw [keys_grown_one _ _ grown.skills, keys_grown_one _ _ grown.subunits,
      keys_grown_one _ _ grown.communities]
  constructor
  · intro insertable
    obtain ⟨first, others⟩ := insertable.known
    refine ⟨insertable.allowed row List.mem_cons_self, first, ?_⟩
    exact
      { allowed := fun other member => insertable.allowed other (List.mem_cons_of_mem _ member)
        skills := keys_grown _ row rest grown.skills ▸ insertable.skills
        subunits := keys_grown _ row rest grown.subunits ▸ insertable.subunits
        skillSubunits := keys_grown _ row rest grown.skillSubunits ▸ insertable.skillSubunits
        communities := keys_grown _ row rest grown.communities ▸ insertable.communities
        communitySkills := keys_grown _ row rest grown.communitySkills ▸ insertable.communitySkills
        known := known.mpr others }
  · rintro ⟨allowed, first, insertable⟩
    exact
      { allowed := List.forall_mem_cons.mpr ⟨allowed, insertable.allowed⟩
        skills := keys_grown _ row rest grown.skills ▸ insertable.skills
        subunits := keys_grown _ row rest grown.subunits ▸ insertable.subunits
        skillSubunits := keys_grown _ row rest grown.skillSubunits ▸ insertable.skillSubunits
        communities := keys_grown _ row rest grown.communities ▸ insertable.communities
        communitySkills := keys_grown _ row rest grown.communitySkills ▸ insertable.communitySkills
        known := ⟨first, known.mp insertable.known⟩ }

theorem succeeds_execute {refused : Refused} {statement : Statement} {before after : Database} :
    Succeeds (execute refused statement) before after ↔
      refused statement = none ∧ effect statement before = .ok after := by
  unfold Succeeds execute Session.guarded Session.write
  cases refused statement with
  | some error => simp
  | none => cases effect statement before <;> simp

/-- Inserting rows one after the other grows the tables by them. -/
theorem insertAll_grows {refused : Refused} {rows : List SnapshotRow} {before after : Database}
    (ran : Succeeds (forEach (fun row => execute refused (.insert row)) rows) before after) :
    Grows before.toTables rows after.toTables := by
  induction rows generalizing before with
  | nil => exact succeeds_forEach_nil.mp ran ▸ Grows.refl _
  | cons row rest ih =>
    obtain ⟨between, first, later⟩ := succeeds_forEach_cons.mp ran
    exact (Database.insert_grows (succeeds_execute.mp first).2).trans (ih later)

/-- Rows are inserted to the end exactly when they are insertable. -/
theorem insertAll_succeeds_iff {refused : Refused} {rows : List SnapshotRow} {before : Database} :
    (∃ after, Succeeds (forEach (fun row => execute refused (.insert row)) rows) before after) ↔
      Insertable refused before.toTables rows := by
  induction rows generalizing before with
  | nil =>
    refine iff_of_true ⟨before, succeeds_forEach_nil.mpr rfl⟩ ?_
    exact
      { allowed := fun _ member => absurd member List.not_mem_nil
        skills := by simpa [Keyed.keys] using before.skills.distinct
        subunits := by simpa [Keyed.keys] using before.subunits.distinct
        skillSubunits := by simpa [Keyed.keys] using before.skillSubunits.distinct
        communities := by simpa [Keyed.keys] using before.communities.distinct
        communitySkills := by simpa [Keyed.keys] using before.communitySkills.distinct
        known := trivial }
  | cons row rest ih =>
    constructor
    · rintro ⟨after, ran⟩
      obtain ⟨between, first, later⟩ := succeeds_forEach_cons.mp ran
      obtain ⟨permitted, inserted⟩ := succeeds_execute.mp first
      obtain ⟨checked, -, known⟩ := (Database.insert_accepts row before).mp ⟨between, inserted⟩
      exact (insertable_cons_iff (Database.insert_grows inserted)).mpr
        ⟨⟨checked, permitted⟩, known, ih.mp ⟨after, later⟩⟩
    · intro insertable
      obtain ⟨checked, permitted⟩ := insertable.allowed row List.mem_cons_self
      obtain ⟨between, inserted⟩ := (Database.insert_accepts row before).mpr
        ⟨checked, insertable.fresh, insertable.known.1⟩
      obtain ⟨-, -, others⟩ := (insertable_cons_iff (Database.insert_grows inserted)).mp insertable
      obtain ⟨after, later⟩ := ih.mpr others
      exact ⟨after, succeeds_forEach_cons.mpr
        ⟨between, succeeds_execute.mpr ⟨permitted, inserted⟩, later⟩⟩

end SkillLayer.Infrastructure

import SkillLayer.Infrastructure.Rebuild

/-! The usage signal of skills, and what a replaced snapshot leaves of it. -/

namespace SkillLayer.Infrastructure

structure SkillUsageSummary where
  skillId : Str
  totalCount : Nat
  windowedCount : Nat
  lastUsedAt : Option Timestamp
  ageDays : Option Nat
deriving DecidableEq

inductive UsagePersistenceError where
  | invalidContract (message : Str)
deriving DecidableEq

/-- The text form of ids, and the calendar of the database session: the instant a
number of days before another. -/
structure UsageServices where
  parseUuid : Str → Option Uuid
  uuidText : Uuid → Str
  daysBefore : Timestamp → Int → Timestamp

variable (services : UsageServices)

/-- A count read as `i64` and cast to `u32`. -/
def asU32 (n : Nat) : Nat := n % 2 ^ 32

def usageRows (db : Database) (skillId : Uuid) : List SkillUsageRow :=
  db.skillUsage.rows.filter fun row => row.skillId = some skillId

/-- `unnest($1) LEFT JOIN skill_usage`. -/
def joinUsage (db : Database) (skillIds : List Uuid) : List (Uuid × Option SkillUsageRow) :=
  skillIds.flatMap fun skillId =>
    match usageRows db skillId with
    | [] => [(skillId, none)]
    | rows => rows.map fun row => (skillId, some row)

/-- The usage rows in the group of an id. -/
def usageGroup (joined : List (Uuid × Option SkillUsageRow)) (skillId : Uuid) : List SkillUsageRow :=
  joined.filterMap fun entry => if entry.1 = skillId then entry.2 else none

def withinWindow (now : Timestamp) (windowDays : Int) (rows : List SkillUsageRow) :
    List SkillUsageRow :=
  rows.filter fun row => services.daysBefore now windowDays ≤ row.usedAt

def lastUse (rows : List SkillUsageRow) : Option Timestamp :=
  rows.foldl (fun latest row =>
    match latest with
    | none => some row.usedAt
    | some instant => some (if instant < row.usedAt then row.usedAt else instant)) none

def microsPerDay : Int := 86400 * 1000000

def summarizeUsage (now : Timestamp) (windowDays : Int) (skillId : Uuid)
    (rows : List SkillUsageRow) : SkillUsageSummary where
  skillId := services.uuidText skillId
  totalCount := asU32 rows.length
  windowedCount := asU32 (withinWindow services now windowDays rows).length
  lastUsedAt := lastUse rows
  ageDays := (lastUse rows).map fun instant =>
    let days := ((now - instant) / microsPerDay).toNat
    if days < 2 ^ 32 then days else 2 ^ 32 - 1

def recentUsage (now : Timestamp) (db : Database) (skillIds : List Str) (windowDays : Int) :
    Except UsagePersistenceError (List SkillUsageSummary) :=
  if skillIds.isEmpty then .ok []
  else
    match skillIds.mapM services.parseUuid with
    | none => .error (.invalidContract "one or more skill_ids are not valid UUIDs")
    | some uuids =>
      .ok (uuids.eraseDups.map fun skillId =>
        summarizeUsage services now windowDays skillId (usageGroup (joinUsage db uuids) skillId))

/-- The total and windowed counts read for one skill. -/
def usageCounts (now : Timestamp) (db : Database) (windowDays : Int) (skillId : Uuid) :
    Except UsagePersistenceError (List (Nat × Nat)) :=
  (recentUsage services now db [services.uuidText skillId] windowDays).map fun summaries =>
    summaries.map fun summary => (summary.totalCount, summary.windowedCount)

theorem usageGroup_join_one (db : Database) (skillId : Uuid) :
    usageGroup (joinUsage db [skillId]) skillId = usageRows db skillId := by
  unfold joinUsage usageGroup
  rw [List.flatMap_singleton]
  split
  · rename_i empty
    simp [empty]
  · simp [List.filterMap_map]

theorem usageCounts_eq {skillId : Uuid}
    (parses : services.parseUuid (services.uuidText skillId) = some skillId) (now : Timestamp)
    (db : Database) (windowDays : Int) :
    usageCounts services now db windowDays skillId =
      .ok [(asU32 (usageRows db skillId).length,
        asU32 (withinWindow services now windowDays (usageRows db skillId)).length)] := by
  simp [usageCounts, recentUsage, parses, summarizeUsage, usageGroup_join_one, Except.map,
    List.eraseDups_cons]

/-- Every skill present on both sides is read with the same counts. -/
def UsageSurvives (before after : Database) : Prop :=
  ∀ skillId ∈ before.skills.keys, skillId ∈ after.skills.keys → ∀ now windowDays,
    usageCounts services now before windowDays skillId =
      usageCounts services now after windowDays skillId

/-- The rows of the skill are invisible in the casts of their counts. -/
def Uncounted (db : Database) (skillId : Uuid) : Prop :=
  ∀ now windowDays, 2 ^ 32 ∣ (usageRows db skillId).length ∧
    2 ^ 32 ∣ (withinWindow services now windowDays (usageRows db skillId)).length

variable (blake3 : Blake3)

/-- After a stored snapshot no usage row names a skill. -/
theorem usageRows_replaced {mutation : LiveGraphSnapshotMutation} {db after : Database}
    {version : Int} (replaced : Replaced blake3 mutation db.toTables version after.toTables)
    (skillId : Uuid) : usageRows after skillId = [] := by
  rw [usageRows, replaced.skillUsage, List.filter_eq_nil_iff]
  rintro row member named
  obtain ⟨original, inRows, rfl⟩ := List.mem_map.mp member
  obtain ⟨known, outside⟩ := Option.filter_eq_some_iff.mp (of_decide_eq_true named)
  exact of_decide_eq_true outside (db.referenced.skillUsage original inRows skillId known)

theorem keys_replaced {mutation : LiveGraphSnapshotMutation} {db after : Database}
    {version : Int} (replaced : Replaced blake3 mutation db.toTables version after.toTables) :
    after.skills.keys = mutation.skills.map fun skill => stableSkillUuid blake3 skill.stableId := by
  rw [Keyed.keys, replaced.skills, List.map_map]
  rfl

/-- Usage survives a replacement exactly when the replacement is refused or the skills it
keeps have no usage that is read. -/
theorem usageSurvives_iff {refused : Refused} {mutation : LiveGraphSnapshotMutation} {db : Database}
    (parses : ∀ skillId ∈ db.skills.keys,
      services.parseUuid (services.uuidText skillId) = some skillId) :
    UsageSurvives services db (replaceSnapshotAndBumpVersion blake3 refused mutation db).2 ↔
      ¬ Storable blake3 refused mutation db ∨
        ∀ skill ∈ mutation.skills, stableSkillUuid blake3 skill.stableId ∈ db.skills.keys →
          Uncounted services db (stableSkillUuid blake3 skill.stableId) := by
  rcases replaceSnapshotAndBumpVersion_spec blake3 refused mutation db with
    ⟨storable, version, after, ran, replaced⟩ | ⟨unstorable, error, ran⟩
  · rw [ran, or_iff_right (not_not_intro storable)]
    have one (skillId : Uuid) (known : skillId ∈ db.skills.keys) :
        (∀ now windowDays, usageCounts services now db windowDays skillId =
          usageCounts services now after windowDays skillId) ↔ Uncounted services db skillId := by
      refine forall₂_congr fun now windowDays => ?_
      rw [usageCounts_eq services (parses skillId known), usageCounts_eq services (parses skillId known),
        usageRows_replaced blake3 replaced]
      simp [asU32, withinWindow, Nat.dvd_iff_mod_eq_zero]
    unfold UsageSurvives
    rw [keys_replaced blake3 replaced]
    constructor
    · intro survives skill inSkills kept
      exact (one _ kept).mp (survives _ kept (List.mem_map_of_mem inSkills))
    · intro uncounted skillId kept inAfter
      obtain ⟨skill, inSkills, rfl⟩ := List.mem_map.mp inAfter
      exact (one _ kept).mpr (uncounted skill inSkills kept)
  · rw [ran]
    exact iff_of_true (fun _ _ _ _ _ => rfl) (.inl unstorable)

/-! ### One skill with one use -/

def sampleUsageServices : UsageServices where
  parseUuid raw :=
    if raw = ("c88fdb95-fe23-4377-8b37-c3e90aef7a4f" : Str) then some sampleSkillId else none
  uuidText skillId := if skillId = sampleSkillId then "c88fdb95-fe23-4377-8b37-c3e90aef7a4f" else []
  daysBefore now days := now - days * microsPerDay

/-- The database after a first rebuild with one recorded use. -/
def usedDatabase (skillId : Option Uuid) (known : skillId = none ∨ skillId = some sampleSkillId) :
    Database where
  skills := ⟨[⟨sampleSkillId, "Tips", "No description provided", "project", "active", [],
    ["/repo/a/SKILL.md"], 1⟩], List.nodup_singleton _⟩
  subunits := .empty
  skillSubunits := .empty
  communities := .empty
  communitySkills := .empty
  skillUsage := ⟨[⟨[1], "s1", skillId, "ok", 0⟩], List.nodup_singleton _⟩
  graphState := some ⟨1, none⟩
  referenced :=
    { skillSubunits := fun _ member => absurd member List.not_mem_nil
      communitySkills := fun _ member => absurd member List.not_mem_nil
      skillUsage := by
        intro row member found same
        obtain rfl := List.mem_singleton.mp member
        rcases known with rfl | rfl
        · cases same
        · obtain rfl := Option.some.inj same
          exact List.mem_singleton_self _ }

/-- A use that an earlier rebuild has detached is counted neither before nor after. -/
theorem detachedUse_survives :
    UsageSurvives sampleUsageServices (usedDatabase none (.inl rfl))
      (replaceSnapshotAndBumpVersion sampleDigest (fun _ => none) sampleMutation
        (usedDatabase none (.inl rfl))).2 := by
  refine (usageSurvives_iff sampleUsageServices sampleDigest ?_).mpr (.inr ?_)
  · intro skillId member
    obtain rfl := List.mem_singleton.mp member
    decide +kernel
  · intro skill _ _ now windowDays
    have none : usageRows (usedDatabase none (.inl rfl)) (stableSkillUuid sampleDigest skill.stableId) =
        [] := rfl
    simp [none, withinWindow]

/-- A rebuild with unchanged files resets the usage of its skill. -/
theorem recordedUse_lost :
    ¬ UsageSurvives sampleUsageServices (usedDatabase (some sampleSkillId) (.inr rfl))
      (replaceSnapshotAndBumpVersion sampleDigest (fun _ => none) sampleMutation
        (usedDatabase (some sampleSkillId) (.inr rfl))).2 := by
  intro survives
  have same := survives sampleSkillId (by decide +kernel) (by decide +kernel) 0 90
  revert same
  decide +kernel

end SkillLayer.Infrastructure

import SkillLayer.GraphBuilder.Communities
import SkillLayer.GraphBuilder.SkillIds
import SkillLayer.Infrastructure.OutboxDrain

/-! A rebuild: the skills are built and clustered, the snapshot is replaced, an event for
every vector is appended, and the outbox of the process is drained. -/

namespace SkillLayer.GraphBuilder

open Domain Infrastructure

variable {F : Type}

structure DurableGraphMutation (F : Type) where
  rebuiltAt : Infrastructure.Timestamp
  skills : List (BuiltSkill F)
  communities : List CommunityAssignment

structure GraphRebuildOutcome where
  graphVersion : Int
  skillsCount : Nat
  communitiesCount : Nat
deriving DecidableEq

inductive GraphRebuildError where
  | build (error : GraphBuildError)
  | durableWrite (message : Str)
deriving DecidableEq

/-- What stays the same from rebuild to rebuild: the form of vectors and digests, and the text
of a database error. -/
structure RebuildServices (F : Type) where
  format : VectorFormat F
  blake3 : Blake3
  databaseErrorText : DbError → Str

/-- The durable graph state of a process: the database with the graph, and the outbox beside
the vector store. -/
structure BuilderWorld (F : Type) where
  database : Database
  store : OutboxWorld F

/-- What one rebuild starts from: its services, the files it reads, how its calls are answered,
and how many passes its drain may take. -/
structure RebuildInput (F : Type) where
  build : BuildServices F
  communities : CommunityServices F
  config : HdbscanConfig
  scopeRoots : List ScopeRoot
  tree : FileTree
  rebuiltAt : Infrastructure.Timestamp
  refused : Refused
  bumpRefused : Refused
  answers : DrainWeather
  passes : Nat

/-! ### The mutation -/

def liveSkill (skill : BuiltSkill F) : LiveGraphSkillRecord where
  stableId := skill.id
  name := skill.name
  description := skill.description
  scope := skill.scopeType
  tags := skill.tags
  sourcePaths := [skill.sourcePath.display]
  subunits := skill.subunits.map fun subunit => ⟨subunit.kind, subunit.title, subunit.content⟩

def liveCommunity (community : CommunityAssignment) : LiveGraphCommunityRecord where
  stableId := community.communityName
  name := community.communityName
  scope := community.scope
  memberSkillIds := community.skillIds
  source := community.source.asDbStr

def DurableGraphMutation.live (mutation : DurableGraphMutation F) : LiveGraphSnapshotMutation where
  rebuiltAt := mutation.rebuiltAt
  skills := mutation.skills.map liveSkill
  communities := mutation.communities.map liveCommunity

def vectorPayload (format : VectorFormat F) (skill : BuiltSkill F) : Value :=
  .object [
    ("content_hash", .string skill.id),
    ("vector", .array (skill.embedding.map format.toJson)),
    ("payload", .object [
      ("skill_id", .string skill.id),
      ("name", .string skill.name),
      ("scope", .string skill.scopeType.debug),
      ("tags", .array (skill.tags.map .string))])]

def vectorKey (skillId : Str) : Str := "graph.rebuild:vector:" ++ skillId

def vectorEvent (format : VectorFormat F) (correlationId eventId : Uuid) (timestamp : Infrastructure.Timestamp)
    (skill : BuiltSkill F) : OutboxEvent where
  eventId := eventId
  eventType := vectorUpsertEventType
  correlationId := correlationId
  idempotencyKey := vectorKey skill.id
  schemaVersion := 1
  timestamp := timestamp
  payload := vectorPayload format skill

/-- The event of one skill is appended unless its key exists. -/
def appendVector (format : VectorFormat F) (correlationId : Uuid) (skill : BuiltSkill F) :
    OutboxProgram F GraphRebuildError Unit := do
  let eventId ← Program.ask .newEventId
  let timestamp ← Program.ask .utcNow
  let _ ← (appendOutboxEventIdempotent
    (vectorEvent format correlationId (eventId : Uuid) (timestamp : Infrastructure.Timestamp) skill)).mapError fun error =>
      .durableWrite ("outbox append for ".toList ++ skill.id ++ ": " ++ error.display)
  return ()

def appendVectors (format : VectorFormat F) (correlationId : Uuid) :
    List (BuiltSkill F) → OutboxProgram F GraphRebuildError Unit
  | [] => return ()
  | skill :: rest => do
    appendVector format correlationId skill
    appendVectors format correlationId rest

/-! ### The durable state -/

variable (services : RebuildServices F) (correlationId : Uuid)

def rebuildErrorText (error : DbError) : Str :=
  "rebuild persistence error: " ++ services.databaseErrorText error

/-- The snapshot is replaced in a transaction of its own; then the events are appended. -/
def persistGraphMutation (input : RebuildInput F) (mutation : DurableGraphMutation F)
    (world : BuilderWorld F) : Finished GraphRebuildError Unit (BuilderWorld F) :=
  match replaceSnapshotAndBumpVersion services.blake3 input.refused mutation.live world.database with
  | (.error error, database) =>
    ⟨.error (.durableWrite (rebuildErrorText services error)), 0, { world with database }⟩
  | (.ok _, database) =>
    let appended := (appendVectors services.format correlationId mutation.skills).run
      (serveDrain input.answers) 0 world.store
    ⟨appended.outcome, appended.calls, ⟨database, appended.world⟩⟩

def relayError (error : OutboxRelayError) : GraphRebuildError := .durableWrite error.display

/-- How the drain ends, when it does within the given passes. -/
def markOutboxDrained (answers : DrainWeather) (passes calls : Nat) (store : OutboxWorld F) :
    Option (Finished GraphRebuildError Unit (OutboxWorld F)) :=
  match OutboxRelay.new 10 0 with
  | .error error => some ⟨.error (relayError error), calls, store⟩
  | .ok relay =>
    (Program.runLoop (serveDrain answers)
      (relay.drainPass services.format services.blake3 correlationId) passes calls store).map fun drained =>
        ⟨drained.outcome.mapError relayError, drained.calls, drained.world⟩

/-- The drain and the second bump, after a mutation was persisted. -/
def finishRebuild (input : RebuildInput F) (calls : Nat) (mutation : DurableGraphMutation F)
    (world : BuilderWorld F) : Option (Except GraphRebuildError GraphRebuildOutcome × BuilderWorld F) :=
  (markOutboxDrained services correlationId input.answers input.passes calls world.store).map fun drained =>
    match drained.outcome with
    | .error error => (.error error, { world with store := drained.world })
    | .ok () =>
      match bumpGraphVersion input.bumpRefused world.database with
      | (.error error, database) =>
        (.error (.durableWrite (rebuildErrorText services error)), ⟨database, drained.world⟩)
      | (.ok graphVersion, database) =>
        (.ok ⟨graphVersion, mutation.skills.length, mutation.communities.length⟩, ⟨database, drained.world⟩)

/-- What a rebuild is about to persist. -/
def buildMutation (input : RebuildInput F) : Except GraphRebuildError (DurableGraphMutation F) := do
  let skills ← (buildSkillsFromScopeRoots input.build input.scopeRoots input.tree).mapError .build
  let communities ← (assignCommunities input.communities skills input.config).mapError .durableWrite
  return ⟨input.rebuiltAt, skills, communities⟩

/-- One rebuild of a process with its correlation id. -/
def rebuildFromChanges (input : RebuildInput F) (world : BuilderWorld F) :
    Option (Except GraphRebuildError GraphRebuildOutcome × BuilderWorld F) :=
  match buildMutation input with
  | .error error => some (.error error, world)
  | .ok mutation =>
    match persistGraphMutation services correlationId input mutation world with
    | ⟨.error error, _, persisted⟩ => some (.error error, persisted)
    | ⟨.ok (), calls, persisted⟩ => finishRebuild services correlationId input calls mutation persisted

/-! ### Appending -/

section Append

variable {services correlationId} {format : VectorFormat F} {answers : DrainWeather} {calls : Nat}
  {world : OutboxWorld F}

/-- The second table holds the rows of the first one, and others behind them. -/
def Extends (before after : Outbox) : Prop := before.rows <+: after.rows

/-- The calls of an append. -/
def Appends : OutboxCall F → Prop
  | .newEventId => True
  | .utcNow => True
  | .insertIfNew _ => True
  | _ => False

theorem appends_appendVectors (skills : List (BuiltSkill F)) :
    (appendVectors format correlationId skills).Calls Appends := by
  induction skills with
  | nil => trivial
  | cons skill rest ih =>
    refine Program.Calls.bind ?_ fun _ => ih
    refine Program.Calls.bind (.ask trivial) fun eventId => Program.Calls.bind (.ask trivial) fun timestamp => ?_
    refine Program.Calls.bind (Program.Calls.mapError ?_) fun _ => trivial
    apply Program.calls_ofExcept.bind
    intro valid
    refine Program.Calls.bind (.ask trivial) fun answer => ?_
    exact Program.calls_ofExcept.bind fun _ => trivial

theorem appends_extends {before : Outbox} (request : OutboxCall F) (appends : Appends request)
    (extended : Extends before world.outbox) :
    Extends before (serveDrain answers calls request world).2.outbox := by
  cases request with
  | newEventId => exact extended
  | utcNow => exact extended
  | insertIfNew event =>
    simp only [serveDrain, serveOutbox, Weather.sql]
    cases (answers.weather calls).refused with
    | some message => exact extended
    | none =>
      cases inserted : world.outbox.insertIfNew (answers.weather calls).now event with
      | error error => exact extended
      | ok result =>
        obtain ⟨rowsAffected, after⟩ := result
        obtain ⟨_, ⟨_, rfl, _⟩ | ⟨_, fresh, freshKey, rfl⟩⟩ := Outbox.insertIfNew_eq_ok.mp inserted
        · exact extended
        · exact extended.trans (List.prefix_append _ _)
  | _ => cases appends

/-- Appending adds rows behind those that are there. -/
theorem appendVectors_extends (skills : List (BuiltSkill F)) :
    Extends world.outbox ((appendVectors format correlationId skills).run (serveDrain answers) calls
      world).world.outbox :=
  (appends_appendVectors skills).run (fun (after : OutboxWorld F) => Extends world.outbox after.outbox)
    (fun _ request _ extended appends => appends_extends request appends extended) (List.prefix_refl world.outbox.rows)

end Append

/-! ### A small repository -/

/-- The stable id of the skill file `/repo/b/SKILL.md`. -/
def siblingStableId : Str := "ec0e98444da97d37e6521d527eb53e9a059d9b2357189955c1829b2531879a4e"

def smallDigest : Blake3 := fun bytes =>
  if bytes = Str.utf8 ("skill:" ++ sampleStableId) then
    [200, 143, 219, 149, 254, 35, 131, 119, 75, 55, 195, 233, 10, 239, 122, 79,
      147, 74, 48, 120, 62, 104, 252, 204, 235, 225, 244, 150, 210, 26, 70, 76]
  else if bytes = Str.utf8 ("skill:" ++ siblingStableId) then
    [55, 120, 101, 68, 220, 221, 154, 234, 238, 208, 139, 197, 206, 31, 223, 150,
      209, 182, 201, 210, 40, 30, 226, 151, 255, 140, 116, 249, 41, 235, 236, 1]
  else if bytes = Str.utf8 "community:project-unclustered" then
    [116, 206, 14, 135, 34, 115, 170, 17, 5, 80, 181, 99, 195, 164, 122, 18,
      233, 111, 111, 111, 11, 95, 115, 100, 150, 94, 152, 200, 183, 208, 48, 246]
  else if bytes = Str.utf8 "community:project-untagged" then
    [100, 195, 87, 165, 49, 41, 236, 17, 174, 104, 104, 153, 232, 13, 188, 25,
      89, 17, 83, 51, 143, 150, 246, 151, 252, 36, 164, 57, 66, 139, 104, 206]
  else if bytes = Str.utf8 sampleStableId then
    [33, 89, 122, 35, 201, 118, 162, 163, 206, 30, 65, 88, 112, 79, 63, 247,
      226, 43, 2, 102, 12, 53, 16, 153, 213, 118, 137, 95, 2, 237, 32, 2]
  else if bytes = Str.utf8 siblingStableId then
    [35, 198, 233, 243, 54, 85, 48, 225, 139, 187, 158, 3, 204, 31, 229, 174,
      211, 163, 117, 148, 91, 196, 51, 33, 97, 232, 130, 198, 31, 69, 242, 70]
  else []

def smallServices : RebuildServices Rat := ⟨rationalFormat, smallDigest, fun _ => "pool timed out"⟩

/-- A text is embedded as its length. -/
def smallBuild : BuildServices Rat where
  reader := sampleServices.reader
  hash := sampleServices.hash
  embedBatch texts := .ok (texts.map fun text => [(text.length : Rat)])

def smallCommunities : CommunityServices Rat where
  isAlphanumeric := Char.isAlphanum
  compareScores _ left right := compare left.1 right.1
  hdbscan :=
    { cluster := fun _ vectors => .ok (vectors.map fun _ => -1)
      oneLabelEach := by
        rintro _ vectors labels ⟨⟩
        exact List.length_map _ }
  termOrder := .unchanged _
  tagOrder := .unchanged _

/-- A rebuild of the files below one root. -/
def smallInput (tree : FileTree) (answers : DrainWeather) : RebuildInput Rat :=
  ⟨smallBuild, smallCommunities, ⟨3⟩, [⟨"project", .project, [[], "repo"]⟩], tree, 1,
    fun _ => none, fun _ => none, answers, 5⟩

def skillFile (text : Str) : Entry := .file ⟨.ok (Str.utf8 text), .ok text, .ok 1⟩

def oneSkillTree (text : Str) : FileTree where
  entries :=
    [([[], "repo"], .directory), ([[], "repo", "a"], .directory), ([[], "repo", "a", "SKILL.md"], skillFile text)]
  nodup := by
    change [[[], _], [[], _, _], [[], _, _, _]].Nodup
    decide +kernel

def twoSkillTree : FileTree where
  entries :=
    [([[], "repo"], .directory), ([[], "repo", "a"], .directory),
      ([[], "repo", "a", "SKILL.md"], skillFile "# Tips"), ([[], "repo", "b"], .directory),
      ([[], "repo", "b", "SKILL.md"], skillFile "# Tips")]
  nodup := by decide +kernel

def firstStart : BuilderWorld Rat := ⟨freshDatabase, freshWorld⟩

def sampleCorrelation : Uuid := List.replicate 16 7

/-- Nothing is refused, and the calls get ids one after another. -/
def numbered (first : Nat) : DrainWeather where
  weather calls := { calm with eventId := List.replicate 16 (UInt8.ofNat (first + calls)) }
  refuses _ _ := none

end SkillLayer.GraphBuilder

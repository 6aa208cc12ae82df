import Mathlib.Logic.Function.Basic
import SkillLayer.Ladder
import SkillLayer.Runs
import SkillLayer.Text

/-! Schema migrations: any number of booting processes bring one database up to date under an advisory
lock, while statements fail, processes die and sessions are lost. -/

namespace SkillLayer.Infrastructure

inductive PostgresError where
  | invalidConfiguration (message : Str)
  | connection (message : Str)
  | migration (message : Str)
deriving DecidableEq

/-- A migration under its stable id, as its file has it. -/
abbrev Migration := Str × Str

def migrationIds : List Str :=
  ["001_initial_schema", "002_transcript_ingest_queue", "003_usage_fields", "004_session_logs_status_check",
    "005_skill_source_paths", "006_community_skills_source"]

/-- `MIGRATIONS`, given the texts of the files. -/
def migrations (texts : Str → Str) : List Migration := migrationIds.map fun id => (id, texts id)

def withoutSuffix? (pattern s : Str) : Option Str :=
  if pattern.isSuffixOf s then some (s.take (s.length - pattern.length)) else none

/-- The body between `BEGIN;` and `COMMIT;`. -/
def stripBeginCommitWrapper (migrationId sql : Str) : Except PostgresError Str :=
  match Str.stripPrefix? "BEGIN;" (Str.trim sql) with
  | none => .error (.migration ("migration " ++ migrationId ++
      (" is not wrapped in BEGIN;/COMMIT; — cannot guarantee atomic apply+record (expected first token: BEGIN;)" :
        Str)))
  | some afterBegin =>
    match withoutSuffix? "COMMIT;" (Str.trimEnd afterBegin) with
    | none => .error (.migration ("migration " ++ migrationId ++
        (" is not wrapped in BEGIN;/COMMIT; — cannot guarantee atomic apply+record (expected last token: COMMIT;)" :
          Str)))
    | some inner => .ok inner

/-- The batch that `apply_and_record` sends: one implicit transaction over the body and the record of the id. -/
structure Batch where
  migrationId : Str
  innerBody : Str
deriving DecidableEq

def Batch.sql (batch : Batch) : Str :=
  batch.innerBody ++ ("\nINSERT INTO schema_migrations (id) VALUES ('" : Str) ++ batch.migrationId ++
    ("') ON CONFLICT (id) DO NOTHING;" : Str)

/-! ### A database and the calls on it -/

/-- The session lock with the call that took it, and `schema_migrations`, once created, with its rows in the order
of insertion. For the record of the run, the batches that were committed. -/
structure MigratedDatabase where
  advisoryLock : Option Nat
  schemaMigrations : Option (List Str)
  committed : List Batch

namespace MigratedDatabase

def applied (database : MigratedDatabase) : List Str := database.schemaMigrations.getD []

/-- `CREATE TABLE IF NOT EXISTS schema_migrations` -/
def bootstrap (database : MigratedDatabase) : MigratedDatabase :=
  { database with schemaMigrations := some database.applied }

/-- The batch is committed; a row that is there stays as it is. -/
def commit (database : MigratedDatabase) (batch : Batch) : MigratedDatabase :=
  { database with
    schemaMigrations := some (recordOnce database.applied batch.migrationId)
    committed := database.committed ++ [batch] }

end MigratedDatabase

/-- Where a call of `run_migrations` stands. -/
inductive MigrationPhase where
  | locking
  | bootstrapping
  | reading
  | looping (appliedIds : List Str) (rest : List Migration)
  | applying (appliedIds : List Str) (batch : Batch) (rest : List Migration)
  | unlocking (result : Except PostgresError Unit)
  | returned (result : Except PostgresError Unit)

/-- Between the lock and the end of the unlock. -/
def MigrationPhase.inside : MigrationPhase → Bool
  | .locking => false
  | .returned _ => false
  | _ => true

/-- The database, the calls, and the batches on their way to it whose sender no longer waits. -/
structure Boots where
  database : MigratedDatabase
  calls : Nat → Option MigrationPhase
  adrift : List Batch

namespace Boots

def move (boots : Boots) (call : Nat) (phase : MigrationPhase) : Boots :=
  { boots with calls := Function.update boots.calls call (some phase) }

/-- A call goes on with a database that its statement has changed. -/
def wrote (boots : Boots) (database : MigratedDatabase) (call : Nat) (phase : MigrationPhase) : Boots :=
  { boots with database := database, calls := Function.update boots.calls call (some phase) }

def gone (boots : Boots) (call : Nat) : Boots :=
  { boots with calls := Function.update boots.calls call none }

def failure (context message : String) : Except PostgresError Unit :=
  .error (.migration (context.toList ++ message.toList))

/-- The lock is free, or the session that has it works no more. -/
def Free (boots : Boots) : Prop :=
  ∀ holder, boots.database.advisoryLock = some holder → ∀ phase, boots.calls holder = some phase →
    phase.inside = false

variable (texts : Str → Str)

open scoped List in
/-- What happens as long as sessions last and a call hears of its batch. A call dies where it has none on its way. -/
inductive Step : Boots → Boots → Prop where
  | start {boots : Boots} (call : Nat) (fresh : boots.calls call = none) : Step boots (boots.move call .locking)
  | unconnected {boots : Boots} (call : Nat) (error : PostgresError) (here : boots.calls call = some .locking) :
      Step boots (boots.move call (.returned (.error error)))
  | lock {boots : Boots} (call : Nat) (here : boots.calls call = some .locking) (free : boots.Free) :
      Step boots (boots.wrote { boots.database with advisoryLock := some call } call .bootstrapping)
  | bootstrap {boots : Boots} (call : Nat) (here : boots.calls call = some .bootstrapping) :
      Step boots (boots.wrote boots.database.bootstrap call .reading)
  | read {boots : Boots} (call : Nat) {rows : List Str} (appliedIds : List Str)
      (here : boots.calls call = some .reading) (created : boots.database.schemaMigrations = some rows)
      (selected : appliedIds ~ rows) : Step boots (boots.move call (.looping appliedIds (migrations texts)))
  | skip {boots : Boots} (call : Nat) {appliedIds : List Str} {migration : Migration} {rest : List Migration}
      (here : boots.calls call = some (.looping appliedIds (migration :: rest)))
      (known : migration.1 ∈ appliedIds) : Step boots (boots.move call (.looping appliedIds rest))
  | refuse {boots : Boots} (call : Nat) {appliedIds : List Str} {migration : Migration} {rest : List Migration}
      {error : PostgresError} (here : boots.calls call = some (.looping appliedIds (migration :: rest)))
      (unknown : migration.1 ∉ appliedIds)
      (bare : stripBeginCommitWrapper migration.1 migration.2 = .error error) :
      Step boots (boots.move call (.unlocking (.error error)))
  | send {boots : Boots} (call : Nat) {appliedIds : List Str} {migration : Migration} {rest : List Migration}
      {innerBody : Str} (here : boots.calls call = some (.looping appliedIds (migration :: rest)))
      (unknown : migration.1 ∉ appliedIds)
      (wrapped : stripBeginCommitWrapper migration.1 migration.2 = .ok innerBody) :
      Step boots (boots.move call (.applying appliedIds ⟨migration.1, innerBody⟩ rest))
  | commit {boots : Boots} (call : Nat) {appliedIds : List Str} {batch : Batch} {rest : List Migration}
      (here : boots.calls call = some (.applying appliedIds batch rest)) :
      Step boots (boots.wrote (boots.database.commit batch) call (.looping appliedIds rest))
  | commitUnheard {boots : Boots} (call : Nat) {appliedIds : List Str} {batch : Batch} {rest : List Migration}
      (error : PostgresError) (here : boots.calls call = some (.applying appliedIds batch rest)) :
      Step boots (boots.wrote (boots.database.commit batch) call (.unlocking (.error error)))
  | fail {boots : Boots} (call : Nat) {phase : MigrationPhase} (error : PostgresError)
      (here : boots.calls call = some phase)
      (statement : phase = .bootstrapping ∨ phase = .reading ∨ ∃ appliedIds batch rest,
        phase = .applying appliedIds batch rest) :
      Step boots (boots.move call (.unlocking (.error error)))
  | finish {boots : Boots} (call : Nat) {appliedIds : List Str}
      (here : boots.calls call = some (.looping appliedIds [])) :
      Step boots (boots.move call (.unlocking (.ok ())))
  | unlock {boots : Boots} (call : Nat) {result : Except PostgresError Unit}
      (here : boots.calls call = some (.unlocking result)) (released : Bool) :
      Step boots (boots.wrote
        { boots.database with
          advisoryLock :=
            if released = true ∧ boots.database.advisoryLock = some call then none
            else boots.database.advisoryLock } call (.returned result))
  | die {boots : Boots} (call : Nat) {phase : MigrationPhase} (here : boots.calls call = some phase)
      (quiet : ∀ appliedIds batch rest, phase ≠ .applying appliedIds batch rest) : Step boots (boots.gone call)

open scoped List in
/-- The server drops a session of a call that goes on; a call gives up or dies before its batch is decided,
and the server commits the batch later or never. -/
inductive Fault : Boots → Boots → Prop where
  | sessionLost {boots : Boots} :
      Fault boots { boots with database := { boots.database with advisoryLock := none } }
  | unheard {boots : Boots} (call : Nat) {appliedIds : List Str} {batch : Batch} {rest : List Migration}
      (error : PostgresError) (here : boots.calls call = some (.applying appliedIds batch rest)) :
      Fault boots { boots.move call (.unlocking (.error error)) with adrift := batch :: boots.adrift }
  | died {boots : Boots} (call : Nat) {appliedIds : List Str} {batch : Batch} {rest : List Migration}
      (here : boots.calls call = some (.applying appliedIds batch rest)) :
      Fault boots { boots.gone call with adrift := batch :: boots.adrift }
  | landed {boots : Boots} {batch : Batch} {others : List Batch} (here : boots.adrift ~ batch :: others) :
      Fault boots { boots with database := boots.database.commit batch, adrift := others }
  | vanished {boots : Boots} {batch : Batch} {others : List Batch} (here : boots.adrift ~ batch :: others) :
      Fault boots { boots with adrift := others }

/-- The batch of a migration. -/
def IsBatch (batch : Batch) : Prop :=
  ∃ sql, (batch.migrationId, sql) ∈ migrations texts ∧
    stripBeginCommitWrapper batch.migrationId sql = .ok batch.innerBody

/-- No call is there, and what was ever applied is a beginning of the list, each once. -/
structure Opening (boots : Boots) : Prop where
  idle : ∀ call, boots.calls call = none
  still : boots.adrift = []
  begun : boots.database.applied <+: migrationIds
  applied : boots.database.committed.map Batch.migrationId = boots.database.applied
  bodies : ∀ batch ∈ boots.database.committed, IsBatch texts batch

/-- Runs in which anything may go wrong. -/
def runs : Transitions Boots where
  initial := Opening texts
  step before after := Step texts before after ∨ Fault before after

/-- Runs in which sessions last and every batch is decided before its call goes on. -/
def calmRuns : Transitions Boots where
  initial := Opening texts
  step := Step texts

end Boots
end SkillLayer.Infrastructure

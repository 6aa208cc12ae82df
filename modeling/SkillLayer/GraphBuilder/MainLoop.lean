import SkillLayer.GraphBuilder.DurableState
import SkillLayer.Infrastructure.GraphReads

/-! The loop of the graph builder: a replay of the last version, a rebuild when files have
changed, and the announcement of the versions that rebuilds have reached. -/

namespace SkillLayer.GraphBuilder

open Infrastructure

variable {F : Type}

structure EventEnvelope where
  eventId : Uuid
  eventType : Str
  correlationId : Uuid
  idempotencyKey : Str
  schemaVersion : Nat
  timestamp : Timestamp
  payload : Value

def graphRebuiltEventType : Str := "graph.rebuilt"

/-- The version that a `graph.rebuilt` envelope carries. -/
def EventEnvelope.graphVersion? (envelope : EventEnvelope) : Option Int :=
  if envelope.eventType = graphRebuiltEventType then
    (envelope.payload.get? "graph_version").bind Value.asI64?
  else none

/-! ### Calls -/

/-- What the loop asks of Postgres, Redis, the watcher and the build, the clock and the id
source. A publish says whether its envelope comes from the buffer for the record of the run
only. -/
inductive LoopCall (F : Type) where
  | currentGraphVersion
  | publish (envelope : EventEnvelope) (buffered : Bool)
  | nowV7
  | utcNow
  | collectChanges
  | buildGraph
  | persistGraphMutation (mutation : DurableGraphMutation F)
  | markOutboxDrained
  | bumpGraphVersion

@[reducible] def LoopAnswer (F : Type) : LoopCall F → Type
  | .currentGraphVersion => Except Str Int
  | .publish _ _ => Except Str Str
  | .nowV7 => Uuid
  | .utcNow => Timestamp
  | .collectChanges => Except Str Bool
  | .buildGraph => Except GraphRebuildError (DurableGraphMutation F)
  | .persistGraphMutation _ => Except GraphRebuildError Unit
  | .markOutboxDrained => Except GraphRebuildError Unit
  | .bumpGraphVersion => Except GraphRebuildError Int

abbrev LoopProgram (F Err Result : Type) := Program (LoopCall F) (LoopAnswer F) Err Result

/-- Why a cycle fails: the files could not be read, or the rebuild failed. -/
inductive CycleError where
  | watcher (message : Str)
  | rebuild (error : GraphRebuildError)
deriving DecidableEq

def EventEnvelope.new {Err : Type} (eventType idempotencyKey : Str) (payload : Value) :
    LoopProgram F Err EventEnvelope := do
  let eventId ← Program.ask .nowV7
  let correlationId ← Program.ask .nowV7
  let timestamp ← Program.ask .utcNow
  return {
    eventId := (eventId : Uuid)
    eventType := eventType
    correlationId := (correlationId : Uuid)
    idempotencyKey := idempotencyKey
    schemaVersion := 1
    timestamp := (timestamp : Timestamp)
    payload := payload }

def rebuiltKey (graphVersion : Int) : Str := "graph.rebuilt:" ++ Str.ofInt graphVersion

/-! ### The functions of the loop -/

/-- The last published version after the check at the start of a cycle. -/
def maybeReplayGraphRebuilt (lastPublishedVersion : Int) : LoopProgram F Empty Int := do
  let read ← Program.ask .currentGraphVersion
  match (read : Except Str Int) with
  | .error _ => return lastPublishedVersion
  | .ok pgVersion =>
    if pgVersion ≤ lastPublishedVersion then return lastPublishedVersion
    else
      let envelope ← EventEnvelope.new graphRebuiltEventType (rebuiltKey pgVersion)
        (.object [("graph_version", .number pgVersion), ("replayed", .bool true)])
      let answer ← Program.ask (.publish envelope false)
      match (answer : Except Str Str) with
      | .ok _ => return pgVersion
      | .error _ => return lastPublishedVersion

/-- The largest version seen with one more envelope. -/
def maxVersion (largest : Option Int) (envelope : EventEnvelope) : Option Int :=
  match envelope.graphVersion? with
  | some version => some (max (largest.getD 0) version)
  | none => largest

/-- How many envelopes are published before the first failure, and the largest version among them. -/
def publishPrefix (publishedCount : Nat) (largest : Option Int) :
    List EventEnvelope → LoopProgram F Empty (Nat × Option Int)
  | [] => return (publishedCount, largest)
  | envelope :: rest => do
    let answer ← Program.ask (.publish envelope true)
    match (answer : Except Str Str) with
    | .ok _ => publishPrefix (publishedCount + 1) (maxVersion largest envelope) rest
    | .error _ => return (publishedCount, largest)

/-- What stays in the buffer, and the largest version that was published. -/
def drainPublishedEvents (publishedEvents : List EventEnvelope) :
    LoopProgram F Empty (List EventEnvelope × Option Int) := do
  let (publishedCount, largest) ← publishPrefix 0 none publishedEvents
  return (publishedEvents.drop publishedCount, largest)

/-- A rebuild with its three writes; it pushes its envelope to the buffer when all succeed. -/
def GraphRebuildOrchestrator.rebuildFromChanges (publishedEvents : List EventEnvelope) :
    LoopProgram F GraphRebuildError (GraphRebuildOutcome × List EventEnvelope) := do
  let built ← Program.ask .buildGraph
  let mutation ← Program.ofExcept (built : Except GraphRebuildError (DurableGraphMutation F))
  let persisted ← Program.ask (.persistGraphMutation mutation)
  let _ ← Program.ofExcept (persisted : Except GraphRebuildError Unit)
  let drained ← Program.ask .markOutboxDrained
  let _ ← Program.ofExcept (drained : Except GraphRebuildError Unit)
  let bumped ← Program.ask .bumpGraphVersion
  let graphVersion ← Program.ofExcept (bumped : Except GraphRebuildError Int)
  let envelope ← EventEnvelope.new graphRebuiltEventType (rebuiltKey graphVersion)
    (.object [
      ("graph_version", .number graphVersion),
      ("skills_count", .number mutation.skills.length),
      ("communities_count", .number mutation.communities.length)])
  return (⟨graphVersion, mutation.skills.length, mutation.communities.length⟩, publishedEvents ++ [envelope])

/-- The version of the rebuild, if there was something to rebuild, and the buffer. -/
def runRebuildCycle (publishedEvents : List EventEnvelope) :
    LoopProgram F CycleError (Option Int × List EventEnvelope) := do
  let collected ← Program.ask .collectChanges
  let changed ← Program.ofExcept ((collected : Except Str Bool).mapError .watcher)
  if changed then
    let (outcome, events) ← (GraphRebuildOrchestrator.rebuildFromChanges publishedEvents).mapError .rebuild
    return (some outcome.graphVersion, events)
  else return (none, publishedEvents)

/-- What the process keeps from cycle to cycle. For the record of the run only: all that it
has pushed to its buffer. -/
structure LoopMemory where
  publishedEvents : List EventEnvelope
  lastPublishedGraphVersion : Int
  pushed : List EventEnvelope

def LoopMemory.fresh : LoopMemory := ⟨[], 0, []⟩

/-- The buffer after a cycle; a failed one has pushed nothing. -/
def bufferAfter (publishedEvents : List EventEnvelope) :
    Except CycleError (Option Int × List EventEnvelope) → List EventEnvelope
  | .ok (_, events) => events
  | .error _ => publishedEvents

/-- One round of the loop of `main`. -/
def cycle (memory : LoopMemory) : LoopProgram F Empty LoopMemory := do
  let lastPublished ← maybeReplayGraphRebuilt memory.lastPublishedGraphVersion
  let result ← (runRebuildCycle memory.publishedEvents).outcome
  let events := bufferAfter memory.publishedEvents result
  let (left, largest) ← drainPublishedEvents events
  return {
    publishedEvents := left
    lastPublishedGraphVersion :=
      match largest with
      | some version => max lastPublished version
      | none => lastPublished
    pushed := memory.pushed ++ events.drop memory.publishedEvents.length }

/-! ### How calls are served -/

/-- Postgres and the stream. For the record of the run only: with each envelope the graph
version that Postgres had when it was published, all versions that Postgres has had, and the
envelopes of its buffer that the process has published. -/
structure LoopWorld where
  database : Database
  stream : List (EventEnvelope × Int)
  reached : List Int
  sent : List EventEnvelope

/-- What decides about a call besides Postgres: what is refused, whether an envelope arrives
though its publish fails, what files and build give, and whether an error follows a committed
transaction. -/
structure LoopWeather (F : Type) where
  readRefused : Option Str
  publish : Except Str Str
  arrives : Bool
  id : Uuid
  now : Timestamp
  changes : Except Str Bool
  graph : Except GraphRebuildError (DurableGraphMutation F)
  refused : Refused
  afterCommit : Option GraphRebuildError
  drained : Except GraphRebuildError Unit

def LoopWorld.commit (world : LoopWorld) (database : Database) (graphVersion : Int) : LoopWorld :=
  { world with database, reached := world.reached ++ [graphVersion] }

def LoopWorld.publish (world : LoopWorld) (envelope : EventEnvelope) : LoopWorld :=
  { world with stream := world.stream ++ [(envelope, currentGraphVersion world.database)] }

def LoopWorld.record (world : LoopWorld) (envelope : EventEnvelope) (buffered : Bool) : LoopWorld :=
  { world with sent := if buffered then world.sent ++ [envelope] else world.sent }

/-- The answer to a transaction that advances the graph version. -/
def LoopWeather.committed {Result : Type} (services : RebuildServices F) (weather : LoopWeather F)
    (world : LoopWorld) (result : Int → Result) : Except DbError Int × Database →
      Except GraphRebuildError Result × LoopWorld
  | (.error error, database) =>
    (.error (.durableWrite (rebuildErrorText services error)), { world with database })
  | (.ok graphVersion, database) =>
    (match weather.afterCommit with
      | some error => .error error
      | none => .ok (result graphVersion),
      world.commit database graphVersion)

def serveLoop (services : RebuildServices F) (weather : Nat → LoopWeather F) (calls : Nat) :
    (request : LoopCall F) → LoopWorld → LoopAnswer F request × LoopWorld
  | .currentGraphVersion, world =>
    match (weather calls).readRefused, world.database.graphState with
    | some message, _ => (.error message, world)
    | none, none => (.error "no rows returned by a query that expected to return at least one row", world)
    | none, some state => (.ok state.graphVersion, world)
  | .publish envelope buffered, world =>
    match (weather calls).publish with
    | .error message =>
      (.error message, if (weather calls).arrives then world.publish envelope else world)
    | .ok streamId => (.ok streamId, (world.publish envelope).record envelope buffered)
  | .nowV7, world => ((weather calls).id, world)
  | .utcNow, world => ((weather calls).now, world)
  | .collectChanges, world => ((weather calls).changes, world)
  | .buildGraph, world => ((weather calls).graph, world)
  | .persistGraphMutation mutation, world =>
    (weather calls).committed services world (fun _ => ()) <|
      replaceSnapshotAndBumpVersion services.blake3 (weather calls).refused mutation.live world.database
  | .markOutboxDrained, world => ((weather calls).drained, world)
  | .bumpGraphVersion, world =>
    (weather calls).committed services world id <|
      bumpGraphVersion (weather calls).refused world.database

end SkillLayer.GraphBuilder

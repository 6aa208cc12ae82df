import SkillLayer.Infrastructure.RedisStreams

/-! The subscriber that keeps the graph of the server fresh: reads of the event bus, one reload for
a whole batch of rebuilds, acknowledgements, and the wait after a failed read. -/

namespace SkillLayer.McpServer

open Infrastructure GraphBuilder

def readBatchSize : Nat := 64

def readBlockMs : Nat := 5000

def backoffInitial : Nat := 500

def backoffMax : Nat := 30000

def isRebuilt (message : StreamMessage) : Bool := message.envelope.eventType = graphRebuiltEventType

/-! ### Calls -/

inductive RefreshCall where
  | stream (request : StreamCall)
  | reloadAndSwap
  | sleep (milliseconds : Nat)

@[reducible] def RefreshAnswer : RefreshCall → Type
  | .stream request => StreamAnswer request
  | .reloadAndSwap => Except Str Int
  | .sleep _ => Unit

/-- The subscriber never fails. -/
abbrev RefreshProgram (Result : Type) := Program RefreshCall RefreshAnswer Empty Result

def onStream {Result : Type} (program : StreamProgram Result) :
    RefreshProgram (Except RedisStreamError Result) :=
  (program.outcome : Program StreamCall StreamAnswer Empty _).embed .stream fun _ answer => answer

/-! ### The loop -/

structure BatchOutcome where
  hasRebuilt : Bool
  reloadSucceeded : Bool

/-- One reload for all rebuilds of a batch; none where there is no rebuild. -/
def coalescedReload (messages : List StreamMessage) : RefreshProgram BatchOutcome :=
  if messages.any isRebuilt then do
    let reloaded : Except Str Int ← Program.ask RefreshCall.reloadAndSwap
    match reloaded with
    | .ok _ => return ⟨true, true⟩
    | .error _ => return ⟨true, false⟩
  else return ⟨false, true⟩

/-- Acknowledge the messages; a rebuild only when the reload has succeeded. -/
def ackEach (outcome : BatchOutcome) : List StreamMessage → RefreshProgram Unit
  | [] => return ()
  | message :: rest =>
    if isRebuilt message && !outcome.reloadSucceeded then ackEach outcome rest
    else do
      let _ ← onStream (Infrastructure.ack message.streamId)
      ackEach outcome rest

def processBatch (messages : List StreamMessage) : RefreshProgram Unit := do
  let outcome ← coalescedReload messages
  ackEach outcome messages

section Loop

variable (decode : Str → Except Str EventEnvelope) (size : Nat)

/-- One turn of the loop: what the read yielded, and the backoff for the next failure. -/
def refreshTurn (backoff : Nat) : RefreshProgram (Except RedisStreamError (List StreamMessage) × Nat) := do
  match ← onStream (readGroup decode size readBlockMs) with
  | .ok messages =>
    if !messages.isEmpty then processBatch messages
    return (.ok messages, backoffInitial)
  | .error readError => do
    Program.ask (RefreshCall.sleep backoff)
    return (.error readError, min (backoff * 2) backoffMax)

/-- The subscriber between two turns. -/
structure Subscriber (World : Type) where
  backoff : Nat
  calls : Nat
  world : World

variable {World : Type} (serve : Nat → (request : RefreshCall) → World → RefreshAnswer request × World)

def turn (subscriber : Subscriber World) :
    Except RedisStreamError (List StreamMessage) × Subscriber World :=
  match (refreshTurn decode size subscriber.backoff).run serve subscriber.calls subscriber.world with
  | ⟨.ok (report, backoff), calls, world⟩ => (report, ⟨backoff, calls, world⟩)

/-- The subscriber after some turns of `run_graph_refresh_loop`, which never ends. -/
def afterTurns (turns : Nat) (subscriber : Subscriber World) : Subscriber World :=
  (fun subscriber => (turn decode size serve subscriber).2)^[turns] subscriber

/-- What the read of a turn yielded. -/
def turnReport (turns : Nat) (subscriber : Subscriber World) : Except RedisStreamError (List StreamMessage) :=
  (turn decode size serve (afterTurns decode size serve turns subscriber)).1

end Loop
end SkillLayer.McpServer

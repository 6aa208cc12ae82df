import SkillLayer.Firsts
import SkillLayer.SessionExtractor.Salience

/-! Procedure skeletons: the tool events that follow the first failure of an episode. -/

namespace SkillLayer.SessionExtractor

open Domain

structure MinedStep where
  toolUseId : Str
  commandText : Str
  toolName : Str
deriving DecidableEq

structure ProcedureSkeleton where
  steps : List MinedStep
  triggerFailure : Str
  triggerExitCode : Option Int
deriving DecidableEq

structure SkeletonLabel where
  name : Str
  description : Str
  generality : Option Str
  keep : Bool
  confidence : Binary32

inductive MapOutcome where
  | skeleton (candidate : ExtractedSkillCandidate)
  | proseFallback (reason : Str)
deriving DecidableEq

inductive SkeletonError where
  | labelerFailed (message : Str)
deriving DecidableEq

/-! ### Command texts -/

def objectFields? : Value → Option (List (Str × Value))
  | .object fields => some fields
  | _ => none

/-- The first two input fields of a call, or the first characters of an input that is no object. -/
def inputSummary (json : SerdeJson) (inputJson : Str) : Str :=
  match (json.fromStr inputJson).toOption.bind objectFields? with
  | some fields =>
    Str.join ", " ((fields.take 2).map fun field => field.1 ++ "=" ++ json.toString field.2)
  | none => inputJson.take 60

def extractCommandText (json : SerdeJson) (toolName inputJson : Str) : Str :=
  if toolName = "Bash" then
    (extractBashCommand json inputJson).getD ("Bash(" ++ inputJson ++ ")")
  else toolName ++ "(" ++ inputSummary json inputJson ++ ")"

/-- The characters that begin before the byte limit. -/
def beginningBefore (maxBytes : Nat) : (position : Nat) → Str → Str
  | _, [] => []
  | position, c :: rest =>
    if position < maxBytes then c :: beginningBefore maxBytes (position + c.utf8Size) rest else []

def truncateFailureText (text : Str) (maxBytes : Nat) : Str :=
  if Str.byteLength text ≤ maxBytes then text else beginningBefore maxBytes 0 text ++ "…"

/-! ### Steps -/

def isToolStep : SessionEvent → Bool
  | .toolCall .. => true
  | .fileEdit .. => true
  | _ => false

def fileEditId? : SessionEvent → Option Str
  | .fileEdit _ toolUseId _ _ => some toolUseId
  | _ => none

def fileEditStep (toolUseId path operation : Str) : MinedStep := ⟨toolUseId, operation ++ " " ++ path, operation⟩

def toolCallStep (json : SerdeJson) (toolUseId name inputJson : Str) : MinedStep :=
  ⟨toolUseId, extractCommandText json name inputJson, name⟩

/-- The calls and edits in source order, events of one line staying as they are. -/
def orderedEvents (events : List SessionEvent) : List SessionEvent :=
  (events.filter isToolStep).insertionSort fun one two => one.index ≤ two.index

/-- The second pass: a call is skipped when its id has an edit, and every id is used once. -/
def emitSteps (json : SerdeJson) (fileEditIds : List Str) : (seenIds : List Str) → List SessionEvent → List MinedStep
  | _, [] => []
  | seenIds, .fileEdit _ toolUseId path operation :: rest =>
    if toolUseId ∈ seenIds then emitSteps json fileEditIds seenIds rest
    else fileEditStep toolUseId path operation :: emitSteps json fileEditIds (toolUseId :: seenIds) rest
  | seenIds, .toolCall _ toolUseId name inputJson :: rest =>
    if toolUseId ∈ fileEditIds then emitSteps json fileEditIds seenIds rest
    else if toolUseId ∈ seenIds then emitSteps json fileEditIds seenIds rest
    else toolCallStep json toolUseId name inputJson :: emitSteps json fileEditIds (toolUseId :: seenIds) rest
  | seenIds, _ :: rest => emitSteps json fileEditIds seenIds rest

def buildStepsDeduplicated (json : SerdeJson) (events : List SessionEvent) : List MinedStep :=
  let ordered := orderedEvents events
  emitSteps json (ordered.filterMap fileEditId?) [] ordered

/-! ### The resolution arc -/

def isFailure : SessionEvent → Bool
  | .toolResult _ _ isError exitCode _ => isFailing isError exitCode
  | _ => false

def isSuccess : SessionEvent → Bool
  | .toolResult _ _ isError exitCode _ => isPassing isError exitCode
  | _ => false

/-- The forward scan for the closing success, which every later failure resets. -/
def lastSuccessEnd : (found : Option Nat) → (position : Nat) → List SessionEvent → Option Nat
  | found, _, [] => found
  | found, position, event :: rest =>
    lastSuccessEnd (if isSuccess event then some (position + 1) else if isFailure event then none else found)
      (position + 1) rest

/-- Without a closing success the arc takes all the remaining events. -/
def findResolutionArcEnd (arcEvents : List SessionEvent) : Nat :=
  (lastSuccessEnd none 0 arcEvents).getD arcEvents.length

def resolutionEvents (arcEvents : List SessionEvent) : List SessionEvent :=
  arcEvents.take (findResolutionArcEnd arcEvents)

/-- The first failing result and the events after it. -/
def splitAtTrigger : List SessionEvent → Option (Str × Option Int × List SessionEvent)
  | [] => none
  | event :: rest =>
    match event with
    | .toolResult _ _ isError exitCode output =>
      if isFailing isError exitCode then some (output, exitCode, rest) else splitAtTrigger rest
    | _ => splitAtTrigger rest

def mineSkeleton (json : SerdeJson) (events : List SessionEvent) : Option ProcedureSkeleton :=
  match splitAtTrigger events with
  | none => none
  | some (output, exitCode, arcEvents) =>
    let steps := buildStepsDeduplicated json (resolutionEvents arcEvents)
    if steps.isEmpty then none else some ⟨steps, truncateFailureText output 512, exitCode⟩

/-- One episode: mine, have the skeleton labelled, assemble the candidate. `twoDecimals` prints
the confidence in the reason of a dropped skeleton. -/
def mapEpisode (json : SerdeJson) (twoDecimals : Binary32 → Str)
    (labeler : ProcedureSkeleton → Except SkeletonError SkeletonLabel) (events : List SessionEvent) :
    Except SkeletonError MapOutcome :=
  match mineSkeleton json events with
  | none => .ok (.proseFallback "no actionable tool arc found in episode events")
  | some skeleton =>
    match labeler skeleton with
    | .error error => .error error
    | .ok label =>
      if label.keep then
        .ok (.skeleton {
          name := label.name, description := label.description, tags := ["skeleton-mined"],
          procedures := skeleton.steps.map MinedStep.commandText, conventions := [], assets := [],
          generality := label.generality, generalityRationale := none })
      else
        .ok (.proseFallback ("labeler dropped skeleton with confidence " ++ twoDecimals label.confidence ++
          ": " ++ label.name))

end SkillLayer.SessionExtractor

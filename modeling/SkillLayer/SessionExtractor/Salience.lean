import SkillLayer.Binary32
import SkillLayer.Ranking
import SkillLayer.SessionExtractor.MapStep
import SkillLayer.SessionExtractor.Preamble

/-! The salience gate: which episodes are worth a model call. -/

namespace SkillLayer.SessionExtractor

open Domain

/-! ### Configuration and scores -/

inductive GateMode where
  | topK (k : Nat)
  | threshold (minScore : Binary32)
deriving DecidableEq

structure SalienceConfig where
  mode : GateMode
deriving DecidableEq

namespace Salience

def weightResolvedArc : Rat := Binary32.nearest (60 / 100)
def weightStatedPreference : Rat := Binary32.nearest (55 / 100)
def weightNamedFailure : Rat := Binary32.nearest (35 / 100)
def weightFileEdit : Rat := Binary32.nearest (30 / 100)
def weightBashCommand : Rat := Binary32.nearest (15 / 100)

def defaultConfig : SalienceConfig := ⟨.threshold (.finite (Binary32.nearest (1 / 100)))⟩

def preferenceSignalPhrases : List Str :=
  ["always ", "never ", "prefer ", "don't ", "do not ", "i want ", "avoid ", "make sure ", "please use ",
    "please don't ", "please never ", "please always "]

end Salience

structure EpisodeScore where
  score : Rat
  hardKeep : Bool
  hardKeepReason : Option Str
deriving DecidableEq

/-! ### Signals -/

/-- The `tool_name_by_id` map, with its fallback. -/
def toolNameById (events : List SessionEvent) (toolUseId : Str) : Str :=
  (lastWriter (events.filterMap fun event =>
    match event with
    | .toolCall _ id name _ => some (id, name)
    | _ => none) toolUseId).getD "unknown"

def isFailing (isError : Bool) (exitCode : Option Int) : Bool := isError || exitCode.any fun code => code != 0

def isPassing (isError : Bool) (exitCode : Option Int) : Bool := !isError && exitCode.all fun code => code == 0

/-- The scan of the tool results, with the tools that have an open error. -/
def resolvesError (toolName : Str → Str) : (openErrors : List Str) → List SessionEvent → Bool
  | _, [] => false
  | openErrors, .toolResult _ toolUseId isError exitCode _ :: rest =>
    if isFailing isError exitCode then resolvesError toolName (toolName toolUseId :: openErrors) rest
    else if isPassing isError exitCode && openErrors.contains (toolName toolUseId) then true
    else resolvesError toolName openErrors rest
  | openErrors, _ :: rest => resolvesError toolName openErrors rest

def detectResolvedErrorArc (events : List SessionEvent) : Bool :=
  resolvesError (toolNameById events) [] events

def detectStatedPreference (events : List SessionEvent) : Bool :=
  events.any fun event =>
    match event with
    | .userMessage _ content => containsAny Salience.preferenceSignalPhrases (Str.toAsciiLowercase content)
    | _ => false

def detectNamedFailure (events : List SessionEvent) : Bool :=
  events.any fun event =>
    match event with
    | .toolResult _ _ isError exitCode _ => isFailing isError exitCode
    | _ => false

def detectFileEdit (events : List SessionEvent) : Bool :=
  events.any fun event =>
    match event with
    | .fileEdit .. => true
    | _ => false

def detectBashCommand (events : List SessionEvent) : Bool :=
  events.any fun event =>
    match event with
    | .toolCall _ _ name _ => name == "Bash".toList
    | _ => false

/-- `raw_score += weight` when the signal is there. -/
def addWeight (signal : Bool) (weight rawScore : Rat) : Rat :=
  if signal then Binary32.nearest (rawScore + weight) else rawScore

def scoreEpisode (episodeEvents : List SessionEvent) : EpisodeScore :=
  if episodeEvents.isEmpty then ⟨0, false, none⟩
  else
    let hasResolvedArc := detectResolvedErrorArc episodeEvents
    let hasStatedPreference := detectStatedPreference episodeEvents
    let rawScore :=
      addWeight (detectBashCommand episodeEvents) Salience.weightBashCommand
        (addWeight (detectFileEdit episodeEvents) Salience.weightFileEdit
          (addWeight (detectNamedFailure episodeEvents) Salience.weightNamedFailure
            (addWeight hasStatedPreference Salience.weightStatedPreference
              (addWeight hasResolvedArc Salience.weightResolvedArc 0))))
    let score := min rawScore 1
    if hasResolvedArc then ⟨score, true, some "resolved_error_arc"⟩
    else if hasStatedPreference then ⟨score, true, some "stated_preference"⟩
    else ⟨score, false, none⟩

/-! ### The gate -/

structure GatedEpisode where
  episodeIndex : Nat
  episode : Episode
  score : Rat
  gateReason : Str
deriving DecidableEq

structure GateResult where
  kept : List Episode
  gated : List GatedEpisode
deriving DecidableEq

structure ScoredEpisode where
  episodeIndex : Nat
  episode : Episode
  score : EpisodeScore
deriving DecidableEq

def scoreEpisodes (events : List SessionEvent) (episodes : List Episode) : List ScoredEpisode :=
  episodes.zipIdx.map fun entry => ⟨entry.2, entry.1, scoreEpisode (windowEvents events entry.1)⟩

/-- The comparison of the sort does not answer `Greater`: the score descends, then the
position ascends. -/
def rankedBefore (left right : ScoredEpisode) : Prop :=
  right.score.score < left.score.score ∨
    right.score.score = left.score.score ∧ left.episodeIndex ≤ right.episodeIndex

instance (left right : ScoredEpisode) : Decidable (rankedBefore left right) :=
  inferInstanceAs (Decidable (_ ∨ _))

/-- The positions among the eligible episodes that the `k` best scores stand at. -/
def keptPositions (eligible : List ScoredEpisode) (k : Nat) : List Nat :=
  ((eligible.zipIdx.insertionSort fun left right => rankedBefore left.1 right.1).take k).map Prod.snd

def applyGateMode (eligible : List ScoredEpisode) (config : SalienceConfig) :
    List ScoredEpisode × List ScoredEpisode :=
  match config.mode with
  | .threshold minScore =>
    (eligible.filter fun item => Binary32.atLeast item.score.score minScore,
      eligible.filter fun item => !Binary32.atLeast item.score.score minScore)
  | .topK k =>
    if eligible.isEmpty then ([], [])
    else
      let kept := keptPositions eligible k
      ((eligible.zipIdx.filter fun entry => kept.contains entry.2).map Prod.fst,
        (eligible.zipIdx.filter fun entry => !kept.contains entry.2).map Prod.fst)

def formatGateReason (score : EpisodeScore) (config : SalienceConfig) : Str :=
  match config.mode with
  | .threshold minScore =>
    "score_below_threshold(".toList ++ minScore.toFixed ++ "): actual=" ++ Binary32.fixed score.score
  | .topK k => "not_in_top_".toList ++ Str.ofNat k ++ ": score=" ++ Binary32.fixed score.score

def gateEpisodes (episodes : List Episode) (events : List SessionEvent) (config : SalienceConfig) : GateResult :=
  if episodes.isEmpty then ⟨[], []⟩
  else
    let scored := scoreEpisodes events episodes
    let hardKeepEpisodes := scored.filter fun item => item.score.hardKeep
    let gateEligible := scored.filter fun item => !item.score.hardKeep
    let (passedGate, gatedOut) := applyGateMode gateEligible config
    let keptIndices := hardKeepEpisodes.map ScoredEpisode.episodeIndex ++ passedGate.map ScoredEpisode.episodeIndex
    let kept := (episodes.zipIdx.filter fun entry => keptIndices.contains entry.2).map Prod.fst
    let gated := gatedOut.map fun item =>
      ⟨item.episodeIndex, item.episode, item.score.score, formatGateReason item.score config⟩
    ⟨kept, gated.insertionSort fun left right => left.episodeIndex ≤ right.episodeIndex⟩

end SkillLayer.SessionExtractor

import SkillLayer.SessionExtractor.MapStep
import SkillLayer.SessionExtractor.Writer

/-! The extraction pipeline: preamble, windows, map, reduce, synthesis, drafts. -/

namespace SkillLayer.SessionExtractor

open Domain

inductive OrchestrationError where
  | preambleNormalization (message : Str)
  | embedding (message : Str)
  | cosineSimilarity (message : Str)
  | equivalenceVerification (message : Str)
  | draftWrite (error : WriterError)
  | emptySession
  | allWindowsFailed (windowCount : Nat) (errors : List Str)
deriving DecidableEq

/-- The mined preamble as the pipeline uses it. -/
structure Preamble where
  text : Str
  preferenceSkillCandidates : List ExtractedSkillCandidate
deriving DecidableEq

/-- The result of one window's map task. -/
abbrev WindowResult := Except Str (List ExtractedSkillCandidate)

/-- The seams of the pipeline before synthesis. `joinOrder` is the order in which
the tasks finish. -/
structure Seams (Audit : Type) where
  minePreamble : List SessionEvent → Except OrchestrationError Preamble
  segmentation : SegmentationConfig
  mapOneWindow : List SessionEvent → DomainId → Str → WindowResult
  joinOrder : List WindowResult → List WindowResult
  reduceCandidates : List ExtractedSkillCandidate →
    Except OrchestrationError (List ExtractedSkillCandidate × List Audit)

/-- What the first four steps hand to the synthesis pass. -/
structure GroundedCandidates (Audit : Type) where
  preambleText : Str
  totalWindows : Nat
  preReduceCount : Nat
  dedupedCandidates : List ExtractedSkillCandidate
  reduceAudit : List Audit

structure OrchestrationReport (Audit : Type) where
  totalEpisodes : Nat
  keptEpisodeCount : Nat
  gatedEpisodeCount : Nat
  preReduceCandidateCount : Nat
  postReduceCandidateCount : Nat
  synthesisAddedCount : Nat
  finalCandidateCount : Nat
  reduceAudit : List Audit
  draftPaths : List Path

/-- The synthesis pass: from the grounded candidates and the preamble text. -/
abbrev SynthesisPass := List ExtractedSkillCandidate → Str → Except Str (List ExtractedSkillCandidate)

def windowCandidates : List WindowResult → List ExtractedSkillCandidate
  | [] => []
  | .ok candidates :: rest => candidates ++ windowCandidates rest
  | .error _ :: rest => windowCandidates rest

def windowErrors (results : List WindowResult) : List Str :=
  results.filterMap fun
    | .ok _ => none
    | .error error => some error

def windowsSucceeded (results : List WindowResult) : Nat := (results.filter Except.isOk).length

variable {Audit : Type}

/-- Steps 1 to 4: mine, segment, map and reduce. -/
def groundCandidates (seams : Seams Audit) (sessionId : DomainId) (events : List SessionEvent) :
    Except OrchestrationError (GroundedCandidates Audit) := do
  if events.isEmpty then throw .emptySession
  let preamble ← seams.minePreamble events
  let windows := segmentSession events seams.segmentation
  let results := seams.joinOrder (windows.map fun window =>
    seams.mapOneWindow (windowEvents events window) sessionId preamble.text)
  let errors := windowErrors results
  if windowsSucceeded results = 0 ∧ errors ≠ [] then
    throw (.allWindowsFailed windows.length errors)
  let candidates := windowCandidates results ++ preamble.preferenceSkillCandidates
  let (deduped, reduceAudit) ← seams.reduceCandidates candidates
  return ⟨preamble.text, windows.length, candidates.length, deduped, reduceAudit⟩

/-- Step 5: a failed synthesis adds nothing. -/
def synthesisCandidates (synthesis : SynthesisPass) (grounded : GroundedCandidates Audit) :
    List ExtractedSkillCandidate :=
  match synthesis grounded.dedupedCandidates grounded.preambleText with
  | .ok candidates => candidates
  | .error _ => []

/-- Step 6: write everything in one batch and report. -/
def finishOrchestration (writer : PendingDraftWriter) (sessionId : DomainId) (providerName : Str)
    (synthesis : SynthesisPass) (grounded : GroundedCandidates Audit) :
    EStateM OrchestrationError Fs (OrchestrationReport Audit) := fun fs =>
  let added := synthesisCandidates synthesis grounded
  let finalCandidates := grounded.dedupedCandidates ++ added
  match writer.writePendingDrafts ⟨sessionId, finalCandidates, providerName⟩ providerName fs with
  | .error error after => .error (.draftWrite error) after
  | .ok draftPaths after =>
    .ok {
      totalEpisodes := grounded.totalWindows
      keptEpisodeCount := grounded.totalWindows
      gatedEpisodeCount := 0
      preReduceCandidateCount := grounded.preReduceCount
      postReduceCandidateCount := grounded.dedupedCandidates.length
      synthesisAddedCount := added.length
      finalCandidateCount := finalCandidates.length
      reduceAudit := grounded.reduceAudit
      draftPaths := draftPaths } after

def runOrchestration (seams : Seams Audit) (writer : PendingDraftWriter) (sessionId : DomainId)
    (events : List SessionEvent) (providerName : Str) (synthesis : SynthesisPass) :
    EStateM OrchestrationError Fs (OrchestrationReport Audit) := fun fs =>
  match groundCandidates seams sessionId events with
  | .error error => .error error fs
  | .ok grounded => finishOrchestration writer sessionId providerName synthesis grounded fs

end SkillLayer.SessionExtractor

import Mathlib.Algebra.GroupWithZero.Nat
import SkillLayer.SessionExtractor.Orchestrator
import SkillLayer.SessionExtractor.Skeleton
import SkillLayer.TaskSet

/-! The map step: the prose extraction of a window with its retries, the skeleton beside it, and
the tasks of the windows under the semaphore. -/

namespace SkillLayer.SessionExtractor

open Domain

def proseWindowEmptyRetryLimit : Nat := 2

def proseWindowSubstantiveContentChars : Nat := 100

/-- The errors of a window's task. -/
inductive WindowError where
  | episodeExtraction (error : ExtractionError)
  | skeletonLabel (error : SkeletonError)
deriving DecidableEq

def extractionErrorText : ExtractionError → Str
  | .providerUnavailable message => "extraction provider unavailable: ".toList ++ message
  | .invalidTranscript message => "transcript payload is invalid: ".toList ++ message
  | .timeout timeoutMs => "extraction request timed out after ".toList ++ Str.ofNat timeoutMs ++ "ms".toList
  | .unexpected message => "extraction failure: ".toList ++ message

def skeletonErrorText : SkeletonError → Str
  | .labelerFailed message => "labeler failed: ".toList ++ message

def WindowError.display : WindowError → Str
  | .episodeExtraction error => "episode extraction failed: ".toList ++ extractionErrorText error
  | .skeletonLabel error => "skeleton labeling failed: ".toList ++ skeletonErrorText error

/-- What a window's task asks of the two models. -/
inductive WindowCall where
  | extract (transcript : SessionTranscript)
  | label (skeleton : ProcedureSkeleton)

abbrev ProseAnswer := Except ExtractionError ExtractionResult

@[reducible] def WindowAnswer : WindowCall → Type
  | .extract _ => ProseAnswer
  | .label _ => Except SkeletonError SkeletonLabel

abbrev WindowProgram (Result : Type) := Program WindowCall WindowAnswer WindowError Result

abbrev WindowExchange := Exchanged WindowCall WindowAnswer

inductive ProseWindowAttemptOutcome where
  | candidates (candidates : List ExtractedSkillCandidate)
  | emptyOrMalformed (reason : Str)
  | hardError (error : WindowError)

def classifyProseAttempt (result : Except WindowError (List ExtractedSkillCandidate)) (windowContentChars : Nat) :
    ProseWindowAttemptOutcome :=
  match result with
  | .ok candidates =>
    if !candidates.isEmpty then .candidates candidates
    else if proseWindowSubstantiveContentChars ≤ windowContentChars then
      .emptyOrMalformed "model returned zero candidates"
    else .candidates candidates
  | .error (.episodeExtraction (.unexpected message)) =>
    if proseWindowSubstantiveContentChars ≤ windowContentChars then
      .emptyOrMalformed ("model returned malformed JSON: ".toList ++ message)
    else .hardError (.episodeExtraction (.unexpected message))
  | .error hardError => .hardError hardError

/-- The window's messages, after the preamble if there is one. -/
def windowTranscript (windowEvents : List SessionEvent) (sessionId : DomainId) (preambleText : Str) : SessionTranscript :=
  let transcript := eventsToTranscript sessionId windowEvents
  if preambleText.isEmpty then transcript
  else { transcript with entries := ⟨"system", "[Session context]\n".toList ++ preambleText⟩ :: transcript.entries }

/-- The bytes of the window's own messages. -/
def windowContentChars (windowEvents : List SessionEvent) : Nat :=
  ((windowEvents.filterMap SessionEvent.asTranscriptEntry?).map fun entry => Str.byteLength entry.content).sum

def proseResult (answer : ProseAnswer) : Except WindowError (List ExtractedSkillCandidate) :=
  (answer.map ExtractionResult.candidates).mapError .episodeExtraction

/-- The attempts that are left; none accepts that nothing was found. -/
def retryProseWindow (transcript : SessionTranscript) (chars : Nat) :
    (retries : Nat) → WindowProgram (List ExtractedSkillCandidate)
  | 0 => return []
  | retries + 1 => do
    let answer ← Program.ask (.extract transcript)
    match classifyProseAttempt (proseResult answer) chars with
    | .candidates candidates => return candidates
    | .hardError error => .fail error
    | .emptyOrMalformed _ => retryProseWindow transcript chars retries

/-- The first attempt and its retries. -/
def extractProseWindow (windowEvents : List SessionEvent) (sessionId : DomainId) (preambleText : Str) :
    WindowProgram (List ExtractedSkillCandidate) :=
  retryProseWindow (windowTranscript windowEvents sessionId preambleText) (windowContentChars windowEvents)
    (1 + proseWindowEmptyRetryLimit)

variable (json : SerdeJson) (twoDecimals : Binary32 → Str)

/-- The candidates of a window, with the outcome of `map_episode` beside the prose. -/
def addMapOutcome (candidates : List ExtractedSkillCandidate) :
    Except SkeletonError MapOutcome → Except WindowError (List ExtractedSkillCandidate)
  | .error error => .error (.skeletonLabel error)
  | .ok (.skeleton skeletonCandidate) => .ok (candidates ++ [skeletonCandidate])
  | .ok (.proseFallback _) => .ok candidates

/-- `map_episode` with its labeler as a call. -/
def mapEpisodeAsking (windowEvents : List SessionEvent) : WindowProgram (Except SkeletonError MapOutcome) :=
  match mineSkeleton json windowEvents with
  | none => return .ok (.proseFallback "no actionable tool arc found in episode events")
  | some skeleton => do
    let answer ← Program.ask (.label skeleton)
    return mapEpisode json twoDecimals (fun _ => answer) windowEvents

def mapOneWindow (windowEvents : List SessionEvent) (sessionId : DomainId) (preambleText : Str) :
    WindowProgram (List ExtractedSkillCandidate) :=
  if windowEvents.isEmpty then return []
  else do
    let candidates ← extractProseWindow windowEvents sessionId preambleText
    let outcome ← mapEpisodeAsking json twoDecimals windowEvents
    .ofExcept (addMapOutcome candidates outcome)

/-- The tasks of the windows; the semaphore has at least one permit. -/
def mapTasks (events : List SessionEvent) (windows : List Episode) (sessionId : DomainId) (preambleText : Str)
    (mapConcurrency : Nat) : Tasks windows.length WindowCall WindowAnswer WindowError (List ExtractedSkillCandidate) where
  program window := mapOneWindow json twoDecimals (windowEvents events (windows.get window)) sessionId preambleText
  permits := max mapConcurrency 1

/-- The tasks of the windows in a run; a panic leaves the text of its join error. -/
abbrev WindowTasks (windows : Nat) := TaskSet windows WindowCall WindowAnswer WindowError (List ExtractedSkillCandidate) Str

def windowResult : Ending WindowError (List ExtractedSkillCandidate) Str → WindowResult
  | .returned (.ok candidates) => .ok candidates
  | .returned (.error error) => .error error.display
  | .panicked joinError => .error ("window task panicked: ".toList ++ joinError)

/-- The results in the order of the joins. -/
def joinedResults {windows : Nat} (set : WindowTasks windows) : List WindowResult :=
  set.joined.map fun joined => windowResult joined.2

variable {json twoDecimals}

/-- Asked with the labeler's answer, the program does what `map_episode` does. -/
theorem mapEpisode_of_asked {windowEvents : List SessionEvent} {skeleton : ProcedureSkeleton}
    (mined : mineSkeleton json windowEvents = some skeleton) (labeler : ProcedureSkeleton → Except SkeletonError SkeletonLabel) :
    mapEpisode json twoDecimals (fun _ => labeler skeleton) windowEvents = mapEpisode json twoDecimals labeler windowEvents := by
  unfold mapEpisode
  rw [mined]

/-! ### What a window's task may have asked -/

/-- An answer that is asked for again: nothing usable from a window with enough content. -/
def Unusable (chars : Nat) (answer : ProseAnswer) : Prop :=
  proseWindowSubstantiveContentChars ≤ chars ∧
    ((∃ result, answer = .ok result ∧ result.candidates = []) ∨ ∃ message, answer = .error (.unexpected message))

def extracted (transcript : SessionTranscript) (answer : ProseAnswer) : WindowExchange := ⟨.extract transcript, answer⟩

/-- A prose extraction within so many attempts: unusable answers, then a usable one that counts;
when all are unusable, nothing was found. -/
structure ProseRun (transcript : SessionTranscript) (chars attempts : Nat) (calls : List WindowExchange)
    (outcome : Except WindowError (List ExtractedSkillCandidate)) : Prop where
  run : ∃ tried : List ProseAnswer, (∀ answer ∈ tried, Unusable chars answer) ∧
    ((tried.length = attempts ∧ calls = tried.map (extracted transcript) ∧ outcome = .ok []) ∨
      (tried.length < attempts ∧ ∃ answer, ¬Unusable chars answer ∧
        calls = tried.map (extracted transcript) ++ [extracted transcript answer] ∧ outcome = proseResult answer))

theorem classify_unusable {chars : Nat} {answer : ProseAnswer} (unusable : Unusable chars answer) :
    ∃ reason, classifyProseAttempt (proseResult answer) chars = .emptyOrMalformed reason := by
  obtain ⟨enough, ⟨⟨id, candidates, provider⟩, rfl, none⟩ | ⟨message, rfl⟩⟩ := unusable
  · obtain rfl : candidates = [] := none
    have classified : classifyProseAttempt (.ok []) chars = .emptyOrMalformed "model returned zero candidates" :=
      if_pos enough
    exact ⟨_, classified⟩
  · exact ⟨_, if_pos enough⟩

theorem classify_usable {chars : Nat} {answer : ProseAnswer} (usable : ¬Unusable chars answer) :
    (∃ candidates, proseResult answer = .ok candidates ∧
        classifyProseAttempt (proseResult answer) chars = .candidates candidates) ∨
      ∃ error, proseResult answer = .error error ∧ classifyProseAttempt (proseResult answer) chars = .hardError error := by
  cases answer with
  | ok result =>
    refine .inl ⟨result.candidates, rfl, ?_⟩
    change (if !result.candidates.isEmpty then _ else _) = _
    by_cases found : result.candidates.isEmpty = true
    · have little : ¬proseWindowSubstantiveContentChars ≤ chars := fun enough =>
        usable ⟨enough, .inl ⟨result, rfl, List.isEmpty_iff.mp found⟩⟩
      simp [found, little]
    · simp [found]
  | error error =>
    refine .inr ⟨.episodeExtraction error, rfl, ?_⟩
    cases error with
    | unexpected message =>
      have little : ¬proseWindowSubstantiveContentChars ≤ chars := fun enough => usable ⟨enough, .inr ⟨message, rfl⟩⟩
      simp [classifyProseAttempt, proseResult, Except.map, Except.mapError, little]
    | providerUnavailable message => rfl
    | invalidTranscript message => rfl
    | timeout timeoutMs => rfl

theorem ProseRun.again {transcript : SessionTranscript} {chars attempts : Nat} {calls : List WindowExchange}
    {outcome : Except WindowError (List ExtractedSkillCandidate)} (later : ProseRun transcript chars attempts calls outcome)
    {answer : ProseAnswer} (unusable : Unusable chars answer) :
    ProseRun transcript chars (attempts + 1) (extracted transcript answer :: calls) outcome := by
  obtain ⟨tried, each, ⟨full, rfl, rfl⟩ | ⟨short, last, usable, rfl, rfl⟩⟩ := later
  · exact ⟨answer :: tried, List.forall_mem_cons.mpr ⟨unusable, each⟩, .inl ⟨congrArg Nat.succ full, rfl, rfl⟩⟩
  · exact ⟨answer :: tried, List.forall_mem_cons.mpr ⟨unusable, each⟩,
      .inr ⟨Nat.succ_lt_succ short, last, usable, rfl, rfl⟩⟩

theorem proseRun_of_exchanges {transcript : SessionTranscript} {chars retries : Nat} {calls : List WindowExchange}
    {outcome : Except WindowError (List ExtractedSkillCandidate)}
    (exchanged : (retryProseWindow transcript chars retries).Exchanges calls (.ofExcept outcome)) :
    ProseRun transcript chars retries calls outcome := by
  induction retries generalizing calls with
  | zero =>
    cases outcome with
    | error error => cases exchanged
    | ok candidates =>
      cases exchanged
      exact ⟨[], nofun, .inl ⟨rfl, rfl, rfl⟩⟩
  | succ retries ih =>
    unfold retryProseWindow at exchanged
    obtain ⟨answer, later, rfl, rest⟩ := exchanged.of_ask
    by_cases unusable : Unusable chars answer
    · obtain ⟨reason, classified⟩ := classify_unusable unusable
      rw [classified] at rest
      exact (ih rest).again unusable
    · have settled : later = [] ∧ outcome = proseResult answer := by
        obtain ⟨candidates, found, classified⟩ | ⟨error, found, classified⟩ := classify_usable unusable
        · rw [classified] at rest
          obtain ⟨silent, same⟩ := Program.Exchanges.of_done rest
          exact ⟨silent, same.trans found.symm⟩
        · rw [classified] at rest
          obtain ⟨silent, same⟩ := Program.Exchanges.of_fail rest
          exact ⟨silent, same.trans found.symm⟩
      obtain ⟨rfl, rfl⟩ := settled
      exact ⟨[], nofun, .inr ⟨Nat.succ_pos _, answer, unusable, rfl, rfl⟩⟩

/-! ### The task of a window -/

variable {calls : List WindowExchange} {outcome : Except WindowError (List ExtractedSkillCandidate)}

section Window

variable (json twoDecimals) (own : List SessionEvent) (sessionId : DomainId) (preambleText : Str)

/-- The prose extraction of a window: its own transcript, at most three times. -/
def WindowProse (calls : List WindowExchange) (outcome : Except WindowError (List ExtractedSkillCandidate)) : Prop :=
  ProseRun (windowTranscript own sessionId preambleText) (windowContentChars own) 3 calls outcome

/-- What the task of a window asks until it returns, and what it returns: the prose first, always;
then a label for the skeleton of the window's own events, if they have one. -/
inductive WindowReturned : List WindowExchange → Except WindowError (List ExtractedSkillCandidate) → Prop where
  | blank (empty : own = []) : WindowReturned [] (.ok [])
  | failed {calls : List WindowExchange} {error : WindowError} (some : own ≠ [])
      (prose : WindowProse own sessionId preambleText calls (.error error)) : WindowReturned calls (.error error)
  | plain {calls : List WindowExchange} {candidates : List ExtractedSkillCandidate} (some : own ≠ [])
      (prose : WindowProse own sessionId preambleText calls (.ok candidates))
      (unmined : mineSkeleton json own = none) : WindowReturned calls (.ok candidates)
  | labelled {calls : List WindowExchange} {candidates : List ExtractedSkillCandidate} {skeleton : ProcedureSkeleton}
      (some : own ≠ []) (prose : WindowProse own sessionId preambleText calls (.ok candidates))
      (mined : mineSkeleton json own = .some skeleton) (answer : Except SkeletonError SkeletonLabel) :
      WindowReturned (calls ++ [⟨.label skeleton, answer⟩])
        (addMapOutcome candidates (mapEpisode json twoDecimals (fun _ => answer) own))

end Window

variable {own : List SessionEvent} {sessionId : DomainId} {preambleText : Str}

theorem windowReturned_of_exchanges
    (exchanged : (mapOneWindow json twoDecimals own sessionId preambleText).Exchanges calls (.ofExcept outcome)) :
    WindowReturned json twoDecimals own sessionId preambleText calls outcome := by
  unfold mapOneWindow at exchanged
  by_cases empty : own.isEmpty = true
  · rw [if_pos empty] at exchanged
    obtain ⟨rfl, rfl⟩ := Program.Exchanges.of_done exchanged
    exact .blank (List.isEmpty_iff.mp empty)
  · rw [if_neg empty] at exchanged
    have some : own ≠ [] := fun none => empty (List.isEmpty_iff.mpr none)
    obtain ⟨candidates, first, second, rfl, prose, rest⟩ | ⟨error, rfl, prose⟩ := exchanged.of_bind
    · have found : WindowProse own sessionId preambleText first (.ok candidates) :=
        @proseRun_of_exchanges _ _ _ _ (.ok candidates) prose
      unfold mapEpisodeAsking at rest
      cases mined : mineSkeleton json own with
      | none =>
        rw [mined] at rest
        obtain ⟨rfl, rfl⟩ := Program.Exchanges.of_done rest
        rw [List.append_nil]
        exact .plain some found mined
      | some skeleton =>
        rw [mined] at rest
        obtain ⟨answer, later, rfl, ended⟩ := Program.Exchanges.of_ask rest
        obtain ⟨rfl, rfl⟩ := Program.Exchanges.of_ofExcept ended
        exact .labelled some found mined answer
    · exact .failed some (@proseRun_of_exchanges _ _ _ _ (.error error) prose)

theorem within_retryProseWindow (transcript : SessionTranscript) (chars retries : Nat) :
    (retryProseWindow transcript chars retries).Within retries := by
  induction retries with
  | zero => trivial
  | succ retries ih =>
    intro answer
    change Program.Within retries (match classifyProseAttempt (proseResult answer) chars with
      | .candidates candidates => return candidates
      | .hardError error => .fail error
      | .emptyOrMalformed _ => retryProseWindow transcript chars retries)
    cases classifyProseAttempt (proseResult answer) chars with
    | candidates candidates => exact (Program.within_ofExcept (.ok candidates)).mono (Nat.zero_le _)
    | hardError error => exact (Program.within_ofExcept (.error error)).mono (Nat.zero_le _)
    | emptyOrMalformed reason => exact ih

/-- Three extractions and a label. -/
theorem within_mapOneWindow (own : List SessionEvent) (sessionId : DomainId) (preambleText : Str) :
    (mapOneWindow json twoDecimals own sessionId preambleText).Within 4 := by
  unfold mapOneWindow
  by_cases empty : own.isEmpty = true
  · rw [if_pos empty]
    trivial
  · rw [if_neg empty]
    change Program.Within (3 + 1) _
    refine Program.Within.bind (within_retryProseWindow _ _ 3) fun candidates => ?_
    change Program.Within (1 + 0) _
    refine Program.Within.bind ?_ fun outcome => Program.within_ofExcept _
    unfold mapEpisodeAsking
    cases mineSkeleton json own with
    | none => trivial
    | some skeleton => exact fun answer => trivial

theorem windowAnswer_nonempty (request : WindowCall) : Nonempty (WindowAnswer request) := by
  cases request with
  | extract transcript => exact ⟨.error (.timeout 0)⟩
  | label skeleton => exact ⟨.error (.labelerFailed [])⟩

/-! ### Any run of the tasks -/

section Run

variable (json twoDecimals) (events : List SessionEvent) (windows : List Episode) (sessionId : DomainId) (preambleText : Str)

/-- What is known of the tasks of the windows at any instant. -/
structure WindowsMapped (mapConcurrency : Nat) (set : WindowTasks windows.length) : Prop where
  bounded : set.running.card ≤ max mapConcurrency 1
  /-- Without a permit nothing is asked, -/
  waiting : ∀ window, set.stage window = .waiting → set.calls window = []
  /-- and with one only what the window's task may ask, up to where it is, -/
  proper : ∀ window, ∃ more outcome, WindowReturned json twoDecimals (windowEvents events (windows.get window)) sessionId
    preambleText (set.calls window ++ more) outcome
  /-- or to its return. -/
  returned : ∀ window outcome, set.stage window = .ended (.returned outcome) →
    WindowReturned json twoDecimals (windowEvents events (windows.get window)) sessionId preambleText
      (set.calls window) outcome
  once : (set.joined.map Prod.fst).Nodup
  joined : ∀ window ending, (window, ending) ∈ set.joined → set.stage window = .ended ending

end Run

variable {events : List SessionEvent} {windows : List Episode} {mapConcurrency : Nat} {set : WindowTasks windows.length}

/-- However the tasks of the windows interleave, whatever the models answer and whichever tasks
panic, no more of them work than there are permits, and each asks and returns what a window's task may. -/
theorem windows_mapped
    (reached : (mapTasks json twoDecimals events windows sessionId preambleText mapConcurrency).runs.Reachable set) :
    WindowsMapped json twoDecimals events windows sessionId preambleText mapConcurrency set := by
  have sound := Tasks.sound_of_reachable reached
  refine ⟨sound.bounded, fun window waits => sound.staged waits, ?_, ?_, sound.once, sound.joined⟩
  · intro window
    obtain ⟨rest, exchanged⟩ := sound.begun window
    obtain ⟨more, outcome, complete⟩ := exchanged.completes windowAnswer_nonempty
    exact ⟨more, outcome, windowReturned_of_exchanges complete⟩
  · intro window outcome ended
    exact windowReturned_of_exchanges (sound.staged ended)

/-! A session of one message, which the model finds a skill in when it is asked again. -/

def sampleMessage : List SessionEvent := [.userMessage 0
  "When the linker reports a missing symbol, run the code generator again before the workspace is compiled once more.".toList]

def sampleWindows : List Episode := [⟨[0], none⟩]

def sampleSession : DomainId := ⟨"session-1".toList⟩

def sampleSkill : ExtractedSkillCandidate :=
  ⟨"regenerate-before-build", "Run the code generator first", [], ["run the generator", "build"], [], [], none, none⟩

def sampleTasks : Tasks sampleWindows.length WindowCall WindowAnswer WindowError (List ExtractedSkillCandidate) :=
  mapTasks (.onText [] .null []) (fun _ => "0.90".toList) sampleMessage sampleWindows sampleSession [] 4

/-- Nothing was found at first. -/
def sampleAnswers : List WindowExchange :=
  [extracted (windowTranscript sampleMessage sampleSession []) (.ok ⟨sampleSession, [], "ollama".toList⟩),
    extracted (windowTranscript sampleMessage sampleSession []) (.ok ⟨sampleSession, [sampleSkill], "ollama".toList⟩)]

set_option maxRecDepth 4000 in
theorem sampleTasks_joined : ∃ set : WindowTasks sampleWindows.length, sampleTasks.runs.Reachable set ∧
    (∀ window, set.Joined window) ∧ set.calls ⟨0, Nat.one_pos⟩ = sampleAnswers ∧
    set.stage ⟨0, Nat.one_pos⟩ = .ended (.returned (.ok [sampleSkill])) := by
  have start : sampleTasks.runs.Reachable (⟨fun _ => .waiting, fun _ => [], []⟩ : WindowTasks sampleWindows.length) :=
    .start ⟨fun _ => rfl, fun _ => rfl, rfl⟩
  have begun := start.next (.acquire ⟨0, Nat.one_pos⟩ rfl (by decide))
  have asked := begun.next (.call ⟨0, Nat.one_pos⟩ rfl (.ok ⟨sampleSession, [], "ollama".toList⟩))
  have again := asked.next (.call ⟨0, Nat.one_pos⟩ rfl (.ok ⟨sampleSession, [sampleSkill], "ollama".toList⟩))
  have ended := again.next (.finish ⟨0, Nat.one_pos⟩ (.ok [sampleSkill]) rfl)
  have joined := ended.next (.join ⟨0, Nat.one_pos⟩ rfl List.not_mem_nil)
  refine ⟨_, joined, fun window => ?_, rfl, rfl⟩
  obtain rfl : window = ⟨0, Nat.one_pos⟩ := Fin.ext (Nat.lt_one_iff.mp window.isLt)
  exact List.mem_singleton_self _

theorem windows_mapped_retried : ∃ set : WindowTasks sampleWindows.length, WindowsMapped (.onText [] .null [])
    (fun _ => "0.90".toList) sampleMessage sampleWindows sampleSession [] 4 set ∧
    set.calls ⟨0, Nat.one_pos⟩ = sampleAnswers := by
  obtain ⟨set, reached, -, asked, -⟩ := sampleTasks_joined
  exact ⟨set, windows_mapped reached, asked⟩

/-! ### What the pipeline goes on with -/

theorem segmentSession_ne_nil (some : events ≠ []) (config : SegmentationConfig) : segmentSession events config ≠ [] := by
  have longer : 0 < (indexed events).length := by
    rw [length_indexed]
    exact List.length_pos_iff.mpr some
  have filled : ¬events.isEmpty = true := fun empty => some (List.isEmpty_iff.mp empty)
  rw [segmentSession, if_neg filled, splitIntoOverlapWindows, if_pos longer]
  exact List.cons_ne_nil _ _

/-- The window's task has returned these candidates. -/
def Succeeded (set : WindowTasks windows.length) (window : Fin windows.length) (candidates : List ExtractedSkillCandidate) :
    Prop :=
  set.stage window = .ended (.returned (.ok candidates))

def candidatesOf : TaskStage WindowCall WindowAnswer WindowError (List ExtractedSkillCandidate) Str →
    List ExtractedSkillCandidate
  | .ended (.returned (.ok candidates)) => candidates
  | _ => []

theorem windowsSucceeded_add_errors (results : List WindowResult) :
    windowsSucceeded results + (windowErrors results).length = results.length := by
  induction results with
  | nil => rfl
  | cons result rest ih =>
    cases result with
    | ok candidates =>
      change (rest.filter Except.isOk).length + 1 + (windowErrors rest).length = rest.length + 1
      rw [← ih, windowsSucceeded, Nat.add_right_comm]
    | error error =>
      change windowsSucceeded rest + ((windowErrors rest).length + 1) = rest.length + 1
      rw [← ih, Nat.add_assoc]

theorem windowsSucceeded_eq_zero {results : List WindowResult} :
    windowsSucceeded results = 0 ↔ ∀ candidates, .ok candidates ∉ results := by
  rw [windowsSucceeded, List.length_eq_zero_iff, List.filter_eq_nil_iff]
  constructor
  · exact fun none candidates member => none _ member rfl
  · rintro none (error | candidates) member
    · exact Bool.false_ne_true
    · exact absurd member (none candidates)

theorem windowCandidates_eq (joined : List (Fin windows.length × Ending WindowError (List ExtractedSkillCandidate) Str)) :
    windowCandidates (joined.map fun one => windowResult one.2) =
      joined.flatMap fun one => candidatesOf (.ended one.2) := by
  induction joined with
  | nil => rfl
  | cons one rest ih =>
    obtain ⟨window, (error | candidates) | fault⟩ := one
    · exact ih
    · exact congrArg (candidates ++ ·) ih
    · exact ih

theorem windowResult_eq_ok {ending : Ending WindowError (List ExtractedSkillCandidate) Str}
    {candidates : List ExtractedSkillCandidate} (same : windowResult ending = .ok candidates) :
    ending = .returned (.ok candidates) := by
  obtain (error | found) | fault := ending
  · cases same
  · cases same
    rfl
  · cases same

section Concluded

variable (sound : Tasks.Sound (mapTasks json twoDecimals events windows sessionId preambleText mapConcurrency) set)

include sound

/-- The candidates that are collected are those of the windows that succeeded, in the order of the joins. -/
theorem perm_windowCandidates (all : ∀ window, set.Joined window) : (windowCandidates (joinedResults set)).Perm
    ((List.finRange windows.length).flatMap fun window => candidatesOf (set.stage window)) := by
  have staged : (set.joined.flatMap fun one => candidatesOf (.ended one.2)) =
      (set.joined.map Prod.fst).flatMap fun window => candidatesOf (set.stage window) := by
    rw [List.flatMap_map]
    refine List.flatMap_congr fun one member => ?_
    rw [sound.joined one.1 one.2 member]
  rw [joinedResults, windowCandidates_eq, staged]
  exact (sound.perm_joined all).flatMap_right _

theorem length_joinedResults (all : ∀ window, set.Joined window) : (joinedResults set).length = windows.length := by
  have same := (sound.perm_joined all).length_eq
  rw [List.length_map, List.length_finRange] at same
  rw [joinedResults, List.length_map, same]

theorem windowsSucceeded_joined (all : ∀ window, set.Joined window) :
    windowsSucceeded (joinedResults set) = 0 ↔ ∀ window candidates, ¬Succeeded set window candidates := by
  rw [windowsSucceeded_eq_zero]
  constructor
  · intro none window candidates succeeded
    obtain ⟨⟨other, ending⟩, member, same⟩ := List.mem_map.mp (all window)
    obtain rfl : other = window := same
    have stands := sound.joined other ending member
    cases succeeded.symm.trans stands
    exact none candidates (List.mem_map.mpr ⟨_, member, rfl⟩)
  · intro none candidates member
    obtain ⟨⟨window, ending⟩, joined, same⟩ := List.mem_map.mp member
    have stands := sound.joined window ending joined
    have returned : ending = .returned (.ok candidates) := windowResult_eq_ok same
    rw [returned] at stands
    exact none window candidates stands

end Concluded

/-- When every window is joined: each was, once; all count as succeeded or as failed; the pipeline
fails when none succeeded, and else goes on with all that was found. -/
structure MapConcluded (events : List SessionEvent) (windows : List Episode) (sessionId : DomainId)
    (set : WindowTasks windows.length) : Prop where
  each : (set.joined.map Prod.fst).Perm (List.finRange windows.length)
  counted : windowsSucceeded (joinedResults set) + (windowErrors (joinedResults set)).length = windows.length
  pipeline : ∀ (Audit : Type) (seams : Seams Audit) (preamble : Preamble), events ≠ [] →
    seams.minePreamble events = .ok preamble → segmentSession events seams.segmentation = windows →
    (∀ results, seams.joinOrder results = joinedResults set) →
      ((∀ window candidates, ¬Succeeded set window candidates) → groundCandidates seams sessionId events =
        .error (.allWindowsFailed windows.length (windowErrors (joinedResults set)))) ∧
      ∀ window found, Succeeded set window found → ∃ candidates,
        candidates.Perm ((List.finRange windows.length).flatMap (fun window => candidatesOf (set.stage window)) ++
          preamble.preferenceSkillCandidates) ∧
        groundCandidates seams sessionId events = (seams.reduceCandidates candidates).map fun reduced =>
          ⟨preamble.text, windows.length, candidates.length, reduced.1, reduced.2⟩

theorem mapConcluded (sound : Tasks.Sound (mapTasks json twoDecimals events windows sessionId preambleText mapConcurrency) set)
    (all : ∀ window, set.Joined window) : MapConcluded events windows sessionId set := by
  have counted : windowsSucceeded (joinedResults set) + (windowErrors (joinedResults set)).length = windows.length := by
    rw [windowsSucceeded_add_errors, length_joinedResults sound all]
  refine ⟨sound.perm_joined all, counted, ?_⟩
  intro Audit seams preamble some mined segmented joins
  have filled : ¬events.isEmpty = true := fun empty => some (List.isEmpty_iff.mp empty)
  have windowed : windows ≠ [] := segmented ▸ segmentSession_ne_nil some seams.segmentation
  constructor
  · intro none
    have zero := (windowsSucceeded_joined sound all).mpr none
    have errors : windowErrors (joinedResults set) ≠ [] := by
      intro empty
      rw [zero, empty] at counted
      exact windowed (List.length_eq_zero_iff.mp counted.symm)
    simp only [groundCandidates, filled, mined, segmented, joins, zero, errors, ne_eq, not_false_eq_true, and_self, if_true]
    rfl
  · intro window found succeeded
    have positive : ¬windowsSucceeded (joinedResults set) = 0 := fun zero =>
      (windowsSucceeded_joined sound all).mp zero window found succeeded
    refine ⟨windowCandidates (joinedResults set) ++ preamble.preferenceSkillCandidates,
      (perm_windowCandidates sound all).append_right _, ?_⟩
    simp only [groundCandidates, filled, mined, segmented, joins, positive, false_and, if_false]
    change (do
      let reduced ← seams.reduceCandidates (windowCandidates (joinedResults set) ++ preamble.preferenceSkillCandidates)
      Except.ok (GroundedCandidates.mk preamble.text windows.length _ reduced.1 reduced.2)) = _
    cases seams.reduceCandidates (windowCandidates (joinedResults set) ++ preamble.preferenceSkillCandidates) with
    | error error => rfl
    | ok reduced => rfl

/-- The map step comes to its end, at the latest after seven steps for each window; until then a
step is possible, and then the pipeline has what every window came to. -/
theorem windows_joined
    (reached : (mapTasks json twoDecimals events windows sessionId preambleText mapConcurrency).runs.Reachable set) :
    Tasks.stepsLeft 4 set ≤ 7 * windows.length ∧
      (∀ after, (mapTasks json twoDecimals events windows sessionId preambleText mapConcurrency).Step set after →
        Tasks.stepsLeft 4 after < Tasks.stepsLeft 4 set) ∧
      ((∃ window, ¬set.Joined window) →
        ∃ after, (mapTasks json twoDecimals events windows sessionId preambleText mapConcurrency).Step set after) ∧
      ((∀ window, set.Joined window) → MapConcluded events windows sessionId set) := by
  have sound := Tasks.sound_of_reachable reached
  refine ⟨?_, ?_, ?_, mapConcluded sound⟩
  · have bounded := Tasks.stepsLeft_le 4 set
    rwa [Nat.mul_comm] at bounded
  · exact fun after step => sound.stepsLeft_step (fun window => within_mapOneWindow _ _ _) step
  · rintro ⟨window, open_⟩
    exact Tasks.enabled windowAnswer_nonempty (Nat.lt_of_lt_of_le Nat.zero_lt_one (Nat.le_max_right _ _)) open_

theorem windows_joined_found : ∃ set : WindowTasks sampleWindows.length,
    MapConcluded sampleMessage sampleWindows sampleSession set ∧ Succeeded set ⟨0, Nat.one_pos⟩ [sampleSkill] := by
  obtain ⟨set, reached, all, -, succeeded⟩ := sampleTasks_joined
  exact ⟨set, (windows_joined reached).2.2.2 all, succeeded⟩

end SkillLayer.SessionExtractor

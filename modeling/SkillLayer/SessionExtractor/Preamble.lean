import Mathlib.Data.List.Infix
import SkillLayer.Domain.Types
import SkillLayer.Json
import SkillLayer.Tally

/-! The session preamble: preferences and project facts mined from the event stream, rendered
under a token cap. -/

namespace SkillLayer.SessionExtractor

open Domain

def preambleHardTokenCap : Nat := 512

def approximateTokenCount (text : Str) : Nat := (Str.byteLength text + 3) / 4

inductive PreferenceGenerality where
  | general
  | uncertain
deriving DecidableEq

structure DetectedPreference where
  rawStatement : Str
  generality : PreferenceGenerality
deriving DecidableEq

structure ProjectFacts where
  repoName : Option Str
  primaryLanguage : Option Str
  salientPaths : List Str
  statedConventions : List Str
deriving DecidableEq

namespace ProjectFacts

def withPaths (facts : ProjectFacts) (salientPaths : List Str) : ProjectFacts :=
  ⟨facts.repoName, facts.primaryLanguage, salientPaths, facts.statedConventions⟩

def withConventions (facts : ProjectFacts) (statedConventions : List Str) : ProjectFacts :=
  ⟨facts.repoName, facts.primaryLanguage, facts.salientPaths, statedConventions⟩

end ProjectFacts

structure PreambleDraft where
  preferences : List DetectedPreference
  facts : ProjectFacts
deriving DecidableEq

/-- The source's `Preamble` with all its fields. -/
structure MinedPreamble where
  text : Str
  preferences : List DetectedPreference
  facts : ProjectFacts
  approximateTokens : Nat
deriving DecidableEq

inductive NormalizationError where
  | providerFailure (message : Str)
  | parseFailure (message : Str)
deriving DecidableEq

/-! ### Preference detection -/

def preferenceSignalPhrases : List Str :=
  ["always ", "never ", "prefer ", "don't ", "do not ", "i want ", "use ", "avoid ", "make sure ",
    "please use ", "please don't ", "please never ", "please always "]

def projectScopeSignals : List Str :=
  ["this project", "this repo", "our repo", "this codebase", "our codebase", "here ", "in this ", "for this "]

/-- One of the phrases occurs in the text. -/
def containsAny (phrases : List Str) (text : Str) : Bool :=
  phrases.any fun phrase => decide (phrase <:+: text)

def containsProjectScopingSignal (lowerSentence : Str) : Bool := containsAny projectScopeSignals lowerSentence

def isSentenceEnd (c : Char) : Bool := c == '.' || c == '!' || c == '?' || c == '\n'

/-- The loop of the splitter, with the slice since the last sentence end. -/
def sentencesFrom (slice : Str) : Str → List Str
  | [] => if Str.isBlank slice then [] else [slice]
  | c :: rest =>
    if isSentenceEnd c then
      if Str.isBlank (slice ++ [c]) then sentencesFrom [] rest else (slice ++ [c]) :: sentencesFrom [] rest
    else sentencesFrom (slice ++ [c]) rest

def splitIntoSentences (text : Str) : List Str := sentencesFrom [] text

def detectPreference (sentence : Str) : Option DetectedPreference :=
  let trimmed := Str.trim sentence
  if trimmed.isEmpty then none
  else
    let lower := Str.toAsciiLowercase trimmed
    if containsAny preferenceSignalPhrases lower then
      some ⟨trimmed, if containsProjectScopingSignal lower then .uncertain else .general⟩
    else none

def detectPreferencesInUserTurn (content : Str) : List DetectedPreference :=
  (splitIntoSentences content).filterMap detectPreference

/-- The preferences whose normalised statement is not among those seen. -/
def keepUnseen (seen : List Str) : List DetectedPreference → List DetectedPreference
  | [] => []
  | preference :: rest =>
    let statement := Str.toAsciiLowercase (Str.trim preference.rawStatement)
    if statement ∈ seen then keepUnseen seen rest else preference :: keepUnseen (statement :: seen) rest

def deduplicatePreferences (preferences : List DetectedPreference) : List DetectedPreference :=
  keepUnseen [] preferences

/-! ### Project facts -/

def extractBashCommand (json : SerdeJson) (inputJson : Str) : Option Str :=
  match json.fromStr inputJson with
  | .ok value => (value.get? "command").bind Value.asStr?
  | .error _ => none

def detectLanguageFromCommand (command : Str) : Option Str :=
  let lower := Str.toAsciiLowercase command
  if containsAny ["cargo ", "rustc ", "rust-analyzer"] lower then some "Rust"
  else if containsAny ["npm ", "yarn ", "pnpm "] lower then some "TypeScript"
  else if containsAny ["python ", "pip ", "uv "] lower then some "Python"
  else if containsAny ["go "] lower && containsAny ["go build", "go test"] lower then some "Go"
  else if containsAny ["mvn ", "gradle "] lower then some "Java"
  else none

def hasExtension (extensions : List Str) (path : Str) : Bool :=
  extensions.any fun extension => extension.isSuffixOf path

def detectLanguageFromPath (path : Str) : Option Str :=
  if hasExtension [".rs"] path then some "Rust"
  else if hasExtension [".ts", ".tsx"] path then some "TypeScript"
  else if hasExtension [".js", ".jsx"] path then some "JavaScript"
  else if hasExtension [".py"] path then some "Python"
  else if hasExtension [".go"] path then some "Go"
  else if hasExtension [".java"] path then some "Java"
  else none

def systemDirs : List Str := ["home", "usr", "var", "tmp", "opt", "etc", "root", "srv"]

/-- The components of a path without its system directories and the name after each of them. -/
def interesting : (skipNext : Bool) → List Str → List Str
  | _, [] => []
  | true, _ :: rest => interesting false rest
  | false, component :: rest =>
    if component ∈ systemDirs then interesting true rest else component :: interesting false rest

def trimLeadingSlashes (path : Str) : Str := path.dropWhile (· == '/')

def salientPathFromFilePath (path : Str) : Option Str :=
  let components := (Str.splitOn '/' (trimLeadingSlashes (Str.trim path))).filter fun c => !c.isEmpty
  match interesting false components with
  | [] => none
  | [only] => some only
  | [first, second] => some (first ++ '/' :: second)
  | _ :: second :: third :: _ => some (second ++ '/' :: third)

def extractRepoNameFromPath (path : Str) : Option Str :=
  (interesting false (Str.splitOn '/' (trimLeadingSlashes path))).find? fun component =>
    1 < Str.byteLength component

/-- The value counted most often; `max_by_key` takes the last of several. -/
def pluralityVote (votes : List Str) : Option Str :=
  if votes.isEmpty then none else (lastArgmax Prod.snd (tally votes)).map Prod.fst

/-! ### The mining pass -/

/-- What the pass over the events has collected. -/
structure MinedSignals where
  preferences : List DetectedPreference
  salientPaths : List Str
  rawFilePaths : List Str
  languageVotes : List Str

def mineEvent (json : SerdeJson) (mined : MinedSignals) (event : SessionEvent) : MinedSignals :=
  match event with
  | .userMessage _ content =>
    { mined with preferences := mined.preferences ++ detectPreferencesInUserTurn content }
  | .toolCall _ _ name inputJson =>
    if name = "Bash".toList then
      let vote := (extractBashCommand json inputJson).bind detectLanguageFromCommand
      { mined with languageVotes := mined.languageVotes ++ vote.toList }
    else mined
  | .fileEdit _ _ path _ =>
    { mined with
      rawFilePaths := mined.rawFilePaths ++ [path]
      salientPaths := mined.salientPaths ++ (salientPathFromFilePath path).toList
      languageVotes := mined.languageVotes ++ (detectLanguageFromPath path).toList }
  | _ => mined

/-- The salient paths are an ordered set, of which the first ten are kept. -/
def mineDraftDeterministic (json : SerdeJson) (events : List SessionEvent) : PreambleDraft :=
  let mined := events.foldl (mineEvent json) ⟨[], [], [], []⟩
  { preferences := deduplicatePreferences mined.preferences
    facts :=
      { repoName := mined.rawFilePaths.findSome? extractRepoNameFromPath
        primaryLanguage := pluralityVote mined.languageVotes
        salientPaths := (Str.sorted mined.salientPaths.eraseDups).take 10
        statedConventions := [] } }

/-! ### The token cap -/

def factLines (facts : ProjectFacts) : List Str :=
  (facts.repoName.map fun repo => "Repo: ".toList ++ repo).toList ++
    (facts.primaryLanguage.map fun language => "Language: ".toList ++ language).toList ++
    (if facts.salientPaths.isEmpty then [] else ["Key paths: ".toList ++ Str.join ", " facts.salientPaths]) ++
    facts.statedConventions.map fun convention => "Convention: ".toList ++ convention

def factSection (facts : ProjectFacts) : List Str :=
  if (factLines facts).isEmpty then [] else ["[Project facts]\n".toList ++ Str.join "\n" (factLines facts)]

def preferenceSection (preferences : List DetectedPreference) : List Str :=
  if preferences.isEmpty then []
  else
    ["[Standing user preferences]\n".toList ++
      Str.join "\n" (preferences.map fun preference => "- ".toList ++ Str.trim preference.rawStatement)]

def renderPreambleText (preferences : List DetectedPreference) (facts : ProjectFacts) : Str :=
  Str.join "\n\n" (factSection facts ++ preferenceSection preferences)

def draftTokens (draft : PreambleDraft) : Nat :=
  approximateTokenCount (renderPreambleText draft.preferences draft.facts)

/-- The loop: one item of the lowest priority is dropped until the text fits. -/
def enforceTokenCapAndBuild (draft : PreambleDraft) : MinedPreamble :=
  if draftTokens draft ≤ preambleHardTokenCap then
    ⟨renderPreambleText draft.preferences draft.facts, draft.preferences, draft.facts, draftTokens draft⟩
  else if draft.facts.salientPaths ≠ [] then
    enforceTokenCapAndBuild ⟨draft.preferences, draft.facts.withPaths draft.facts.salientPaths.dropLast⟩
  else if draft.facts.statedConventions ≠ [] then
    enforceTokenCapAndBuild ⟨draft.preferences, draft.facts.withConventions draft.facts.statedConventions.dropLast⟩
  else if draft.preferences ≠ [] then
    enforceTokenCapAndBuild ⟨draft.preferences.dropLast, draft.facts⟩
  else ⟨[], draft.preferences, draft.facts, 0⟩
termination_by draft.facts.salientPaths.length + draft.facts.statedConventions.length + draft.preferences.length
decreasing_by
  all_goals
    rename_i some
    have shorter := List.length_pos_of_ne_nil some
    simp only [ProjectFacts.withPaths, ProjectFacts.withConventions, List.length_dropLast]
    omega

def minePreamble (json : SerdeJson) (events : List SessionEvent)
    (normalizer : Option (PreambleDraft → Except NormalizationError PreambleDraft)) :
    Except NormalizationError MinedPreamble := do
  let draft := mineDraftDeterministic json events
  let normalisedDraft ← (match normalizer with
    | some normalize => normalize draft
    | none => .ok draft)
  return enforceTokenCapAndBuild normalisedDraft

end SkillLayer.SessionExtractor

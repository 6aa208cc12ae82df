import SkillLayer.Retrieval.RetrievalContract

/-! The compiler: selected skills with their rescue cues and match reasons, rendered as markdown. -/

namespace SkillLayer

def Domain.ScopeType.asStr : Domain.ScopeType → Str
  | .project => "project"
  | .global => "global"
  | .team => "team"

namespace Compiler

open Domain

structure CompilerHighlightInput where
  kind : SubunitType
  title : Str
  content : Str
  relevance : Rat

structure CompilerSkillInput where
  name : Str
  description : Str
  score : Rat
  highlights : List CompilerHighlightInput
  matchedScope : Str
  rationale : List Str

structure CompilerRescueCueInput where
  sourceSkill : Str
  title : Str
  content : Str
  relevance : Rat

structure CompiledSkillContext where
  name : Str
  description : Str
  score : Str
  highlights : List Str
  rescueCues : List Str
  matchReason : Str

/-! ### Match reasons -/

def scoreBucket (score : Rat) : Str :=
  if 2 / 5 ≤ score then "high" else if 1 / 5 ≤ score then "medium" else "low"

/-- The tokens of the rationale that a reader can make sense of. -/
def isInformative (token : Str) : Bool :=
  "semantic=".toList.isPrefixOf token || "lexical=".toList.isPrefixOf token

def buildMatchReason (skill : CompilerSkillInput) : Str :=
  Str.join " | " (["scope=" ++ skill.matchedScope, "bucket=" ++ scoreBucket skill.score] ++
    skill.rationale.filter isInformative)

/-! ### Rescue cues -/

variable (services : Retrieval.RankServices)

def tokenize (input : Str) : List Str := Retrieval.tokenize services.toSearchServices input

def tokenOverlapScore (lhs rhs : List Str) : Rat := Retrieval.tokenOverlapScore lhs rhs

def compositeScore (skill : CompilerSkillInput) (cue : CompilerRescueCueInput) : Rat :=
  let skillTokens := tokenize services (skill.name ++ " " ++ skill.description)
  let cueTokens := tokenize services (cue.title ++ " " ++ cue.content)
  3 / 5 * cue.relevance + 2 / 5 * tokenOverlapScore skillTokens cueTokens

/-- The cues of other skills, the best first. -/
def rankedRescue (skill : CompilerSkillInput) (rescuePool : List CompilerRescueCueInput) (maxRescuePerSkill : Nat) :
    List CompilerRescueCueInput :=
  let foreign := rescuePool.filter fun cue => cue.sourceSkill ≠ skill.name
  let scored := (foreign.map fun cue => (cue, compositeScore services skill cue)).filter fun entry => 0 < entry.2
  ((scored.insertionSort fun left right => right.2 ≤ left.2).take maxRescuePerSkill).map Prod.fst

def attachRescueCues (skills : List CompilerSkillInput) (rescuePool : List CompilerRescueCueInput)
    (maxRescuePerSkill : Nat) : List CompiledSkillContext :=
  skills.map fun skill =>
    { name := skill.name
      description := skill.description
      score := services.decimals 3 skill.score
      highlights := skill.highlights.map fun highlight =>
        "- [" ++ services.toLowercase (SubunitType.debug highlight.kind) ++ "] " ++ highlight.title ++ " — " ++
          highlight.content
      rescueCues := (rankedRescue services skill rescuePool maxRescuePerSkill).map fun cue =>
        "- from `" ++ cue.sourceSkill ++ "`: " ++ cue.title ++ " — " ++ cue.content
      matchReason := buildMatchReason skill }

/-! ### Markdown -/

def renderLines (heading : Str) (entries : List Str) : Str :=
  if entries.isEmpty then [] else heading ++ entries.flatMap fun entry => entry ++ ['\n']

def renderSkill (skill : CompiledSkillContext) : Str :=
  "\n## Skill: " ++ skill.name ++ "\n- Description: " ++ skill.description ++ "\n- Score: " ++ skill.score ++ "\n" ++
    renderLines "### Highlights\n" skill.highlights ++ renderLines "### Rescue cues\n" skill.rescueCues

def renderReason (skill : CompiledSkillContext) : Str := "- " ++ skill.name ++ ": " ++ skill.matchReason ++ "\n"

def renderMarkdown (prompt : Str) (skills : List CompiledSkillContext) : Str :=
  if skills.isEmpty then []
  else
    "# Compiled Context\n\nPrompt: `" ++ prompt ++ "`\n" ++ skills.flatMap renderSkill ++ "### Why These Skills\n" ++
      skills.flatMap renderReason

def compileWithRescue (maxRescuePerSkill : Nat) (prompt : Str) (skills : List CompilerSkillInput)
    (rescuePool : List CompilerRescueCueInput) : Str :=
  renderMarkdown prompt (attachRescueCues services skills rescuePool maxRescuePerSkill)

/-! ### The label in a match reason -/

def labelText (scope bucket : Str) : Str := "scope=" ++ scope ++ " | bucket=" ++ bucket

/-- The match reason of a skill names its scope and this bucket. -/
def Labelled (scope bucket matchReason : Str) : Prop := labelText scope bucket <+: matchReason

theorem labelled_buildMatchReason (skill : CompilerSkillInput) :
    Labelled skill.matchedScope (scoreBucket skill.score) (buildMatchReason skill) := by
  unfold Labelled labelText buildMatchReason Str.join
  have split : ∀ (first second : Str) (rest : List Str), ∃ tail,
      List.intercalate " | " (first :: second :: rest) = first ++ " | " ++ second ++ tail := by
    intro first second rest
    cases rest with
    | nil => exact ⟨[], by simp [List.intercalate]⟩
    | cons third rest => exact ⟨" | " ++ List.intercalate " | " (third :: rest), by simp [List.intercalate]⟩
  obtain ⟨tail, whole⟩ := split ("scope=" ++ skill.matchedScope) ("bucket=" ++ scoreBucket skill.score)
    (skill.rationale.filter isInformative)
  rw [List.cons_append, List.singleton_append, whole]
  refine ⟨tail, ?_⟩
  simp

/-- A reason names one bucket only. -/
theorem Labelled.bucket_eq {scope one two matchReason : Str} (first : Labelled scope one matchReason)
    (second : Labelled scope two matchReason) : one <+: two ∨ two <+: one := by
  have either := List.prefix_or_prefix_of_prefix first second
  unfold labelText at either
  simpa only [List.prefix_append_right_inj] using either

end Compiler

end SkillLayer

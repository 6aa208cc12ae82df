import Mathlib.Data.List.Dedup
import SkillLayer.Domain.Types
import SkillLayer.Retrieval.CosineRank

/-! The subunits of the candidate skills: how near they are to the prompt in meaning and in words. -/

namespace SkillLayer.Retrieval

open Domain

def subunitSemanticWeight : Rat := 3 / 4
def subunitLexicalWeight : Rat := 1 / 4

structure SubunitProjection where
  subunit : Subunit
  relevance : Rat
deriving DecidableEq

structure GraphHit where
  skillIndex : Nat
  lexicalScore : Rat
  subunitEvidence : Rat
  projections : List SubunitProjection
deriving DecidableEq

/-- The root of the similarities, and the Unicode tables. -/
structure SearchServices where
  root : Root
  isAlphanumeric : Char → Bool
  toLowercase : Str → Str

variable (services : SearchServices)

/-- The set of the lowercase words. -/
def tokenize (input : Str) : List Str :=
  (((input.splitOnP fun ch => !services.isAlphanumeric ch).map fun token =>
    services.toLowercase (Str.trim token)).filter fun token => !token.isEmpty).dedup

def tokenOverlapScore (lhs rhs : List Str) : Rat :=
  if lhs.isEmpty || rhs.isEmpty then 0
  else
    let overlap := (lhs.filter fun token => rhs.contains token).length
    (overlap : Rat) / (lhs.length : Rat)

/-- A subunit with its blended relevance, and its semantic part. -/
def scoreSubunit (promptTokens : List Str) (promptEmbedding : Embedding) (embedding : Option Embedding)
    (subunit : Subunit) : SubunitProjection × Rat :=
  let semantic := (embedding.map (semanticScore services.root promptEmbedding)).getD 0
  let lexical := tokenOverlapScore promptTokens
    (tokenize services (services.toLowercase subunit.title ++ [' '] ++ services.toLowercase subunit.content))
  (⟨subunit, subunitSemanticWeight * semantic + subunitLexicalWeight * lexical⟩, semantic)

/-- The mean of the best semantic scores. -/
def subunitEvidence (semanticScores : List Rat) (maxSubunitsPerSkill : Nat) : Rat :=
  let sorted := semanticScores.insertionSort fun left right => right ≤ left
  let topKLen := min sorted.length maxSubunitsPerSkill
  if topKLen = 0 then 0 else (sorted.take maxSubunitsPerSkill).sum / (topKLen : Rat)

/-- One skill of the search. -/
def searchSkill (promptTokens : List Str) (promptEmbedding : Embedding) (maxSubunitsPerSkill skillIndex : Nat)
    (text : Str) (subunits : List Subunit) (subunitEmbeddings : Option (List Embedding)) : GraphHit :=
  let scored := subunits.zipIdx.map fun entry =>
    scoreSubunit services promptTokens promptEmbedding (subunitEmbeddings.bind fun embeddings => embeddings[entry.2]?)
      entry.1
  let ranked := scored.insertionSort fun left right => right.1.relevance ≤ left.1.relevance
  { skillIndex := skillIndex
    lexicalScore := tokenOverlapScore promptTokens (tokenize services text)
    subunitEvidence := subunitEvidence (scored.map Prod.snd) maxSubunitsPerSkill
    projections := (ranked.take maxSubunitsPerSkill).map Prod.fst }

def searchGraph (prompt : Str) (promptEmbedding : Embedding) (skillText : List Str)
    (skillSubunits : List (List Subunit)) (skillSubunitEmbeddings : List (List Embedding))
    (candidateIndices : List Nat) (maxSubunitsPerSkill : Nat) : List GraphHit :=
  let promptTokens := tokenize services prompt
  candidateIndices.filterMap fun skillIndex => do
    let text ← skillText[skillIndex]?
    let subunits ← skillSubunits[skillIndex]?
    return searchSkill services promptTokens promptEmbedding maxSubunitsPerSkill skillIndex text subunits
      skillSubunitEmbeddings[skillIndex]?

variable {services}

/-- The projections of a skill are of its subunits. -/
theorem subunit_of_projection {promptTokens : List Str} {promptEmbedding : Embedding}
    {maxSubunitsPerSkill skillIndex : Nat} {text : Str} {subunits : List Subunit}
    {subunitEmbeddings : Option (List Embedding)} {projection : SubunitProjection}
    (member : projection ∈ (searchSkill services promptTokens promptEmbedding maxSubunitsPerSkill skillIndex text
      subunits subunitEmbeddings).projections) : projection.subunit ∈ subunits := by
  obtain ⟨scored, taken, rfl⟩ := List.mem_map.mp member
  have inScored := (List.mem_insertionSort _).mp (List.mem_of_mem_take taken)
  obtain ⟨entry, indexed, rfl⟩ := List.mem_map.mp inScored
  exact List.fst_mem_of_mem_zipIdx indexed

end SkillLayer.Retrieval

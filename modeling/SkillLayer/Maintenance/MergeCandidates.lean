import Mathlib.Algebra.Order.Field.Rat
import Mathlib.Data.List.ProdSigma
import Mathlib.Data.Sym.Sym2
import SkillLayer.Maintenance.Merge
import SkillLayer.SortOrder

/-! Which pairs of skills the merge pass takes up, and the text of a skill that it compares. -/

namespace SkillLayer.Maintenance

open Domain
open Infrastructure

/-! ### The text of a skill -/

section Text

/-- The first items up to a bound, which must lie within them. -/
def sliceUpTo? {Item : Type} (items : List Item) (stop : Nat) : Option (List Item) :=
  if stop ≤ items.length then some (items.take stop) else none

/-- A difference that must not be negative. -/
def difference? (whole part : Nat) : Option Nat := if part ≤ whole then some (whole - part) else none

/-- The digest with its slices and its difference checked. -/
def digestParts? : Nat → List Str → Option (List Str)
  | _, [] => some []
  | digestTokensUsed, subunit :: rest => do
    let words := splitWhitespace subunit
    let cappedWords ← sliceUpTo? words (min words.length maxTokensPerSubunit)
    if maxTotalDigestTokens < digestTokensUsed + cappedWords.length then
      let remaining ← difference? maxTotalDigestTokens digestTokensUsed
      if remaining = 0 then return []
      let partialWords ← sliceUpTo? cappedWords remaining
      return [Str.join [' '] partialWords]
    let later ← digestParts? (digestTokensUsed + cappedWords.length) rest
    return Str.join [' '] cappedWords :: later

/-- The words of the digest, by subunits. -/
def digestWords : Nat → List Str → List (List Str)
  | _, [] => []
  | digestTokensUsed, subunit :: rest =>
    let cappedWords := (splitWhitespace subunit).take maxTokensPerSubunit
    if maxTotalDigestTokens < digestTokensUsed + cappedWords.length then
      let remaining := maxTotalDigestTokens - digestTokensUsed
      if remaining = 0 then [] else [cappedWords.take remaining]
    else cappedWords :: digestWords (digestTokensUsed + cappedWords.length) rest

variable {used : Nat} {subunits : List Str}

/-- No slice and no difference of the digest goes out of range. -/
theorem digestParts?_eq (within : used ≤ maxTotalDigestTokens) :
    digestParts? used subunits = some (digestParts used subunits) := by
  induction subunits generalizing used with
  | nil => rfl
  | cons subunit rest ih =>
    have front : sliceUpTo? (splitWhitespace subunit) (min (splitWhitespace subunit).length maxTokensPerSubunit) =
        some ((splitWhitespace subunit).take maxTokensPerSubunit) := by
      rw [sliceUpTo?, if_pos (Nat.min_le_left _ _), List.take_eq_take_min (i := maxTokensPerSubunit), Nat.min_comm]
    rw [digestParts?, digestParts]
    simp only [front, Option.bind_eq_bind, Option.bind_some]
    generalize (splitWhitespace subunit).take maxTokensPerSubunit = cappedWords
    by_cases full : maxTotalDigestTokens < used + cappedWords.length
    · have left : difference? maxTotalDigestTokens used = some (maxTotalDigestTokens - used) := if_pos within
      have inside : sliceUpTo? cappedWords (maxTotalDigestTokens - used) =
          some (cappedWords.take (maxTotalDigestTokens - used)) := if_pos (by omega)
      rw [if_pos full, if_pos full, left, Option.bind_some]
      by_cases nothing : maxTotalDigestTokens - used = 0
      · rw [if_pos nothing, if_pos nothing]
        rfl
      · rw [if_neg nothing, if_neg nothing, inside]
        rfl
    · rw [if_neg full, if_neg full, ih (not_lt.mp full)]
      rfl

theorem digestParts_eq : digestParts used subunits = (digestWords used subunits).map (Str.join [' ']) := by
  induction subunits generalizing used with
  | nil => rfl
  | cons subunit rest ih =>
    rw [digestParts, digestWords]
    dsimp only
    split
    · split
      · rfl
      · rfl
    · rw [List.map_cons, ih]

/-- Subunit by subunit the digest has the first words. -/
theorem digestWords_prefix (used : Nat) (subunits : List Str) : ∃ taken, taken <+: subunits ∧
    List.Forall₂ (fun words subunit => words <+: splitWhitespace subunit ∧ words.length ≤ maxTokensPerSubunit)
      (digestWords used subunits) taken := by
  induction subunits generalizing used with
  | nil => exact ⟨[], List.prefix_rfl, .nil⟩
  | cons subunit rest ih =>
    have front := List.take_prefix maxTokensPerSubunit (splitWhitespace subunit)
    have short := List.length_take_le maxTokensPerSubunit (splitWhitespace subunit)
    rw [digestWords]
    dsimp only
    split
    · split
      · exact ⟨[], List.nil_prefix, .nil⟩
      · refine ⟨[subunit], ⟨rest, rfl⟩, .cons ⟨(List.take_prefix _ _).trans front, ?_⟩ .nil⟩
        exact (List.take_prefix _ _).length_le.trans short
    · obtain ⟨taken, begins, each⟩ := ih (used + ((splitWhitespace subunit).take maxTokensPerSubunit).length)
      exact ⟨subunit :: taken, List.cons_prefix_cons.mpr ⟨rfl, begins⟩, .cons ⟨front, short⟩ each⟩

/-- All in all the digest has the first words of the capped subunits. -/
theorem flatten_digestWords (subunits : List Str) (within : used ≤ maxTotalDigestTokens) :
    (digestWords used subunits).flatten =
      (subunits.flatMap fun subunit => (splitWhitespace subunit).take maxTokensPerSubunit).take
        (maxTotalDigestTokens - used) := by
  induction subunits generalizing used with
  | nil => rw [digestWords, List.flatMap_nil, List.take_nil, List.flatten_nil]
  | cons subunit rest ih =>
    rw [digestWords, List.flatMap_cons, List.take_append]
    generalize (splitWhitespace subunit).take maxTokensPerSubunit = cappedWords
    dsimp only
    by_cases full : maxTotalDigestTokens < used + cappedWords.length
    · have beyond : maxTotalDigestTokens - used - cappedWords.length = 0 := by omega
      rw [if_pos full, beyond, List.take_zero, List.append_nil]
      by_cases nothing : maxTotalDigestTokens - used = 0
      · rw [if_pos nothing, nothing, List.take_zero, List.flatten_nil]
      · rw [if_neg nothing, List.flatten_singleton]
    · have whole : cappedWords.take (maxTotalDigestTokens - used) = cappedWords :=
        List.take_of_length_le (by omega)
      rw [if_neg full, List.flatten_cons, ih (not_lt.mp full), whole, Nat.sub_add_eq]

/-- What the text of a skill is made of: the header, and then the first words of its subunits. -/
structure BodyInclusive (skill : SkillSnapshot) (text : Str) : Prop where
  checked : digestParts? 0 skill.subunits = some (digestParts 0 skill.subunits)
  made : ∃ words taken, taken <+: skill.subunits ∧
    text = skill.name ++ [' '] ++ skill.description ++ [' '] ++ Str.join [' '] skill.tags ++ ['\n'] ++
      Str.join ['\n'] (words.map (Str.join [' '])) ∧
    List.Forall₂ (fun words subunit => words <+: splitWhitespace subunit ∧ words.length ≤ 100) words taken ∧
    words.flatten <+: skill.subunits.flatMap (fun subunit => (splitWhitespace subunit).take 100) ∧
    words.flatten.length = min 1500 (skill.subunits.flatMap fun subunit => (splitWhitespace subunit).take 100).length

theorem bodyInclusive (skill : SkillSnapshot) : BodyInclusive skill (bodyInclusiveMergeText skill) := by
  have begins : 0 ≤ maxTotalDigestTokens := Nat.zero_le _
  have all := flatten_digestWords skill.subunits begins
  obtain ⟨taken, first, each⟩ := digestWords_prefix 0 skill.subunits
  refine ⟨digestParts?_eq begins, digestWords 0 skill.subunits, taken, first, ?_, each, ?_, ?_⟩
  · rw [bodyInclusiveMergeText, digestParts_eq]
  · rw [all]
    exact List.take_prefix _ _
  · rw [all, List.length_take]
    rfl

end Text

/-! ### The pairs -/

section Pairs

variable {F : Type} (services : PassServices F)
  (verify : SkillSnapshot → SkillSnapshot → Except MergeError Bool) (config : MergeConfig F)

/-- One pair of the two loops, with any verifier. -/
def visitPairWith (vectors : List (Str × List F)) (pair : SkillSnapshot × SkillSnapshot) :
    Except MergeError (List (MergeCandidate F)) := do
  let (left, right) := pair
  if Str.le right.id left.id then return []
  if left.scope = right.scope then return []
  let similarity ← mergeSimilarity services ((lookupLast vectors left.id).getD [])
    ((lookupLast vectors right.id).getD [])
  if services.ops.lt similarity config.mergeCandidateThreshold then return []
  if !(← verify left right) then return []
  return [⟨left.id, right.id, similarity⟩]

def findCandidatesWith (skills : List SkillSnapshot) : Except MergeError (List (MergeCandidate F)) := do
  let vectors ← skills.mapM (embedCandidate services)
  collect (visitPairWith services verify config vectors) (skills ×ˢ skills)

/-- The live pass searches with the verifier that asks the provider. -/
theorem findCandidates_eq (skills : List SkillSnapshot) :
    findCandidates services config skills =
      findCandidatesWith services (areEquivalent services config) config skills := rfl

def MergeCandidate.pair (candidate : MergeCandidate F) : Sym2 Str :=
  s(candidate.leftSkillId, candidate.rightSkillId)

variable {services verify config} {embed : Str → List F} {confirms : SkillSnapshot → SkillSnapshot → Bool}
  {skills : List SkillSnapshot}

/-- The vector of a skill. -/
def mergeVector (embed : Str → List F) (skill : SkillSnapshot) : List F := embed (bodyInclusiveMergeText skill)

/-- Two skills of different scopes are near each other. -/
def Near (services : PassServices F) (config : MergeConfig F) (embed : Str → List F) (left right : SkillSnapshot)
    (similarity : F) : Prop :=
  left.scope ≠ right.scope ∧
    cosineSimilarity services.ops (mergeVector embed left) (mergeVector embed right) = .ok similarity ∧
    services.ops.lt similarity config.mergeCandidateThreshold = false

/-- The candidate that a pair makes. -/
def candidateOf (services : PassServices F) (config : MergeConfig F) (embed : Str → List F)
    (confirms : SkillSnapshot → SkillSnapshot → Bool) (pair : SkillSnapshot × SkillSnapshot) :
    Option (MergeCandidate F) :=
  if Str.le pair.2.id pair.1.id || pair.1.scope = pair.2.scope then none
  else
    match cosineSimilarity services.ops (mergeVector embed pair.1) (mergeVector embed pair.2) with
    | .error _ => none
    | .ok similarity =>
      if services.ops.lt similarity config.mergeCandidateThreshold || !confirms pair.1 pair.2 then none
      else some ⟨pair.1.id, pair.2.id, similarity⟩

theorem candidateOf_eq_some {left right : SkillSnapshot} {candidate : MergeCandidate F} :
    candidateOf services config embed confirms (left, right) = some candidate ↔
      candidate.leftSkillId = left.id ∧ candidate.rightSkillId = right.id ∧ Str.le right.id left.id = false ∧
        Near services config embed left right candidate.cosineSimilarity ∧ confirms left right = true := by
  unfold candidateOf Near
  dsimp only
  by_cases skipped : (Str.le right.id left.id || decide (left.scope = right.scope)) = true
  · rw [if_pos skipped]
    rw [Bool.or_eq_true, decide_eq_true_eq] at skipped
    rcases skipped with above | same
    · simp [above]
    · simp [same]
  · rw [if_neg skipped]
    rw [Bool.or_eq_true, decide_eq_true_eq, not_or, Bool.not_eq_true] at skipped
    cases cosineSimilarity services.ops (mergeVector embed left) (mergeVector embed right) with
    | error error => simp
    | ok similarity =>
      dsimp only
      by_cases dropped : (services.ops.lt similarity config.mergeCandidateThreshold || !confirms left right) = true
      · rw [if_pos dropped]
        rw [Bool.or_eq_true, Bool.not_eq_true'] at dropped
        rcases dropped with below | denied
        · simp only [reduceCtorEq, Except.ok.injEq, false_iff]
          rintro ⟨-, -, -, ⟨-, rfl, near⟩, -⟩
          rw [below] at near
          cases near
        · simp [denied]
      · rw [if_neg dropped]
        rw [Bool.or_eq_true, Bool.not_eq_true', not_or, Bool.not_eq_true, Bool.not_eq_false] at dropped
        rw [Option.some.injEq, Except.ok.injEq]
        constructor
        · rintro rfl
          exact ⟨rfl, rfl, skipped.1, ⟨skipped.2, rfl, dropped.1⟩, dropped.2⟩
        · rintro ⟨leftId, rightId, -, ⟨-, rfl, -⟩, -⟩
          rw [← leftId, ← rightId]

/-- The vectors, keyed by id, hold what each skill was embedded as. -/
theorem lookupLast_mergeVectors (embed : Str → List F) (distinct : (skills.map SkillSnapshot.id).Nodup)
    {skill : SkillSnapshot} (member : skill ∈ skills) :
    lookupLast (skills.map fun skill => (skill.id, mergeVector embed skill)) skill.id =
      some (mergeVector embed skill) := by
  unfold lookupLast
  have stored : mergeVector embed skill ∈ ((skills.map fun skill => (skill.id, mergeVector embed skill)).filter
      fun entry => entry.1 = skill.id).map Prod.snd := by
    refine List.mem_map.mpr ⟨(skill.id, mergeVector embed skill), ?_, rfl⟩
    exact List.mem_filter.mpr ⟨List.mem_map_of_mem member, decide_eq_true rfl⟩
  cases last : (((skills.map fun skill => (skill.id, mergeVector embed skill)).filter
      fun entry => entry.1 = skill.id).map Prod.snd).getLast? with
  | none =>
    rw [List.getLast?_eq_none_iff] at last
    rw [last] at stored
    cases stored
  | some vector =>
    obtain ⟨entry, kept, rfl⟩ := List.mem_map.mp (List.mem_of_getLast? last)
    obtain ⟨inside, same⟩ := List.mem_filter.mp kept
    obtain ⟨other, inSkills, rfl⟩ := List.mem_map.mp inside
    rw [List.inj_on_of_nodup_map distinct inSkills member (of_decide_eq_true same)]

/-- What the search may count on: distinct ids, vectors of one dimension and of a magnitude, and a
verifier that never fails. -/
structure MergeInputs (services : PassServices F) (verify : SkillSnapshot → SkillSnapshot → Except MergeError Bool)
    (embed : Str → List F) (confirms : SkillSnapshot → SkillSnapshot → Bool) (dimension : Nat) : Prop where
  embedded : ∀ text, services.embedText text = .ok (embed text)
  sized : ∀ text, (embed text).length = dimension
  nonzero : ∀ text, services.ops.isZero (squaredNorm services.ops (embed text)) = false
  verified : ∀ left right, verify left right = .ok (confirms left right)

variable {dimension : Nat}

theorem MergeInputs.visit (inputs : MergeInputs services verify embed confirms dimension)
    (distinct : (skills.map SkillSnapshot.id).Nodup) {left right : SkillSnapshot} (inLeft : left ∈ skills)
    (inRight : right ∈ skills) :
    visitPairWith services verify config (skills.map fun skill => (skill.id, mergeVector embed skill)) (left, right) =
      .ok (candidateOf services config embed confirms (left, right)).toList := by
  have dimensions : (mergeVector embed left).length = (mergeVector embed right).length :=
    (inputs.sized _).trans (inputs.sized _).symm
  obtain ⟨similarity, found⟩ := exists_cosineSimilarity dimensions (inputs.nonzero _) (inputs.nonzero _)
  unfold visitPairWith candidateOf
  dsimp only
  rw [lookupLast_mergeVectors embed distinct inLeft, lookupLast_mergeVectors embed distinct inRight]
  simp only [Option.getD_some, mergeSimilarity, found, inputs.verified]
  cases Str.le right.id left.id with
  | true => rfl
  | false =>
    by_cases same : left.scope = right.scope
    · simp [same, pure, Except.pure]
    · cases below : services.ops.lt similarity config.mergeCandidateThreshold with
      | true => simp [same, below, pure, Except.pure, bind, Except.bind]
      | false => cases confirms left right <;> simp [same, below, pure, Except.pure, bind, Except.bind]

/-- The search makes a candidate of each pair that gives one. -/
theorem MergeInputs.find (inputs : MergeInputs services verify embed confirms dimension)
    (distinct : (skills.map SkillSnapshot.id).Nodup) :
    findCandidatesWith services verify config skills =
      .ok ((skills ×ˢ skills).filterMap (candidateOf services config embed confirms)) := by
  have vectors : skills.mapM (embedCandidate services) =
      .ok (skills.map fun skill => (skill.id, mergeVector embed skill)) := by
    refine mapM_eq_ok.mpr (List.forall₂_map_right_iff.mpr (List.forall₂_same.mpr fun skill _ => ?_))
    rw [embedCandidate, inputs.embedded]
    rfl
  have each : ∀ pair ∈ skills ×ˢ skills,
      visitPairWith services verify config (skills.map fun skill => (skill.id, mergeVector embed skill)) pair =
        .ok (candidateOf services config embed confirms pair).toList := by
    intro pair member
    obtain ⟨inLeft, inRight⟩ := List.mem_product.mp member
    exact inputs.visit distinct inLeft inRight
  have collected : collect (visitPairWith services verify config
      (skills.map fun skill => (skill.id, mergeVector embed skill))) (skills ×ˢ skills) =
        .ok ((skills ×ˢ skills).filterMap (candidateOf services config embed confirms)) := by
    refine collect_eq_ok.mpr ⟨fun pair member => ⟨_, each pair member⟩, ?_⟩
    rw [List.filterMap_eq_flatMap_toList]
    refine List.flatMap_congr fun pair member => ?_
    rw [yielded, each pair member]
  rw [findCandidatesWith, vectors]
  exact collected

/-- The answer of the verifier on a pair: it is asked with the smaller id first. -/
def confirmedPair (confirms : SkillSnapshot → SkillSnapshot → Bool) (one two : SkillSnapshot) : Bool :=
  if Str.le one.id two.id then confirms one two else confirms two one

/-- The candidates name every pair of skills that are near each other and confirmed, once, and no
other pair; the smaller id is on the left. -/
structure ExactCandidates (services : PassServices F) (config : MergeConfig F) (embed : Str → List F)
    (confirms : SkillSnapshot → SkillSnapshot → Bool) (skills : List SkillSnapshot)
    (candidates : List (MergeCandidate F)) : Prop where
  once : (candidates.map MergeCandidate.pair).Nodup
  known : ∀ candidate ∈ candidates, ∃ left ∈ skills, ∃ right ∈ skills,
    candidate.leftSkillId = left.id ∧ candidate.rightSkillId = right.id ∧ Str.le right.id left.id = false ∧
      Near services config embed left right candidate.cosineSimilarity
  reported : ∀ one ∈ skills, ∀ two ∈ skills, s(one.id, two.id) ∈ candidates.map MergeCandidate.pair ↔
    (∃ similarity, Near services config embed one two similarity) ∧ confirmedPair confirms one two = true

theorem Near.symm {one two : SkillSnapshot} {similarity : F} (near : Near services config embed one two similarity) :
    Near services config embed two one similarity :=
  ⟨near.1.symm, cosineSimilarity_symm near.2.1, near.2.2⟩

/-- A candidate in the results comes from a pair of the skills. -/
theorem mem_candidates {candidate : MergeCandidate F} :
    candidate ∈ (skills ×ˢ skills).filterMap (candidateOf services config embed confirms) ↔
      ∃ left ∈ skills, ∃ right ∈ skills, candidateOf services config embed confirms (left, right) = some candidate := by
  rw [List.mem_filterMap]
  constructor
  · rintro ⟨⟨left, right⟩, member, made⟩
    obtain ⟨inLeft, inRight⟩ := List.mem_product.mp member
    exact ⟨left, inLeft, right, inRight, made⟩
  · rintro ⟨left, inLeft, right, inRight, made⟩
    exact ⟨(left, right), List.mem_product.mpr ⟨inLeft, inRight⟩, made⟩

/-- Two pairs of skills do not make candidates of one pair of ids. -/
theorem nodup_candidates (distinct : (skills.map SkillSnapshot.id).Nodup) :
    (((skills ×ˢ skills).filterMap (candidateOf services config embed confirms)).map MergeCandidate.pair).Nodup := by
  have pairs : (skills ×ˢ skills).Nodup := distinct.of_map.product distinct.of_map
  rw [List.Nodup, List.pairwise_map, List.pairwise_filterMap]
  refine pairs.imp_of_mem fun {first second} inFirst inSecond apart candidate made other madeOther same => apart ?_
  obtain ⟨firstLeft, firstRight⟩ := first
  obtain ⟨secondLeft, secondRight⟩ := second
  obtain ⟨leftIn, rightIn⟩ := List.mem_product.mp inFirst
  obtain ⟨otherLeftIn, otherRightIn⟩ := List.mem_product.mp inSecond
  obtain ⟨leftId, rightId, ordered, -, -⟩ := candidateOf_eq_some.mp made
  obtain ⟨otherLeftId, otherRightId, otherOrdered, -, -⟩ := candidateOf_eq_some.mp madeOther
  unfold MergeCandidate.pair at same
  rw [leftId, rightId, otherLeftId, otherRightId, Sym2.eq_iff] at same
  rcases same with ⟨left, right⟩ | ⟨left, right⟩
  · rw [List.inj_on_of_nodup_map distinct leftIn otherLeftIn left,
      List.inj_on_of_nodup_map distinct rightIn otherRightIn right]
  · rw [← left, ← right] at otherOrdered
    rcases Str.le_total firstLeft.id firstRight.id with below | below
    · rw [otherOrdered] at below
      cases below
    · rw [ordered] at below
      cases below

/-- Of two near skills in the list, the one with the smaller id comes on the left of the candidate. -/
theorem pair_reported {one two : SkillSnapshot} (inOne : one ∈ skills) (inTwo : two ∈ skills) {similarity : F}
    (ordered : Str.le two.id one.id = false) (near : Near services config embed one two similarity)
    (confirmed : confirms one two = true) :
    s(one.id, two.id) ∈
      ((skills ×ˢ skills).filterMap (candidateOf services config embed confirms)).map MergeCandidate.pair := by
  have made : candidateOf services config embed confirms (one, two) = some ⟨one.id, two.id, similarity⟩ :=
    candidateOf_eq_some.mpr ⟨rfl, rfl, ordered, near, confirmed⟩
  exact List.mem_map.mpr ⟨_, mem_candidates.mpr ⟨one, inOne, two, inTwo, made⟩, rfl⟩

theorem exactCandidates (distinct : (skills.map SkillSnapshot.id).Nodup) :
    ExactCandidates services config embed confirms skills
      ((skills ×ˢ skills).filterMap (candidateOf services config embed confirms)) where
  once := nodup_candidates distinct
  known := by
    intro candidate member
    obtain ⟨left, inLeft, right, inRight, made⟩ := mem_candidates.mp member
    obtain ⟨leftId, rightId, ordered, near, -⟩ := candidateOf_eq_some.mp made
    exact ⟨left, inLeft, right, inRight, leftId, rightId, ordered, near⟩
  reported := by
    intro one inOne two inTwo
    constructor
    · intro member
      obtain ⟨candidate, inside, same⟩ := List.mem_map.mp member
      obtain ⟨left, inLeft, right, inRight, made⟩ := mem_candidates.mp inside
      obtain ⟨leftId, rightId, ordered, near, confirmed⟩ := candidateOf_eq_some.mp made
      have below : Str.le left.id right.id = true := (Str.le_total _ _).resolve_right (by simp [ordered])
      unfold MergeCandidate.pair at same
      rw [leftId, rightId, Sym2.eq_iff] at same
      unfold confirmedPair
      rcases same with ⟨first, second⟩ | ⟨first, second⟩
      · rw [List.inj_on_of_nodup_map distinct inLeft inOne first,
          List.inj_on_of_nodup_map distinct inRight inTwo second] at near confirmed below
        exact ⟨⟨_, near⟩, by rw [if_pos below, confirmed]⟩
      · rw [List.inj_on_of_nodup_map distinct inLeft inTwo first,
          List.inj_on_of_nodup_map distinct inRight inOne second] at near confirmed ordered
        exact ⟨⟨_, near.symm⟩, by rw [if_neg (by simp [ordered]), confirmed]⟩
    · rintro ⟨⟨similarity, near⟩, confirmed⟩
      have apart : one.id ≠ two.id := fun same =>
        near.1 (congrArg SkillSnapshot.scope (List.inj_on_of_nodup_map distinct inOne inTwo same))
      unfold confirmedPair at confirmed
      by_cases below : Str.le one.id two.id = true
      · rw [if_pos below] at confirmed
        have ordered : Str.le two.id one.id = false :=
          Bool.eq_false_iff.mpr fun above => apart (Str.le_antisymm below above)
        exact pair_reported inOne inTwo ordered near confirmed
      · rw [if_neg below] at confirmed
        rw [Sym2.eq_swap]
        exact pair_reported inTwo inOne (Bool.eq_false_iff.mpr below) near.symm confirmed

/-- The search is exact, the order of the skills does not matter to it, and the texts that it compares
are the headers with the first words of the bodies. -/
theorem findCandidates_exact (inputs : MergeInputs services verify embed confirms dimension)
    (distinct : (skills.map SkillSnapshot.id).Nodup) :
    (∃ candidates, findCandidatesWith services verify config skills = .ok candidates ∧
      ExactCandidates services config embed confirms skills candidates ∧
      ∀ shuffled, shuffled.Perm skills → ∃ others,
        findCandidatesWith services verify config shuffled = .ok others ∧ others.Perm candidates) ∧
      ∀ skill, BodyInclusive skill (bodyInclusiveMergeText skill) := by
  refine ⟨⟨_, inputs.find distinct, exactCandidates distinct, fun shuffled moved => ?_⟩, bodyInclusive⟩
  have alike : (shuffled.map SkillSnapshot.id).Nodup := (moved.map SkillSnapshot.id).nodup_iff.mpr distinct
  exact ⟨_, inputs.find alike, (moved.product moved).filterMap _⟩

end Pairs

/-! ### A search over fractions -/

/-- Over exact fractions a vector has a magnitude when one of its components is not zero. -/
theorem squaredNorm_fractions {vector : List Rat} :
    fractions.isZero (squaredNorm fractions vector) = false ↔ ∃ component ∈ vector, component ≠ 0 := by
  have grows (vector : List Rat) (norm : Rat) (positive : 0 ≤ norm) :
      vector.foldl (fun norm component => norm + component * component) norm = 0 ↔
        norm = 0 ∧ ∀ component ∈ vector, component = 0 := by
    induction vector generalizing norm with
    | nil => simp
    | cons first rest ih =>
      have square : 0 ≤ first * first := mul_self_nonneg first
      rw [List.foldl_cons, ih (norm + first * first) (add_nonneg positive square),
        add_eq_zero_iff_of_nonneg positive square, mul_self_eq_zero, List.forall_mem_cons, and_assoc]
  have zero := grows vector 0 le_rfl
  show ((vector.foldl (fun norm component => norm + component * component) (0 : Rat)) == 0) = false ↔ _
  rw [beq_eq_false_iff_ne, ne_eq, zero]
  simp

def twinServices : PassServices Rat where
  ops := fractions
  ofNat count := count
  embedText text := .ok [text.length + 1]
  decideEquivalence _ _ := .ok true
  decideGenerality _ := .ok true
  toRfc3339 _ := []
  mergeYaml _ := .ok []

def twin (id : Str) (scope : ScopeType) : SkillSnapshot :=
  ⟨id, "Rebase", "Rebase before a push.", scope, [], [], ["Rebase first."]⟩

def twinSkills : List SkillSnapshot := [twin "b" .global, twin "a" .project]

theorem twinInputs : MergeInputs twinServices (fun _ _ => .ok true) (fun text => [(text.length : Rat) + 1])
    (fun _ _ => true) 1 where
  embedded _ := rfl
  sized _ := rfl
  nonzero _ := squaredNorm_fractions.mpr ⟨_, List.mem_singleton_self _, Nat.cast_add_one_ne_zero _⟩
  verified _ _ := rfl

theorem twins_found : ∃ candidates,
    findCandidatesWith twinServices (fun _ _ => .ok true) ⟨1 / 2, 0, ".skills"⟩ twinSkills = .ok candidates ∧
      (candidates.map MergeCandidate.pair).Nodup ∧ s("a".toList, "b".toList) ∈ candidates.map MergeCandidate.pair := by
  have distinct : (twinSkills.map SkillSnapshot.id).Nodup := by decide
  obtain ⟨⟨candidates, found, exact, -⟩, -⟩ := findCandidates_exact twinInputs distinct
  refine ⟨candidates, found, exact.once, ?_⟩
  have near : Near twinServices ⟨1 / 2, 0, ".skills"⟩ (fun text => [(text.length : Rat) + 1]) (twin "a" .project)
      (twin "b" .global) 1 := ⟨by decide, by decide +kernel, by decide +kernel⟩
  exact (exact.reported (twin "a" .project) (by decide) (twin "b" .global) (by decide)).mpr ⟨⟨1, near⟩, rfl⟩

end SkillLayer.Maintenance

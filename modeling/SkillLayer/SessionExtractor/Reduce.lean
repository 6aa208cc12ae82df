import Mathlib.Data.List.FinRange
import SkillLayer.Collect
import SkillLayer.Infrastructure.Similarity
import SkillLayer.SessionExtractor.Orchestrator

/-! The reduce step: near candidates are shown to a verifier, and the later one of an
equivalent pair is absorbed into the earlier one. -/

namespace SkillLayer.SessionExtractor

open Domain Infrastructure

structure EquivalenceDecision where
  equivalent : Bool
  rationale : Str
deriving DecidableEq

inductive ReduceAction where
  | merged (rationale : Str)
  | kept (rationale : Str)
deriving DecidableEq

structure ReduceAuditEntry (F : Type) where
  keptCandidateName : Str
  otherCandidateName : Str
  cosineSimilarity : F
  action : ReduceAction
deriving DecidableEq

/-- The ways a reduce step ends without a result: with an error, or on an embedding that is
not there. -/
inductive ReduceError where
  | failed (error : OrchestrationError)
  | indexOutOfBounds
deriving DecidableEq

def candidateSemanticText (candidate : ExtractedSkillCandidate) : Str :=
  candidate.name ++ ['\n'] ++ candidate.description ++ ['\n'] ++ Str.join "\n" candidate.procedures

/-- An answer of the verifier, with the positions of the pair it is about. -/
structure ReduceDecision (F : Type) (n : Nat) where
  left : Fin n
  right : Fin n
  similarity : F
  decision : EquivalenceDecision

variable {F : Type} {candidates : List ExtractedSkillCandidate}

/-- The audit entry of an answer. -/
def ReduceDecision.entry (decided : ReduceDecision F candidates.length) : ReduceAuditEntry F where
  keptCandidateName := (candidates.get decided.left).name
  otherCandidateName := (candidates.get decided.right).name
  cosineSimilarity := decided.similarity
  action := if decided.decision.equivalent then .merged decided.decision.rationale
    else .kept decided.decision.rationale

/-- The removed positions and the audit so far. -/
structure ReduceState (F : Type) (n : Nat) where
  removed : List (Fin n)
  audit : List (ReduceDecision F n)

def ReduceState.record {n : Nat} (state : ReduceState F n) (decided : ReduceDecision F n) :
    ReduceState F n where
  removed := if decided.decision.equivalent then decided.right :: state.removed else state.removed
  audit := state.audit ++ [decided]

variable (ops : FloatOps F) (embedBatch : List Str → Except Str (List (List F)))
  (decideEquivalence : Str → Str → Except Str EquivalenceDecision) (threshold : F)

/-- The similarity of the embeddings at two positions. -/
def similarityAt (embeddings : List (List F)) (left right : Nat) :
    Except ReduceError (Except CosineSimilarityError F) :=
  match embeddings[left]?, embeddings[right]? with
  | some leftEmbedding, some rightEmbedding => .ok (cosineSimilarity ops leftEmbedding rightEmbedding)
  | _, _ => .error .indexOutOfBounds

section Loop

variable {n : Nat} (texts : Fin n → Str) (embeddings : List (List F))

/-- The body of the inner loop. -/
def reducePair (left : Fin n) (state : ReduceState F n) (right : Fin n) :
    Except ReduceError (ReduceState F n) :=
  if right ∈ state.removed then .ok state
  else do
    match ← similarityAt ops embeddings left right with
    | .error .zeroMagnitude => return state
    | .error error => throw (.failed (.cosineSimilarity error.display))
    | .ok similarity =>
      if ops.lt similarity threshold then return state
      else
        match decideEquivalence (texts left) (texts right) with
        | .error message => throw (.failed (.equivalenceVerification message))
        | .ok decision => return state.record ⟨left, right, similarity, decision⟩

/-- The positions behind one. -/
def positionsAfter (left : Fin n) : List (Fin n) := (List.finRange n).filter fun right => left < right

def reduceRow (state : ReduceState F n) (left : Fin n) : Except ReduceError (ReduceState F n) :=
  if left ∈ state.removed then .ok state
  else (positionsAfter left).foldlM (reducePair ops decideEquivalence threshold texts embeddings left) state

end Loop

/-- The candidates at the positions that are left. -/
def survivors (candidates : List ExtractedSkillCandidate) (removed : List (Fin candidates.length)) :
    List ExtractedSkillCandidate :=
  ((List.finRange candidates.length).filter fun position => position ∉ removed).map candidates.get

def reduceCandidates (candidates : List ExtractedSkillCandidate) :
    Except ReduceError (List ExtractedSkillCandidate × List (ReduceAuditEntry F)) :=
  if candidates.isEmpty then .ok ([], [])
  else do
    let embeddings ←
      (embedBatch (candidates.map candidateSemanticText)).mapError fun message => .failed (.embedding message)
    let state ← (List.finRange candidates.length).foldlM
      (reduceRow ops decideEquivalence threshold (fun position => candidateSemanticText (candidates.get position))
        embeddings) ⟨[], []⟩
    return (survivors candidates state.removed, state.audit.map ReduceDecision.entry)

/-! ### What a state accounts for -/

/-- The embeddings at two positions are near: their similarity is defined and not below the
threshold. -/
def NearAt (embeddings : List (List F)) (left right : Nat) (similarity : F) : Prop :=
  similarityAt ops embeddings left right = .ok (.ok similarity) ∧ ops.lt similarity threshold = false

/-- The embeddings at two positions were compared and are not near. -/
def FarAt (embeddings : List (List F)) (left right : Nat) : Prop :=
  similarityAt ops embeddings left right = .ok (.error .zeroMagnitude) ∨
    ∃ similarity, similarityAt ops embeddings left right = .ok (.ok similarity) ∧
      ops.lt similarity threshold

/-- The account of a state in which some pairs have been visited: each answer is about a near
pair of a remaining candidate and a later one, no pair was asked twice, the removed positions
are those answered to be equivalent, and a pair of remaining candidates is far or was asked. -/
structure Accounts {n : Nat} (texts : Fin n → Str) (embeddings : List (List F))
    (visited : Fin n → Fin n → Prop) (state : ReduceState F n) : Prop where
  within : ∀ decided ∈ state.audit, visited decided.left decided.right
  ordered : ∀ decided ∈ state.audit, decided.left < decided.right
  near : ∀ decided ∈ state.audit,
    NearAt ops threshold embeddings decided.left decided.right decided.similarity
  answered : ∀ decided ∈ state.audit,
    decideEquivalence (texts decided.left) (texts decided.right) = .ok decided.decision
  remains : ∀ decided ∈ state.audit, decided.left ∉ state.removed
  removed : state.removed.Perm
    ((state.audit.filter fun decided => decided.decision.equivalent).map ReduceDecision.right)
  once : state.removed.Nodup
  asked : (state.audit.map fun decided => (decided.left, decided.right)).Nodup
  settled : ∀ left right, visited left right → left ∉ state.removed → right ∉ state.removed →
    FarAt ops threshold embeddings left right ∨
      ∃ decided ∈ state.audit, decided.left = left ∧ decided.right = right

namespace Accounts

variable {ops decideEquivalence threshold} {n : Nat} {texts : Fin n → Str} {embeddings : List (List F)}
  {visited wider : Fin n → Fin n → Prop} {state next : ReduceState F n} {left right : Fin n}

theorem start : Accounts ops decideEquivalence threshold texts embeddings
    (fun left right => left ∈ ([] : List (Fin n)) ∧ left < right) ⟨[], []⟩ where
  within _ member := absurd member List.not_mem_nil
  ordered _ member := absurd member List.not_mem_nil
  near _ member := absurd member List.not_mem_nil
  answered _ member := absurd member List.not_mem_nil
  remains _ member := absurd member List.not_mem_nil
  removed := .refl _
  once := .nil
  asked := .nil
  settled _ _ none := absurd none.1 List.not_mem_nil

/-- Visiting more pairs changes nothing where these have a removed candidate or are far. -/
theorem widen (accounts : Accounts ops decideEquivalence threshold texts embeddings visited state)
    (more : ∀ left right, visited left right → wider left right)
    (idle : ∀ left right, wider left right → left ∉ state.removed → right ∉ state.removed →
      visited left right ∨ FarAt ops threshold embeddings left right) :
    Accounts ops decideEquivalence threshold texts embeddings wider state where
  within decided member := more _ _ (accounts.within decided member)
  ordered := accounts.ordered
  near := accounts.near
  answered := accounts.answered
  remains := accounts.remains
  removed := accounts.removed
  once := accounts.once
  asked := accounts.asked
  settled left right seen leftStays rightStays :=
    (idle left right seen leftStays rightStays).elim
      (fun old => accounts.settled left right old leftStays rightStays) .inl

theorem mem_removed (accounts : Accounts ops decideEquivalence threshold texts embeddings visited state) :
    right ∈ state.removed ↔
      ∃ decided ∈ state.audit, decided.decision.equivalent ∧ decided.right = right := by
  rw [accounts.removed.mem_iff]
  simp [and_assoc]

theorem mem_record {decided : ReduceDecision F n} {position : Fin n} :
    position ∈ (state.record decided).removed ↔
      position ∈ state.removed ∨ decided.decision.equivalent ∧ position = decided.right := by
  cases same : decided.decision.equivalent with
  | true => simp [ReduceState.record, same, or_comm]
  | false => simp [ReduceState.record, same]

/-- A new answer about a remaining candidate and a later one, when no earlier answer is about
a candidate behind the first. -/
theorem record (accounts : Accounts ops decideEquivalence threshold texts embeddings visited state)
    {similarity : F} {decision : EquivalenceDecision} (before : left < right)
    (leftStays : left ∉ state.removed) (rightStays : right ∉ state.removed)
    (behind : ∀ first second, visited first second → first ≤ left) (fresh : ¬ visited left right)
    (close : NearAt ops threshold embeddings left right similarity)
    (answer : decideEquivalence (texts left) (texts right) = .ok decision) :
    Accounts ops decideEquivalence threshold texts embeddings
      (fun first second => visited first second ∨ first = left ∧ second = right)
      (state.record ⟨left, right, similarity, decision⟩) := by
  have inAudit (Holds : ReduceDecision F n → Prop) (old : ∀ decided ∈ state.audit, Holds decided)
      (new : Holds ⟨left, right, similarity, decision⟩) :
      ∀ decided ∈ (state.record ⟨left, right, similarity, decision⟩).audit, Holds decided := by
    intro decided member
    rcases List.mem_append.mp member with inside | last
    · exact old decided inside
    · rwa [List.mem_singleton.mp last]
  have stays (first : Fin n) (early : first ≤ left) (remains : first ∉ state.removed) :
      first ∉ (state.record ⟨left, right, similarity, decision⟩).removed := by
    rw [mem_record]
    rintro (gone | ⟨_, rfl⟩)
    · exact remains gone
    · exact absurd (early.trans_lt before) (lt_irrefl _)
  exact {
    within := inAudit _ (fun decided member => .inl (accounts.within decided member)) (.inr ⟨rfl, rfl⟩)
    ordered := inAudit _ accounts.ordered before
    near := inAudit _ accounts.near close
    answered := inAudit _ accounts.answered answer
    remains := inAudit _ (fun decided member =>
      stays _ (behind _ _ (accounts.within decided member)) (accounts.remains decided member))
      (stays left le_rfl leftStays)
    removed := by
      have old := accounts.removed
      cases same : decision.equivalent with
      | true =>
        have last := (old.cons right).trans (List.perm_append_singleton _ _).symm
        simpa [ReduceState.record, same] using last
      | false => simpa [ReduceState.record, same] using old
    once := by
      have old := accounts.once
      cases same : decision.equivalent with
      | true => simpa [ReduceState.record, same] using ⟨rightStays, old⟩
      | false => simpa [ReduceState.record, same] using old
    asked := by
      have new : (left, right) ∉ state.audit.map fun decided => (decided.left, decided.right) := by
        intro member
        obtain ⟨decided, inside, pair⟩ := List.mem_map.mp member
        cases pair
        exact fresh (accounts.within decided inside)
      simpa [ReduceState.record, List.nodup_append, accounts.asked] using new
    settled := by
      intro first second seen firstStays secondStays
      rcases seen with old | ⟨rfl, rfl⟩
      · rcases accounts.settled first second old (fun gone => firstStays (mem_record.mpr (.inl gone)))
          (fun gone => secondStays (mem_record.mpr (.inl gone))) with far | ⟨decided, member, pair⟩
        · exact .inl far
        · exact .inr ⟨decided, List.mem_append_left _ member, pair⟩
      · exact .inr ⟨_, List.mem_append_right _ List.mem_cons_self, rfl, rfl⟩ }

/-- The inner loop's body visits one pair and leaves the row's candidate. -/
theorem pair (accounts : Accounts ops decideEquivalence threshold texts embeddings visited state)
    (before : left < right) (leftStays : left ∉ state.removed)
    (behind : ∀ first second, visited first second → first ≤ left) (fresh : ¬ visited left right)
    (ran : reducePair ops decideEquivalence threshold texts embeddings left state right = .ok next) :
    Accounts ops decideEquivalence threshold texts embeddings
      (fun first second => visited first second ∨ first = left ∧ second = right) next ∧
      left ∉ next.removed := by
  have idle (skipped : right ∈ state.removed ∨ FarAt ops threshold embeddings left right) :
      Accounts ops decideEquivalence threshold texts embeddings
        (fun first second => visited first second ∨ first = left ∧ second = right) state := by
    refine accounts.widen (fun _ _ => .inl) ?_
    rintro first second (old | ⟨rfl, rfl⟩) _ secondStays
    · exact .inl old
    · exact .inr (skipped.resolve_left secondStays)
  unfold reducePair at ran
  split at ran
  · rename_i gone
    cases ran
    exact ⟨idle (.inl gone), leftStays⟩
  · rename_i rightStays
    rcases looked : similarityAt ops embeddings left right with error | ⟨problem | similarity⟩
    · rw [looked] at ran
      cases ran
    · rw [looked] at ran
      cases problem with
      | dimensionMismatch _ _ => cases ran
      | zeroMagnitude =>
        cases ran
        exact ⟨idle (.inr (.inl looked)), leftStays⟩
    · rw [looked] at ran
      simp only [bind, Except.bind, pure, Except.pure] at ran
      split at ran
      · rename_i below
        cases ran
        exact ⟨idle (.inr (.inr ⟨similarity, looked, below⟩)), leftStays⟩
      · rename_i notBelow
        split at ran
        · cases ran
        · rename_i decision answer
          cases ran
          have recorded := accounts.record before leftStays rightStays behind fresh
            ⟨looked, by simpa using notBelow⟩ answer
          exact ⟨recorded, recorded.remains _ (List.mem_append_right _ List.mem_cons_self)⟩

/-- The outer loop's body visits the pairs of one candidate with the later ones. -/
theorem row (accounts : Accounts ops decideEquivalence threshold texts embeddings visited state)
    (earlier : ∀ first second, visited first second → first < left)
    (ran : reduceRow ops decideEquivalence threshold texts embeddings state left = .ok next) :
    Accounts ops decideEquivalence threshold texts embeddings
      (fun first second => visited first second ∨ first = left ∧ left < second) next := by
  unfold reduceRow at ran
  split at ran
  · rename_i gone
    cases ran
    refine accounts.widen (fun _ _ => .inl) ?_
    rintro first second (old | ⟨rfl, _⟩) firstStays _
    · exact .inl old
    · exact absurd gone firstStays
  · rename_i leftStays
    have row := foldlM_invariant (fun done state =>
        Accounts ops decideEquivalence threshold texts embeddings
          (fun first second => visited first second ∨ first = left ∧ second ∈ done) state ∧
        left ∉ state.removed) ?_ ⟨accounts.widen (fun _ _ => .inl) fun _ _ seen _ _ =>
          .inl (seen.resolve_right fun none => absurd none.2 List.not_mem_nil), leftStays⟩ ran
    · refine row.1.widen ?_ ?_
      · rintro first second (old | ⟨same, inside⟩)
        · exact .inl old
        · exact .inr ⟨same, by simpa [positionsAfter] using inside⟩
      · rintro first second (old | ⟨same, inside⟩) _ _
        · exact .inl (.inl old)
        · exact .inl (.inr ⟨same, by simpa [positionsAfter] using inside⟩)
    · rintro done right rest state next split ⟨accounts, leftStays⟩ ran
      have distinct : (positionsAfter left).Nodup := (List.nodup_finRange n).filter _
      have after : right ∈ positionsAfter left := by simp [split]
      have visitedOne := accounts.pair (by simpa [positionsAfter] using after) leftStays ?_ ?_ ran
      · refine ⟨visitedOne.1.widen ?_ ?_, visitedOne.2⟩
        · rintro first second ((old | ⟨same, inside⟩) | ⟨same, rfl⟩)
          · exact .inl old
          · exact .inr ⟨same, List.mem_append_left _ inside⟩
          · exact .inr ⟨same, List.mem_append_right _ List.mem_cons_self⟩
        · rintro first second (old | ⟨same, inside⟩) _ _
          · exact .inl (.inl (.inl old))
          · rcases List.mem_append.mp inside with prior | last
            · exact .inl (.inl (.inr ⟨same, prior⟩))
            · exact .inl (.inr ⟨same, List.mem_singleton.mp last⟩)
      · rintro first second (old | ⟨rfl, _⟩)
        · exact (earlier first second old).le
        · exact le_rfl
      · rintro (old | ⟨_, inside⟩)
        · exact absurd (earlier left right old) (lt_irrefl _)
        · rw [split] at distinct
          exact (List.nodup_append.mp distinct).2.2 right inside right List.mem_cons_self rfl

/-- A finished reduce accounts for every pair. -/
theorem finished {final : ReduceState F n}
    (ran : (List.finRange n).foldlM (reduceRow ops decideEquivalence threshold texts embeddings) ⟨[], []⟩ =
      .ok final) :
    Accounts ops decideEquivalence threshold texts embeddings (fun left right => left < right) final := by
  have whole := foldlM_invariant (fun done state =>
    Accounts ops decideEquivalence threshold texts embeddings
      (fun first second => first ∈ done ∧ first < second) state) ?_ start ran
  · exact whole.widen (fun _ _ => And.right) fun first _ before _ _ =>
      .inl ⟨List.mem_finRange first, before⟩
  · intro done left rest state next split accounts ran
    have sorted : (List.finRange n).Pairwise (· < ·) := List.pairwise_lt_finRange n
    rw [split] at sorted
    have visitedRow := accounts.row
      (fun first second seen => (List.pairwise_append.mp sorted).2.2 first seen.1 left List.mem_cons_self) ran
    refine visitedRow.widen ?_ ?_
    · rintro first second (⟨inside, before⟩ | ⟨rfl, before⟩)
      · exact ⟨List.mem_append_left _ inside, before⟩
      · exact ⟨List.mem_append_right _ List.mem_cons_self, before⟩
    · rintro first second ⟨inside, before⟩ _ _
      rcases List.mem_append.mp inside with prior | last
      · exact .inl (.inl ⟨prior, before⟩)
      · obtain rfl := List.mem_singleton.mp last
        exact .inl (.inr ⟨rfl, before⟩)

end Accounts

/-! ### Services that always answer -/

section Answered

variable (embed : Str → List F) (answer : Str → Str → EquivalenceDecision)

/-- The reduce step with an embedding for every text and an answer for every pair. -/
def reduceAnswered (candidates : List ExtractedSkillCandidate) :
    Except ReduceError (List ExtractedSkillCandidate × List (ReduceAuditEntry F)) :=
  reduceCandidates ops (fun texts => .ok (texts.map embed)) (fun left right => .ok (answer left right))
    threshold candidates

/-- What the reduce step returns, explained by the positions it removed and the answers it got:
the rest in order, each answer about a near pair, each removed position by one answer for a
candidate that is not removed, and one answer, that they differ, for each near pair of the rest. -/
structure Reduced (candidates : List ExtractedSkillCandidate) (deduped : List ExtractedSkillCandidate)
    (audit : List (ReduceAuditEntry F)) (removed : List (Fin candidates.length))
    (decisions : List (ReduceDecision F candidates.length)) : Prop where
  sublist : deduped.Sublist candidates
  deduped : deduped = survivors candidates removed
  audit : audit = decisions.map ReduceDecision.entry
  asked : ∀ decided ∈ decisions, decided.left < decided.right ∧
    cosineSimilarity ops (embed (candidateSemanticText (candidates.get decided.left)))
      (embed (candidateSemanticText (candidates.get decided.right))) = .ok decided.similarity ∧
    ops.lt decided.similarity threshold = false ∧
    decided.decision = answer (candidateSemanticText (candidates.get decided.left))
      (candidateSemanticText (candidates.get decided.right))
  once : removed.Nodup
  merged : removed.Perm ((decisions.filter fun decided => decided.decision.equivalent).map ReduceDecision.right)
  keeps : ∀ decided ∈ decisions, decided.left ∉ removed
  comparable : ∀ left right, left < right → left ∉ removed → right ∉ removed →
    (embed (candidateSemanticText (candidates.get left))).length =
      (embed (candidateSemanticText (candidates.get right))).length
  settled : ∀ left right similarity, left < right → left ∉ removed → right ∉ removed →
    cosineSimilarity ops (embed (candidateSemanticText (candidates.get left)))
      (embed (candidateSemanticText (candidates.get right))) = .ok similarity →
    ops.lt similarity threshold = false →
    ∃ decision, decision = answer (candidateSemanticText (candidates.get left))
        (candidateSemanticText (candidates.get right)) ∧ decision.equivalent = false ∧
      (decisions.filter fun decided => decided.left = left ∧ decided.right = right) =
        [⟨left, right, similarity, decision⟩]

variable {ops threshold embed answer} {candidates : List ExtractedSkillCandidate}

theorem survivors_sublist (removed : List (Fin candidates.length)) :
    (survivors candidates removed).Sublist candidates := by
  have kept : ((List.finRange candidates.length).filter fun position => position ∉ removed).Sublist
      (List.finRange candidates.length) := List.filter_sublist
  simpa only [survivors, List.map_get_finRange] using kept.map candidates.get

theorem similarityAt_embedded (left right : Fin candidates.length) :
    similarityAt ops ((candidates.map candidateSemanticText).map embed) left right =
      .ok (cosineSimilarity ops (embed (candidateSemanticText (candidates.get left)))
        (embed (candidateSemanticText (candidates.get right)))) := by
  simp [similarityAt]

theorem reduced_of_accounts {state : ReduceState F candidates.length}
    (accounts : Accounts ops (fun left right => .ok (answer left right)) threshold
      (fun position => candidateSemanticText (candidates.get position))
      ((candidates.map candidateSemanticText).map embed) (fun left right => left < right) state) :
    Reduced ops threshold embed answer candidates (survivors candidates state.removed)
      (state.audit.map ReduceDecision.entry) state.removed state.audit where
  sublist := survivors_sublist state.removed
  deduped := rfl
  audit := rfl
  asked := by
    intro decided member
    have near := accounts.near decided member
    rw [NearAt, similarityAt_embedded] at near
    exact ⟨accounts.ordered decided member, Except.ok.inj near.1, near.2,
      (Except.ok.inj (accounts.answered decided member)).symm⟩
  once := accounts.once
  merged := accounts.removed
  keeps := accounts.remains
  comparable := by
    intro left right before leftStays rightStays
    by_contra differ
    obtain ⟨leftDimension, rightDimension, mismatch⟩ : ∃ leftDimension rightDimension,
        similarityAt ops ((candidates.map candidateSemanticText).map embed) left right =
          .ok (.error (.dimensionMismatch leftDimension rightDimension)) :=
      ⟨_, _, by rw [similarityAt_embedded, cosineSimilarity, if_pos differ]⟩
    rcases accounts.settled left right before leftStays rightStays with
      (undefined | ⟨similarity, found, _⟩) | ⟨decided, member, rfl, rfl⟩
    · rw [mismatch] at undefined
      cases undefined
    · rw [mismatch] at found
      cases found
    · have found := (accounts.near decided member).1
      rw [mismatch] at found
      cases found
  settled := by
    intro left right similarity before leftStays rightStays found near
    have close : ¬ FarAt ops threshold ((candidates.map candidateSemanticText).map embed) left right := by
      rw [FarAt, similarityAt_embedded, found]
      rintro (undefined | ⟨other, same, below⟩)
      · cases undefined
      · cases same
        rw [near] at below
        cases below
    obtain ⟨decided, member, rfl, rfl⟩ :=
      (accounts.settled left right before leftStays rightStays).resolve_left close
    obtain rfl : decided.similarity = similarity := by
      have same := (accounts.near decided member).1
      rw [similarityAt_embedded, found] at same
      cases same
      rfl
    have differ : decided.decision.equivalent = false := by
      by_contra equivalent
      exact rightStays (accounts.mem_removed.mpr ⟨decided, member, by simpa using equivalent, rfl⟩)
    refine ⟨decided.decision, (Except.ok.inj (accounts.answered decided member)).symm, differ, ?_⟩
    have unique : ∀ other ∈ state.audit, other.left = decided.left ∧ other.right = decided.right →
        other = decided := by
      rintro other inside ⟨sameLeft, sameRight⟩
      exact List.inj_on_of_nodup_map accounts.asked inside member (by simp [sameLeft, sameRight])
    have distinct : state.audit.Nodup := .of_map _ accounts.asked
    refine List.perm_singleton.mp
      ((List.perm_ext_iff_of_nodup (distinct.filter _) (List.nodup_singleton _)).mpr fun other => ?_)
    rw [List.mem_filter, List.mem_singleton, decide_eq_true_iff]
    constructor
    · exact fun asked => unique other asked.1 asked.2
    · rintro rfl
      exact ⟨member, rfl, rfl⟩

theorem reduceAnswered_eq_ok {deduped : List ExtractedSkillCandidate} {audit : List (ReduceAuditEntry F)}
    (returned : reduceAnswered ops threshold embed answer candidates = .ok (deduped, audit)) :
    ∃ removed decisions, Reduced ops threshold embed answer candidates deduped audit removed decisions := by
  unfold reduceAnswered reduceCandidates at returned
  split at returned
  · rename_i empty
    cases returned
    obtain rfl : candidates = [] := List.isEmpty_iff.mp empty
    have none : Accounts ops (fun left right => .ok (answer left right)) threshold
        (fun position => candidateSemanticText ([].get position)) [] (fun left right => left < right) ⟨[], []⟩ :=
      Accounts.finished rfl
    exact ⟨[], [], reduced_of_accounts none⟩
  · simp only [Except.mapError, bind, Except.bind] at returned
    split at returned
    · cases returned
    · rename_i final ran
      cases returned
      exact ⟨_, _, reduced_of_accounts (Accounts.finished ran)⟩

/-- A reduce step with services that always answer fails only on two embeddings of different
dimensions. -/
theorem reduceAnswered_eq_error {error : ReduceError}
    (failed : reduceAnswered ops threshold embed answer candidates = .error error) :
    ∃ left ∈ candidates, ∃ right ∈ candidates,
      (embed (candidateSemanticText left)).length ≠ (embed (candidateSemanticText right)).length ∧
      error = .failed (.cosineSimilarity
        (CosineSimilarityError.dimensionMismatch (embed (candidateSemanticText left)).length
          (embed (candidateSemanticText right)).length).display) := by
  unfold reduceAnswered reduceCandidates at failed
  split at failed
  · cases failed
  · simp only [Except.mapError, bind, Except.bind] at failed
    split at failed
    · rename_i problem ran
      cases failed
      obtain ⟨left, _, state, rowFailed⟩ := foldlM_fails ran
      unfold reduceRow at rowFailed
      split at rowFailed
      · cases rowFailed
      · obtain ⟨right, _, between, pairFailed⟩ := foldlM_fails rowFailed
        refine ⟨_, List.get_mem candidates left, _, List.get_mem candidates right, ?_⟩
        unfold reducePair at pairFailed
        rw [similarityAt_embedded] at pairFailed
        simp only [bind, Except.bind, pure, Except.pure] at pairFailed
        split at pairFailed
        · cases pairFailed
        · split at pairFailed
          · cases pairFailed
          · rename_i problem notZero looked
            cases pairFailed
            cases problem with
            | zeroMagnitude => exact absurd rfl notZero
            | dimensionMismatch leftDimension rightDimension =>
              obtain ⟨differ, rfl, rfl⟩ := cosineSimilarity_mismatch looked
              exact ⟨differ, rfl⟩
          · split at pairFailed
            · cases pairFailed
            · cases pairFailed
    · cases failed

/-- A reduce step whose services always answer accounts for every candidate it removes and
every near pair it leaves, or two embeddings differ in dimension. -/
theorem reduceAnswered_accounts (ops : FloatOps F) (threshold : F) (embed : Str → List F)
    (answer : Str → Str → EquivalenceDecision) (candidates : List ExtractedSkillCandidate) :
    match reduceAnswered ops threshold embed answer candidates with
    | .ok (deduped, audit) =>
      ∃ removed decisions, Reduced ops threshold embed answer candidates deduped audit removed decisions
    | .error error => ∃ left ∈ candidates, ∃ right ∈ candidates,
      (embed (candidateSemanticText left)).length ≠ (embed (candidateSemanticText right)).length ∧
      error = .failed (.cosineSimilarity
        (CosineSimilarityError.dimensionMismatch (embed (candidateSemanticText left)).length
          (embed (candidateSemanticText right)).length).display) := by
  cases result : reduceAnswered ops threshold embed answer candidates with
  | ok returned =>
    obtain ⟨deduped, audit⟩ := returned
    exact reduceAnswered_eq_ok result
  | error error => exact reduceAnswered_eq_error result

/-- Two candidates whose embeddings differ in dimension let the reduce step fail. -/
theorem reduceAnswered_fails :
    ¬ ∀ (threshold : Rat) (embed : Str → List Rat) (answer : Str → Str → EquivalenceDecision)
      (candidates : List ExtractedSkillCandidate),
      ∃ deduped audit, reduceAnswered fractions threshold embed answer candidates = .ok (deduped, audit) := by
  intro returns
  obtain ⟨deduped, audit, returned⟩ := returns 1 (fun text => List.replicate text.length 1)
    (fun _ _ => ⟨true, []⟩)
    [⟨"a".toList, [], [], [], [], [], none, none⟩, ⟨"bc".toList, [], [], [], [], [], none, none⟩]
  have mismatch : (reduceAnswered fractions 1 (fun text => List.replicate text.length 1)
      (fun _ _ => ⟨true, []⟩) [⟨"a".toList, [], [], [], [], [], none, none⟩,
        ⟨"bc".toList, [], [], [], [], [], none, none⟩]).isOk = false := by decide +kernel
  rw [returned] at mismatch
  cases mismatch

end Answered
end SkillLayer.SessionExtractor

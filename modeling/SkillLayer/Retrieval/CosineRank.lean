import Mathlib.Algebra.BigOperators.Group.List.Basic
import Mathlib.Algebra.Order.Field.Basic
import Mathlib.Algebra.Order.Field.Rat
import Mathlib.Data.Rat.Sqrt
import Mathlib.Tactic.Linarith
import Mathlib.Tactic.Ring
import SkillLayer.Ranking

/-! Cosine similarities over exact fractions, and the ranking of a list of embeddings by them. -/

namespace SkillLayer.Retrieval

abbrev Embedding := List Rat

/-- A root over fractions: exact on squares, and otherwise rounded up. -/
structure Root where
  sqrt : Rat → Rat
  nonneg : ∀ value, 0 ≤ sqrt value
  covers : ∀ value, 0 ≤ value → value ≤ sqrt value * sqrt value
  onSquares : ∀ value, 0 ≤ value → sqrt (value * value) = value

structure CosineHit where
  skillIndex : Nat
  semanticScore : Rat
deriving DecidableEq

def dotProduct (lhs rhs : Embedding) : Rat := (List.zipWith (fun l r => l * r) lhs rhs).sum

def squaredNorm (values : Embedding) : Rat := (values.map fun value => value * value).sum

variable (root : Root)

def cosineSimilarity (lhs rhs : Embedding) : Rat :=
  if lhs.length ≠ rhs.length ∨ lhs = [] then 0
  else
    let dot := dotProduct lhs rhs
    let lhsNorm := root.sqrt (squaredNorm lhs)
    let rhsNorm := root.sqrt (squaredNorm rhs)
    if lhsNorm = 0 ∨ rhsNorm = 0 then 0 else dot / (lhsNorm * rhsNorm)

/-- The similarity of the ranking, which does not go below zero. -/
def semanticScore (promptEmbedding embedding : Embedding) : Rat :=
  max (cosineSimilarity root promptEmbedding embedding) 0

def rankByCosine (promptEmbedding : Embedding) (skillEmbeddings : List Embedding) (limit : Nat) : List CosineHit :=
  let hits := skillEmbeddings.zipIdx.map fun entry =>
    CosineHit.mk entry.2 (semanticScore root promptEmbedding entry.1)
  (hits.insertionSort fun left right => right.semanticScore ≤ left.semanticScore).take limit

/-! ### No similarity is above one -/

theorem squaredNorm_nonneg (values : Embedding) : 0 ≤ squaredNorm values := by
  unfold squaredNorm
  induction values with
  | nil => exact le_rfl
  | cons value rest ih =>
    rw [List.map_cons, List.sum_cons]
    exact add_nonneg (mul_self_nonneg value) ih

/-- The inequality of Cauchy and Schwarz. -/
theorem dotProduct_mul_self_le (lhs rhs : Embedding) :
    dotProduct lhs rhs * dotProduct lhs rhs ≤ squaredNorm lhs * squaredNorm rhs := by
  induction lhs generalizing rhs with
  | nil => simp [dotProduct, squaredNorm]
  | cons l lhs ih =>
    cases rhs with
    | nil => simp [dotProduct, squaredNorm]
    | cons r rhs =>
      have dotCons : dotProduct (l :: lhs) (r :: rhs) = l * r + dotProduct lhs rhs := by
        simp [dotProduct]
      have normCons (value : Rat) (rest : Embedding) : squaredNorm (value :: rest) = value * value + squaredNorm rest := by
        simp [squaredNorm]
      rw [dotCons, normCons, normCons]
      have before := ih rhs
      have left := squaredNorm_nonneg lhs
      have right := squaredNorm_nonneg rhs
      generalize dotProduct lhs rhs = dot at *
      generalize squaredNorm lhs = leftNorm at *
      generalize squaredNorm rhs = rightNorm at *
      -- twice the mixed term is at most the sum of the two mixed squares
      have mixed : 2 * (l * r * dot) ≤ l * l * rightNorm + r * r * leftNorm := by
        apply le_of_abs_le
        apply abs_le_of_sq_le_sq
        · nlinarith [sq_nonneg (l * l * rightNorm - r * r * leftNorm), mul_le_mul_of_nonneg_left before
            (mul_nonneg (mul_self_nonneg l) (mul_self_nonneg r))]
        · exact add_nonneg (mul_nonneg (mul_self_nonneg l) right) (mul_nonneg (mul_self_nonneg r) left)
      nlinarith [mixed, before]

theorem cosineSimilarity_le_one (lhs rhs : Embedding) : cosineSimilarity root lhs rhs ≤ 1 := by
  unfold cosineSimilarity
  split
  · exact zero_le_one
  · dsimp only
    split
    · exact zero_le_one
    · rename_i nonzero
      have leftNonneg := root.nonneg (squaredNorm lhs)
      have rightNonneg := root.nonneg (squaredNorm rhs)
      have positive : 0 < root.sqrt (squaredNorm lhs) * root.sqrt (squaredNorm rhs) := by
        rw [not_or] at nonzero
        exact mul_pos (lt_of_le_of_ne leftNonneg (Ne.symm nonzero.1)) (lt_of_le_of_ne rightNonneg (Ne.symm nonzero.2))
      rw [div_le_one positive]
      apply le_of_abs_le
      apply abs_le_of_sq_le_sq _ positive.le
      have covered := mul_le_mul (root.covers _ (squaredNorm_nonneg lhs)) (root.covers _ (squaredNorm_nonneg rhs))
        (squaredNorm_nonneg rhs) (mul_nonneg leftNonneg leftNonneg)
      have squares := (dotProduct_mul_self_le lhs rhs).trans covered
      linarith [squares, sq (dotProduct lhs rhs),
        sq (root.sqrt (squaredNorm lhs) * root.sqrt (squaredNorm rhs)),
        mul_mul_mul_comm (root.sqrt (squaredNorm lhs)) (root.sqrt (squaredNorm lhs)) (root.sqrt (squaredNorm rhs))
          (root.sqrt (squaredNorm rhs))]

theorem semanticScore_le_one (promptEmbedding embedding : Embedding) :
    semanticScore root promptEmbedding embedding ≤ 1 :=
  max_le (cosineSimilarity_le_one root _ _) zero_le_one

/-- The root of fractions, with one more than the value where there is none. -/
def fractionRoot : Root where
  sqrt value := if Rat.sqrt value * Rat.sqrt value = value then Rat.sqrt value else max value 0 + 1
  nonneg value := by
    split
    · exact Rat.sqrt_nonneg value
    · exact add_nonneg (le_max_right _ _) zero_le_one
  covers value nonneg := by
    split
    · rename_i exact_
      exact exact_.ge
    · rw [max_eq_left nonneg]
      nlinarith
  onSquares value nonneg := by
    rw [Rat.sqrt_eq, abs_of_nonneg nonneg, if_pos rfl]

end SkillLayer.Retrieval

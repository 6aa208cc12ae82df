import Mathlib.Data.Nat.Sqrt
import SkillLayer.Text

/-! Cosine similarity, over the arithmetic of the vector components. -/

namespace SkillLayer.Infrastructure

/-- The operations on components; products commute, and a comparison with a value that is
not a number is false. -/
structure FloatOps (F : Type) where
  zero : F
  add : F → F → F
  mul : F → F → F
  div : F → F → F
  sqrt : F → F
  isZero : F → Bool
  lt : F → F → Bool
  mul_comm : ∀ left right, mul left right = mul right left

inductive CosineSimilarityError where
  | dimensionMismatch (leftDimension rightDimension : Nat)
  | zeroMagnitude
deriving DecidableEq

def CosineSimilarityError.display : CosineSimilarityError → Str
  | .dimensionMismatch leftDimension rightDimension =>
    "embedding dimension mismatch: left=".toList ++ Str.ofNat leftDimension ++ ", right=".toList ++
      Str.ofNat rightDimension
  | .zeroMagnitude => "cannot compare zero-magnitude embedding vectors"

variable {F : Type} (ops : FloatOps F)

structure CosineSums (F : Type) where
  dotProduct : F
  leftNorm : F
  rightNorm : F

def CosineSums.add (sums : CosineSums F) (pair : F × F) : CosineSums F where
  dotProduct := ops.add sums.dotProduct (ops.mul pair.1 pair.2)
  leftNorm := ops.add sums.leftNorm (ops.mul pair.1 pair.1)
  rightNorm := ops.add sums.rightNorm (ops.mul pair.2 pair.2)

def cosineSimilarity (left right : List F) : Except CosineSimilarityError F :=
  if left.length ≠ right.length then .error (.dimensionMismatch left.length right.length)
  else
    let sums := (left.zip right).foldl (CosineSums.add ops) ⟨ops.zero, ops.zero, ops.zero⟩
    if ops.isZero sums.leftNorm || ops.isZero sums.rightNorm then .error .zeroMagnitude
    else .ok (ops.div sums.dotProduct (ops.mul (ops.sqrt sums.leftNorm) (ops.sqrt sums.rightNorm)))

/-- Exact fractions, with a root that is exact on squares. -/
def fractions : FloatOps Rat where
  zero := 0
  add := (· + ·)
  mul := (· * ·)
  div := (· / ·)
  sqrt value := mkRat value.num.toNat.sqrt value.den.sqrt
  isZero value := value == 0
  lt left right := decide (left < right)
  mul_comm := Rat.mul_comm

variable {ops}

/-- The sums of the two vectors the other way round. -/
def CosineSums.swap (sums : CosineSums F) : CosineSums F := ⟨sums.dotProduct, sums.rightNorm, sums.leftNorm⟩

theorem foldl_swap (left right : List F) (sums : CosineSums F) :
    ((right.zip left).foldl (CosineSums.add ops) sums.swap) =
      ((left.zip right).foldl (CosineSums.add ops) sums).swap := by
  induction left generalizing right sums with
  | nil => cases right <;> rfl
  | cons first rest ih =>
    cases right with
    | nil => rfl
    | cons other others =>
      have step : CosineSums.add ops sums.swap (other, first) = (CosineSums.add ops sums (first, other)).swap := by
        simp [CosineSums.add, CosineSums.swap, ops.mul_comm other first]
      rw [List.zip_cons_cons, List.foldl_cons, step, ih]
      rfl

theorem cosineSimilarity_mismatch {left right : List F} {leftDimension rightDimension : Nat}
    (failed : cosineSimilarity ops left right = .error (.dimensionMismatch leftDimension rightDimension)) :
    left.length ≠ right.length ∧ leftDimension = left.length ∧ rightDimension = right.length := by
  unfold cosineSimilarity at failed
  split at failed
  · rename_i differ
    cases failed
    exact ⟨differ, rfl, rfl⟩
  · dsimp only at failed
    split at failed
    · cases failed
    · cases failed

theorem cosineSimilarity_comm {left right : List F} (same : left.length = right.length) :
    cosineSimilarity ops left right = cosineSimilarity ops right left := by
  have swapped : (right.zip left).foldl (CosineSums.add ops) ⟨ops.zero, ops.zero, ops.zero⟩ =
      ((left.zip right).foldl (CosineSums.add ops) ⟨ops.zero, ops.zero, ops.zero⟩).swap :=
    foldl_swap left right ⟨ops.zero, ops.zero, ops.zero⟩
  unfold cosineSimilarity
  rw [if_neg (not_not.mpr same), if_neg (not_not.mpr same.symm), swapped]
  dsimp only [CosineSums.swap]
  rw [Bool.or_comm, ops.mul_comm]

/-- A similarity does not depend on which vector comes first. -/
theorem cosineSimilarity_symm {left right : List F} {similarity : F}
    (found : cosineSimilarity ops left right = .ok similarity) :
    cosineSimilarity ops right left = .ok similarity := by
  by_cases same : left.length = right.length
  · rw [← cosineSimilarity_comm same, found]
  · rw [cosineSimilarity, if_pos same] at found
    cases found

/-! ### When a similarity is defined -/

/-- The squared magnitude, summed up as the similarity sums it. -/
def squaredNorm (ops : FloatOps F) (vector : List F) : F :=
  vector.foldl (fun norm component => ops.add norm (ops.mul component component)) ops.zero

theorem foldl_leftNorm {left right : List F} (same : left.length = right.length) (sums : CosineSums F) :
    ((left.zip right).foldl (CosineSums.add ops) sums).leftNorm =
      left.foldl (fun norm component => ops.add norm (ops.mul component component)) sums.leftNorm := by
  induction left generalizing right sums with
  | nil => rfl
  | cons first rest ih =>
    cases right with
    | nil => cases same
    | cons other others =>
      have shorter : rest.length = others.length := by simpa using same
      rw [List.zip_cons_cons, List.foldl_cons, ih shorter, List.foldl_cons]
      rfl

theorem foldl_rightNorm {left right : List F} (same : left.length = right.length) :
    ((left.zip right).foldl (CosineSums.add ops) ⟨ops.zero, ops.zero, ops.zero⟩).rightNorm = squaredNorm ops right := by
  have swapped : (left.zip right).foldl (CosineSums.add ops) ⟨ops.zero, ops.zero, ops.zero⟩ =
      ((right.zip left).foldl (CosineSums.add ops) ⟨ops.zero, ops.zero, ops.zero⟩).swap :=
    foldl_swap right left ⟨ops.zero, ops.zero, ops.zero⟩
  rw [swapped]
  exact foldl_leftNorm same.symm _

/-- Two vectors of one dimension and of a magnitude have a similarity. -/
theorem exists_cosineSimilarity {left right : List F} (same : left.length = right.length)
    (nonzeroLeft : ops.isZero (squaredNorm ops left) = false)
    (nonzeroRight : ops.isZero (squaredNorm ops right) = false) :
    ∃ similarity, cosineSimilarity ops left right = .ok similarity := by
  have leftNorm : ((left.zip right).foldl (CosineSums.add ops) ⟨ops.zero, ops.zero, ops.zero⟩).leftNorm =
      squaredNorm ops left := foldl_leftNorm same _
  unfold cosineSimilarity
  rw [if_neg (not_not.mpr same)]
  dsimp only
  rw [leftNorm, foldl_rightNorm same, nonzeroLeft, nonzeroRight]
  exact ⟨_, rfl⟩

end SkillLayer.Infrastructure

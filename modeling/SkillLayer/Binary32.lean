import Mathlib.Algebra.Group.Nat.Defs
import Mathlib.Algebra.Order.Field.Rat
import SkillLayer.Text

/-! Single precision numbers by their exact values: rounding, comparison and fixed-point text. -/

namespace SkillLayer

/-- A single precision number; the two zeros are one value. -/
inductive Binary32 where
  | nan
  | infinite (positive : Bool)
  | finite (value : Rat)
deriving DecidableEq

namespace Binary32

def roundHalfEven (value : Rat) : Int :=
  let below := value.floor
  let rest := value - below
  if rest < 1 / 2 then below
  else if 1 / 2 < rest then below + 1
  else if below % 2 = 0 then below else below + 1

def powerOfTwo : Int → Rat
  | .ofNat exponent => ((2 ^ exponent : Nat) : Rat)
  | .negSucc exponent => 1 / ((2 ^ (exponent + 1) : Nat) : Rat)

/-- The exponent of the largest power of two that is not above a positive value. -/
def binade (value : Rat) : Int :=
  let exponent : Int := value.num.natAbs.log2 - value.den.log2
  if value < powerOfTwo exponent then exponent - 1 else exponent

/-- The nearest value with a significand of 24 bits, for positive values in the normal range. -/
def nearest (value : Rat) : Rat :=
  if value = 0 then 0
  else
    let ulp := powerOfTwo (binade value - 23)
    roundHalfEven (value / ulp) * ulp

/-- `value >= bound`, which is false for a bound that is not a number. -/
def atLeast (value : Rat) : Binary32 → Bool
  | .nan => false
  | .infinite positive => !positive
  | .finite bound => decide (bound ≤ value)

/-- Three decimal digits of a value that is not negative. -/
def fixed (value : Rat) : Str :=
  let thousandths := (roundHalfEven (value * 1000)).toNat
  let digits := Str.ofNat (thousandths % 1000)
  Str.ofNat (thousandths / 1000) ++ '.' :: (List.replicate (3 - digits.length) '0' ++ digits)

def toFixed : Binary32 → Str
  | .nan => "NaN"
  | .infinite positive => if positive then "inf" else "-inf"
  | .finite value => if value < 0 then '-' :: fixed (-value) else fixed value

end Binary32
end SkillLayer

-- Numbers of 64 bits: sign, exponent and fraction. A finite number is
-- `significand * 2 ^ exponent`, and the number nearest to a ratio is found in
-- whole numbers, with ties to the even significand.
import Transcript.Decimal.Powers

namespace Transcript

/-- A binary number of 64 bits, by its bits. -/
structure Binary64 where
  bits : UInt64
deriving DecidableEq

namespace Binary64

/-! ## Parts -/

/-- The bits below the sign. -/
def magnitude (x : Binary64) : Nat := x.bits.toNat % twoTo 63

/-- The sign bit is set. -/
def isNegative (x : Binary64) : Bool := twoTo 63 ≤ x.bits.toNat

/-- The magnitude of the infinities; those above it are not numbers. -/
def infinityMagnitude : Nat := 0x7ff * twoTo 52

def isNaN (x : Binary64) : Bool := infinityMagnitude < x.magnitude

def isFinite (x : Binary64) : Bool := x.magnitude < infinityMagnitude

/-- The exponent field. Zero marks the numbers below the smallest normal one. -/
def exponentField (x : Binary64) : Nat := x.magnitude / twoTo 52

/-- The whole number that the power of two scales. -/
def significand (x : Binary64) : Nat :=
  if x.exponentField = 0 then x.magnitude else x.magnitude % twoTo 52 + twoTo 52

/-- The power of two that scales the significand. -/
def exponent (x : Binary64) : Int := (max x.exponentField 1 : Nat) - 1075

/-- A number from its sign and magnitude. -/
def ofMagnitude (negative : Bool) (magnitude : Nat) : Binary64 :=
  ⟨UInt64.ofNat ((if negative then twoTo 63 else 0) + magnitude)⟩

def neg (x : Binary64) : Binary64 := ofMagnitude (!x.isNegative) x.magnitude

def zero (negative : Bool) : Binary64 := ofMagnitude negative 0

def infinity (negative : Bool) : Binary64 := ofMagnitude negative infinityMagnitude

/-- The value that stands for no number, with the quiet bit alone. -/
def nan (negative : Bool) : Binary64 := ofMagnitude negative (infinityMagnitude + twoTo 51)

/-! ## Order -/

/-- The place in the total order: the negative values first, each by its magnitude
downwards, then the others upwards. Minus zero stands just before zero. -/
def rank (x : Binary64) : Int := if x.isNegative then -x.magnitude - 1 else x.magnitude

/-! ## The nearest number -/

/-- The power of two at which the ratio has a significand of 53 bits, or the least one. -/
def scaleOf (num den : Nat) : Int :=
  let guess : Int := max ((num.log2 : Int) - den.log2 - 52) (-1074)
  if num * twoTo (-guess).toNat < twoTo 52 * (den * twoTo guess.toNat) then max (guess - 1) (-1074)
  else guess

/-- The quotient rounded to the nearest whole number, a tie to the even one. -/
def roundDiv (num den : Nat) : Nat :=
  let q := num / den
  let r := num % den
  if den < 2 * r ∨ (den = 2 * r ∧ q % 2 = 1) then q + 1 else q

/-- The magnitude nearest to the ratio; at and above the range that of infinity. -/
def magnitudeOfRatio (num den : Nat) : Nat :=
  let e := scaleOf num den
  let q := roundDiv (num * twoTo (-e).toNat) (den * twoTo e.toNat)
  min ((e + 1074).toNat * twoTo 52 + q) infinityMagnitude

/-- The number nearest to the ratio, with a sign. -/
def ofRatio (negative : Bool) (num den : Nat) : Binary64 :=
  ofMagnitude negative (if num = 0 then 0 else magnitudeOfRatio num den)

end Binary64

end Transcript

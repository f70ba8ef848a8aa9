-- The number that a document reader makes of a decimal. It keeps as many leading
-- digits as fit 64 bits and scales them by a power of ten that is itself rounded, so
-- the result can be a neighbour of the nearest number.
import Transcript.Decimal.Reader

namespace Transcript

/-! ## Products and quotients -/

namespace Binary64

/-- The number nearest to a whole number. -/
def ofNat (n : Nat) : Binary64 := ofRatio false n 1

/-- The number nearest to the product of two finite numbers. -/
def mul (x y : Binary64) : Binary64 :=
  let e := x.exponent + y.exponent
  ofRatio (x.isNegative != y.isNegative) (x.significand * y.significand * twoTo e.toNat)
    (twoTo (-e).toNat)

/-- The number nearest to the quotient of two finite numbers, the second not zero. -/
def div (x y : Binary64) : Binary64 :=
  let e := x.exponent - y.exponent
  ofRatio (x.isNegative != y.isNegative) (x.significand * twoTo e.toNat)
    (y.significand * twoTo (-e).toNat)

end Binary64

namespace Decimal

/-! ## Leading digits -/

/-- The largest whole number of 64 bits. -/
def largestWord : Nat := twoTo 64 - 1

/-- The digits taken into a number while it stays within the limit, and those left over. -/
def absorb (limit n : Nat) : List Char → Nat × List Char
  | [] => (n, [])
  | d :: ds =>
    if 10 * n + digitValue d ≤ limit then absorb limit (10 * n + digitValue d) ds else (n, d :: ds)

/-! ## Scaling -/

/-- The largest power of ten among the numbers of 64 bits. -/
def largestPower : Nat := 308

/-- Scales by a power of ten, in steps when it is below the range; none above the range. -/
def scaleBy (x : Binary64) (power : Int) : Nat → Option Binary64
  | 0 => some (.zero false)
  | steps + 1 =>
    if power.natAbs ≤ largestPower then
      if 0 ≤ power then
        let y := x.mul (.ofNat (tenTo power.toNat))
        if y.isFinite then some y else none
      else some (x.div (.ofNat (tenTo power.natAbs)))
    else if x.magnitude = 0 then some x
    else if 0 ≤ power then none
    else scaleBy (x.div (.ofNat (tenTo largestPower))) (power + largestPower) steps

/-- The number made of leading digits and a power of ten, none above the range. Three
steps down reach zero from any start. -/
def approximate (digits : Nat) (power : Int) : Option Binary64 := scaleBy (.ofNat digits) power 4

end Decimal

end Transcript

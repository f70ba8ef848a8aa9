-- The shortest decimal that reads back: of all decimals nearer to the number than
-- to any other, one with the fewest digits, and of those the nearest.
import Transcript.Decimal.Binary64

namespace Transcript.Decimal

/-- A decimal: `digits * 10 ^ power`. -/
structure Scaled where
  digits : Nat
  power : Int
deriving DecidableEq

/-- Which neighbour is taken when a number stands midway between two. -/
inductive Tie where
  | up
  | even
deriving DecidableEq

/-! ## The rounding interval -/

/-- A positive number among its neighbours, all as multiples of one unit
`unitNum / unitDen`: the number, and the ends of the interval that reads back as it.
The ends belong to the interval when the significand is even. -/
structure Interval where
  value : Nat
  low : Nat
  high : Nat
  closed : Bool
  unitNum : Nat
  unitDen : Nat

/-- The interval of a finite number that is not zero. Its unit is a quarter of the
distance to the next number; below a power of two the neighbour is nearer. -/
def Interval.of (x : Binary64) : Interval :=
  let m := x.significand
  let unit := x.exponent - 2
  { value := 4 * m
    low := if m = twoTo 52 ∧ 1 < x.exponentField then 4 * m - 1 else 4 * m - 2
    high := 4 * m + 2
    closed := m % 2 = 0
    unitNum := twoTo unit.toNat
    unitDen := twoTo (-unit).toNat }

/-! ## The grid of a power of ten -/

/-- The factors that bring multiples of the unit and multiples of `10 ^ power` to one scale. -/
def Interval.factors (i : Interval) (power : Int) : Nat × Nat :=
  (i.unitNum * tenTo (-power).toNat, i.unitDen * tenTo power.toNat)

/-- The decimal reads back as the number. -/
def Interval.holds (i : Interval) (power : Int) (digits : Nat) : Bool :=
  let (a, b) := i.factors power
  if i.closed then i.low * a ≤ digits * b && digits * b ≤ i.high * a
  else i.low * a < digits * b && digits * b < i.high * a

/-- The point of the grid that reads back and is nearest to the number, if any is. Only
the two points around the number need to be tried. -/
def Interval.onGrid? (i : Interval) (tie : Tie) (power : Int) : Option Nat :=
  let (a, b) := i.factors power
  let below := i.value * a / b
  let rest := i.value * a % b
  let up := b < 2 * rest ∨ (b = 2 * rest ∧ (tie = .up ∨ below % 2 = 1))
  match i.holds power below, i.holds power (below + 1) with
  | true, true => some (if up then below + 1 else below)
  | true, false => some below
  | false, true => some (below + 1)
  | false, false => none

/-- The coarsest of the next `steps` grids that has a point in the interval. -/
def Interval.search (i : Interval) (tie : Tie) : Nat → Int → Scaled
  | 0, power => ⟨i.value * (i.factors power).1 / (i.factors power).2, power⟩
  | steps + 1, power =>
    match i.onGrid? tie power with
    | some digits => ⟨digits, power⟩
    | none => i.search tie steps (power - 1)

/-- The shortest decimal of a finite number that is not zero, without its sign. The
search starts at a power above the number and ends before the last place that a number
of 64 bits can need. -/
def shortest (tie : Tie) (x : Binary64) : Scaled :=
  let i := Interval.of x
  let top := (Nat.toDigits 10 (i.high * i.unitNum / i.unitDen)).length
  i.search tie (top + 345) top

end Transcript.Decimal

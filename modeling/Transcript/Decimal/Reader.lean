-- Reading a decimal: sign, digits with a point among them, and a power of ten,
-- or the words for what has no digits. The number read is the nearest one.
import Transcript.Decimal.Binary64

namespace Transcript.Decimal

/-! ## Digits -/

/-- The value of a digit. -/
def digitValue (c : Char) : Nat := c.toNat - '0'.toNat

/-- The value of a run of digits. -/
def digitsValue (ds : List Char) : Nat := ds.foldl (fun n d => 10 * n + digitValue d) 0

/-- The digits at the front, and the rest. -/
def takeDigits (s : List Char) : List Char × List Char :=
  (s.takeWhile Char.isDigit, s.dropWhile Char.isDigit)

/-! ## The nearest number -/

/-- The number nearest to `digits * 10 ^ power`. A power far outside the range is
settled by the count of digits alone. -/
def nearest (negative : Bool) (digits : List Char) (power : Int) : Binary64 :=
  let significant := digits.dropWhile (· == '0')
  let top : Int := significant.length + power
  if significant.isEmpty then .zero negative
  else if 320 < top then .infinity negative
  else if top < -330 then .zero negative
  else
    .ofRatio negative (digitsValue significant * tenTo power.toNat) (tenTo (-power).toNat)

/-! ## Forms -/

/-- The sign in front, if any: whether it is a minus, and the rest. -/
def takeSign : List Char → Bool × List Char
  | '-' :: rest => (true, rest)
  | '+' :: rest => (false, rest)
  | s => (false, s)

/-- The power of ten after its mark: digits with an optional sign, and nothing more. -/
def readPower? (s : List Char) : Option Int :=
  let (negative, ds) := takeSign s
  if ds.isEmpty || !ds.all Char.isDigit then none
  else some (if negative then -digitsValue ds else digitsValue ds)

/-- Digits with at most one point, at least one digit, and then possibly a power. -/
def readUnsigned? (negative : Bool) (s : List Char) : Option Binary64 :=
  let (whole, rest) := takeDigits s
  let (fraction, rest) :=
    match rest with
    | '.' :: r => takeDigits r
    | r => ([], r)
  if whole.isEmpty && fraction.isEmpty then none
  else
    let power? : Option Int :=
      match rest with
      | [] => some 0
      | c :: r => if c = 'e' ∨ c = 'E' then readPower? r else none
    power?.map fun power => nearest negative (whole ++ fraction) (power - fraction.length)

/-- The words for what has no digits, in any case. -/
def readWord? (negative : Bool) (s : List Char) : Option Binary64 :=
  let word := String.ofList (s.map Char.toLower)
  if word = "inf" ∨ word = "infinity" then some (.infinity negative)
  else if word = "nan" then some (.nan negative)
  else none

/-- The number that a text is; none for a text of another form, blanks included. -/
def read? (s : List Char) : Option Binary64 :=
  let (negative, rest) := takeSign s
  (readWord? negative rest).or (readUnsigned? negative rest)

/-! ## Whole numbers -/

/-- A whole number below `limit`: digits, at least one, with an optional plus. -/
def readNat? (limit : Nat) (s : List Char) : Option Nat :=
  let ds := match s with
    | '+' :: rest => rest
    | s => s
  if ds.isEmpty || !ds.all Char.isDigit then none
  else if digitsValue ds < limit then some (digitsValue ds)
  else none

end Transcript.Decimal

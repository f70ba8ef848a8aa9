-- How a value is laid out in a place of a format: filled up to a width, with a sign or a
-- mark of its base in front, and with a number of digits.
import Transcript.Host.Numeral

namespace Transcript.Host

/-- What a format says about one place. -/
structure Layout where
  /-- The value stands at the left. -/
  left : Bool
  /-- A plus, or a blank, stands in front of a number without a minus. -/
  plus : Bool
  blank : Bool
  /-- The base is marked, or the point is always there. -/
  marked : Bool
  /-- The place is filled up with zeros. -/
  zeros : Bool
  width : Nat
  precision : Option Nat
deriving DecidableEq

namespace Layout

/-- The layout with the flags among some characters. -/
def ofFlags (flags : Octets) : Layout :=
  ⟨flags.contains '-', flags.contains '+', flags.contains ' ', flags.contains '#',
    flags.contains '0', 0, none⟩

/-- The layout with a width. A negative one puts the value at the left. -/
def withWidth (l : Layout) (width : Int) : Layout :=
  { l with left := l.left || decide (width < 0), width := width.natAbs }

/-- The layout with a precision. A negative one counts as none. -/
def withPrecision (l : Layout) (precision : Int) : Layout :=
  { l with precision := if precision < 0 then none else some precision.toNat }

/-! ## Texts -/

/-- A text brought to the width. -/
def pad (l : Layout) (s : Octets) : Octets :=
  let fill := List.replicate (l.width - s.length) ' '
  if l.left then s ++ fill else fill ++ s

/-- A text cut to the precision and brought to the width. -/
def text (l : Layout) (s : Octets) : Octets := l.pad (s.take (l.precision.getD s.length))

/-! ## Whole numbers -/

/-- The sign in front of a number. -/
def sign (l : Layout) (negative : Bool) : Octets :=
  if negative then ['-'] else if l.plus then ['+'] else if l.blank then [' '] else []

/-- Digits with what stands in front of them, brought to the width. -/
def digits (l : Layout) (zeros : Bool) (lead digits : Octets) : Octets :=
  if zeros ∧ !l.left then
    lead ++ List.replicate (l.width - lead.length - digits.length) '0' ++ digits
  else l.pad (lead ++ digits)

/-- The digits of a whole number: at least as many as the precision says, and none for a zero
where it says none. -/
def wholeDigits (l : Layout) (base n : Nat) : Octets :=
  let ds := if n = 0 then [] else Nat.toDigits base n
  List.replicate (l.precision.getD 1 - ds.length) '0' ++ ds

def signed (l : Layout) (n : Int) : Octets :=
  l.digits (l.zeros && l.precision.isNone) (l.sign (decide (n < 0))) (l.wholeDigits 10 n.natAbs)

/-- A number without a sign in the base of a letter. -/
def unsigned (l : Layout) (letter : Char) (n : Nat) : Octets :=
  let zeros := l.zeros && l.precision.isNone
  if letter = 'o' then
    let ds := l.wholeDigits 8 n
    l.digits zeros [] (if l.marked ∧ ds.head? ≠ some '0' then '0' :: ds else ds)
  else if letter = 'x' then
    l.digits zeros (if l.marked ∧ n ≠ 0 then ['0', 'x'] else []) (l.wholeDigits 16 n)
  else if letter = 'X' then
    l.digits zeros (if l.marked ∧ n ≠ 0 then ['0', 'X'] else [])
      ((l.wholeDigits 16 n).map Char.toUpper)
  else l.digits zeros [] (l.wholeDigits 10 n)

/-! ## Numbers with a point -/

/-- A quotient as the nearest whole number, of two as near the even one. -/
def rounded (num den : Nat) : Nat :=
  let (q, r) := (num / den, num % den)
  if den < 2 * r ∨ (2 * r = den ∧ q % 2 = 1) then q + 1 else q

/-- Units of a power of two as a quotient. -/
def quotient (units : Nat) (exponent : Int) : Nat × Nat :=
  (units * twoTo exponent.toNat, twoTo (-exponent).toNat)

/-- Digits with a point before the last of them, or without one if none stand behind it. -/
def pointed (marked : Bool) (places : Nat) (digits : Octets) : Octets :=
  let digits := List.replicate (places + 1 - digits.length) '0' ++ digits
  let (whole, fraction) := digits.splitAt (digits.length - places)
  if places = 0 then whole ++ (if marked then ['.'] else []) else whole ++ '.' :: fraction

/-- A number with this many digits behind the point. -/
def positional (marked : Bool) (places units : Nat) (exponent : Int) : Octets :=
  let (num, den) := quotient units exponent
  pointed marked places (Octets.ofNat (rounded (num * tenTo places) den))

/-- The digits of a number, one more than `places`, and its power of ten. -/
def significant (places units : Nat) (exponent : Int) : Octets × Int :=
  if units = 0 then (List.replicate (places + 1) '0', 0)
  else
    let (num, den) := quotient units exponent
    let scaled (p : Int) : Nat × Nat := (num * tenTo (-p).toNat, den * tenTo p.toNat)
    let guess : Int := ((units.log2 : Int) + exponent) * 30103 / 100000 - 1
    let isAtLeast (p : Int) : Bool :=
      let (n, d) := scaled p
      decide (d ≤ n)
    let power := if isAtLeast (guess + 2) then guess + 2
      else if isAtLeast (guess + 1) then guess + 1 else guess
    let (n, d) := scaled (power - places)
    let whole := rounded n d
    if whole = tenTo (places + 1) then (Octets.ofNat (tenTo places), power + 1)
    else (Octets.ofNat whole, power)

/-- A power after its mark, with a sign and at least two digits. -/
def powerText (power : Int) : Octets :=
  let ds := Octets.ofNat power.natAbs
  'e' :: (if power < 0 then '-' else '+') :: (List.replicate (2 - ds.length) '0' ++ ds)

/-- A number with one digit before the point and its power. -/
def scientific (marked : Bool) (places units : Nat) (exponent : Int) : Octets :=
  let (ds, power) := significant places units exponent
  pointed marked places ds ++ powerText power

/-- A text without the zeros at the end of what stands behind its point. -/
def withoutZeros (s : Octets) : Octets :=
  if s.contains '.' then
    let s := (s.reverse.dropWhile (· = '0')).reverse
    if s.getLast? = some '.' then s.dropLast else s
  else s

/-- The shorter of the two forms with this many digits. -/
def general (marked : Bool) (precision units : Nat) (exponent : Int) : Octets :=
  let count := max 1 precision
  let (ds, power) := significant (count - 1) units exponent
  let trim (s : Octets) : Octets := if marked then s else withoutZeros s
  if -4 ≤ power ∧ power < (count : Int) then
    trim (positional marked ((count : Int) - 1 - power).toNat units exponent)
  else trim (pointed marked (count - 1) ds) ++ powerText power

/-- A number in base 16 with a power of two. Its first digit holds the bits that are left over
from whole digits behind the point; a number too small to have such a digit keeps its zeros. -/
def hexadecimal (marked : Bool) (form : Numeral.Form) (precision : Option Nat) (units : Nat)
    (exponent : Int) : Octets :=
  let places := (form.digits - 1) / 4
  let shift := if units = 0 then 0
    else min (form.digits - 1 - units.log2) (exponent - form.least).toNat
  let power := if units = 0 then 0 else exponent - shift + 4 * places
  let units := units * twoTo shift
  let kept := precision.getD places
  let units := if kept < places then rounded units (twoTo (4 * (places - kept)))
    else units * twoTo (4 * (kept - places))
  let (units, power) :=
    if twoTo (4 * kept + 4) ≤ units then (units / 16, power + 4) else (units, power)
  let digits := pointed marked kept (Nat.toDigits 16 units)
  let digits :=
    match precision with
    | some _ => digits
    | none =>
      let short := withoutZeros digits
      if marked ∧ !short.contains '.' then short ++ ['.'] else short
  digits ++ 'p' :: (if power < 0 then '-' else '+') :: Octets.ofNat power.natAbs

/-- A number with a point in the form of a letter. -/
def real (l : Layout) (form : Numeral.Form) (letter : Char) (n : Numeral.Real) : Octets :=
  let shown (s : Octets) : Octets := if letter.isUpper then s.map Char.toUpper else s
  match n with
  | .infinite negative => l.pad (l.sign negative ++ shown "inf".toList)
  | .notNumber negative => l.pad (l.sign negative ++ shown "nan".toList)
  | .finite negative units exponent =>
    let places := l.precision.getD 6
    let lead := l.sign negative
    let kind := letter.toLower
    if kind = 'f' then l.digits l.zeros lead (positional l.marked places units exponent)
    else if kind = 'e' then
      l.digits l.zeros lead (shown (scientific l.marked places units exponent))
    else if kind = 'g' then
      l.digits l.zeros lead (shown (general l.marked places units exponent))
    else
      l.digits l.zeros (lead ++ shown ['0', 'x'])
        (shown (hexadecimal l.marked form l.precision units exponent))

end Layout

end Transcript.Host

-- Numbers at the front of a text, as the programs of a system read them: whole numbers in
-- three bases, and numbers with a point in two, rounded to a form of binary numbers.
import Transcript.Decimal.Reader
import Transcript.Json.Reader
import Transcript.Host.Octets

namespace Transcript.Host.Numeral

/-! ## Digits -/

/-- Blanks, and the bytes that end lines and pages. -/
def isSpace (c : Char) : Bool := c = ' ' || ('\t' ≤ c && c ≤ '\r')

/-- The value of a digit in a base up to 16. -/
def digit? (base : Nat) (c : Char) : Option Nat :=
  (Json.hexDigit? c).filter fun n => n < base

/-- The digits at the front, and the rest. -/
def takeDigits (base : Nat) (s : Octets) : List Nat × Octets :=
  (s.map (digit? base) |>.takeWhile (·.isSome) |>.filterMap fun d => d,
    s.dropWhile fun c => (digit? base c).isSome)

/-- The value of digits. -/
def valueOf (base : Nat) (digits : List Nat) : Nat := digits.foldl (fun n d => base * n + d) 0

/-- At most this many digits at the front: their value, and their count. -/
def front (base most : Nat) (s : Octets) : Nat × Nat :=
  let digits := (takeDigits base (s.take most)).1
  (valueOf base digits, digits.length)

/-! ## Whole numbers -/

/-- A number at the front of a text, with what follows it; none if there is none. -/
structure Whole where
  negative : Bool
  size : Nat
  rest : Octets

/-- The number is in base 16 after `0x`, in base 8 after a zero, and else in base 10. -/
def whole? (s : Octets) : Option Whole :=
  let (negative, digits) := Decimal.takeSign (s.dropWhile isSpace)
  let read (base : Nat) (s : Octets) : Option Whole :=
    let (digits, rest) := takeDigits base s
    if digits.isEmpty then none else some ⟨negative, valueOf base digits, rest⟩
  match digits with
  | '0' :: x :: rest =>
    if (x = 'x' ∨ x = 'X') ∧ (rest.head?.bind (digit? 16)).isSome then read 16 rest
    else read 8 digits
  | _ => read 10 digits

/-- What is wrong with a number. -/
inductive Fault where
  | absent
  | followed
  | outOfRange
deriving DecidableEq

/-- A number from the whole of a text, brought to the nearest one in range. A text without
digits holds zero, and is only at fault if it holds anything. -/
def readWhole (least most : Int) (ofWhole : Whole → Int) (s : Octets) : Int × Option Fault :=
  match whole? s with
  | none => (0, if s.isEmpty then none else some .absent)
  | some w =>
    let n := ofWhole w
    if n < least ∨ most < n then (max least (min most n), some .outOfRange)
    else (n, if w.rest.isEmpty then none else some .followed)

/-- A number of 64 bits with a sign. -/
def readSigned (s : Octets) : Int × Option Fault :=
  readWhole (-(twoTo 63 : Int)) (twoTo 63 - 1)
    (fun w => if w.negative then -(w.size : Int) else w.size) s

/-- A number of 64 bits without a sign. One with a minus is taken modulo 2 ^ 64. -/
def readUnsigned (s : Octets) : Nat × Option Fault :=
  match whole? s with
  | none => (0, if s.isEmpty then none else some .absent)
  | some w =>
    if twoTo 64 ≤ w.size then (twoTo 64 - 1, some .outOfRange)
    else
      let n := if w.negative then (twoTo 64 - w.size) % twoTo 64 else w.size
      (n, if w.rest.isEmpty then none else some .followed)

/-! ## Numbers with a point -/

/-- A form of binary numbers: the count of their digits, the exponent of their least unit, and
the power of two that they stay below. -/
structure Form where
  digits : Nat
  least : Int
  top : Nat

/-- The forms of 64 and of 80 bits. -/
def double : Form := ⟨53, -1074, 1024⟩

def extended : Form := ⟨64, -16445, 16384⟩

/-- A number of such a form: a whole number of units, each a power of two. -/
inductive Real where
  | finite (negative : Bool) (units : Nat) (exponent : Int)
  | infinite (negative : Bool)
  | notNumber (negative : Bool)
deriving DecidableEq

/-- The number of a form nearest to a quotient, of two as near the even one, and whether the
quotient is too large for the form, or too small to be kept with all its digits. -/
def Form.nearest (form : Form) (negative : Bool) (num den : Nat) : Real × Bool :=
  if num = 0 then (.finite negative 0 0, false)
  else
    let guess : Int := (num.log2 : Int) - den.log2 - form.digits
    let scaled (e : Int) : Nat × Nat :=
      if e < 0 then (num * twoTo (-e).toNat, den) else (num, den * twoTo e.toNat)
    let (n, d) := scaled guess
    let exact := if n / d < twoTo form.digits then guess else guess + 1
    let e := max exact form.least
    let (n, d) := scaled e
    let (q, r) := (n / d, n % d)
    let units := if d < 2 * r ∨ (2 * r = d ∧ q % 2 = 1) then q + 1 else q
    let size : Int := (units.log2 : Int) + 1 + e
    if (form.top : Int) < size then (.infinite negative, true)
    else
      let isTiny := units < twoTo (form.digits - 1) && e = form.least
      (.finite negative units e, isTiny && r ≠ 0)

/-- Digits with at most one point among them: all the digits, the count of those behind the
point, and the rest. None without digits. -/
def pointed? (base : Nat) (s : Octets) : Option (List Nat × Nat × Octets) :=
  let (whole, rest) := takeDigits base s
  let (fraction, after) :=
    match rest with
    | '.' :: rest => takeDigits base rest
    | _ => ([], rest)
  let rest := if fraction.isEmpty ∧ whole.isEmpty then rest else after
  if whole.isEmpty ∧ fraction.isEmpty then none
  else some (whole ++ fraction, fraction.length, rest)

/-- A power after one of two marks, and the rest. It is brought near enough to zero to be
computed with. -/
def power (mark : Char) (s : Octets) : Int × Octets :=
  match s with
  | c :: rest =>
    if c.toLower = mark then
      let (negative, digits) := Decimal.takeSign rest
      let (ds, after) := takeDigits 10 digits
      if ds.isEmpty then (0, s)
      else
        let n := min (valueOf 10 ds) 100000
        (if negative then -(n : Int) else n, after)
    else (0, s)
  | [] => (0, s)

/-- The words for what has no digits, in any case, and the rest. -/
def word? (negative : Bool) (s : Octets) : Option (Real × Octets) :=
  let starts (word : String) : Bool := word.toList.isPrefixOf (s.map Char.toLower)
  if starts "infinity" then some (.infinite negative, s.drop 8)
  else if starts "inf" then some (.infinite negative, s.drop 3)
  else if starts "nan" then
    let rest := s.drop 3
    let inner := (rest.drop 1).dropWhile fun c => c.isAlphanum || c = '_'
    if rest.head? = some '(' ∧ inner.head? = some ')' then
      some (.notNumber negative, inner.drop 1)
    else some (.notNumber negative, rest)
  else none

/-- The digits of a number as a quotient of whole numbers, without the digits at the front
that do not count. -/
def quotient (base step : Nat) (digits : List Nat) (behind : Nat) (power : Int) : Nat × Nat :=
  let digits := digits.dropWhile (· = 0)
  let places : Int := if base = 16 then -(4 * behind : Int) + power else -(behind : Int) + power
  (valueOf base digits * Nat.pow step places.toNat, Nat.pow step (-places).toNat)

/-- A number with a point at the front of a text, whether it is out of range, and the rest;
none if there is no number. -/
def real? (form : Form) (s : Octets) : Option (Real × Bool × Octets) :=
  let (negative, s) := Decimal.takeSign (s.dropWhile isSpace)
  match word? negative s with
  | some (n, rest) => some (n, false, rest)
  | none =>
    let inHexadecimal : Option (List Nat × Nat × Octets) :=
      match s with
      | '0' :: x :: rest => if x = 'x' ∨ x = 'X' then pointed? 16 rest else none
      | _ => none
    match inHexadecimal with
    | some (digits, behind, rest) =>
      let (p, rest) := power 'p' rest
      let (num, den) := quotient 16 2 digits behind p
      let (n, outOfRange) := form.nearest negative num den
      some (n, outOfRange, rest)
    | none =>
      (pointed? 10 s).map fun (digits, behind, rest) =>
        let (p, rest) := power 'e' rest
        let significant := (digits.dropWhile (· = 0)).length
        let top : Int := significant - behind + p
        if significant = 0 then (.finite negative 0 0, false, rest)
        else if 6000 < top then (.infinite negative, true, rest)
        else if top < -6000 then (.finite negative 0 0, true, rest)
        else
          let (num, den) := quotient 10 10 digits behind p
          let (n, outOfRange) := form.nearest negative num den
          (n, outOfRange, rest)

/-- A number from the whole of a text. -/
def readReal (form : Form) (s : Octets) : Real × Option Fault :=
  match real? form s with
  | none => (.finite false 0 0, if s.isEmpty then none else some .absent)
  | some (n, outOfRange, rest) =>
    (n, if outOfRange then some .outOfRange else if rest.isEmpty then none else some .followed)

end Transcript.Host.Numeral

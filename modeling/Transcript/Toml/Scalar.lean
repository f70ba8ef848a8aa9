-- Numbers, truth values and moments of a TOML document.
import Transcript.Toml
import Transcript.Toml.Lexical
import Transcript.Decimal.Reader

namespace Transcript.Toml

/-! ## Digits -/

/-- Digits with single underscores between them, at least one, without the underscores. -/
def readDigits (isDigit : Char → Bool) : Bool → List Char → Option (List Char × List Char)
  | true, '_' :: d :: rest =>
    if isDigit d then (readDigits isDigit true rest).map fun (ds, rest) => (d :: ds, rest) else none
  | started, d :: rest =>
    if isDigit d then (readDigits isDigit true rest).map fun (ds, rest) => (d :: ds, rest)
    else if started && d ≠ '_' then some ([], d :: rest)
    else none
  | started, [] => if started then some ([], []) else none

/-- Decimal digits without a leading zero, but for zero itself. -/
def readWhole (s : List Char) : Option (List Char × List Char) :=
  match s with
  | '0' :: rest => some (['0'], rest)
  | _ => readDigits Char.isDigit false s

/-- Exactly this many decimal digits. -/
def readFixed (width : Nat) (s : List Char) : Option (Nat × List Char) :=
  let ds := s.take width
  if ds.length = width ∧ ds.all Char.isDigit then some (Decimal.digitsValue ds, s.drop width)
  else none

/-- A number of this many digits within bounds. -/
def readBounded (width low high : Nat) (s : List Char) : Option (Nat × List Char) := do
  let (n, rest) ← readFixed width s
  if low ≤ n ∧ n ≤ high then return (n, rest) else none

/-- The rest after one given character. -/
def expect (c : Char) : List Char → Option (List Char)
  | d :: rest => if c = d then some rest else none
  | [] => none

/-! ## Moments -/

def daysIn (year month : Nat) : Nat :=
  if month = 2 then if year % 4 = 0 ∧ (year % 100 ≠ 0 ∨ year % 400 = 0) then 29 else 28
  else if month = 4 ∨ month = 6 ∨ month = 9 ∨ month = 11 then 30
  else 31

def readDay (s : List Char) : Option (Day × List Char) := do
  let (year, rest) ← readFixed 4 s
  let rest ← expect '-' rest
  let (month, rest) ← readBounded 2 1 12 rest
  let rest ← expect '-' rest
  let (day, rest) ← readBounded 2 1 (daysIn year month) rest
  return (⟨year, month, day⟩, rest)

/-- The fraction of a second, cut after nine digits. -/
def readNanosecond (s : List Char) : Nat × List Char :=
  match s with
  | '.' :: rest =>
    let ds := rest.takeWhile Char.isDigit
    let kept := ds.take 9
    if ds.isEmpty then (0, s)
    else (Decimal.digitsValue kept * tenTo (9 - kept.length), rest.dropWhile Char.isDigit)
  | _ => (0, s)

def readClock (s : List Char) : Option (Clock × List Char) := do
  let (hour, rest) ← readBounded 2 0 23 s
  let rest ← expect ':' rest
  let (minute, rest) ← readBounded 2 0 59 rest
  let rest ← expect ':' rest
  let (second, rest) ← readBounded 2 0 60 rest
  let (nanosecond, rest) := readNanosecond rest
  return (⟨hour, minute, second, nanosecond⟩, rest)

/-- An offset with its sign. -/
def readDistance (sign : Int) (s : List Char) : Option (Offset × List Char) := do
  let (hour, rest) ← readBounded 2 0 23 s
  let rest ← expect ':' rest
  let (minute, rest) ← readBounded 2 0 59 rest
  return (.minutes (sign * (60 * hour + minute)), rest)

/-- An offset, if one stands here. A sign must have its offset. -/
def readOffset (s : List Char) : Option (Option Offset × List Char) :=
  match s with
  | 'Z' :: rest => some (some .universal, rest)
  | 'z' :: rest => some (some .universal, rest)
  | '+' :: rest => (readDistance 1 rest).map fun (o, rest) => (some o, rest)
  | '-' :: rest => (readDistance (-1) rest).map fun (o, rest) => (some o, rest)
  | _ => some (none, s)

/-- The time after a day, if one stands here. -/
def readClockAfter (d : Day) (s : List Char) : Option (Moment × List Char) :=
  let isMark (c : Char) : Bool := c = 'T' || c = 't' || c = ' '
  match s with
  | c :: rest =>
    match readClock rest, isMark c with
    | some (clock, rest), true => (readOffset rest).map fun (o, rest) => (.both d clock o, rest)
    | _, _ => some (.day d, s)
  | [] => some (.day d, [])

def readMoment (s : List Char) : Option (Moment × List Char) :=
  match readDay s with
  | some (d, rest) => readClockAfter d rest
  | none => (readClock s).map fun (c, rest) => (.clock c, rest)

/-! ## Numbers -/

/-- A whole number of 64 bits with a sign. -/
def fitsWord (n : Int) : Bool := -(twoTo 63 : Int) ≤ n && n < twoTo 63

def wholeValue (n : Int) : Option Value := if fitsWord n then some (.int n) else none

/-- A whole number in another base, after its mark. -/
def readBase (base : Nat) (isDigit : Char → Bool) (s : List Char) : Option (Value × List Char) := do
  let (ds, rest) ← readDigits isDigit false s
  let n := (ds.filterMap Json.hexDigit?).foldl (fun n d => base * n + d) 0
  let v ← wholeValue n
  return (v, rest)

def isHexDigit (c : Char) : Bool := (Json.hexDigit? c).isSome

def isOctalDigit (c : Char) : Bool := '0' ≤ c && c ≤ '7'

def isBinaryDigit (c : Char) : Bool := c = '0' || c = '1'

/-- A power of ten, if one stands here. A mark must have its digits. -/
def readPower (s : List Char) : Option (Option Int × List Char) :=
  match s with
  | c :: rest =>
    if c = 'e' ∨ c = 'E' then
      let (negative, rest) := Decimal.takeSign rest
      (readDigits Char.isDigit false rest).map fun (ds, rest) =>
        let n := Decimal.digitsValue ds
        (some (if negative then -(n : Int) else n), rest)
    else some (none, s)
  | [] => some (none, [])

/-- The digits after a point, if there is one. A point must have digits. -/
def readFraction (s : List Char) : Option (Option (List Char) × List Char) :=
  match s with
  | '.' :: rest => (readDigits Char.isDigit false rest).map fun (ds, rest) => (some ds, rest)
  | _ => some (none, s)

/-- A number with a point or a power. One above the range is refused, one below it is not. -/
def floatValue (negative : Bool) (digits : List Char) (power : Int) : Option Value :=
  let x := Decimal.nearest negative digits power
  if x = .infinity false then none else some (.float x)

/-- A decimal number after its sign. -/
def readDecimal (negative : Bool) (s : List Char) : Option (Value × List Char) := do
  let (whole, rest) ← readWhole s
  let (fraction, rest) ← readFraction rest
  let (power, rest) ← readPower rest
  match fraction, power with
  | none, none =>
    let n : Int := Decimal.digitsValue whole
    let v ← wholeValue (if negative then -n else n)
    return (v, rest)
  | _, _ =>
    let ds := fraction.getD []
    let v ← floatValue negative (whole ++ ds) (power.getD 0 - ds.length)
    return (v, rest)

/-- A number, or the words for what has no digits. -/
def readNumber (s : List Char) : Option (Value × List Char) :=
  match s with
  | '0' :: 'x' :: rest => readBase 16 isHexDigit rest
  | '0' :: 'o' :: rest => readBase 8 isOctalDigit rest
  | '0' :: 'b' :: rest => readBase 2 isBinaryDigit rest
  | _ =>
    let (negative, rest) := Decimal.takeSign s
    match rest with
    | 'i' :: 'n' :: 'f' :: rest => some (.float (.infinity negative), rest)
    | 'n' :: 'a' :: 'n' :: rest => some (.float (.nan negative), rest)
    | _ => readDecimal negative rest

/-! ## Scalars -/

/-- A value that holds no other values. -/
def readScalarValue (s : List Char) : Option (Value × List Char) :=
  match s with
  | 't' :: 'r' :: 'u' :: 'e' :: rest => some (.bool true, rest)
  | 'f' :: 'a' :: 'l' :: 's' :: 'e' :: rest => some (.bool false, rest)
  | c :: _ =>
    if c = '"' ∨ c = '\'' then (readString s).map fun (text, rest) => (.str text, rest)
    else
      match readMoment s with
      | some (m, rest) => some (.moment m, rest)
      | none => readNumber s
  | [] => none

end Transcript.Toml

-- The values of a TOML document. Tables keep their keys in the order of the document.
import Transcript.Decimal.Layout

namespace Transcript.Toml

/-! ## Moments -/

/-- A calendar day. -/
structure Day where
  year : Nat
  month : Nat
  day : Nat
deriving DecidableEq

/-- A time of day. -/
structure Clock where
  hour : Nat
  minute : Nat
  second : Nat
  nanosecond : Nat
deriving DecidableEq

/-- A distance from universal time. -/
inductive Offset where
  | universal
  | minutes (n : Int)
deriving DecidableEq

/-- A day, a time, or both, with an offset if both are given. -/
inductive Moment where
  | day (d : Day)
  | clock (c : Clock)
  | both (d : Day) (c : Clock) (offset : Option Offset)
deriving DecidableEq

/-- A number in at least this many digits. -/
def padded (width n : Nat) : String :=
  let ds := Nat.toDigits 10 n
  String.ofList (List.replicate (width - ds.length) '0' ++ ds)

def Day.text (d : Day) : String :=
  padded 4 d.year ++ "-" ++ padded 2 d.month ++ "-" ++ padded 2 d.day

/-- A time without a fraction of zero and without zeros at the end of one. -/
def Clock.text (c : Clock) : String :=
  let whole := padded 2 c.hour ++ ":" ++ padded 2 c.minute ++ ":" ++ padded 2 c.second
  if c.nanosecond = 0 then whole
  else
    let digits := (padded 9 c.nanosecond).toList.reverse.dropWhile (· == '0')
    whole ++ "." ++ String.ofList digits.reverse

def Offset.text : Offset → String
  | .universal => "Z"
  | .minutes n =>
    (if n < 0 then "-" else "+") ++ padded 2 (n.natAbs / 60) ++ ":" ++ padded 2 (n.natAbs % 60)

def Moment.text : Moment → String
  | .day d => d.text
  | .clock c => c.text
  | .both d c offset =>
    d.text ++ "T" ++ c.text ++
      (match offset with
        | some o => o.text
        | none => "")

/-! ## Values -/

/-- A value. -/
inductive Value where
  | str (value : String)
  | int (value : Int)
  | float (value : Binary64)
  | bool (value : Bool)
  | moment (value : Moment)
  | arr (items : List Value)
  | table (entries : List (String × Value))

/-- The keys and values of a table. -/
abbrev Table := List (String × Value)

end Transcript.Toml

-- How the digits of a number are laid out: plainly, with as many zeros as it takes,
-- or with a power of ten where the zeros would be many.
import Transcript.Decimal.Shortest

namespace Transcript.Decimal

/-! ## Positional form -/

/-- The digits with their point, or with the zeros between them and the point. -/
def Scaled.positional (d : Scaled) : List Char :=
  let ds := Nat.toDigits 10 d.digits
  let whole : Int := ds.length + d.power
  if 0 ≤ d.power then ds ++ List.replicate d.power.toNat '0'
  else if 0 < whole then ds.take whole.toNat ++ '.' :: ds.drop whole.toNat
  else '0' :: '.' :: (List.replicate (-whole).toNat '0' ++ ds)

/-- One digit, the others after a point, and the power of ten with its sign. -/
def Scaled.scientific (d : Scaled) : List Char :=
  let ds := Nat.toDigits 10 d.digits
  let power : Int := ds.length + d.power - 1
  let mantissa :=
    match ds with
    | [] => []
    | [c] => [c]
    | c :: rest => c :: '.' :: rest
  mantissa ++ 'e' :: (if power < 0 then '-' else '+') :: Nat.toDigits 10 power.natAbs

/-! ## Plain numbers -/

def signed (negative : Bool) (s : List Char) : List Char := if negative then '-' :: s else s

/-- A number as replies show it: always positional, a whole number without a point, and
of two nearest decimals the larger. -/
def plain (x : Binary64) : String :=
  String.ofList <|
    if x.isNaN then "NaN".toList
    else if !x.isFinite then signed x.isNegative "inf".toList
    else if x.magnitude = 0 then signed x.isNegative ['0']
    else signed x.isNegative (shortest .up x).positional

/-- A number as type errors show it: plain, and a whole number with `.0`. -/
def pointed (x : Binary64) : String :=
  let s := plain x
  if x.isFinite && !s.toList.contains '.' then s ++ ".0" else s

/-! ## Numbers in documents -/

/-- The decimals that documents write positionally: from `10 ^ -5` to below `10 ^ 16`. -/
def Scaled.isModest (d : Scaled) : Bool :=
  let whole : Int := (Nat.toDigits 10 d.digits).length + d.power
  whole ≤ 16 && -5 < whole

/-- A finite number as documents write it: a whole number with `.0`, and a power of ten
outside the modest range. Of two nearest decimals the even one. -/
def documented (x : Binary64) : String :=
  String.ofList <| signed x.isNegative <|
    if x.magnitude = 0 then "0.0".toList
    else
      let d := shortest .even x
      if d.isModest then d.positional ++ (if 0 ≤ d.power then ['.', '0'] else [])
      else d.scientific

end Transcript.Decimal

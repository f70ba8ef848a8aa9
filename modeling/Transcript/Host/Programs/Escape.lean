-- What a backslash and the text after it stand for.
import Transcript.Host.Numeral

namespace Transcript.Host.Escape

/-- The byte that a letter stands for. -/
def letter? (c : Char) : Option Char :=
  if c = 'a' then some '\x07'
  else if c = 'b' then some '\x08'
  else if c = 'e' then some '\x1b'
  else if c = 'f' then some '\x0c'
  else if c = 'n' then some '\n'
  else if c = 'r' then some '\r'
  else if c = 't' then some '\t'
  else if c = 'v' then some '\x0b'
  else if c = '\\' then some '\\'
  else none

/-- A number in base 8 of at most three digits, possibly after a zero of its own: the byte and
how much of the text it is. -/
def octal? (zero : Bool) (s : Octets) : Option (Char × Nat) :=
  let lead := if zero ∧ s.head? = some '0' then 1 else 0
  let (n, count) := Numeral.front 8 3 (s.drop lead)
  if lead + count = 0 then none else some (Octets.byte n, lead + count)

/-- A number in base 16 of at most two digits after its mark. -/
def hexadecimal? (s : Octets) : Option (Char × Nat) :=
  match s with
  | 'x' :: rest =>
    let (n, count) := Numeral.front 16 2 rest
    if count = 0 then none else some (Octets.byte n, count + 1)
  | _ => none

/-- The text with its escapes replaced, and whether one of them cuts it off. -/
def replace : Nat → Octets → Octets × Bool
  | 0, s => (s, false)
  | _, [] => ([], false)
  | fuel + 1, c :: rest =>
    let goOn (part rest : Octets) : Octets × Bool :=
      let (out, isCut) := replace fuel rest
      (part ++ out, isCut)
    if c ≠ '\\' then goOn [c] rest
    else if rest.head? = some 'c' then ([], true)
    else
      match (octal? true rest).or (hexadecimal? rest) with
      | some (byte, used) => goOn [byte] (rest.drop used)
      | none =>
        match rest.head?.bind letter? with
        | some byte => goOn [byte] rest.tail
        | none => goOn ['\\'] rest

end Transcript.Host.Escape

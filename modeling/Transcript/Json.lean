-- Documents of names and values, and their two written forms: on one line without
-- blanks, and laid out with two blanks a level.
import Transcript.Decimal.Layout

namespace Transcript

/-- A document value. The fields of an object keep the order in which they were given. -/
inductive Json where
  | null
  | bool (value : Bool)
  | int (value : Int)
  | double (value : Binary64)
  | str (value : String)
  | arr (items : List Json)
  | obj (fields : List (String × Json))

namespace Json

/-! ## Strings -/

/-- A control character by its number, in four digits. -/
def escapeControl (c : Char) : List Char :=
  let digits := Nat.toDigits 16 c.toNat
  ['\\', 'u'] ++ List.replicate (4 - digits.length) '0' ++ digits

/-- One character of a string. -/
def escapeChar (c : Char) : List Char :=
  if c = '"' then ['\\', '"']
  else if c = '\\' then ['\\', '\\']
  else if c = '\x08' then ['\\', 'b']
  else if c = '\x0c' then ['\\', 'f']
  else if c = '\n' then ['\\', 'n']
  else if c = '\r' then ['\\', 'r']
  else if c = '\t' then ['\\', 't']
  else if c.toNat < 0x20 then escapeControl c
  else [c]

def stringChars (s : String) : List Char := '"' :: (s.toList.flatMap escapeChar ++ ['"'])

/-- A number, or null for what has no digits. -/
def doubleText (x : Binary64) : String := if x.isFinite then Decimal.documented x else "null"

/-! ## On one line -/

mutual

/-- A value on one line without blanks. -/
def compactChars : Json → List Char
  | .null => "null".toList
  | .bool b => (if b then "true" else "false").toList
  | .int n => (toString n).toList
  | .double x => (doubleText x).toList
  | .str s => stringChars s
  | .arr items => '[' :: (compactItems items ++ [']'])
  | .obj fields => '\x7b' :: (compactFields fields ++ ['\x7d'])

def compactItems : List Json → List Char
  | [] => []
  | [item] => compactChars item
  | item :: rest => compactChars item ++ ',' :: compactItems rest

def compactFields : List (String × Json) → List Char
  | [] => []
  | [(name, value)] => stringChars name ++ ':' :: compactChars value
  | (name, value) :: rest =>
    stringChars name ++ ':' :: (compactChars value ++ ',' :: compactFields rest)

end

/-- The value on one line. -/
def compact (v : Json) : String := String.ofList (compactChars v)

/-! ## Laid out -/

/-- A new line at this depth. -/
def newLine (depth : Nat) : List Char := '\n' :: List.replicate (2 * depth) ' '

mutual

/-- A value that starts at this depth. -/
def prettyChars (depth : Nat) : Json → List Char
  | .null => "null".toList
  | .bool b => (if b then "true" else "false").toList
  | .int n => (toString n).toList
  | .double x => (doubleText x).toList
  | .str s => stringChars s
  | .arr [] => ['[', ']']
  | .arr (item :: rest) => '[' :: (prettyItems (depth + 1) (item :: rest) ++ newLine depth ++ [']'])
  | .obj [] => ['\x7b', '\x7d']
  | .obj (field :: rest) =>
    '\x7b' :: (prettyFields (depth + 1) (field :: rest) ++ newLine depth ++ ['\x7d'])

def prettyItems (depth : Nat) : List Json → List Char
  | [] => []
  | [item] => newLine depth ++ prettyChars depth item
  | item :: rest => newLine depth ++ prettyChars depth item ++ ',' :: prettyItems depth rest

def prettyFields (depth : Nat) : List (String × Json) → List Char
  | [] => []
  | [(name, value)] => newLine depth ++ stringChars name ++ ':' :: ' ' :: prettyChars depth value
  | (name, value) :: rest =>
    newLine depth ++ stringChars name ++ ':' :: ' ' ::
      (prettyChars depth value ++ ',' :: prettyFields depth rest)

end

/-- The value laid out over several lines. -/
def pretty (v : Json) : String := String.ofList (prettyChars 0 v)

/-- A value that may be absent. -/
def ofOption {α : Type} (f : α → Json) : Option α → Json
  | none => .null
  | some a => f a

end Json

end Transcript

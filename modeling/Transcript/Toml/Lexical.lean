-- The smallest parts of a TOML document: blanks, comments, line ends, keys and strings.
-- A reader takes a part off the front of a text and gives none where there is no such
-- part.
import Transcript.Json.Reader

namespace Transcript.Toml

/-! ## Blanks and line ends -/

def isGap (c : Char) : Bool := c = ' ' || c = '\t'

def skipGap (s : List Char) : List Char := s.dropWhile isGap

/-- The rest after a line end. -/
def newline? : List Char → Option (List Char)
  | '\n' :: rest => some rest
  | '\r' :: '\n' :: rest => some rest
  | _ => none

/-- The characters of comments and literal strings: no controls but the tab. -/
def isPlain (c : Char) : Bool := c = '\t' || (0x20 ≤ c.toNat && c.toNat ≠ 0x7f)

def skipComment : List Char → List Char
  | '#' :: rest => rest.dropWhile isPlain
  | s => s

/-- The rest after the end of a line or of the text, with what may stand before it. -/
def lineEnd? (s : List Char) : Option (List Char) :=
  match skipComment (skipGap s) with
  | [] => some []
  | s => newline? s

/-- The rest after blanks, comments and line ends. A comment must have its line end. -/
def skipLines : Nat → List Char → Option (List Char)
  | 0, s => some s
  | fuel + 1, s =>
    match skipGap s with
    | [] => some []
    | c :: rest =>
      if c = '#' then
        match newline? (skipComment (c :: rest)) with
        | some rest => skipLines fuel rest
        | none => none
      else
        match newline? (c :: rest) with
        | some rest => skipLines fuel rest
        | none => some (c :: rest)

/-! ## Escapes -/

/-- A scalar value from this many hexadecimal digits. -/
def readScalar (digits : Nat) (s : List Char) : Option (Char × List Char) :=
  let ds := (s.take digits).filterMap Json.hexDigit?
  let n := ds.foldl (fun n d => 16 * n + d) 0
  if ds.length < digits then none
  else if n < 0xd800 ∨ (0xdfff < n ∧ n < 0x110000) then some (Char.ofNat n, s.drop digits)
  else none

/-- The character of an escape, after its backslash. -/
def readEscape : List Char → Option (Char × List Char)
  | [] => none
  | c :: rest =>
    if c = 'b' then some ('\x08', rest)
    else if c = 'f' then some ('\x0c', rest)
    else if c = 'n' then some ('\n', rest)
    else if c = 'r' then some ('\r', rest)
    else if c = 't' then some ('\t', rest)
    else if c = '"' ∨ c = '\\' then some (c, rest)
    else if c = 'u' then readScalar 4 rest
    else if c = 'U' then readScalar 8 rest
    else none

/-! ## Strings on one line -/

/-- A string with escapes, after its opening quote. -/
def readBasic : Nat → List Char → Option (List Char × List Char)
  | 0, _ => none
  | _, [] => none
  | fuel + 1, c :: rest =>
    if c = '"' then some ([], rest)
    else do
      let (c, rest) ←
        if c = '\\' then readEscape rest else if isPlain c then some (c, rest) else none
      let (cs, rest) ← readBasic fuel rest
      return (c :: cs, rest)

/-- A string as it stands, after its opening quote. -/
def readLiteral (s : List Char) : Option (List Char × List Char) :=
  let isInside (c : Char) : Bool := isPlain c && c ≠ '\''
  match s.dropWhile isInside with
  | '\'' :: rest => some (s.takeWhile isInside, rest)
  | _ => none

/-! ## Strings over several lines -/

/-- The first line end of a string over several lines is not part of it. -/
def skipNewline (s : List Char) : List Char := (newline? s).getD s

/-- The quotes that a closing mark of three may have before it, at most two, and the
rest after the mark. -/
def closing? (quote : Char) (s : List Char) : Option (List Char × List Char) :=
  if (s.take 3) = List.replicate 3 quote then
    let extra := ((s.drop 3).take 2).takeWhile (· = quote)
    some (extra, s.drop (3 + extra.length))
  else none

/-- The rest after the blanks and line ends at the front. -/
def skipEmptyLines : Nat → List Char → List Char
  | 0, s => s
  | fuel + 1, s =>
    match newline? (skipGap s) with
    | some rest => skipEmptyLines fuel rest
    | none => skipGap s

/-- The rest after a backslash that ends its line: the line end, and all blanks and line
ends after it. -/
def continued? (s : List Char) : Option (List Char) :=
  (newline? (skipGap s)).map fun rest => skipEmptyLines rest.length rest

/-- A string with escapes over several lines, after its opening quotes. -/
def readBasicLines : Nat → List Char → Option (List Char × List Char)
  | 0, _ => none
  | fuel + 1, s =>
    match closing? '"' s with
    | some (quotes, rest) => some (quotes, rest)
    | none =>
      match newline? s with
      | some rest => (readBasicLines fuel rest).map fun (cs, rest) => ('\n' :: cs, rest)
      | none =>
        match s with
        | [] => none
        | c :: rest =>
          if c = '\\' then
            match continued? rest with
            | some rest => readBasicLines fuel rest
            | none => do
              let (c, rest) ← readEscape rest
              let (cs, rest) ← readBasicLines fuel rest
              return (c :: cs, rest)
          else if isPlain c then (readBasicLines fuel rest).map fun (cs, rest) => (c :: cs, rest)
          else none

/-- A string as it stands over several lines, after its opening quotes. -/
def readLiteralLines : Nat → List Char → Option (List Char × List Char)
  | 0, _ => none
  | fuel + 1, s =>
    match closing? '\'' s with
    | some (quotes, rest) => some (quotes, rest)
    | none =>
      match newline? s with
      | some rest => (readLiteralLines fuel rest).map fun (cs, rest) => ('\n' :: cs, rest)
      | none =>
        match s with
        | [] => none
        | c :: rest =>
          if isPlain c then (readLiteralLines fuel rest).map fun (cs, rest) => (c :: cs, rest)
          else none

/-! ## Keys and strings -/

/-- A string in any of its four forms. -/
def readString (s : List Char) : Option (String × List Char) :=
  let read : Option (List Char × List Char) :=
    match s with
    | '"' :: '"' :: '"' :: rest => readBasicLines (s.length + 1) (skipNewline rest)
    | '\'' :: '\'' :: '\'' :: rest => readLiteralLines (s.length + 1) (skipNewline rest)
    | '"' :: rest => readBasic (s.length + 1) rest
    | '\'' :: rest => readLiteral rest
    | _ => none
  read.map fun (cs, rest) => (String.ofList cs, rest)

/-- The characters of keys that stand without quotes. -/
def isBare (c : Char) : Bool := c.isAlphanum || c = '-' || c = '_'

/-- One part of a key. -/
def readPart (s : List Char) : Option (String × List Char) :=
  match s with
  | '"' :: rest => (readBasic (s.length + 1) rest).map fun (cs, rest) => (String.ofList cs, rest)
  | '\'' :: rest => (readLiteral rest).map fun (cs, rest) => (String.ofList cs, rest)
  | _ =>
    let bare := s.takeWhile isBare
    if bare.isEmpty then none else some (String.ofList bare, s.dropWhile isBare)

/-- The parts of a key, with points between them and blanks around them. -/
def readParts : Nat → List Char → Option (List String × List Char)
  | 0, _ => none
  | fuel + 1, s => do
    let (part, rest) ← readPart (skipGap s)
    match skipGap rest with
    | '.' :: rest =>
      let (parts, rest) ← readParts fuel rest
      return (part :: parts, rest)
    | rest => return ([part], rest)

/-- The number of parts, and of nested values, that is too many. -/
def nestingLimit : Nat := 80

/-- A key. -/
def readKey (s : List Char) : Option (List String × List Char) := do
  let (parts, rest) ← readParts (s.length + 1) s
  if nestingLimit ≤ parts.length then none else return (parts, rest)

end Transcript.Toml

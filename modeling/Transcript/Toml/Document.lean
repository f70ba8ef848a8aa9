-- Whole documents: values with what they hold, and lines that open tables or fill them.
import Transcript.Toml.Scalar
import Transcript.Toml.Section

namespace Transcript.Toml

/-- Takes a value off the front of a text. -/
abbrev ValueReader := List Char → Option (Value × List Char)

/-! ## Values that hold values -/

/-- The items of an array up to its end, after the opening bracket or a comma. -/
def readItems (item : ValueReader) : Nat → List Char → Option (List Value × List Char)
  | 0, _ => none
  | fuel + 1, s => do
    let s ← skipLines (s.length + 1) s
    match s with
    | ']' :: rest => return ([], rest)
    | _ =>
      let (v, rest) ← item s
      let rest ← skipLines (rest.length + 1) rest
      match rest with
      | ',' :: rest =>
        let (vs, rest) ← readItems item fuel rest
        return (v :: vs, rest)
      | ']' :: rest => return ([v], rest)
      | _ => none

/-- A key with its value, and the blanks after it. -/
def readPair (item : ValueReader) (s : List Char) : Option (List String × Value × List Char) := do
  let (key, rest) ← readKey s
  let rest ← expect '=' rest
  let (v, rest) ← item (skipGap rest)
  return (key, v, skipGap rest)

/-- The pairs of a table on one line up to its end, at least one. -/
def readPairs (item : ValueReader) : Nat → Entries → List Char → Option (Entries × List Char)
  | 0, _, _ => none
  | fuel + 1, entries, s => do
    let (key, v, rest) ← readPair item s
    let (path, name) := splitKey key
    let entries ← addValue path name v entries
    match rest with
    | ',' :: rest => readPairs item fuel entries rest
    | '\x7d' :: rest => return (entries, rest)
    | _ => none

/-- A table on one line, after its opening brace. -/
def readInline (item : ValueReader) (s : List Char) : Option (Value × List Char) :=
  match skipGap s with
  | '\x7d' :: rest => some (.table [], rest)
  | s =>
    (readPairs item (s.length + 1) [] s).map fun (entries, rest) => (.table (toTable entries), rest)

/-- A value that holds values to at most this many levels. -/
def readValue : Nat → ValueReader
  | 0, s => readScalarValue s
  | levels + 1, s =>
    match s with
    | '[' :: rest =>
      (readItems (readValue levels) (rest.length + 1) rest).map fun (vs, rest) => (.arr vs, rest)
    | '\x7b' :: rest => readInline (readValue levels) rest
    | _ => readScalarValue s

/-! ## Lines -/

/-- A header after its opening bracket. -/
def readHeader (s : Section) (text : List Char) : Option (Section × List Char) :=
  match text with
  | '[' :: rest => do
    let (key, rest) ← readKey rest
    let rest ← expect ']' rest
    let rest ← expect ']' rest
    let rest ← lineEnd? rest
    let s ← s.openElement key
    return (s, rest)
  | _ => do
    let (key, rest) ← readKey text
    let rest ← expect ']' rest
    let rest ← lineEnd? rest
    let s ← s.openTable key
    return (s, rest)

/-- A line that is not blank. -/
def readLine (s : Section) (text : List Char) : Option (Section × List Char) :=
  match text with
  | '[' :: rest => readHeader s rest
  | _ => do
    let (key, v, rest) ← readPair (readValue (nestingLimit - 1)) text
    let rest ← lineEnd? rest
    let s ← s.add key v
    return (s, rest)

/-- The lines of a document. -/
def readLines : Nat → Section → List Char → Option Section
  | 0, _, _ => none
  | fuel + 1, s, text =>
    match skipGap text with
    | [] => some s
    | text =>
      match lineEnd? text with
      | some rest => readLines fuel s rest
      | none =>
        match readLine s text with
        | some (s, rest) => readLines fuel s rest
        | none => none

/-- The text without the mark that tells its byte order. -/
def skipMark : List Char → List Char
  | '\uFEFF' :: rest => rest
  | s => s

/-- The table that a document is, none for a text that is no document. -/
def parse? (text : String) : Option Table := do
  let s ← readLines (text.length + 1) .first (skipMark text.toList)
  let entries ← s.close
  return toTable entries

end Transcript.Toml

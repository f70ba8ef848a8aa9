-- Reading documents. A reader takes characters off the front of a text and tells
-- where it had to stop: what was wrong, and how much of the text was left.
import Transcript.Json
import Transcript.Decimal.Approximate
import Transcript.Text.Quoted
import Transcript.Text.Utf8

namespace Transcript.Json

/-! ## Faults -/

/-- What a reader can find wrong. -/
inductive Cause where
  | endInList
  | endInObject
  | endInString
  | endInValue
  | expectedColon
  | expectedListEnd
  | expectedObjectEnd
  | expectedWord
  | expectedValue
  | invalidEscape
  | invalidNumber
  | numberOutOfRange
  | controlCharacter
  | loneSurrogate
  | trailingComma
  | trailingCharacters
  | tooDeep
  | unfinishedEscape
  | keyNotString
  | wrongType (found expected : String)
  | unknownVariant (found : String)
  | missingField (name : String)
deriving DecidableEq

def Cause.message : Cause → String
  | .endInList => "EOF while parsing a list"
  | .endInObject => "EOF while parsing an object"
  | .endInString => "EOF while parsing a string"
  | .endInValue => "EOF while parsing a value"
  | .expectedColon => "expected `:`"
  | .expectedListEnd => "expected `,` or `]`"
  | .expectedObjectEnd => "expected `,` or `\x7d`"
  | .expectedWord => "expected ident"
  | .expectedValue => "expected value"
  | .invalidEscape => "invalid escape"
  | .invalidNumber => "invalid number"
  | .numberOutOfRange => "number out of range"
  | .controlCharacter => "control character (\\u0000-\\u001F) found while parsing a string"
  | .loneSurrogate => "lone leading surrogate in hex escape"
  | .trailingComma => "trailing comma"
  | .trailingCharacters => "trailing characters"
  | .tooDeep => "recursion limit exceeded"
  | .unfinishedEscape => "unexpected end of hex escape"
  | .keyNotString => "key must be a string"
  | .wrongType found expected => "invalid type: " ++ found ++ ", expected " ++ expected
  | .unknownVariant found => "unknown variant `" ++ found ++ "`"
  | .missingField name => "missing field `" ++ name ++ "`"

/-- A fault at the place where `left` characters remain, `past` bytes into the next one. -/
structure Fault where
  cause : Cause
  left : Nat
  past : Nat
deriving DecidableEq

/-- A fault before the rest. -/
def faultBefore {α : Type} (cause : Cause) (rest : List Char) : Except Fault α :=
  .error ⟨cause, rest.length, 0⟩

/-- The rest after some bytes, and how many of them lie in its first character. -/
def skipBytes : Nat → List Char → List Char × Nat
  | 0, rest => (rest, 0)
  | n + 1, [] => ([], n - n)
  | n + 1, c :: rest =>
    if (Text.utf8Char c).length ≤ n + 1 then skipBytes (n + 1 - (Text.utf8Char c).length) rest
    else (c :: rest, n + 1)
termination_by _ rest => rest.length

/-- A fault after some bytes of the rest. -/
def faultAfter {α : Type} (cause : Cause) (bytes : Nat) (rest : List Char) : Except Fault α :=
  let (rest, past) := skipBytes bytes rest
  .error ⟨cause, rest.length, past⟩

/-- A fault on the next byte. -/
def faultOn {α : Type} (cause : Cause) (rest : List Char) : Except Fault α :=
  faultAfter cause 1 rest

/-- The fault with its place in the text: line, and bytes into the line. -/
def Fault.message (f : Fault) (text : List Char) : String :=
  let done := text.take (text.length - f.left)
  let inLine := (done.reverse.takeWhile (· != '\n')).reverse
  f.cause.message ++ " at line " ++ toString (done.count '\n' + 1) ++ " column " ++
    toString ((Text.utf8 inLine).length + f.past)

/-- What a reader makes of the front of a text, and the rest. -/
abbrev Reading (α : Type) := Except Fault (α × List Char)

/-! ## Blanks and words -/

def isSpace (c : Char) : Bool := c = ' ' || c = '\n' || c = '\t' || c = '\r'

def skipSpace (s : List Char) : List Char := s.dropWhile isSpace

/-- The characters of a word after its first one. -/
def readWord : List Char → List Char → Except Fault (List Char)
  | [], rest => .ok rest
  | _ :: _, [] => faultBefore .endInValue []
  | w :: word, c :: rest => if w = c then readWord word rest else faultOn .expectedWord (c :: rest)

/-! ## Strings -/

def hexDigit? (c : Char) : Option Nat :=
  if '0' ≤ c ∧ c ≤ '9' then some (c.toNat - '0'.toNat)
  else if 'a' ≤ c ∧ c ≤ 'f' then some (c.toNat - 'a'.toNat + 10)
  else if 'A' ≤ c ∧ c ≤ 'F' then some (c.toNat - 'A'.toNat + 10)
  else none

/-- The number that four hexadecimal digits give. -/
def hexUnit? (a b c d : Char) : Option Nat := do
  return (← hexDigit? a) * 4096 + (← hexDigit? b) * 256 + (← hexDigit? c) * 16 + (← hexDigit? d)

/-- The four digits of an escape. -/
def readUnit (s : List Char) : Reading Nat :=
  let short : Bool := (Text.utf8 (s.take 4)).length < 4
  match s with
  | a :: b :: c :: d :: rest =>
    match hexUnit? a b c d with
    | some n => .ok (n, rest)
    | none => faultAfter .invalidEscape 4 s
  | _ => if short then faultBefore .endInString [] else faultAfter .invalidEscape 4 s

/-- The character that a backslash and this one stand for. -/
def simpleEscape? (c : Char) : Option Char :=
  if c = '"' then some '"'
  else if c = '\\' then some '\\'
  else if c = '/' then some '/'
  else if c = 'b' then some '\x08'
  else if c = 'f' then some '\x0c'
  else if c = 'n' then some '\n'
  else if c = 'r' then some '\r'
  else if c = 't' then some '\t'
  else none

/-- The second half of a pair: a backslash, `u` and a trailing surrogate. -/
def readTrailing (lead : Nat) (s : List Char) : Reading Char :=
  match s with
  | [] => faultBefore .endInString []
  | '\\' :: r =>
    match r with
    | [] => faultBefore .endInString []
    | 'u' :: r =>
      match readUnit r with
      | .error f => .error f
      | .ok (n, rest) =>
        if 0xdc00 ≤ n ∧ n ≤ 0xdfff then
          .ok (Char.ofNat ((lead - 0xd800) * 1024 + (n - 0xdc00) + 0x10000), rest)
        else faultBefore .loneSurrogate rest
    | _ => faultOn .unfinishedEscape r
  | _ => faultOn .unfinishedEscape s

/-- The character of an escape by number. Surrogates must come in pairs. -/
def readUnicode (s : List Char) : Reading Char :=
  match readUnit s with
  | .error f => .error f
  | .ok (n, rest) =>
    if 0xdc00 ≤ n ∧ n ≤ 0xdfff then faultBefore .loneSurrogate rest
    else if 0xd800 ≤ n ∧ n ≤ 0xdbff then readTrailing n rest
    else .ok (Char.ofNat n, rest)

/-- The character of an escape, after its backslash. -/
def readEscape (s : List Char) : Reading Char :=
  match s with
  | [] => faultBefore .endInString []
  | 'u' :: rest => readUnicode rest
  | c :: rest =>
    match simpleEscape? c with
    | some e => .ok (e, rest)
    | none => faultOn .invalidEscape s

/-- The characters of a string up to its closing quote, in at most `fuel` of them. -/
def readStringFrom : Nat → List Char → Reading (List Char)
  | _, [] => faultBefore .endInString []
  | 0, rest => faultBefore .endInString rest
  | fuel + 1, c :: rest =>
    if c = '"' then .ok ([], rest)
    else if c = '\\' then
      match readEscape rest with
      | .error f => .error f
      | .ok (e, rest) =>
        match readStringFrom fuel rest with
        | .error f => .error f
        | .ok (cs, rest) => .ok (e :: cs, rest)
    else if c.toNat < 0x20 then faultOn .controlCharacter (c :: rest)
    else
      match readStringFrom fuel rest with
      | .error f => .error f
      | .ok (cs, rest) => .ok (c :: cs, rest)

/-- A string after its opening quote. -/
def readString (s : List Char) : Reading String :=
  match readStringFrom s.length s with
  | .error f => .error f
  | .ok (cs, rest) => .ok (String.ofList cs, rest)

/-! ## Numbers -/

/-- A whole number within 64 bits, or a number with a point, a power or too many digits. -/
inductive Number where
  | whole (n : Int)
  | double (x : Binary64)
deriving DecidableEq

/-- The number made of what was read of it. -/
def finishDouble (negative : Bool) (digits : Nat) (power : Int) (rest : List Char) :
    Reading Number :=
  match Decimal.approximate digits power with
  | none => faultBefore .numberOutOfRange rest
  | some x => .ok (.double (if negative then x.neg else x), rest)

/-- The largest power that is kept; beyond it the number is out of range or zero. -/
def largestExponent : Nat := twoTo 31 - 1

/-- A power of ten after its sign. -/
def readPower (negative : Bool) (digits : Nat) (power : Int) (down : Bool) (s : List Char) :
    Reading Number :=
  match s with
  | [] => faultBefore .endInValue []
  | c :: _ =>
    if !c.isDigit then faultOn .invalidNumber s
    else
      let (ds, rest) := Decimal.takeDigits s
      let (n, extra) := Decimal.absorb largestExponent 0 ds
      if !extra.isEmpty then
        if digits ≠ 0 ∧ !down then faultBefore .numberOutOfRange (extra.tail ++ rest)
        else .ok (.double (.zero negative), rest)
      else
        let total := if down then power - n else power + n
        finishDouble negative digits (max (min total largestExponent) (-largestExponent - 1)) rest

/-- A power of ten after its mark. -/
def readExponent (negative : Bool) (digits : Nat) (power : Int) (s : List Char) : Reading Number :=
  match s with
  | '+' :: rest => readPower negative digits power false rest
  | '-' :: rest => readPower negative digits power true rest
  | _ => readPower negative digits power false s

/-- The digits after a point. -/
def readFraction (negative : Bool) (digits : Nat) (power : Int) (s : List Char) : Reading Number :=
  let (ds, rest) := Decimal.takeDigits s
  let (digits, extra) := Decimal.absorb Decimal.largestWord digits ds
  let power := power - (ds.length - extra.length)
  if ds.isEmpty then
    match rest with
    | [] => faultOn .endInValue rest
    | _ => faultOn .invalidNumber rest
  else
    match rest with
    | 'e' :: r => readExponent negative digits power r
    | 'E' :: r => readExponent negative digits power r
    | _ => finishDouble negative digits power rest

/-- A number after its whole digits, of which some may have been left over: a fraction, a
power, or nothing more. -/
def readAfterWhole (negative : Bool) (digits : Nat) (extra rest : List Char) : Reading Number :=
  match rest with
  | '.' :: r => readFraction negative digits extra.length r
  | 'e' :: r => readExponent negative digits extra.length r
  | 'E' :: r => readExponent negative digits extra.length r
  | _ =>
    if !extra.isEmpty then finishDouble negative digits extra.length rest
    else if !negative then .ok (.whole digits, rest)
    else if digits = 0 ∨ twoTo 63 < digits then .ok (.double (Binary64.ofNat digits).neg, rest)
    else .ok (.whole (-digits), rest)

/-- A number after its sign. -/
def readNumber (negative : Bool) (s : List Char) : Reading Number :=
  match s with
  | [] => faultBefore .endInValue []
  | c :: r =>
    if !c.isDigit then faultOn .invalidNumber s
    else if c = '0' ∧ r.head?.any Char.isDigit then faultOn .invalidNumber r
    else
      let (ds, rest) := Decimal.takeDigits s
      let (digits, extra) := Decimal.absorb Decimal.largestWord 0 ds
      readAfterWhole negative digits extra rest

/-- A number as type faults name it. -/
def Number.found : Number → String
  | .whole n => "integer `" ++ toString n ++ "`"
  | .double x => "floating point `" ++ doubleText x ++ "`"

/-! ## Values of the wrong type -/

/-- A word that stands for a value, told as the wrong type once it is complete. -/
def wrongWord {α : Type} (word : List Char) (found expected : String) (rest : List Char) :
    Except Fault α :=
  match readWord word rest with
  | .error f => .error f
  | .ok rest => faultBefore (.wrongType found expected) rest

/-- Tells what stands here instead of what is expected. -/
def wrongType {α : Type} (expected : String) (s : List Char) : Except Fault α :=
  match s with
  | [] => faultOn .expectedValue s
  | c :: rest =>
    if c = 'n' then wrongWord "ull".toList "null" expected rest
    else if c = 't' then wrongWord "rue".toList "boolean `true`" expected rest
    else if c = 'f' then wrongWord "alse".toList "boolean `false`" expected rest
    else if c = '[' then faultBefore (.wrongType "sequence" expected) s
    else if c = '\x7b' then faultBefore (.wrongType "map" expected) s
    else if c = '"' then
      match readString rest with
      | .error f => .error f
      | .ok (text, rest) => faultBefore (.wrongType ("string " ++ Text.quote text) expected) rest
    else if c = '-' ∨ c.isDigit then
      match readNumber (c = '-') (if c = '-' then rest else s) with
      | .error f => .error f
      | .ok (n, rest) => faultBefore (.wrongType n.found expected) rest
    else faultOn .expectedValue s

/-! ## Lists of strings -/

/-- A string value. -/
def readStringValue (s : List Char) : Reading String :=
  match skipSpace s with
  | '"' :: rest => readString rest
  | s => wrongType "a string" s

/-- The strings up to the end of the list, `first` before any was read. -/
def readStringItems : Nat → Bool → List Char → Reading (List String)
  | 0, _, rest => faultOn .endInList rest
  | fuel + 1, first, rest =>
    let element (s : List Char) : Reading (List String) :=
      match readStringValue s with
      | .error f => .error f
      | .ok (text, rest) =>
        match readStringItems fuel false rest with
        | .error f => .error f
        | .ok (texts, rest) => .ok (text :: texts, rest)
    match skipSpace rest with
    | [] => faultOn .endInList []
    | ']' :: rest => .ok ([], rest)
    | c :: rest =>
      if first then element (c :: rest)
      else if c = ',' then
        match skipSpace rest with
        | [] => faultOn .endInValue []
        | ']' :: rest => faultOn .trailingComma (']' :: rest)
        | rest => element rest
      else faultOn .expectedListEnd (c :: rest)

/-- A whole text that is one list of strings. -/
def readStrings (s : List Char) : Except Fault (List String) :=
  match skipSpace s with
  | [] => faultOn .endInValue []
  | '[' :: rest =>
    match readStringItems (s.length + 1) true rest with
    | .error f => .error f
    | .ok (texts, rest) =>
      match skipSpace rest with
      | [] => .ok texts
      | rest => faultOn .trailingCharacters rest
  | s => wrongType "a sequence" s

/-- The list of strings that a document is, or what is wrong with it, in words. -/
def strings (text : String) : Except String (List String) :=
  (readStrings text.toList).mapError fun f => f.message text.toList

end Transcript.Json

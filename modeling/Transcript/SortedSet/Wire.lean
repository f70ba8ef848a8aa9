-- The wire of the set server: a request is a line with a list of words, and every line
-- is answered by a line with a reply. A connection is a sequence of bytes; the lines in
-- it reach the one store in their order, whatever connection they come on.
import Transcript.Json.Reader
import Transcript.SortedSet.Store
import Transcript.Text.Lines

namespace Transcript.Wire

/-! ## Requests -/

/-- The line of a request, without its end. -/
def requestLine (words : List String) : String := (Json.arr (words.map .str)).compact

/-- The answer to one line. -/
def answerLine (store : Store) (line : String) : Reply × Store :=
  match Json.strings line with
  | .ok words => store.handle words
  | .error reason => (.err ("bad request: " ++ reason), store)

/-- The line of a reply, without its end. -/
def replyLine (reply : Reply) : String := reply.toJson.compact

/-! ## Connections -/

/-- The lines of a connection, without their ends, up to the first that is no text. -/
def receivedLines (pieces : List (List UInt8)) : List String :=
  match pieces with
  | [] => []
  | piece :: rest =>
    match Text.decodeUtf8 piece with
    | .ok cs => String.ofList (Text.dropLineEnd cs) :: receivedLines rest
    | .error _ => []

/-- The replies to lines, in order. -/
def answerLines (store : Store) : List String → List Reply × Store
  | [] => ([], store)
  | line :: rest =>
    let (reply, store) := answerLine store line
    let (replies, store) := answerLines store rest
    (reply :: replies, store)

/-- The bytes of lines, each with its end. -/
def sentLines (lines : List String) : List UInt8 :=
  lines.flatMap fun line => Text.utf8 line.toList ++ [10]

/-- The bytes that answer those of one connection. -/
def serveConnection (store : Store) (received : List UInt8) : List UInt8 × Store :=
  let (replies, store) := answerLines store (receivedLines (Text.piecesAfter (· == 10) received))
  (sentLines (replies.map replyLine), store)

/-- The bytes that answer each connection, one after the other. -/
def serveAll (store : Store) : List (List UInt8) → List (List UInt8) × Store
  | [] => ([], store)
  | received :: rest =>
    let (sent, store) := serveConnection store received
    let (others, store) := serveAll store rest
    (sent :: others, store)

/-! ## Reading replies -/

open Json (Fault Reading faultBefore faultOn skipSpace)

/-- The rest after one character, with blanks before it. -/
def expect (c : Char) (cause : Json.Cause) (s : List Char) : Except Fault (List Char) :=
  match skipSpace s with
  | [] => faultOn .endInObject []
  | d :: rest => if c = d then .ok rest else faultOn cause (d :: rest)

/-- The name of a field, and the rest after its colon. -/
def readName (s : List Char) : Reading String :=
  match skipSpace s with
  | [] => faultOn .endInObject []
  | '"' :: rest =>
    match Json.readString rest with
    | .error f => .error f
    | .ok (name, rest) => (expect ':' .expectedColon rest).map fun rest => (name, rest)
  | s => faultOn .keyNotString s

/-- A number value. -/
def readNumber (expected : String) (s : List Char) : Reading Json.Number :=
  match skipSpace s with
  | [] => faultOn .endInValue []
  | '-' :: rest => Json.readNumber true rest
  | c :: rest =>
    if c.isDigit then Json.readNumber false (c :: rest) else Json.wrongType expected (c :: rest)

/-- A number as a double. -/
def readDouble (s : List Char) : Reading Binary64 :=
  (readNumber "f64" s).map fun (n, rest) =>
    match n with
    | .double x => (x, rest)
    | .whole k => (.ofRatio (decide (k < 0)) k.natAbs 1, rest)

/-- A number as a whole number of 64 bits. -/
def readInt (s : List Char) : Reading Int :=
  match readNumber "i64" s with
  | .error f => .error f
  | .ok (.whole k, rest) =>
    if k < twoTo 63 then .ok (k, rest)
    else faultBefore (.wrongType (Json.Number.whole k).found "i64") rest
  | .ok (.double x, rest) => faultBefore (.wrongType (Json.Number.double x).found "i64") rest

/-- The items of an array up to its end. -/
def readItems (item : List Char → Reading Reply) : Nat → Bool → List Char → Reading (List Reply)
  | 0, _, rest => faultOn .endInList rest
  | fuel + 1, first, rest =>
    let element (s : List Char) : Reading (List Reply) :=
      match item s with
      | .error f => .error f
      | .ok (reply, rest) =>
        match readItems item fuel false rest with
        | .error f => .error f
        | .ok (replies, rest) => .ok (reply :: replies, rest)
    match skipSpace rest with
    | [] => faultOn .endInList []
    | ']' :: rest => .ok ([], rest)
    | c :: rest =>
      if first then element (c :: rest)
      else if c = ',' then
        match skipSpace rest with
        | [] => faultOn .endInValue []
        | ']' :: rest => faultOn .trailingComma (']' :: rest)
        | rest => element rest
      else faultOn .expectedListEnd (c :: rest)

/-- The value of a reply of this type. Without a reader of items an array is too deep. -/
def readValueOf (item? : Option (List Char → Reading Reply)) (kind : String) (s : List Char) :
    Reading Reply :=
  if kind = "err" then (Json.readStringValue s).map fun (t, rest) => (.err t, rest)
  else if kind = "str" then (Json.readStringValue s).map fun (t, rest) => (.str t, rest)
  else if kind = "int" then (readInt s).map fun (n, rest) => (.int n, rest)
  else if kind = "double" then (readDouble s).map fun (x, rest) => (.double x, rest)
  else if kind = "arr" then
    match skipSpace s with
    | [] => faultOn .endInValue []
    | '[' :: rest =>
      match item? with
      | some item =>
        (readItems item (rest.length + 1) true rest).map fun (rs, rest) => (.arr rs, rest)
      | none => faultOn .tooDeep ('[' :: rest)
    | s => Json.wrongType "a sequence" s
  else faultBefore (.unknownVariant kind) s

/-- A reply as a server of sets writes it: with its type, then its value, and nothing else. What
other servers may send, fields in another order or more of them, is not read. -/
def readReplyWith (item? : Option (List Char → Reading Reply)) (s : List Char) :
    Except Fault (Reply × List Char) := do
  let rest ←
    match skipSpace s with
    | [] => faultOn .endInValue []
    | '\x7b' :: rest => .ok rest
    | s => Json.wrongType "adjacently tagged enum Reply" s
  let (name, rest) ← readName rest
  if name ≠ "type" then faultBefore (.missingField "type") rest
  else
    let (kind, rest) ← Json.readStringValue rest
    if kind = "nil" then
      let rest ← expect '\x7d' .expectedObjectEnd rest
      return (.nil, rest)
    else
      let rest ← expect ',' .expectedObjectEnd rest
      let (name, rest) ← readName rest
      if name ≠ "value" then faultBefore (.missingField "value") rest
      else
        let (reply, rest) ← readValueOf item? kind rest
        let rest ← expect '\x7d' .expectedObjectEnd rest
        return (reply, rest)

/-- A reply with at most this many levels of arrays. -/
def readReply : Nat → List Char → Reading Reply
  | 0, s => readReplyWith none s
  | levels + 1, s => readReplyWith (some (readReply levels)) s

/-- The levels of arrays that a reply may have. At most 127 brackets may be open: that of the
reply, and at each level those of the array and of a reply in it. -/
def nestingLimit : Nat := 63

/-- The reply on a line, or what is wrong with the line, in words. -/
def parseReply (line : String) : Except String Reply :=
  let text := line.toList
  let read : Except Fault Reply :=
    match readReply nestingLimit text with
    | .error f => .error f
    | .ok (reply, rest) =>
      match skipSpace rest with
      | [] => .ok reply
      | rest => faultOn .trailingCharacters rest
  read.mapError fun f => f.message text

/-- What a client makes of the bytes that answer its request: the reply on the first line. -/
def receiveReply (received : List UInt8) : Except String Reply :=
  match Text.piecesAfter (· == 10) received with
  | [] => parseReply ""
  | line :: _ =>
    match Text.decodeUtf8 line with
    | .ok cs => parseReply (String.ofList cs)
    | .error _ => .error "stream did not contain valid UTF-8"

end Transcript.Wire

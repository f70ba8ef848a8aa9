-- The set program: one name for the server and its client. Options come first, and all
-- that follows them is the request.
import Transcript.SortedSet.Wire

namespace Transcript.SetProgram

/-! ## Command lines -/

/-- The port that is taken when none is named. -/
def usualPort : Nat := 1234

/-- A port: a whole number of 16 bits. -/
def readPort? (s : String) : Option Nat := Decimal.readNat? (twoTo 16) s.toList

/-- What a command line asks for. -/
inductive Invocation where
  | serve (port : Nat)
  | request (port : Nat) (words : List String)
  | usage
  | badPort (text : String)
deriving DecidableEq

/-- The words after the options, with the port and whether to serve. -/
def readOptions (port : Nat) (serving : Bool) : List String → Invocation
  | "--port" :: text :: rest =>
    match readPort? text with
    | some port => readOptions port serving rest
    | none => .badPort text
  | "serve" :: rest => readOptions port true rest
  | words =>
    if serving then .serve port
    else if words.isEmpty then .usage
    else .request port words

/-- A command line, with the port that the environment names if it names one. -/
def Invocation.of (environment : Option String) (words : List String) : Invocation :=
  readOptions ((environment.bind readPort?).getD usualPort) false words

/-! ## Results -/

/-- What the program writes and its exit code. -/
structure Result where
  stdout : String
  stderr : String
  code : Nat
deriving DecidableEq

def usageText : String := "usage: mock_zset [--port N] serve | <cmd> <args...>\n"

def Result.usage : Result := ⟨"", usageText, 2⟩

def Result.badPort (text : String) : Result := ⟨"", "invalid port: " ++ text ++ "\n", 2⟩

/-- What a client shows of the reply to its request. -/
def Result.ofReply : Except String Reply → Result
  | .ok reply => ⟨reply.render, "", 0⟩
  | .error reason => ⟨"", "request failed: " ++ reason ++ "\n", 1⟩

/-- A server that cannot listen. -/
def Result.notServing (reason : String) : Result := ⟨"", "server error: " ++ reason ++ "\n", 1⟩

/-- The bytes of a client's request. -/
def requestBytes (words : List String) : List UInt8 := Wire.sentLines [Wire.requestLine words]

/-- A request to a store over the wire: what the client makes of the answer. -/
def exchange (store : Store) (words : List String) : Except String Reply × Store :=
  let (sent, store) := Wire.serveConnection store (requestBytes words)
  (Wire.receiveReply sent, store)

end Transcript.SetProgram

-- The programs of a host, apart from its shell: the short ones here, and all by their names.
import Transcript.Host.Programs.Cat
import Transcript.Host.Programs.Printf
import Transcript.Host.Programs.Sleep
import Transcript.Host.Programs.Touch
import Transcript.SortedSet.Program

namespace Transcript.Host

/-! ## Words on a line -/

namespace Echo

/-- An option: some letters after a dash. -/
def isOption (word : Octets) : Bool :=
  match word with
  | '-' :: c :: cs => (c :: cs).all fun c => c = 'n' || c = 'e' || c = 'E'
  | _ => false

/-- The words with a line end. Where the rules of the standard count, escapes are always
replaced, and options only read if the first word is one that leaves the line end out. -/
def line (isStrict : Bool) (words : List Octets) : Octets :=
  let readsOptions := !isStrict || words.head? = some ['-', 'n']
  let options := if readsOptions then (words.takeWhile isOption).flatten else []
  let words := if readsOptions then words.dropWhile isOption else words
  let last := options.reverse.find? fun c => c = 'e' || c = 'E'
  let text := Octets.join [' '] words
  let (out, isCut) :=
    if isStrict ∨ last = some 'e' then Escape.replace (text.length + 1) text else (text, false)
  if isCut ∨ options.contains 'n' then out else out ++ ['\n']

def run (call : Call) : Task Nat := do
  let isStrict := (call.setting? "POSIXLY_CORRECT").isSome
  let words := call.arguments.tail
  if !isStrict ∧ (words = ["--help".toList] ∨ words = ["--version".toList]) then throw 0
  call.finish (line isStrict words) 0

end Echo

/-! ## The working directory -/

namespace Directory

def form : OptionForm :=
  ⟨[('L', .nothing), ('P', .nothing)], [("logical", 'L', .nothing), ("physical", 'P', .nothing)]⟩

/-- A path that can stand for the working directory: an absolute one that leads there and
through no dots. -/
def isGood (path : Octets) : Task Bool := do
  if path.head? ≠ some '/' then return false
  if (Files.names path).any fun n => n = ['.'] ∨ n = ['.', '.'] then return false
  match ← Steps.ask (.status path true), ← Steps.ask (.status ['.'] true) with
  | .ok a, .ok b => return a.identity = b.identity
  | _, _ => return false

def run (call : Call) : Task Nat := do
  let isStrict := (call.setting? "POSIXLY_CORRECT").isSome
  let options ← call.options form
  if !options.operands.isEmpty then
    call.warn "ignoring non-option arguments".toList
  let isLogical := match options.given.getLast? with
    | some (letter, _) => letter = 'L'
    | none => isStrict
  let named := (call.setting? "PWD").getD []
  let here : Octets ← Steps.ask .directory
  if isLogical && (← isGood named) then call.finish (named ++ ['\n']) 0
  else call.finish (here ++ ['\n']) 0

end Directory

/-! ## Sets -/

namespace Sets

def finish (result : SetProgram.Result) : Task Nat := do
  Steps.tell 1 (Octets.ofText result.stdout)
  Steps.tell 2 (Octets.ofText result.stderr)
  return result.code

/-- The set program: a server that never ends by itself, or one request to it. -/
def run (call : Call) : Task Nat := do
  let port := (call.setting? "MOCK_ZSET_PORT").map Octets.toText
  match SetProgram.Invocation.of port (call.arguments.tail.map Octets.toText) with
  | .usage => finish .usage
  | .badPort text => finish (.badPort text)
  | .serve port =>
    match ← Steps.ask (.serve port) with
    | .ok () =>
      Steps.ask (.pause none)
      return 0
    | .error e => finish (.notServing e.message)
  | .request port words => finish (.ofReply (← Steps.ask (.reach port words)))

end Sets

/-! ## All programs -/

namespace Call

/-- What a program does that is not the shell. -/
def task (call : Call) : Task Nat :=
  match call.program with
  | .printf => Printf.run call
  | .echo => Echo.run call
  | .yes | .sh => pure 0
  | .no => pure 1
  | .cat => Cat.run call
  | .pwd => Directory.run call
  | .sleep => Sleep.run call
  | .touch => Touch.run call
  | .sets => Sets.run call

end Call

end Transcript.Host

-- A corpus: commands in order, each with the exact output it must print.
import Transcript.Failure

namespace Transcript

/-- A command and the output it must print, every line ended by a newline. -/
structure Case where
  command : String
  expected : String
deriving DecidableEq

/-- The cases in the order they are run. -/
structure Corpus where
  cases : List Case
deriving DecidableEq

namespace Corpus

def size (c : Corpus) : Nat := c.cases.length

def isEmpty (c : Corpus) : Bool := c.cases.isEmpty

def commands (c : Corpus) : List String := c.cases.map (·.command)

def expectedOutputs (c : Corpus) : List String := c.cases.map (·.expected)

/-- Pairs commands with outputs, one to one. -/
def ofColumns (commands outputs : List String) : Except Failure Corpus :=
  if commands.length = outputs.length then .ok ⟨List.zipWith Case.mk commands outputs⟩
  else .error (.unevenColumns commands.length outputs.length)

end Corpus

end Transcript

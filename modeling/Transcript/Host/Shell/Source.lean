-- Where the lines of a script come from: a text, or a descriptor that is read as the script
-- goes on.
import Transcript.Host.Shell.State

namespace Transcript.Host

/-- What is left of a script: its reader, what was read but not given to it, and the
descriptor from which more can be read. -/
structure Source where
  reader : Script.Reader
  waiting : Octets
  descriptor : Option Nat

namespace Source

/-- The first line of a text, and the rest. -/
def splitLine (s : Octets) : Octets × Octets :=
  let line := s.takeWhile (· ≠ '\n')
  (s.take (line.length + 1), s.drop (line.length + 1))

/-- Gives the reader one more line, or tells it that there is none. -/
def feed : Nat → Source → Sh Source
  | 0, s => return { s with reader := { s.reader with isComplete := true } }
  | fuel + 1, s => do
    let isWhole := s.waiting.contains '\n'
    if isWhole ∨ s.descriptor.isNone then
      let (line, rest) := splitLine s.waiting
      if (← get).isOn .verbose then Steps.tell 2 line
      let isComplete := !isWhole || (rest.isEmpty && s.descriptor.isNone)
      return { s with
        reader := { s.reader with text := s.reader.text ++ line, isComplete := isComplete }
        waiting := rest }
    else
      match ← Steps.ask (.read (s.descriptor.getD 0) 8191) with
      | .ok (c :: part) =>
        feed fuel { s with waiting := s.waiting ++ (c :: part).filter (· ≠ '\x00') }
      | _ => feed fuel { s with descriptor := none }

/-- The next line of a script, which is fed to its reader until it is whole. -/
def nextLineWith : Nat → Source → Sh (Script.Line × Source)
  | 0, _ => throw .error
  | fuel + 1, s => do
    let sh ← get
    match Script.readLine sh.aliases sh.nextDocument s.reader with
    | .ok (line, reader) =>
      Sh.change fun sh => { sh with
        readLine := reader.line, nextDocument := reader.nextText
        documents := line.texts ++ sh.documents }
      return (line, { s with reader := reader })
    | .error .more => nextLineWith fuel (← feed Steps.endless s)
    | .error (.invalid line message) =>
      Sh.change fun sh => { sh with errorLine := line }
      Sh.failText ("Syntax error: " ++ message)

def nextLine (s : Source) : Sh (Script.Line × Source) := do
  let executing := (← get).line
  nextLineWith Steps.endless { s with reader := { s.reader with executing := executing } }

end Source

end Transcript.Host

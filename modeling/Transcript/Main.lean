-- The program: it gives the tool its arguments, the variables and the files that it asks
-- for, and writes what the tool writes.
import Transcript.Application
import Transcript.Host.System

namespace Transcript

open Host (Machine Octets Place)

/-- The directory that relative paths are seen from. -/
def startDirectory : Place := ["here".toList]

/-- The place of a path. -/
def placeOfPath (path : String) : Place :=
  let names := Place.ofPath (Octets.ofText path)
  if path.toList.head? = some '/' then names else startDirectory ++ names

/-- The machine with a file as it is found. -/
def withFile (m : Machine) : Option String → IO Machine
  | none => return m
  | some path => do
    try
      let content ← IO.FS.readBinFile path
      return m.withEntry (placeOfPath path) (.file content.toList)
    catch
      | .inappropriateType .. => return m.withEntry (placeOfPath path) .directory
      | _ => return m

/-- The variables that the tool looks at. -/
def variableNames : List String :=
  ["HOME", "XDG_CONFIG_HOME", "CLICOLOR_FORCE", "PATH", "MOCK_ZSET_PORT"]

def readVariables : IO (Keyed String) :=
  variableNames.filterMapM fun name => do
    return (← IO.getEnv name).map fun value => (name, value)

/-- The home directory that a list of accounts gives for a user. -/
def homeOf? (user : String) (accounts : String) : Option String :=
  (accounts.splitOn "\n").findSome? fun line =>
    match line.splitOn ":" with
    | [_, _, number, _, _, home, _] => if number = user then some home else none
    | _ => none

/-- The number of the user that a status of a process tells. -/
def userOf? (status : String) : Option String :=
  (status.splitOn "\n").findSome? fun line =>
    match line.splitOn "\t" with
    | "Uid:" :: user :: _ => some user
    | _ => none

/-- The home directory of the account that the tool runs in. -/
def readAccountHome : IO (Option String) := do
  try
    let status ← IO.FS.readFile "/proc/self/status"
    let accounts ← IO.FS.readFile "/etc/passwd"
    return (userOf? status).bind fun user => homeOf? user accounts
  catch _ => return none

/-- Opens the log where the tool has opened it. -/
def writeLog (m : Machine) : Option String → IO Unit
  | none => return
  | some path => do
    if Machine.system.isThere path m then
      let _ ← IO.FS.Handle.mk path .append

/-- The machine with all that an invocation reads. -/
def prepared (m : Machine) (invocation : CommandLine.Invocation) : IO Machine := do
  let m ← withFile m (Application.settingsPath? Machine.system m invocation)
  withFile m (Application.corpusPath? Machine.system m invocation)

end Transcript

open Transcript in
def main (words : List String) : IO UInt32 := do
  let environment ← readVariables
  let accountHome ← readAccountHome
  let standard := Host.Machine.standard.withSets.withEntry startDirectory .directory
  let m : Host.Machine :=
    { standard with directory := startDirectory, environment, accountHome }
  let outcome ←
    match CommandLine.read words with
    | .ok invocation => do
      let outcome := Application.run Host.Machine.system (← prepared m invocation) words
      writeLog outcome.state invocation.logFile
      pure outcome
    | .error _ => pure (Application.run Host.Machine.system m words)
  IO.print outcome.stdout
  IO.eprint outcome.stderr
  return outcome.code.toUInt32

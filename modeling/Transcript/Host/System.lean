-- The machine as a system for the tool.
import Transcript.Host.Processes
import Transcript.System

namespace Transcript.Host.Machine

/-- A path as it is given to the system: one with a zero byte leads nowhere. -/
def checkedPath (path : String) : Except HostError Octets :=
  if path.toList.contains '\x00' then .error .zeroByteInPath else .ok (Octets.ofText path)

/-- The text of the file at a path. -/
def readText (path : String) (m : Machine) : Except HostError String := do
  let bytes ← m.files.read m.directory (← checkedPath path)
  match Text.decodeUtf8 bytes with
  | .ok cs => return String.ofList cs
  | .error _ => throw .notText

/-- Opens a file to write at its end: it is there afterwards. -/
def openLog (path : String) (m : Machine) : Except HostError Machine := do
  let (place, node) ← m.files.locateNew m.directory (← checkedPath path)
  match node with
  | none => return m.setContent place []
  | some ⟨.directory, _, _⟩ => throw .isDirectory
  | some ⟨.program _, _, _⟩ => throw .denied
  | some _ => return m

/-- The machine as a system. -/
def system : System Machine where
  environment name m := m.environment.find? name
  accountHome m := m.accountHome
  isThere path m := ((checkedPath path).bind (m.files.find m.directory true)).toBool
  readText path m := (m.readText path).mapError HostError.message
  openLog path m := (m.openLog path).mapError HostError.message
  launch := launch
  server := serverHost

end Transcript.Host.Machine

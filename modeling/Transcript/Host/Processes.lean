-- Processes that are started from outside of the machine: the commands of a run, each waited
-- for, and the server beside them. What they write is read outside as soon as it is written.
import Transcript.Host.Programs
import Transcript.Host.Shell
import Transcript.Host.Standard
import Transcript.Server

namespace Transcript.Host

/-- What a process does that runs a program. -/
def load (call : Call) : Activity :=
  match call.program with
  | .sh => Shell.activity call
  | _ => call.task.activity

namespace Machine

/-! ## Starting -/

/-- A program with all that its process starts with. -/
structure Start where
  program : Program
  directory : Place
  environment : List (Octets × Octets)
  arguments : List Octets

/-- The directories that are searched where no variable names any. -/
def usualPath : Octets := "/bin:/usr/bin".toList

/-- The first program among some paths. What is no program at one place may be one at the next;
that one may not be run is said before that another is not there. -/
def firstProgram (m : Machine) (directory : Place) :
    HostError → List Octets → Except HostError Program
  | e, [] => .error e
  | e, path :: rest =>
    match m.programAt directory path with
    | .ok program => .ok program
    | .error .denied => m.firstProgram directory .denied rest
    | .error .noEntry => m.firstProgram directory (if e = .denied then e else .noEntry) rest
    | .error .notDirectory =>
      m.firstProgram directory (if e = .denied then e else .notDirectory) rest
    | .error other => .error other

/-- The program that a name stands for, seen from a directory. -/
def programNamed (m : Machine) (directory : Place) (path name : Octets) :
    Except HostError Program :=
  if name.isEmpty then .error .noEntry
  else if name.contains '/' then m.programAt directory name
  else if Files.longestName < name.length then .error .nameTooLong
  else m.firstProgram directory .noEntry (Lookup.candidates path name)

/-- A variable as it is passed on: its name ends where its text has the first sign of equality. -/
def passed (name value : String) : Octets × Octets :=
  let text := Octets.ofText name ++ '=' :: Octets.ofText value
  (text.takeWhile fun c => c ≠ '=', (text.dropWhile fun c => c ≠ '=').drop 1)

/-- Finds what is needed to start a program. A zero byte is found first, then a directory
that cannot be entered, and then a program that cannot be run. -/
def prepare (m : Machine) (directory : Option String) (vars : Keyed String) (name : String)
    (arguments : List String) : Except HostError Start := do
  let texts := name :: arguments ++ directory.toList ++ vars.flatMap fun (n, v) => [n, v]
  if texts.any fun t => t.toList.contains '\x00' then throw .zeroByte
  let place ←
    match directory with
    | some d => m.files.enter m.directory (Octets.ofText d)
    | none => pure m.directory
  let all := vars.foldl (fun e (n, v) => Keyed.put n v e) m.environment
  let environment := all.map fun (n, v) => passed n v
  let words := (name :: arguments).map Octets.ofText
  let path := (List.lookup "PATH".toList environment).getD usualPath
  let program ← m.programNamed place path (Octets.ofText name)
  if !isFitting words environment then throw .tooLarge
  return ⟨program, place, environment, words⟩

/-- The process that is the parent of those that are started from outside. -/
def outside : Nat := 2

/-- A process that was started, and the pipes that its output and its error output go to. -/
structure Started where
  id : Nat
  out : Nat
  err : Nat

/-- Starts the process of a program. Its input is empty. -/
def begin (m : Machine) (start : Start) : Started × Machine :=
  let (id, m) := m.fresh
  let (out, m) := m.fresh
  let (err, m) := m.fresh
  let (input, m) := m.fresh
  let (toOut, m) := m.fresh
  let (toErr, m) := m.fresh
  let void : Target := .device ["dev".toList, "null".toList] .void
  let process : Process := {
    id := id
    parent := outside
    activity := load ⟨start.program, start.arguments, start.environment⟩
    ready := m.clock
    descriptors := [(0, ⟨input, false⟩), (1, ⟨toOut, false⟩), (2, ⟨toErr, false⟩)]
    directory := start.directory
    mask := 18
    dispositions := []
    caught := []
    stopped := false
    isAsleep := false
    held := []
    isStruck := false
    finished := none }
  (⟨id, out, err⟩, { m with
    openFiles := (input, ⟨void, true, false, false, 0⟩) ::
      (toOut, ⟨.pipeIn out, false, true, false, 0⟩) ::
      (toErr, ⟨.pipeIn err, false, true, false, 0⟩) :: m.openFiles
    pipes := (out, .empty) :: (err, .empty) :: m.pipes
    drained := out :: err :: m.drained
    processes := m.processes ++ [process] })

/-! ## Commands -/

/-- How a process has ended, if it has. -/
def ended? (m : Machine) (id : Nat) : Option ExitStatus := (m.process? id).bind (·.finished)

/-- Something is still to come from a process: its end, or what is written to its output. -/
def isOccupied (s : Started) (m : Machine) : Bool :=
  m.isRunning s.id || m.hasWriter s.out || m.hasWriter s.err

/-- Forgets a process that has ended, and what was read from it. -/
def dismiss (s : Started) (m : Machine) : Machine :=
  { m with
    processes := m.processes.filter fun p => p.id ≠ s.id
    drained := m.drained.filter fun pipe => pipe ≠ s.out && pipe ≠ s.err
    pipes := m.pipes.filter fun p => p.1 ≠ s.out && p.1 ≠ s.err }

/-- Starts a program with arguments and waits for its end, and for all that writes to its
output. A process that never ends counts as killed. -/
def launch : Launcher Machine := fun settings name arguments m =>
  match m.prepare settings.directory settings.environment name arguments with
  | .error e => (.notStarted e.message, m)
  | .ok start =>
    let (s, m) := m.begin start
    let m := m.runWhile load none (isOccupied s) patience
    let status := (m.ended? s.id).getD (.signal 9 false)
    (.ended status (m.pipe s.out).bytes.toBytes (m.pipe s.err).bytes.toBytes, m.dismiss s)

/-! ## The server -/

/-- Starts a program as the server. -/
def startServer (name : String) (arguments : List String) (directory : Option String)
    (m : Machine) : Except String Unit × Machine :=
  match m.prepare directory [] name arguments with
  | .error e => (.error e.message, m)
  | .ok start =>
    let (s, m) := m.begin start
    (.ok (), { m with server := some s.id })

/-- How the server has ended, if it has. -/
def serverStatus (m : Machine) : Option ExitStatus := m.server.bind m.ended?

/-- Sends a signal to the server. -/
def signalServer (number : Nat) (m : Machine) : Machine :=
  match m.server with
  | some id => m.signal id number false
  | none => m

/-- Lets the processes go on for some time, or until something is not the case any more. -/
def passWhile (milliseconds : Nat) (goesOn : Machine → Bool) (m : Machine) : Machine :=
  m.runWhile load (some (m.clock + 1000 * milliseconds)) goesOn patience

/-- Waits for the server to end, at most this many milliseconds. -/
def awaitServer (milliseconds : Nat) (m : Machine) : Awaited × Machine :=
  let m := m.passWhile milliseconds fun m => m.serverStatus.isNone
  match m.serverStatus with
  | some status => (.ended status, m)
  | none => (.tooLate, m)

/-- The machine as the host of a server. -/
def serverHost : ServerHost Machine where
  spawn := startServer
  pause milliseconds m := m.passWhile milliseconds fun _ => true
  poll m := (.ok m.serverStatus, m)
  requestStop m := m.signalServer 15
  await := awaitServer
  kill m := (.ok (), m.signalServer 9)
  killAtOnce m := m.signalServer 9

end Machine

end Transcript.Host

-- What a process does: it asks the system for one thing after the other, each with what was
-- answered before in mind, until it ends. Programs are written as steps that work on a state
-- of their own and may break off; the steps of a whole program are an activity.
import Transcript.Host.Files
import Transcript.Host.Signal
import Transcript.Process
import Transcript.SortedSet.Reply

namespace Transcript.Host

/-! ## Requests -/

/-- How a file is opened. -/
structure OpenUse where
  reads : Bool
  writes : Bool
  creates : Bool
  truncates : Bool
  appends : Bool
  /-- The file must not be there before. -/
  fresh : Bool
deriving DecidableEq

namespace OpenUse

def reading : OpenUse := ⟨true, false, false, false, false, false⟩

def writing : OpenUse := ⟨false, true, true, true, false, false⟩

def appending : OpenUse := ⟨false, true, true, false, true, false⟩

def both : OpenUse := ⟨true, true, true, false, false, false⟩

/-- A file is made unless it is there, and is not read. -/
def making : OpenUse := ⟨false, true, true, false, false, false⟩

end OpenUse

/-- Which thing of the system a path or a descriptor leads to. -/
inductive Target where
  | file (place : Place)
  | directory (place : Place)
  | device (place : Place) (d : Device)
  /-- The end of a pipe that is written to, and the one that is read from. -/
  | pipeIn (pipe : Nat)
  | pipeOut (pipe : Nat)
deriving DecidableEq

inductive FileKind where
  | regular
  | directory
  | link
  | character
  | pipe
deriving DecidableEq

/-- What is known of a file without reading it. -/
structure FileStatus where
  kind : FileKind
  /-- Two statuses of one thing have the same identity. -/
  identity : Target
  size : Nat
  modified : Int
  mode : Nat
  runnable : Bool
  /-- Where an open file is read next. -/
  offset : Nat
deriving DecidableEq

/-- What a process does when a signal arrives. -/
inductive Disposition where
  | default
  | ignore
  | catching
deriving DecidableEq

/-- The time that a file is given: the time of the change, or another one, or its own. -/
inductive FileTime where
  | now
  | at (microseconds : Int)
  | same
deriving DecidableEq

/-- How long a process waits for the end of a child: not at all, as long as it takes, or until
a signal is caught. -/
inductive Patience where
  | none
  | endless
  | untilSignal
deriving DecidableEq

/-- What waiting for the end of a child gives. -/
inductive Waited where
  | child (id : Nat) (status : ExitStatus)
  | noneYet
  | noChild
  | interrupted
deriving DecidableEq

/-- What a process can ask of the system. -/
inductive Request where
  | read (descriptor count : Nat)
  | write (descriptor : Nat) (bytes : Octets)
  | openFile (path : Octets) (use : OpenUse)
  | close (descriptor : Nat)
  /-- The lowest free descriptor from a number on for the same open file; it does not outlive
  the program. -/
  | duplicate (descriptor least : Nat)
  /-- A descriptor of this number for the same open file. -/
  | duplicateTo (descriptor number : Nat)
  | pipe
  | status (path : Octets) (follow : Bool)
  | openStatus (descriptor : Nat)
  | list (path : Octets)
  | enter (path : Octets)
  | directory
  | setTime (path : Octets) (time : FileTime)
  | signal (process number : Nat)
  | handle (number : Nat) (disposition : Disposition)
  /-- The signals that were caught since this was asked last. -/
  | caught
  /-- The end of a child. -/
  | wait (patience : Patience)
  | pause (microseconds : Option Nat)
  | execute (path : Octets) (arguments : List Octets) (environment : List (Octets × Octets))
  | identity
  | mask (new : Option Nat)
  | time
  | serve (port : Nat)
  | reach (port : Nat) (words : List String)

/-- What is answered to a request. -/
def Request.Answer : Request → Type
  | .read .. => Except HostError Octets
  | .write .. => Except HostError Nat
  | .openFile .. => Except HostError Nat
  | .close _ => Bool
  | .duplicate .. => Except HostError Nat
  | .duplicateTo .. => Except HostError Unit
  | .pipe => Nat × Nat
  | .status .. => Except HostError FileStatus
  | .openStatus _ => Except HostError FileStatus
  | .list _ => Except HostError (List Octets)
  | .enter _ => Except HostError Unit
  | .directory => Octets
  | .setTime .. => Except HostError Unit
  | .signal .. => Except HostError Unit
  | .handle .. => Disposition
  | .caught => List Nat
  | .wait _ => Waited
  | .pause _ => Unit
  | .execute .. => HostError
  | .identity => Nat × Nat
  | .mask _ => Nat
  | .time => Int
  | .serve _ => Except HostError Unit
  | .reach .. => Except String Reply

/-! ## Activities -/

/-- What a process does from now on. -/
inductive Activity where
  | ended (status : ExitStatus)
  | ask (request : Request) (next : request.Answer → Activity)
  /-- A new process does what the child does; the number of it is known to this one. -/
  | fork (child : Activity) (next : Nat → Activity)

/-! ## Steps -/

/-- Steps that work on a state and give a value, or break off with a reason. -/
def Steps (σ ε α : Type) : Type := σ → (Except ε α → σ → Activity) → Activity

namespace Steps

variable {σ ε α β : Type}

instance : Monad (Steps σ ε) where
  pure a := fun s next => next (.ok a) s
  bind x f := fun s next => x s fun result s =>
    match result with
    | .ok a => f a s next
    | .error e => next (.error e) s

instance : MonadStateOf σ (Steps σ ε) where
  get := fun s next => next (.ok s) s
  set s := fun _ next => next (.ok ()) s
  modifyGet f := fun s next =>
    let (a, s) := f s
    next (.ok a) s

instance : MonadExceptOf ε (Steps σ ε) where
  throw e := fun s next => next (.error e) s
  tryCatch x handler := fun s next => x s fun result s =>
    match result with
    | .ok a => next (.ok a) s
    | .error e => handler e s next

/-- Asks the system. -/
def ask (request : Request) : Steps σ ε request.Answer := fun s next =>
  .ask request fun answer => next (.ok answer) s

/-- Does the steps, and gives their result where they break off too. -/
def attempt (x : Steps σ ε α) : Steps σ ε (Except ε α) := fun s next =>
  x s fun result s => next (.ok result) s

/-- Starts a process that goes on from here with steps of its own; what it does after them is
what these steps do when they break off. -/
def fork (child : Steps σ ε ε) : Steps σ ε Nat := fun s next =>
  .fork (child s fun result s =>
    match result with
    | .ok e => next (.error e) s
    | .error e => next (.error e) s)
    fun id => next (.ok id) s

/-- Starts a process with steps of its own, which ends with the code that they give. -/
def spawn (child : Steps σ ε Nat) : Steps σ ε Nat := fun s next =>
  .fork (child s fun result _ => .ended (.code (result.toOption.getD 2))) fun id => next (.ok id) s

/-- More steps than any program does. -/
def endless : Nat := 1000000000000000000

/-! ## Reading and writing -/

/-- Writes all of some bytes, in as many parts as it takes. -/
def writeAllWith (descriptor : Nat) : Nat → Octets → Steps σ ε (Except HostError Unit)
  | 0, _ => pure (.ok ())
  | fuel + 1, bytes => do
    if bytes.isEmpty then return .ok ()
    match ← ask (.write descriptor bytes) with
    | .ok n => writeAllWith descriptor fuel (bytes.drop n)
    | .error e => return .error e

def writeAll (descriptor : Nat) (bytes : Octets) : Steps σ ε (Except HostError Unit) :=
  writeAllWith descriptor (bytes.length + 1) bytes

/-- Writes without a care for what becomes of it. -/
def tell (descriptor : Nat) (bytes : Octets) : Steps σ ε Unit := do
  let _ ← writeAll descriptor bytes

/-- Reads until the end, part by part. -/
def readAllWith (descriptor : Nat) : Nat → List Octets → Steps σ ε Octets
  | 0, parts => pure parts.reverse.flatten
  | fuel + 1, parts => do
    match ← ask (.read descriptor 65536) with
    | .ok [] => return parts.reverse.flatten
    | .ok part => readAllWith descriptor fuel (part :: parts)
    | .error .interrupted => readAllWith descriptor fuel parts
    | .error _ => return parts.reverse.flatten

def readAll (descriptor : Nat) : Steps σ ε Octets := readAllWith descriptor endless []

end Steps

/-! ## Programs -/

/-- What a program is started with. -/
structure Call where
  program : Program
  arguments : List Octets
  environment : List (Octets × Octets)

/-- The name that a program is called by. -/
def Call.name (call : Call) : Octets := call.arguments.headD []

/-- A variable of the environment. -/
def Call.setting? (call : Call) (name : String) : Option Octets :=
  List.lookup (Octets.ofText name) call.environment

/-- A program without a state: it ends with a code, and may break off with one. -/
abbrev Task (α : Type) : Type := Steps Unit Nat α

/-- What a process does that runs a program to its end. -/
def Task.activity (task : Task Nat) : Activity :=
  task () fun result _ =>
    match result with
    | .ok code => .ended (.code code)
    | .error code => .ended (.code code)

end Transcript.Host

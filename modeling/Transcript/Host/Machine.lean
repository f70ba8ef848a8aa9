-- The machine on which processes run: its files, its clock, its pipes and the table of the
-- processes. One step lets one process have its request answered; of those that can go on it
-- is the one that has been ready for the longest time, so that the clock moves on evenly.
import Transcript.Host.Activity
import Transcript.SortedSet.Session

namespace Transcript.Host

/-! ## Open files -/

/-- An open file, which descriptors of one or more processes share. -/
structure OpenFile where
  target : Target
  reads : Bool
  writes : Bool
  appends : Bool
  offset : Nat
deriving DecidableEq

/-- What a number stands for in a process. -/
structure Descriptor where
  handle : Nat
  /-- It does not outlive the program that runs now. -/
  passing : Bool
deriving DecidableEq

/-- A pipe: what is in it, the first part ready to be read, the others the last first. -/
structure Pipe where
  front : Octets
  back : List Octets
  size : Nat

namespace Pipe

def empty : Pipe := ⟨[], [], 0⟩

def put (p : Pipe) (bytes : Octets) : Pipe :=
  ⟨p.front, bytes :: p.back, p.size + bytes.length⟩

/-- The bytes in a pipe. -/
def bytes (p : Pipe) : Octets := p.front ++ p.back.reverse.flatten

/-- Takes at most this many bytes. -/
def take (p : Pipe) (count : Nat) : Octets × Pipe :=
  let bytes := if p.back.isEmpty then p.front else p.bytes
  let taken := bytes.take count
  (taken, ⟨bytes.drop count, [], p.size - taken.length⟩)

/-- How much a pipe holds before it must be read, and how much is never parted. -/
def capacity : Nat := 65536

def whole : Nat := 4096

end Pipe

/-! ## Processes -/

structure Process where
  id : Nat
  parent : Nat
  activity : Activity
  /-- When it can go on, in microseconds. -/
  ready : Nat
  descriptors : List (Nat × Descriptor)
  directory : Place
  mask : Nat
  /-- What it does with signals, where it has a plan of its own. -/
  dispositions : List (Nat × Disposition)
  /-- The signals that it caught and has not asked for. -/
  caught : List Nat
  stopped : Bool
  /-- It has to wait for something that has not happened since it tried to go on. -/
  isAsleep : Bool
  /-- The signals that came while it was stopped. -/
  held : List Nat
  /-- A signal has ended it, and it is about to go. -/
  isStruck : Bool
  finished : Option ExitStatus

namespace Process

def disposition (p : Process) (number : Nat) : Disposition :=
  (p.dispositions.lookup number).getD .default

def setDisposition (p : Process) (number : Nat) (d : Disposition) : Process :=
  { p with dispositions := (number, d) :: p.dispositions.filter fun e => e.1 ≠ number }

/-- The handle behind a descriptor. -/
def handle? (p : Process) (descriptor : Nat) : Option Nat :=
  (p.descriptors.lookup descriptor).map (·.handle)

def close (p : Process) (descriptor : Nat) : Process :=
  { p with descriptors := p.descriptors.filter fun e => e.1 ≠ descriptor }

def attach (p : Process) (number handle : Nat) (passing : Bool) : Process :=
  let p := p.close number
  { p with descriptors := (number, ⟨handle, passing⟩) :: p.descriptors }

/-- The lowest free number from one on. -/
def freeFrom (p : Process) (least : Nat) : Nat :=
  let used := p.descriptors.map (·.1)
  ((List.range (used.length + 1)).find? fun n => !used.contains (least + n)).getD 0 + least

/-- The process has ended or is about to. -/
def isEnding (p : Process) : Bool := p.isStruck || p.finished.isSome

/-- What it does next depends on what is in a pipe. -/
def usesPipe (p : Process) : Bool :=
  match p.activity with
  | .ask (.read ..) _ | .ask (.write ..) _ => true
  | _ => false

/-- A signal that was caught ends what the process waits for; the end of a child does not. -/
def isInterrupted (p : Process) : Bool := p.caught.any fun n => n ≠ 17

end Process

/-! ## Machines -/

/-- Whether programs reach each other by ports. -/
inductive Network where
  | connected
  | isolated
deriving DecidableEq

structure Machine where
  files : Files
  /-- Microseconds since the machine was set up. -/
  clock : Nat
  openFiles : List (Nat × OpenFile)
  pipes : List (Nat × Pipe)
  /-- The pipes that are read outside of the machine, as soon as they are written to. -/
  drained : List Nat
  processes : List Process
  /-- The next number for a process, an open file or a pipe. -/
  nextId : Nat
  /-- The ports that are served, and the processes that do so. -/
  services : List (Nat × Nat)
  /-- The sets that each process serves. -/
  stores : List (Nat × Store)
  network : Network
  /-- The variables that processes are given. -/
  environment : Keyed String
  directory : Place
  /-- The home directory of the account that programs run in. -/
  accountHome : Option String
  /-- The process that is the server, if one was started. -/
  server : Option Nat

namespace Machine

/-- A new number. -/
def fresh (m : Machine) : Nat × Machine := (m.nextId, { m with nextId := m.nextId + 1 })

/-- The time when every machine is set up, in microseconds. -/
def epoch : Int := 1767225600000000

/-- The time now. -/
def now (m : Machine) : Int := epoch + m.clock

def process? (m : Machine) (id : Nat) : Option Process := m.processes.find? fun p => p.id = id

def update (m : Machine) (id : Nat) (f : Process → Process) : Machine :=
  { m with processes := m.processes.map fun p => if p.id = id then f p else p }

/-- The process is there and has not ended. -/
def isRunning (m : Machine) (id : Nat) : Bool :=
  match m.process? id with
  | some p => p.finished.isNone
  | none => false

/-! ## Pipes -/

/-- Whether a thing is open in a process. -/
def isOpen (m : Machine) (target : Target) : Bool :=
  m.openFiles.any fun f => f.2.target = target

def hasReader (m : Machine) (pipe : Nat) : Bool :=
  m.drained.contains pipe || m.isOpen (.pipeOut pipe)

def hasWriter (m : Machine) (pipe : Nat) : Bool := m.isOpen (.pipeIn pipe)

def pipe (m : Machine) (id : Nat) : Pipe := (m.pipes.lookup id).getD .empty

/-- Lets those processes try to go on that wait for something in a pipe. -/
def wakeReaders (m : Machine) : Machine :=
  { m with processes := m.processes.map fun p =>
      if p.isAsleep ∧ p.usesPipe then { p with isAsleep := false } else p }

/-- Puts a pipe in the place of what it was. -/
def setPipe (m : Machine) (id : Nat) (pipe : Pipe) : Machine :=
  { m with pipes := putAt id pipe m.pipes }.wakeReaders

/-- Forgets a pipe that nobody reads or writes. -/
def dropPipe (m : Machine) (id : Nat) : Machine :=
  if m.hasReader id ∨ m.hasWriter id then m
  else { m with pipes := m.pipes.filter fun p => p.1 ≠ id }

/-- Forgets those of some open files that no process has, and the pipes that go with them. -/
def release (m : Machine) (handles : List Nat) : Machine :=
  let isUsed (handle : Nat) : Bool :=
    m.processes.any fun p => p.descriptors.any fun d => d.2.handle = handle
  let gone := handles.filter fun h => !isUsed h
  if gone.isEmpty then m
  else
    let targets := gone.filterMap fun h => (m.openFiles.lookup h).map (·.target)
    let m := { m with openFiles := m.openFiles.filter fun f => !gone.contains f.1 }
    (targets.foldl (fun m target =>
      match target with
      | .pipeIn id | .pipeOut id => m.dropPipe id
      | _ => m) m).wakeReaders

/-! ## The end of a process -/

/-- Ends a process. Its children belong to nobody after that, and its parent may learn how it
ended. -/
def finish (m : Machine) (id : Nat) (status : ExitStatus) : Machine :=
  let before := m.process? id
  let parent := (before.map (·.parent)).getD 0
  let handles := (before.map fun p => p.descriptors.map (·.2.handle)).getD []
  let ended (p : Process) : Process :=
    { p with finished := some status, descriptors := [], caught := [] }
  let told (p : Process) : Process :=
    let p := { p with isAsleep := false }
    if p.disposition 17 = .catching ∧ !p.caught.contains 17 then
      { p with caught := p.caught ++ [17] }
    else p
  let processes := m.processes.filterMap fun p =>
    if p.id = id then some (ended p)
    else if p.parent = id then if p.finished.isSome then none else some { p with parent := 1 }
    else if p.id = parent then some (told p)
    else some p
  let isKept (p : Process) : Bool := p.id ≠ id || p.parent ≠ 1
  { m with
    processes := processes.filter isKept
    services := m.services.filter fun s => s.2 ≠ id }.release handles

/-! ## Signals -/

/-- How long it takes until a process is gone that another one has ended, in microseconds. -/
def lastDelay : Nat := 380

/-- Ends a process by a signal: at once where it has sent it itself, or else soon. -/
def strike (m : Machine) (id number : Nat) (isOwn : Bool) : Machine :=
  if isOwn then m.finish id (.signal number false)
  else
    m.update id fun p => { p with
      activity := .ended (.signal number false), ready := m.clock + lastDelay, stopped := false
      isAsleep := false, isStruck := true }

/-- Lets a signal arrive at a process that has not ended. -/
def deliver (m : Machine) (p : Process) (number : Nat) (isOwn : Bool) : Machine :=
  if number = 9 then m.strike p.id 9 isOwn
  else if p.stopped ∧ number ≠ 18 then
    m.update p.id fun p => { p with held := p.held ++ [number] }
  else
    match if Signal.isSure number then .default else p.disposition number with
    | .ignore => m
    | .catching =>
      m.update p.id fun p =>
        let p := { p with isAsleep := false }
        if p.caught.contains number then p else { p with caught := p.caught ++ [number] }
    | .default =>
      match Signal.effect number with
      | .terminate => m.strike p.id number isOwn
      | .stop => m.update p.id fun p => { p with stopped := true }
      | .ignore => m

/-- Sends a signal to a process that is not about to end. One that goes on after a stop receives
what came in the meantime. -/
def signal (m : Machine) (id number : Nat) (isOwn : Bool) : Machine :=
  match m.process? id with
  | none => m
  | some p =>
    if p.isEnding ∨ number = 0 then m
    else if number = 18 ∧ p.stopped then
      let m := m.update id fun p => { p with stopped := false, held := [] }
      p.held.foldl (fun m n =>
        match m.process? id with
        | some p => if p.isEnding then m else m.deliver p n isOwn
        | none => m) m
    else m.deliver p number isOwn

/-! ## Answers -/

/-- What becomes of a request: it is answered, it has to wait, or the process that made it
does not go on from there. -/
inductive Response (α : Type) where
  | answer (a : α) (m : Machine)
  | blocked
  | gone (m : Machine)

/-- The open file behind a descriptor of a process. -/
def openFile? (m : Machine) (p : Process) (descriptor : Nat) : Option (Nat × OpenFile) :=
  (p.handle? descriptor).bind fun h => (m.openFiles.lookup h).map fun f => (h, f)

def setOffset (m : Machine) (handle : Nat) (f : OpenFile) (offset : Nat) : Machine :=
  { m with openFiles := putAt handle { f with offset := offset } m.openFiles }

/-- The content of a file, if it has one. -/
def content (m : Machine) (place : Place) : List UInt8 :=
  match m.files.node? place with
  | some ⟨.file bytes, _, _⟩ => bytes
  | _ => []

/-- Gives a file a new content now. -/
def setContent (m : Machine) (place : Place) (bytes : List UInt8) : Machine :=
  let mode := ((m.files.node? place).map (·.mode)).getD 0
  { m with files := m.files.put place ⟨.file bytes, m.now, mode⟩ }

def read (m : Machine) (p : Process) (descriptor count : Nat) :
    Response (Except HostError Octets) :=
  match m.openFile? p descriptor with
  | none => .answer (.error .badDescriptor) m
  | some (handle, f) =>
    if !f.reads then .answer (.error .badDescriptor) m
    else
      match f.target with
      | .file place =>
        let bytes := ((m.content place).drop f.offset).take count
        .answer (.ok (Octets.ofBytes bytes)) (m.setOffset handle f (f.offset + bytes.length))
      | .directory _ => .answer (.error .isDirectory) m
      | .device _ .zeros | .device _ .full =>
        .answer (.ok (List.replicate count (Octets.byte 0))) m
      | .device _ _ => .answer (.ok []) m
      | .pipeIn _ => .answer (.error .badDescriptor) m
      | .pipeOut id =>
        let pipe := m.pipe id
        if 0 < pipe.size then
          let (bytes, pipe) := pipe.take count
          .answer (.ok bytes) (m.setPipe id pipe)
        else if m.hasWriter id then
          if p.isInterrupted then .answer (.error .interrupted) m else .blocked
        else .answer (.ok []) m

/-- Some bytes put into a content from a place on. -/
def overwritten (content bytes : List UInt8) (offset : Nat) : List UInt8 :=
  content.take offset ++ List.replicate (offset - content.length) 0 ++ bytes
    ++ content.drop (offset + bytes.length)

def write (m : Machine) (p : Process) (descriptor : Nat) (bytes : Octets) :
    Response (Except HostError Nat) :=
  match m.openFile? p descriptor with
  | none => .answer (.error .badDescriptor) m
  | some (handle, f) =>
    if !f.writes then .answer (.error .badDescriptor) m
    else
      match f.target with
      | .file place =>
        let content := m.content place
        let offset := if f.appends then content.length else f.offset
        let m := m.setContent place (overwritten content bytes.toBytes offset)
        .answer (.ok bytes.length) (m.setOffset handle f (offset + bytes.length))
      | .directory _ => .answer (.error .isDirectory) m
      | .device _ .full => .answer (.error .noSpace) m
      | .device _ _ => .answer (.ok bytes.length) m
      | .pipeOut _ => .answer (.error .badDescriptor) m
      | .pipeIn id =>
        if !m.hasReader id then
          let after := m.signal p.id 13 true
          if after.isRunning p.id then .answer (.error .brokenPipe) after else .gone after
        else
          let pipe := m.pipe id
          let room :=
            if m.drained.contains id then bytes.length else Pipe.capacity - pipe.size
          if bytes.length ≤ room ∨ Pipe.whole < bytes.length ∧ 0 < room then
            let part := bytes.take room
            .answer (.ok part.length) (m.setPipe id (pipe.put part))
          else .blocked

/-- Opens a thing under the lowest free descriptor. -/
def openTarget (m : Machine) (p : Process) (target : Target) (use : OpenUse) :
    Response (Except HostError Nat) :=
  let (handle, m) := m.fresh
  let descriptor := p.freeFrom 0
  let f : OpenFile := ⟨target, use.reads, use.writes, use.appends, 0⟩
  let m := { m with openFiles := (handle, f) :: m.openFiles }
  .answer (.ok descriptor) (m.update p.id fun p => p.attach descriptor handle false)

/-- Opens what is open under a descriptor once more. -/
def reopen (m : Machine) (p : Process) (descriptor : Nat) (use : OpenUse) :
    Response (Except HostError Nat) :=
  match m.openFile? p descriptor with
  | none => .answer (.error .noEntry) m
  | some (_, f) =>
    match f.target with
    | .file place =>
      let m := if use.truncates then m.setContent place [] else m
      m.openTarget p f.target use
    | .directory _ =>
      if use.writes then .answer (.error .isDirectory) m else m.openTarget p f.target use
    | .device .. => m.openTarget p f.target use
    | .pipeIn id | .pipeOut id =>
      m.openTarget p (if use.writes then .pipeIn id else .pipeOut id) use

def openAt (m : Machine) (p : Process) (path : Octets) (use : OpenUse) :
    Response (Except HostError Nat) :=
  let located :=
    if use.creates then m.files.locateNew p.directory path
    else m.files.locate p.directory true path
  match located with
  | .error e => .answer (.error e) m
  | .ok (place, none) =>
    if use.creates then (m.setContent place []).openTarget p (.file place) use
    else .answer (.error .noEntry) m
  | .ok (place, some node) =>
    if use.fresh then .answer (.error .alreadyThere) m
    else
      match node.entry with
      | .directory =>
        if use.writes ∨ use.creates then .answer (.error .isDirectory) m
        else m.openTarget p (.directory place) use
      | .file _ =>
        let m := if use.truncates then m.setContent place [] else m
        m.openTarget p (.file place) use
      | .program _ =>
        if use.writes then .answer (.error .denied) m else m.openTarget p (.file place) use
      | .link _ => .answer (.error .tooManyLinks) m
      | .device (.descriptor n) => m.reopen p n use
      | .device .terminal => .answer (.error .noSuchDevice) m
      | .device d => m.openTarget p (.device place d) use

/-- The status of what stands at a place. -/
def statusOf (place : Place) (node : Node) : FileStatus :=
  let status (kind : FileKind) (identity : Target) (size : Nat) (runnable : Bool) : FileStatus :=
    ⟨kind, identity, size, node.modified, node.mode, runnable, 0⟩
  match node.entry with
  | .directory => status .directory (.directory place) 4096 true
  | .file content => status .regular (.file place) content.length false
  | .program _ => status .regular (.file place) 125000 true
  | .link target => status .link (.file place) target.length true
  | .device d => status .character (.device place d) 0 false

def openStatus (m : Machine) (p : Process) (descriptor : Nat) : Except HostError FileStatus :=
  match m.openFile? p descriptor with
  | none => .error .badDescriptor
  | some (_, f) =>
    match f.target with
    | .file place | .directory place | .device place _ =>
      match m.files.node? place with
      | some node => .ok { statusOf place node with offset := f.offset }
      | none => .error .badDescriptor
    | .pipeIn id | .pipeOut id => .ok ⟨.pipe, .pipeIn id, 0, m.now, 0, false, 0⟩

def statusAt (m : Machine) (p : Process) (path : Octets) (follow : Bool) :
    Except HostError FileStatus :=
  match m.files.find p.directory follow path with
  | .error e => .error e
  | .ok (place, node) =>
    match node.entry with
    | .device (.descriptor n) =>
      match m.openStatus p n with
      | .ok status =>
        .ok (if follow then status else ⟨.link, .file place, 64, m.now, 0, true, 0⟩)
      | .error _ => .error .noEntry
    | _ => .ok (statusOf place node)

def listing (m : Machine) (p : Process) (path : Octets) : Except HostError (List Octets) := do
  let place ← m.files.enter p.directory path
  return ['.'] :: ['.', '.'] :: m.files.namesIn place

/-- Gives the file at a path a time. -/
def setTime (m : Machine) (p : Process) (path : Octets) (time : FileTime) :
    Except HostError Unit × Machine :=
  match m.files.find p.directory true path with
  | .error e => (.error e, m)
  | .ok (place, node) =>
    let modified :=
      match time with
      | .now => m.now
      | .at t => t
      | .same => node.modified
    if place.isEmpty then (.ok (), m)
    else (.ok (), { m with files := m.files.put place { node with modified := modified } })

/-- Ends the time of a child as one that is waited for. -/
def wait (m : Machine) (p : Process) (patience : Patience) : Response Waited :=
  let children := m.processes.filter fun c => c.parent = p.id
  let ended := children.findSome? fun c => c.finished.map fun status => (c.id, status)
  match ended with
  | some (id, status) =>
    .answer (.child id status) { m with processes := m.processes.filter fun c => c.id ≠ id }
  | none =>
    if children.isEmpty then .answer .noChild m
    else
      match patience with
      | .none => .answer .noneYet m
      | .endless => .blocked
      | .untilSignal => if p.isInterrupted then .answer .interrupted m else .blocked

/-- The program at a path. What is there but is no program may not be run. -/
def programAt (m : Machine) (directory : Place) (path : Octets) : Except HostError Program := do
  match (← m.files.find directory true path).2.entry with
  | .program program => return program
  | _ => throw .denied

/-! ## Ports -/

/-- A request to the server at a port: what its client makes of it. -/
def reach (m : Machine) (port : Nat) (words : List String) : Except String Reply × Machine :=
  match m.network, m.services.lookup port with
  | .isolated, _ => (.error HostError.unreachable.message, m)
  | .connected, none => (.error HostError.refused.message, m)
  | .connected, some id =>
    let (reply, store) := SetProgram.exchange ((m.stores.lookup id).getD .empty) words
    (reply, { m with stores := putAt id store m.stores })

/-- A session with a new server of sets. -/
def session (m : Machine) (visits : List Wire.Visit) : Except String (List Wire.Answer) :=
  match m.network with
  | .connected => .ok (Wire.session .empty visits)
  | .isolated => Wire.sessionWithout HostError.unreachable.message visits

/-! ## Steps -/

/-- The most bytes that one text for a program can have, and all of them together, each with
its end and its address. -/
def longestText : Nat := 131072

def mostText : Nat := 2097152

/-- Whether a program can be given these arguments and variables. -/
def isFitting (arguments : List Octets) (environment : List (Octets × Octets)) : Bool :=
  let sizes := arguments.map (fun a => a.length + 1) ++
    environment.map fun (name, value) => name.length + value.length + 2
  sizes.all (fun n => decide (n ≤ longestText)) &&
    decide (sizes.foldl (fun sum n => sum + n + 8) 0 ≤ mostText)

/-- Puts a program in the place of what a process does. -/
def execute (m : Machine) (load : Call → Activity) (p : Process) (path : Octets)
    (arguments : List Octets) (environment : List (Octets × Octets)) : Response HostError :=
  match m.programAt p.directory path with
  | .error e => .answer e m
  | .ok program =>
    if !isFitting arguments environment then .answer .tooLarge m else
    let begin (p : Process) : Process :=
      { p with
        activity := load ⟨program, arguments, environment⟩
        ready := m.clock + 800
        descriptors := p.descriptors.filter fun d => !d.2.passing
        dispositions := p.dispositions.filter fun d => d.2 = .ignore
        caught := [] }
    let passing := p.descriptors.filter fun d => d.2.passing
    .gone ((m.update p.id begin).release (passing.map (·.2.handle)))

/-- The answer to a request of a process. -/
def respond (m : Machine) (load : Call → Activity) (p : Process) :
    (request : Request) → Response request.Answer
  | .read descriptor count => m.read p descriptor count
  | .write descriptor bytes => m.write p descriptor bytes
  | .openFile path use => m.openAt p path use
  | .close descriptor =>
    let handle := p.handle? descriptor
    .answer handle.isSome ((m.update p.id fun p => p.close descriptor).release handle.toList)
  | .duplicate descriptor least =>
    match p.handle? descriptor with
    | none => .answer (.error .badDescriptor) m
    | some handle =>
      let number := p.freeFrom least
      .answer (.ok number) (m.update p.id fun p => p.attach number handle true)
  | .duplicateTo descriptor number =>
    match p.handle? descriptor with
    | none => .answer (.error .badDescriptor) m
    | some handle =>
      if descriptor = number then .answer (.ok ()) m
      else
        .answer (.ok ()) ((m.update p.id fun p => p.attach number handle false).release
          (p.handle? number).toList)
  | .pipe =>
    let (id, m) := m.fresh
    let (out, m) := m.fresh
    let (into, m) := m.fresh
    let first := p.freeFrom 0
    let second := p.freeFrom (first + 1)
    let m := { m with
      pipes := (id, .empty) :: m.pipes
      openFiles := (out, ⟨.pipeOut id, true, false, false, 0⟩) ::
        (into, ⟨.pipeIn id, false, true, false, 0⟩) :: m.openFiles }
    .answer (first, second)
      (m.update p.id fun p => (p.attach first out false).attach second into false)
  | .status path follow => .answer (m.statusAt p path follow) m
  | .openStatus descriptor => .answer (m.openStatus p descriptor) m
  | .list path => .answer (m.listing p path) m
  | .enter path =>
    match m.files.enter p.directory path with
    | .error e => .answer (.error e) m
    | .ok place => .answer (.ok ()) (m.update p.id fun p => { p with directory := place })
  | .directory => .answer p.directory.path m
  | .setTime path time =>
    let (answer, m) := m.setTime p path time
    .answer answer m
  | .signal id number =>
    match m.process? id with
    | none => .answer (.error .noProcess) m
    | some _ => .answer (.ok ()) (m.signal id number (id = p.id))
  | .handle number disposition =>
    .answer (p.disposition number) (m.update p.id fun p => p.setDisposition number disposition)
  | .caught =>
    if p.caught.isEmpty then .answer [] m
    else .answer p.caught (m.update p.id fun p => { p with caught := [] })
  | .wait patience => m.wait p patience
  | .pause _ => .blocked
  | .execute path arguments environment => m.execute load p path arguments environment
  | .identity => .answer (p.id, p.parent) m
  | .mask new =>
    .answer p.mask (m.update p.id fun p => { p with mask := new.getD p.mask })
  | .time => .answer m.now m
  | .serve port =>
    if (m.services.lookup port).isSome then .answer (.error .addressInUse) m
    else .answer (.ok ()) { m with services := (port, p.id) :: m.services }
  | .reach port words =>
    let (answer, m) := m.reach port words
    .answer answer m

/-- How long the answer to a request takes, in microseconds. -/
def duration : Request → Nat
  | .caught | .wait _ => 4
  | .read .. | .write .. | .openFile .. | .pipe => 10
  | .signal .. => 20
  | .reach .. => 1000
  | _ => 5

/-- How long it takes until a new process goes on, and until the one that started it does. -/
def childDelay : Nat := 400

def parentDelay : Nat := 200

/-- A process like another one, with an activity of its own. -/
def child (m : Machine) (p : Process) (id : Nat) (activity : Activity) : Process :=
  { p with
    id := id, parent := p.id, activity := activity, ready := m.clock + childDelay
    isAsleep := false, caught := [] }

/-- Lets a process go on by one request, or sleep until it can. -/
def step (m : Machine) (load : Call → Activity) (p : Process) : Machine :=
  let before := m
  let m := { m with clock := max m.clock p.ready }
  match p.activity with
  | .ended status => m.finish p.id status
  | .fork activity next =>
    let (id, m) := m.fresh
    let m := m.update p.id fun p =>
      { p with activity := next id, ready := m.clock + parentDelay }
    { m with processes := m.processes ++ [m.child p id activity] }
  | .ask (.pause (some time)) next =>
    m.update p.id fun p => { p with activity := next (), ready := m.clock + time }
  | .ask request next =>
    match m.respond load p request with
    | .answer a m =>
      m.update p.id fun p => { p with activity := next a, ready := m.clock + duration request }
    | .blocked => before.update p.id fun p => { p with isAsleep := true }
    | .gone m => m

/-- The first of two processes that goes on. -/
def earlier (p q : Process) : Process :=
  if q.ready < p.ready ∨ q.ready = p.ready ∧ q.id < p.id then q else p

/-- The process that goes on next: the one that was ready first. -/
def next? (m : Machine) (limit : Option Nat) : Option Process :=
  let isDue (p : Process) : Bool :=
    p.finished.isNone && !p.stopped && !p.isAsleep &&
      (limit.map fun t => decide (p.ready ≤ t)).getD true
  m.processes.foldl (fun first p =>
    if !isDue p then first
    else some ((first.map fun q => earlier q p).getD p)) none

/-- Lets processes go on, at most up to a time, until something is the case or nothing more
happens. -/
def runWhile (load : Call → Activity) (limit : Option Nat) (goesOn : Machine → Bool) :
    Nat → Machine → Machine
  | 0, m => m
  | fuel + 1, m =>
    if !goesOn m then m
    else
      match m.next? limit with
      | some p => runWhile load limit goesOn fuel (m.step load p)
      | none => { m with clock := max m.clock (limit.getD 0) }

/-- The most steps that are done at a time. -/
def patience : Nat := 100000000

end Machine

end Transcript.Host

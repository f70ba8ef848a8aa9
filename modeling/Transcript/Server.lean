-- The server of a run: started once before the cases, given a pause to come up, and
-- stopped once after them, whatever became of the cases. A server that does not stop
-- when asked is killed. How stopping it went never changes the result of the run.
import Transcript.Process

namespace Transcript

/-! ## The host -/

/-- What waiting for a process with a limit gives. -/
inductive Awaited where
  | ended (status : ExitStatus)
  | failed (reason : String)
  | tooLate
deriving DecidableEq

/-- What the host does for the server process. Each answer may depend on everything that
was done before. -/
structure ServerHost (σ : Type) where
  /-- Starts a program with arguments in a directory. -/
  spawn : String → List String → Option String → σ → Except String Unit × σ
  /-- Lets this many milliseconds pass. -/
  pause : Nat → σ → σ
  /-- Asks whether the process has ended. -/
  poll : σ → Except String (Option ExitStatus) × σ
  /-- Asks the process to end. -/
  requestStop : σ → σ
  /-- Waits this many milliseconds for the process to end. -/
  await : Nat → σ → Awaited × σ
  /-- Kills the process and waits for its end. -/
  kill : σ → Except String Unit × σ
  /-- Kills the process without waiting. -/
  killAtOnce : σ → σ

/-! ## Start -/

namespace ServerHost

variable {σ : Type} (host : ServerHost σ)

/-- Lets go of the process: one that still runs is killed. -/
def release (s : σ) : σ :=
  match host.poll s with
  | (.ok none, s) => host.killAtOnce s
  | (_, s) => s

/-- Waits out the warm-up. A process that ended well in it may have left a server behind;
one that ended badly has not. -/
def warmUp (settings : ServerSettings) (s : σ) : Except Failure Unit × σ :=
  match host.poll (host.pause settings.warmup s) with
  | (.error reason, s) => (.error (.host reason), host.release s)
  | (.ok none, s) => (.ok (), s)
  | (.ok (some status), s) =>
    if status.succeeded then (.ok (), s)
    else
      (.error (.serverStart
        ("'" ++ settings.command ++ "' exited during warm-up (" ++ status.message ++ ")")),
        host.release s)

/-- Starts the server and waits out its warm-up. -/
def start (settings : ServerSettings) (s : σ) : Except Failure Unit × σ :=
  match Words.ofCommand settings.command with
  | .error fault =>
    (.error (.serverStart ("'" ++ settings.command ++ "': " ++ fault.toFailure.message)), s)
  | .ok words =>
    match host.spawn (words.headD "") words.tail settings.directory s with
    | (.error reason, s) =>
      (.error (.serverStart ("Failed to start '" ++ settings.command ++ "': " ++ reason)), s)
    | (.ok (), s) => host.warmUp settings s

/-! ## Stop -/

/-- Asks the process to end, waits, and kills it when it does not end in time. -/
def shutDown (grace : Nat) (s : σ) : Except Failure Unit × σ :=
  match host.await grace (host.requestStop s) with
  | (.ended _, s) => (.ok (), s)
  | (.failed reason, s) => (.error (.serverStop reason), s)
  | (.tooLate, s) =>
    let (result, s) := host.kill s
    (result.mapError .serverStop, s)

/-- Ends the process unless it has ended already. -/
def terminate (grace : Nat) (s : σ) : Except Failure Unit × σ :=
  match host.poll s with
  | (.error reason, s) => (.error (.host reason), s)
  | (.ok (some _), s) => (.ok (), s)
  | (.ok none, s) => host.shutDown grace s

/-- Stops the server. -/
def stop (settings : ServerSettings) (s : σ) : Except Failure Unit × σ :=
  let (result, s) := host.terminate settings.grace s
  (result, host.release s)

end ServerHost

/-! ## A whole replay -/

/-- What came of a replay: its summary or why it did not start, what its observers were
told, and the state it left. -/
structure Replay (σ : Type) where
  result : Except Failure Summary
  events : List Event
  state : σ

/-- Starts the server, runs the corpus and stops the server. -/
def Corpus.replay {σ : Type} (corpus : Corpus) (host : ServerHost σ) (settings : ServerSettings)
    (execute : Executor σ) (s : σ) : Replay σ :=
  match host.start settings s with
  | (.error failure, s) => ⟨.error failure, [.runStarted corpus.size], s⟩
  | (.ok (), s) =>
    let p := corpus.run execute s
    let (_, s) := host.stop settings p.state
    let summary := p.summary corpus
    ⟨.ok summary, .runStarted corpus.size :: p.events ++ [.runFinished summary], s⟩

/-- The host whose state is the first part of a larger one. -/
def ServerHost.onFirst {σ τ : Type} (host : ServerHost σ) : ServerHost (σ × τ) where
  spawn program arguments directory s :=
    let (answer, t) := host.spawn program arguments directory s.1
    (answer, t, s.2)
  pause ms s := (host.pause ms s.1, s.2)
  poll s :=
    let (answer, t) := host.poll s.1
    (answer, t, s.2)
  requestStop s := (host.requestStop s.1, s.2)
  await ms s :=
    let (answer, t) := host.await ms s.1
    (answer, t, s.2)
  kill s :=
    let (answer, t) := host.kill s.1
    (answer, t, s.2)
  killAtOnce s := (host.killAtOnce s.1, s.2)

/-! ## Recording -/

/-- What passed between a replay and the system: what was asked of it, with its answer. -/
inductive Contact where
  | spawn (answer : Except String Unit)
  | pause (milliseconds : Nat)
  | poll (answer : Except String (Option ExitStatus))
  | requestStop
  | await (milliseconds : Nat) (answer : Awaited)
  | kill (answer : Except String Unit)
  | killAtOnce
  | execute (command : String) (answer : Except Failure String)

/-- The host that also keeps what was asked of it and what it answered, in order. -/
def ServerHost.logged {σ : Type} (host : ServerHost σ) : ServerHost (σ × List Contact) where
  spawn program arguments directory s :=
    let (answer, t) := host.spawn program arguments directory s.1
    (answer, t, s.2 ++ [.spawn answer])
  pause ms s := (host.pause ms s.1, s.2 ++ [.pause ms])
  poll s :=
    let (answer, t) := host.poll s.1
    (answer, t, s.2 ++ [.poll answer])
  requestStop s := (host.requestStop s.1, s.2 ++ [.requestStop])
  await ms s :=
    let (answer, t) := host.await ms s.1
    (answer, t, s.2 ++ [.await ms answer])
  kill s :=
    let (answer, t) := host.kill s.1
    (answer, t, s.2 ++ [.kill answer])
  killAtOnce s := (host.killAtOnce s.1, s.2 ++ [.killAtOnce])

/-- The executor that keeps its commands and their answers in the same log. -/
def Executor.logged {σ : Type} (execute : Executor σ) : Executor (σ × List Contact) :=
  fun command (state, log) =>
    let (answer, state) := execute command state
    (answer, state, log ++ [.execute command answer])

end Transcript

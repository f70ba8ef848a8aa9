-- Commands as processes. What a process gives is taken as it is: only one that ended
-- well and wrote a text has an output, and that text is its output to the byte.
import Transcript.Run
import Transcript.Settings

namespace Transcript

/-! ## How a process ends -/

/-- How a process ended: with a code of its own, or by a signal. -/
inductive ExitStatus where
  | code (n : Nat)
  /-- Its memory may have been kept in a file. -/
  | signal (n : Nat) (dumped : Bool)
deriving DecidableEq

namespace ExitStatus

def succeeded (s : ExitStatus) : Bool := s = .code 0

/-- The names of the signals from 1 on. -/
def signalNames : List String :=
  ["SIGHUP", "SIGINT", "SIGQUIT", "SIGILL", "SIGTRAP", "SIGABRT", "SIGBUS", "SIGFPE", "SIGKILL",
    "SIGUSR1", "SIGSEGV", "SIGUSR2", "SIGPIPE", "SIGALRM", "SIGTERM", "SIGSTKFLT", "SIGCHLD",
    "SIGCONT", "SIGSTOP", "SIGTSTP", "SIGTTIN", "SIGTTOU", "SIGURG", "SIGXCPU", "SIGXFSZ",
    "SIGVTALRM", "SIGPROF", "SIGWINCH", "SIGIO", "SIGPWR", "SIGSYS"]

def message : ExitStatus → String
  | .code n => "exit status: " ++ toString n
  | .signal n dumped =>
    "signal: " ++ toString n ++
      (match signalNames[n - 1]? with
        | some name => " (" ++ name ++ ")"
        | none => "") ++
      if dumped then " (core dumped)" else ""

end ExitStatus

/-! ## What a command gives -/

/-- What came of a command: it did not start, or it ended and had written this. -/
inductive ProcessOutcome where
  | notStarted (reason : String)
  | ended (status : ExitStatus) (stdout stderr : List UInt8)
deriving DecidableEq

/-- The output of a command, from what came of its process. -/
def ProcessOutcome.answer (program : String) : ProcessOutcome → Except CommandFailure String
  | .notStarted reason => .error (.notStarted program reason)
  | .ended (.signal ..) _ stderr => .error (.signaled (String.ofList (Text.decodeLossy stderr)))
  | .ended (.code n) stdout stderr =>
    if n = 0 then
      match Text.decodeUtf8 stdout with
      | .ok text => .ok (String.ofList text)
      | .error fault => .error (.notText fault.message)
    else .error (.exitCode n (String.ofList (Text.decodeLossy stderr)))

/-- Starts a program with arguments as a process and waits for its end. -/
abbrev Launcher (σ : Type) := ClientSettings → String → List String → σ → ProcessOutcome × σ

/-- The executor that runs each command as a process of its own. -/
def Launcher.executor {σ : Type} (launch : Launcher σ) (settings : ClientSettings) : Executor σ :=
  fun command state =>
    match Words.ofCommand command with
    | .error fault => (.error (.execution command fault.toFailure), state)
    | .ok [] => (.error (.execution command .emptyCommand), state)
    | .ok (program :: arguments) =>
      let (outcome, state) := launch settings program arguments state
      ((outcome.answer program).mapError (.execution command), state)

end Transcript

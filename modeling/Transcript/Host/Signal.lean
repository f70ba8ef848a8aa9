-- Signals by their numbers: their names, the words for what they do to a process, and what
-- becomes of a process that has no plan of its own for them.
import Transcript.Host.Octets

namespace Transcript.Host.Signal

/-- The names of the signals from 1 on. -/
def names : List String :=
  ["HUP", "INT", "QUIT", "ILL", "TRAP", "ABRT", "BUS", "FPE", "KILL", "USR1", "SEGV", "USR2", "PIPE",
    "ALRM", "TERM", "STKFLT", "CHLD", "CONT", "STOP", "TSTP", "TTIN", "TTOU", "URG", "XCPU", "XFSZ",
    "VTALRM", "PROF", "WINCH", "IO", "PWR", "SYS"]

/-- The count of numbers that a signal can have, with those that have no names. -/
def limit : Nat := 65

/-- The words for the signals from 1 on. -/
def phrases : List String :=
  ["Hangup", "Interrupt", "Quit", "Illegal instruction", "Trace/breakpoint trap", "Aborted",
    "Bus error", "Floating point exception", "Killed", "User defined signal 1",
    "Segmentation fault", "User defined signal 2", "Broken pipe", "Alarm clock", "Terminated",
    "Stack fault", "Child exited", "Continued", "Stopped (signal)", "Stopped",
    "Stopped (tty input)", "Stopped (tty output)", "Urgent I/O condition",
    "CPU time limit exceeded", "File size limit exceeded", "Virtual timer expired",
    "Profiling timer expired", "Window changed", "I/O possible", "Power failure",
    "Bad system call"]

def phrase (number : Nat) : String :=
  match phrases[number - 1]? with
  | some p => p
  | none =>
    if 34 ≤ number then "Real-time signal " ++ toString (number - 34)
    else "Unknown signal " ++ toString number

/-! ## Effects -/

/-- What a signal does to a process without a plan for it. -/
inductive Effect where
  | terminate
  | ignore
  | stop
deriving DecidableEq

def effect (number : Nat) : Effect :=
  if number = 17 ∨ number = 18 ∨ number = 23 ∨ number = 28 then .ignore
  else if number = 19 ∨ number = 20 ∨ number = 21 ∨ number = 22 then .stop
  else .terminate

/-- A process can neither ignore nor catch this signal. -/
def isSure (number : Nat) : Bool := number = 9 || number = 19

end Transcript.Host.Signal

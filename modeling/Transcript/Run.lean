-- A run: the cases of a corpus in order, each judged before the next is run, and
-- none after the first that fails. What answers a command may change with every
-- command, so the cases of a run are never taken out of order.
import Transcript.Divergence

namespace Transcript

/-! ## Where a run stands -/

/-- Where a run stands. -/
inductive Phase where
  | notStarted
  | serverUp
  | running (index : Nat)
  | passed
  | failed
deriving DecidableEq

namespace Phase

def isTerminal : Phase → Bool
  | .passed | .failed => true
  | _ => false

/-- The first case, or the end of a corpus without cases. -/
def begin (total : Nat) : Phase := if total = 0 then .passed else .running 0

/-- The case after one that passed, or the end. -/
def afterPass (total : Nat) : Phase → Phase
  | .running i => if i + 1 < total then .running (i + 1) else .passed
  | other => other

def name : Phase → String
  | .notStarted => "not_started"
  | .serverUp => "server_up"
  | .running _ => "running"
  | .passed => "passed"
  | .failed => "failed"

end Phase

/-! ## Results -/

/-- What is told of the failure that ended a run. There is an actual output only where
the command gave one. -/
structure FailureReport where
  kind : String
  message : String
  command : String
  actual : Option String
  expected : String
deriving DecidableEq

/-- The output that a failure is about. -/
def Failure.actual? : Failure → Option String
  | .mismatch _ actual _ => some actual
  | _ => none

def FailureReport.of (case : Case) (failure : Failure) : FailureReport where
  kind := failure.kind.name
  message := failure.message
  command := case.command
  actual := failure.actual?
  expected := case.expected

/-- How a run ended. The cases run include the one that failed. -/
structure Summary where
  passed : Bool
  phase : Phase
  casesRun : Nat
  casesTotal : Nat
  failure : Option FailureReport
deriving DecidableEq

/-- The exit code of a run. -/
def Summary.exitCode (s : Summary) : Nat := if s.passed then 0 else 1

/-! ## Events -/

/-- What an observer of a run is told, in order. -/
inductive Event where
  | runStarted (total : Nat)
  | caseStarted (index : Nat) (case : Case)
  | casePassed (index : Nat) (case : Case)
  | caseFailed (index : Nat) (case : Case) (failure : Failure)
  | runFinished (summary : Summary)
deriving DecidableEq

/-! ## The loop -/

/-- Answers a command with its output or a failure, and moves on to its next state. -/
abbrev Executor (σ : Type) := String → σ → Except Failure String × σ

/-- A run under way: its phase, the cases run, the failure that ended it, the state of
what answers the commands, and the events so far. -/
structure Progress (σ : Type) where
  phase : Phase
  casesRun : Nat
  failure : Option FailureReport
  state : σ
  events : List Event

namespace Progress

variable {σ : Type}

/-- A run with its server up. -/
def start (corpus : Corpus) (state : σ) : Progress σ where
  phase := .begin corpus.size
  casesRun := 0
  failure := none
  state := state
  events := []

/-- The output of a case, if it is the expected one. -/
def outcome (case : Case) (answer : Except Failure String) : Except Failure Unit :=
  match answer with
  | .ok actual => case.judge actual
  | .error failure => .error failure

/-- Runs and judges one case. -/
def runCase (total index : Nat) (case : Case) (execute : Executor σ) (p : Progress σ) :
    Progress σ :=
  let (answer, state) := execute case.command p.state
  match outcome case answer with
  | .ok () =>
    { phase := p.phase.afterPass total
      casesRun := p.casesRun + 1
      failure := p.failure
      state := state
      events := p.events ++ [.caseStarted index case, .casePassed index case] }
  | .error failure =>
    { phase := .failed
      casesRun := p.casesRun + 1
      failure := some (.of case failure)
      state := state
      events := p.events ++ [.caseStarted index case, .caseFailed index case failure] }

/-- One turn of the loop: the case whose turn it is, nothing once the run has ended. -/
def step (corpus : Corpus) (execute : Executor σ) (p : Progress σ) : Progress σ :=
  match p.phase with
  | .running index =>
    match corpus.cases[index]? with
    | some case => p.runCase corpus.size index case execute
    | none => p
  | _ => p

/-- At most this many turns. -/
def advance (corpus : Corpus) (execute : Executor σ) : Nat → Progress σ → Progress σ
  | 0, p => p
  | turns + 1, p =>
    if p.phase.isTerminal then p else advance corpus execute turns (p.step corpus execute)

def summary (corpus : Corpus) (p : Progress σ) : Summary where
  passed := p.phase = .passed
  phase := p.phase
  casesRun := p.casesRun
  casesTotal := corpus.size
  failure := p.failure

end Progress

/-- Runs a corpus: a turn a case is always enough. -/
def Corpus.run {σ : Type} (corpus : Corpus) (execute : Executor σ) (state : σ) : Progress σ :=
  (Progress.start corpus state).advance corpus execute corpus.size

/-! ## Recording -/

/-- The executor that also keeps the commands given to it, in order. -/
def Executor.recording {σ : Type} (execute : Executor σ) : Executor (σ × List String) :=
  fun command (state, commands) =>
    let (answer, state) := execute command state
    (answer, state, commands ++ [command])

/-- An executor that gives fixed answers in order, and a failure when they run out. -/
def Executor.scripted : Executor (List (String → Except Failure String)) := fun command answers =>
  match answers with
  | [] => (.error (.execution command (.exitCode 127 "no reply")), [])
  | answer :: rest => (answer command, rest)

end Transcript

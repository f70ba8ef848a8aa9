-- The processes of a replay. A system can keep, beside its state, which processes it was asked
-- to start and what came of them; to keep this changes nothing. After a replay whose server came
-- up it holds the server and then, in order, the process of each command that was run, and a
-- run has passed exactly if every case has one that ended well with just the expected output.
import Mathlib.Data.List.Forall2
import Transcript.Proofs.Run.Composition
import Transcript.Proofs.Run.Events
import Transcript.Proofs.Run.Log
import Transcript.Proofs.Run.Verdict
import Transcript.System

namespace Transcript

variable {σ : Type}

/-! ## Keeping the processes -/

/-- A process that was to be started: the server, or that of a command with what came of it. -/
inductive ProcessStart where
  | server (program : String) (arguments : List String)
  | command (program : String) (arguments : List String) (outcome : ProcessOutcome)
deriving DecidableEq

/-- The launcher that also keeps the processes and what came of them, in order. -/
def Launcher.recording (launch : Launcher σ) : Launcher (σ × List ProcessStart) :=
  fun settings program arguments (s, starts) =>
    let (outcome, s) := launch settings program arguments s
    (outcome, s, starts ++ [.command program arguments outcome])

/-- The host that also keeps the servers that it was asked to spawn. -/
def ServerHost.recording (host : ServerHost σ) : ServerHost (σ × List ProcessStart) :=
  { host.onFirst with
    spawn := fun program arguments directory (s, starts) =>
      let (answer, s) := host.spawn program arguments directory s
      (answer, s, starts ++ [.server program arguments]) }

/-- The system that also keeps the processes that it was asked to start, in order. -/
def System.recording (system : System σ) : System (σ × List ProcessStart) where
  environment name s := system.environment name s.1
  accountHome s := system.accountHome s.1
  isThere path s := system.isThere path s.1
  readText path s := system.readText path s.1
  openLog path s := (system.openLog path s.1).map fun opened => (opened, s.2)
  launch := system.launch.recording
  server := system.server.recording

/-! ## The server -/

theorem Words.ofCommand_ne_nil (command : String) : ofCommand command ≠ .ok [] := by
  unfold ofCommand ofChars
  rcases split true (guardHashes command.toList) with fault | _ | ⟨word, words⟩
  · exact nofun
  · exact nofun
  · simp [Except.map]

namespace ServerHost

variable {τ : Type} (host : ServerHost σ)

@[simp]
theorem onFirst_requestStop (s : σ) (t : τ) :
    host.onFirst.requestStop (s, t) = (host.requestStop s, t) := rfl

@[simp]
theorem onFirst_await (ms : Nat) (s : σ) (t : τ) :
    host.onFirst.await ms (s, t) = ((host.await ms s).1, (host.await ms s).2, t) := rfl

theorem shutDown_onFirst (grace : Nat) (s : σ) (t : τ) :
    host.onFirst.shutDown grace (s, t) =
      ((host.shutDown grace s).1, (host.shutDown grace s).2, t) := by
  unfold shutDown
  rw [onFirst_requestStop, onFirst_await]
  rcases host.await grace (host.requestStop s) with ⟨status | reason | _, waited⟩ <;> rfl

theorem terminate_onFirst (grace : Nat) (s : σ) (t : τ) :
    host.onFirst.terminate grace (s, t) =
      ((host.terminate grace s).1, (host.terminate grace s).2, t) := by
  unfold terminate
  rw [onFirst_poll]
  rcases host.poll s with ⟨reason | _ | status, after⟩
  · rfl
  · exact host.shutDown_onFirst grace after t
  · rfl

/-- The end of the server leaves the rest of a larger state as it is. -/
theorem stop_onFirst (settings : ServerSettings) (s : σ) (t : τ) :
    host.onFirst.stop settings (s, t) =
      ((host.stop settings s).1, (host.stop settings s).2, t) := by
  rw [stop, terminate_onFirst]
  simp only [release_onFirst, stop]

/-- The processes that a start of the server asks for: one, if its command has words. -/
def startsOf (settings : ServerSettings) : List ProcessStart :=
  match Words.ofCommand settings.command with
  | .ok words => [.server (words.headD "") words.tail]
  | .error _ => []

/-- The server comes up as this program: it is spawned, and once the warm-up is over it still
runs or has ended well. -/
structure ComesUp (settings : ServerSettings) (program : String) (arguments : List String)
    (s : σ) : Prop where
  spawned : (host.spawn program arguments settings.directory s).1 = .ok ()
  warm :
    let spawned := (host.spawn program arguments settings.directory s).2
    let answer := (host.poll (host.pause settings.warmup spawned)).1
    answer = .ok none ∨ answer = .ok (some (.code 0))

theorem warmUp_eq_ok_iff {settings : ServerSettings} {s : σ} :
    (host.warmUp settings s).1 = .ok () ↔
      let answer := (host.poll (host.pause settings.warmup s)).1
      answer = .ok none ∨ answer = .ok (some (.code 0)) := by
  unfold warmUp
  rcases host.poll (host.pause settings.warmup s) with ⟨reason | _ | status, after⟩
  · simp
  · simp
  · by_cases h : status = .code 0 <;> simp [ExitStatus.succeeded, h]

/-- A start succeeds exactly if the command of the server has words and the server comes up. -/
theorem start_eq_ok_iff {settings : ServerSettings} {s : σ} :
    (host.start settings s).1 = .ok () ↔ ∃ program arguments,
      Words.ofCommand settings.command = .ok (program :: arguments) ∧
        host.ComesUp settings program arguments s := by
  unfold start
  rcases hwords : Words.ofCommand settings.command with fault | _ | ⟨program, arguments⟩
  · simp
  · exact absurd hwords (Words.ofCommand_ne_nil _)
  · simp only [List.headD_cons, List.tail_cons]
    rcases hspawn : host.spawn program arguments settings.directory s with ⟨reason | ⟨⟩, up⟩
    · constructor
      · exact nofun
      · rintro ⟨_, _, ⟨⟩, ⟨hspawned, -⟩⟩
        rw [hspawn] at hspawned
        cases hspawned
    · dsimp only
      rw [warmUp_eq_ok_iff]
      constructor
      · intro hwarm
        exact ⟨program, arguments, rfl, by rw [hspawn], by rw [hspawn]; exact hwarm⟩
      · rintro ⟨_, _, ⟨⟩, ⟨-, hwarm⟩⟩
        rw [hspawn] at hwarm
        exact hwarm

@[simp]
theorem recording_spawn (program : String) (arguments : List String) (directory : Option String)
    (s : σ) (starts : List ProcessStart) :
    host.recording.spawn program arguments directory (s, starts) =
      ((host.spawn program arguments directory s).1,
        (host.spawn program arguments directory s).2,
        starts ++ [.server program arguments]) := rfl

theorem start_recording (settings : ServerSettings) (s : σ) (starts : List ProcessStart) :
    host.recording.start settings (s, starts) =
      ((host.start settings s).1, (host.start settings s).2, starts ++ startsOf settings) := by
  unfold start startsOf
  rcases Words.ofCommand settings.command with fault | words
  · simp
  · dsimp only
    rw [recording_spawn]
    rcases host.spawn (words.headD "") words.tail settings.directory s with ⟨reason | ⟨⟩, up⟩
    · rfl
    · exact host.warmUp_onFirst settings up _

theorem stop_recording (settings : ServerSettings) (s : σ) (starts : List ProcessStart) :
    host.recording.stop settings (s, starts) =
      ((host.stop settings s).1, (host.stop settings s).2, starts) :=
  host.stop_onFirst settings s starts

end ServerHost

/-! ## The commands -/

namespace Launcher

variable (launch : Launcher σ) (settings : ClientSettings)

/-- The processes that a command asks for: one, if it has words. -/
def startsOf (command : String) (s : σ) : List ProcessStart :=
  match Words.ofCommand command with
  | .ok (program :: arguments) =>
    [.command program arguments (launch settings program arguments s).1]
  | _ => []

/-- The processes that the commands of cases ask for, one case after the other. -/
def startsOfCases : List Case → σ → List ProcessStart
  | [], _ => []
  | case :: rest, s => launch.startsOf settings case.command s ++
      startsOfCases rest (launch.executor settings case.command s).2

theorem executor_recording (command : String) (s : σ) (starts : List ProcessStart) :
    launch.recording.executor settings command (s, starts) =
      ((launch.executor settings command s).1, (launch.executor settings command s).2,
        starts ++ launch.startsOf settings command s) := by
  unfold executor startsOf
  rcases Words.ofCommand command with fault | _ | ⟨program, arguments⟩
  · simp
  · simp
  · rfl

theorem after_recording (cases : List Case) (s : σ) (starts : List ProcessStart) :
    (launch.recording.executor settings).after cases (s, starts) =
      ((launch.executor settings).after cases s,
        starts ++ launch.startsOfCases settings cases s) := by
  induction cases generalizing s starts with
  | nil => simp [Executor.after, startsOfCases]
  | cons case rest ih =>
    have hrest := ih (launch.executor settings case.command s).2
      (starts ++ launch.startsOf settings case.command s)
    rw [List.append_assoc] at hrest
    rw [Executor.after, List.foldl_cons, executor_recording]
    exact hrest

theorem failureAt?_recording (corpus : Corpus) (s : σ) (starts : List ProcessStart) (i : Nat) :
    corpus.failureAt? (launch.recording.executor settings) (s, starts) i =
      corpus.failureAt? (launch.executor settings) s i := by
  simp [Corpus.failureAt?, after_recording, executor_recording]

end Launcher

/-! ## Runs -/

namespace Corpus

variable {corpus : Corpus}

/-- A run executes the commands of the cases that it counts. -/
theorem state_run (corpus : Corpus) (execute : Executor σ) (s : σ) :
    (corpus.run execute s).state =
      execute.after (corpus.cases.take (corpus.run execute s).casesRun) s := by
  by_cases h : ∃ j case failure, corpus.DivergesFirstAt execute s j case failure
  · obtain ⟨j, case, failure, h⟩ := h
    rw [run_of_divergesFirstAt h]
    rfl
  · rw [run_of_passes (failureAt?_eq_none_of_not_divergesFirstAt h)]
    rfl

/-- Executors whose answers to the cases are wrong in the same way make the same run. -/
theorem run_eq_withState {τ : Type} {execute : Executor σ} {other : Executor τ} {s : σ} {t : τ}
    (h : ∀ i, corpus.failureAt? other t i = corpus.failureAt? execute s i) :
    corpus.run other t = (corpus.run execute s).withState
      (other.after (corpus.cases.take (corpus.run execute s).casesRun) t) := by
  by_cases hfails : ∃ j case failure, corpus.DivergesFirstAt execute s j case failure
  · obtain ⟨j, case, failure, hfirst⟩ := hfails
    have hother : corpus.DivergesFirstAt other t j case failure :=
      { case_eq := hfirst.case_eq
        failure_eq := by rw [h, hfirst.failure_eq]
        before := fun i hi => by rw [h, hfirst.before i hi] }
    rw [run_of_divergesFirstAt hfirst, run_of_divergesFirstAt hother]
    rfl
  · have hpass := failureAt?_eq_none_of_not_divergesFirstAt hfails
    have hother : ∀ i, corpus.failureAt? other t i = none := fun i => by rw [h, hpass]
    rw [run_of_passes hpass, run_of_passes hother]
    rfl

/-- The processes of a run: those of the commands of the cases that it counts. -/
def startsOfRun (corpus : Corpus) (launch : Launcher σ) (settings : ClientSettings) (s : σ) :
    List ProcessStart :=
  launch.startsOfCases settings
    (corpus.cases.take (corpus.run (launch.executor settings) s).casesRun) s

theorem run_recording (corpus : Corpus) (launch : Launcher σ) (settings : ClientSettings) (s : σ)
    (starts : List ProcessStart) :
    corpus.run (launch.recording.executor settings) (s, starts) =
      (corpus.run (launch.executor settings) s).withState
        ((corpus.run (launch.executor settings) s).state,
          starts ++ corpus.startsOfRun launch settings s) := by
  rw [run_eq_withState (launch.failureAt?_recording settings corpus s starts),
    launch.after_recording, ← state_run]
  rfl

/-- The processes of a replay: the server, and those of the run if the server came up. -/
def startsOfReplay (corpus : Corpus) (host : ServerHost σ) (server : ServerSettings)
    (launch : Launcher σ) (client : ClientSettings) (s : σ) : List ProcessStart :=
  ServerHost.startsOf server ++
    match host.start server s with
    | (.ok (), up) => corpus.startsOfRun launch client up
    | (.error _, _) => []

theorem replay_recording (corpus : Corpus) (host : ServerHost σ) (server : ServerSettings)
    (launch : Launcher σ) (client : ClientSettings) (s : σ) (starts : List ProcessStart) :
    let plain := corpus.replay host server (launch.executor client) s
    corpus.replay host.recording server (launch.recording.executor client) (s, starts) =
      { result := plain.result
        events := plain.events
        state := (plain.state, starts ++ corpus.startsOfReplay host server launch client s) } := by
  unfold replay startsOfReplay
  rw [host.start_recording]
  rcases host.start server s with ⟨failure | ⟨⟩, up⟩
  · simp
  · simp only [run_recording, host.stop_recording, Progress.withState, List.append_assoc]
    rfl

end Corpus

/-! ## Cases that pass -/

theorem Case.failureOf?_eq_none_iff {case : Case} {answer : Except Failure String} :
    case.failureOf? answer = none ↔ answer = .ok case.expected := by
  rcases answer with failure | actual <;> simp [failureOf?]

theorem Corpus.all_pass_cons_iff (case : Case) (rest : List Case) (execute : Executor σ) (s : σ) :
    (∀ i, failureAt? ⟨case :: rest⟩ execute s i = none) ↔
      case.failureOf? (execute case.command s).1 = none ∧
        ∀ i, failureAt? ⟨rest⟩ execute (execute case.command s).2 i = none := by
  constructor
  · exact fun h => ⟨h 0, fun i => h (i + 1)⟩
  · rintro ⟨hfirst, hrest⟩ (_ | i)
    · rw [failureAt?_cons_zero]
      exact hfirst
    · rw [failureAt?_cons_succ]
      exact hrest i

/-- A process in which a case passes: it is that of the command of the case, and it ended well
with just the expected output. -/
inductive Case.PassesIn (case : Case) : ProcessStart → Prop where
  | intro {program : String} {arguments : List String} (stderr : List UInt8) :
      Words.ofCommand case.command = .ok (program :: arguments) →
      case.PassesIn (.command program arguments
        (.ended (.code 0) (Text.utf8 case.expected.toList) stderr))

namespace Launcher

variable (launch : Launcher σ) (settings : ClientSettings)

theorem length_startsOf_le (command : String) (s : σ) :
    (launch.startsOf settings command s).length ≤ 1 := by
  unfold startsOf
  split <;> simp

theorem length_startsOfCases_le (cases : List Case) (s : σ) :
    (launch.startsOfCases settings cases s).length ≤ cases.length := by
  induction cases generalizing s with
  | nil => exact Nat.le_refl 0
  | cons case rest ih =>
    have hfirst := launch.length_startsOf_le settings case.command s
    have hrest := ih (launch.executor settings case.command s).2
    rw [startsOfCases, List.length_append, List.length_cons]
    omega

/-- A case is answered as expected exactly if it passes in the one process it asks for. -/
theorem failureOf?_executor_iff (case : Case) (s : σ) :
    case.failureOf? (launch.executor settings case.command s).1 = none ↔
      ∃ start, launch.startsOf settings case.command s = [start] ∧ case.PassesIn start := by
  rw [Case.failureOf?_eq_none_iff]
  unfold executor startsOf
  rcases hwords : Words.ofCommand case.command with fault | _ | ⟨program, arguments⟩
  · simp
  · simp
  · dsimp only
    rw [mapError_eq_ok_iff, ProcessOutcome.answer_eq_ok_iff]
    constructor
    · rintro ⟨stderr, houtcome⟩
      exact ⟨_, rfl, houtcome ▸ .intro stderr hwords⟩
    · rintro ⟨start, hstart, hpasses⟩
      rw [List.singleton_inj] at hstart
      subst hstart
      generalize (launch settings program arguments s).1 = outcome at hpasses
      cases hpasses with
      | intro stderr _ => exact ⟨stderr, rfl⟩

/-- The cases all pass exactly if, in order, each passes in a process that was asked for. -/
theorem forall₂_passesIn_startsOfCases_iff (cases : List Case) (s : σ) :
    List.Forall₂ Case.PassesIn cases (launch.startsOfCases settings cases s) ↔
      ∀ i, Corpus.failureAt? ⟨cases⟩ (launch.executor settings) s i = none := by
  induction cases generalizing s with
  | nil => simp [startsOfCases, Corpus.failureAt?]
  | cons case rest ih =>
    rw [Corpus.all_pass_cons_iff, failureOf?_executor_iff, ← ih, startsOfCases]
    constructor
    · intro h
      rcases hstarts : launch.startsOf settings case.command s with _ | ⟨start, _ | _⟩
      · have hlength := h.length_eq
        have hle := launch.length_startsOfCases_le settings rest
          (launch.executor settings case.command s).2
        rw [hstarts, List.nil_append, List.length_cons] at hlength
        omega
      · rw [hstarts, List.singleton_append, List.forall₂_cons] at h
        exact ⟨⟨start, rfl, h.1⟩, h.2⟩
      · have hle := launch.length_startsOf_le settings case.command s
        rw [hstarts, List.length_cons, List.length_cons] at hle
        omega
    · rintro ⟨⟨start, hstart, hpasses⟩, hrest⟩
      rw [hstart]
      exact .cons hpasses hrest

end Launcher

/-- A run passes exactly if, in order, each of its cases passes in a process of the run. -/
theorem Corpus.forall₂_passesIn_startsOfRun_iff (corpus : Corpus) (launch : Launcher σ)
    (settings : ClientSettings) (s : σ) :
    List.Forall₂ Case.PassesIn corpus.cases (corpus.startsOfRun launch settings s) ↔
      ((corpus.run (launch.executor settings) s).summary corpus).passed = true := by
  rw [passed_run_iff]
  constructor
  · intro h
    have hall : corpus.cases.take (corpus.run (launch.executor settings) s).casesRun =
        corpus.cases := by
      have hlength := h.length_eq
      have hle := launch.length_startsOfCases_le settings
        (corpus.cases.take (corpus.run (launch.executor settings) s).casesRun) s
      rw [← startsOfRun, ← hlength, List.length_take] at hle
      exact List.take_of_length_le (by omega)
    rw [startsOfRun, hall] at h
    exact (launch.forall₂_passesIn_startsOfCases_iff settings corpus.cases s).mp h
  · intro hpass
    have hall : (corpus.run (launch.executor settings) s).casesRun = corpus.cases.length := by
      rw [run_of_passes hpass]
      rfl
    rw [startsOfRun, hall, List.take_length]
    exact (launch.forall₂_passesIn_startsOfCases_iff settings corpus.cases s).mpr hpass

end Transcript

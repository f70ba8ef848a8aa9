-- What passes between a replay and the system. To log it changes nothing, and whatever the
-- system answers, the log has one of a few shapes: one for each way through a function of the
-- server, and between its start and its end the executions of the run. A run in which the
-- answers of a log are given again is the run that was logged.
import Transcript.Server
import Transcript.Proofs.Run.Course

namespace Transcript

variable {σ : Type}

/-! ## Contacts -/

namespace Contact

def isExecution : Contact → Bool
  | .execute .. => true
  | _ => false

/-- The answer of the executor that a contact holds. -/
def answer? : Contact → Option (String → Except Failure String)
  | .execute _ answer => some fun _ => answer
  | _ => none

end Contact

/-- A check at the end of the warm-up that lets the run begin: the process still runs, or it
ended well. -/
inductive StaysUp : Except String (Option ExitStatus) → Prop where
  | running : StaysUp (.ok none)
  | launcher {status : ExitStatus} : status.succeeded = true → StaysUp (.ok (some status))

/-! ## What one function of the server asks -/

/-- Letting go: a process that still runs is killed. -/
inductive LetGo : List Contact → Prop where
  | killed : LetGo [.poll (.ok none), .killAtOnce]
  | ended (status : ExitStatus) : LetGo [.poll (.ok (some status))]
  | unknown (reason : String) : LetGo [.poll (.error reason)]

/-- The warm-up, with its result. -/
inductive WarmedUp (settings : ServerSettings) : Except Failure Unit → List Contact → Prop where
  | up {answer : Except String (Option ExitStatus)} : StaysUp answer →
      WarmedUp settings (.ok ()) [.pause settings.warmup, .poll answer]
  | ended {status : ExitStatus} {failure : Failure} {release : List Contact} :
      status.succeeded = false → LetGo release →
      WarmedUp settings (.error failure)
        (.pause settings.warmup :: .poll (.ok (some status)) :: release)
  | unknown (reason : String) {failure : Failure} {release : List Contact} : LetGo release →
      WarmedUp settings (.error failure)
        (.pause settings.warmup :: .poll (.error reason) :: release)

/-- The start of the server, with its result. -/
inductive Started (settings : ServerSettings) : Except Failure Unit → List Contact → Prop where
  | noWords {fault : WordsFault} {failure : Failure} :
      Words.ofCommand settings.command = .error fault → Started settings (.error failure) []
  | notSpawned {words : List String} (reason : String) {failure : Failure} :
      Words.ofCommand settings.command = .ok words →
      Started settings (.error failure) [.spawn (.error reason)]
  | spawned {words : List String} {result : Except Failure Unit} {warmUp : List Contact} :
      Words.ofCommand settings.command = .ok words → WarmedUp settings result warmUp →
      Started settings result (.spawn (.ok ()) :: warmUp)

/-- Ending the process. -/
inductive Terminated (grace : Nat) : List Contact → Prop where
  | unknown (reason : String) : Terminated grace [.poll (.error reason)]
  | ended (status : ExitStatus) : Terminated grace [.poll (.ok (some status))]
  | stopped (status : ExitStatus) :
      Terminated grace [.poll (.ok none), .requestStop, .await grace (.ended status)]
  | failed (reason : String) :
      Terminated grace [.poll (.ok none), .requestStop, .await grace (.failed reason)]
  | killed (answer : Except String Unit) :
      Terminated grace [.poll (.ok none), .requestStop, .await grace .tooLate, .kill answer]

namespace ServerHost

variable (host : ServerHost σ) (s : σ) (log : List Contact)

@[simp]
theorem logged_spawn (program : String) (arguments : List String) (directory : Option String) :
    host.logged.spawn program arguments directory (s, log) =
      ((host.spawn program arguments directory s).1,
        (host.spawn program arguments directory s).2,
        log ++ [.spawn (host.spawn program arguments directory s).1]) := rfl

@[simp]
theorem logged_pause (ms : Nat) :
    host.logged.pause ms (s, log) = (host.pause ms s, log ++ [.pause ms]) := rfl

@[simp]
theorem logged_poll : host.logged.poll (s, log) =
    ((host.poll s).1, (host.poll s).2, log ++ [.poll (host.poll s).1]) := rfl

@[simp]
theorem logged_requestStop :
    host.logged.requestStop (s, log) = (host.requestStop s, log ++ [.requestStop]) := rfl

@[simp]
theorem logged_await (ms : Nat) : host.logged.await ms (s, log) =
    ((host.await ms s).1, (host.await ms s).2, log ++ [.await ms (host.await ms s).1]) := rfl

@[simp]
theorem logged_kill : host.logged.kill (s, log) =
    ((host.kill s).1, (host.kill s).2, log ++ [.kill (host.kill s).1]) := rfl

@[simp]
theorem logged_killAtOnce :
    host.logged.killAtOnce (s, log) = (host.killAtOnce s, log ++ [.killAtOnce]) := rfl

theorem release_logged : ∃ release, LetGo release ∧
    host.logged.release (s, log) = (host.release s, log ++ release) := by
  unfold release
  rw [logged_poll]
  rcases host.poll s with ⟨reason | _ | status, after⟩
  · exact ⟨_, .unknown reason, rfl⟩
  · exact ⟨_, .killed, by simp⟩
  · exact ⟨_, .ended status, rfl⟩

theorem warmUp_logged (settings : ServerSettings) : ∃ warmUp,
    WarmedUp settings (host.warmUp settings s).1 warmUp ∧
      host.logged.warmUp settings (s, log) =
        ((host.warmUp settings s).1, (host.warmUp settings s).2, log ++ warmUp) := by
  unfold ServerHost.warmUp
  rw [logged_pause, logged_poll]
  rcases host.poll (host.pause settings.warmup s) with ⟨reason | _ | status, after⟩
  · obtain ⟨release, hrelease, heq⟩ := host.release_logged after
      (log ++ [.pause settings.warmup] ++ [.poll (.error reason)])
    refine ⟨_, .unknown reason hrelease, ?_⟩
    simp only [heq]
    simp
  · exact ⟨_, .up .running, by simp⟩
  · dsimp only
    by_cases hstatus : status.succeeded = true
    · rw [if_pos hstatus, if_pos hstatus]
      exact ⟨_, .up (.launcher hstatus), by simp⟩
    · rw [if_neg hstatus, if_neg hstatus]
      obtain ⟨release, hrelease, heq⟩ := host.release_logged after
        (log ++ [.pause settings.warmup] ++ [.poll (.ok (some status))])
      refine ⟨_, .ended ((Bool.not_eq_true _).mp hstatus) hrelease, ?_⟩
      simp only [heq]
      simp

theorem start_logged (settings : ServerSettings) : ∃ start,
    Started settings (host.start settings s).1 start ∧
      host.logged.start settings (s, log) =
        ((host.start settings s).1, (host.start settings s).2, log ++ start) := by
  unfold ServerHost.start
  rcases hwords : Words.ofCommand settings.command with fault | words
  · exact ⟨_, .noWords hwords, by simp⟩
  · dsimp only
    rw [logged_spawn]
    rcases host.spawn (words.headD "") words.tail settings.directory s with ⟨reason | ⟨⟩, up⟩
    · exact ⟨_, .notSpawned reason hwords, rfl⟩
    · obtain ⟨warmUp, hwarmUp, heq⟩ := host.warmUp_logged up (log ++ [.spawn (.ok ())]) settings
      refine ⟨_, .spawned hwords hwarmUp, ?_⟩
      simp only [heq]
      simp

theorem terminate_logged (grace : Nat) : ∃ ending, Terminated grace ending ∧
    host.logged.terminate grace (s, log) =
      ((host.terminate grace s).1, (host.terminate grace s).2, log ++ ending) := by
  unfold terminate
  rw [logged_poll]
  rcases host.poll s with ⟨reason | _ | status, after⟩
  · exact ⟨_, .unknown reason, rfl⟩
  · dsimp only
    unfold shutDown
    rw [logged_requestStop, logged_await]
    rcases host.await grace (host.requestStop after) with ⟨status | reason | _, waited⟩
    · exact ⟨_, .stopped status, by simp⟩
    · exact ⟨_, .failed reason, by simp⟩
    · exact ⟨_, .killed (host.kill waited).1, by simp⟩
  · exact ⟨_, .ended status, rfl⟩

theorem stop_logged (settings : ServerSettings) : ∃ ending release,
    Terminated settings.grace ending ∧ LetGo release ∧
      host.logged.stop settings (s, log) =
        ((host.stop settings s).1, (host.stop settings s).2, log ++ (ending ++ release)) := by
  obtain ⟨ending, hending, heq⟩ := host.terminate_logged s log settings.grace
  obtain ⟨release, hrelease, hreleased⟩ :=
    host.release_logged (host.terminate settings.grace s).2 (log ++ ending)
  refine ⟨ending, release, hending, hrelease, ?_⟩
  rw [stop, heq]
  simp only [hreleased, stop, List.append_assoc]

end ServerHost

/-! ## What a run asks -/

namespace Progress

variable {corpus : Corpus} {execute : Executor σ}

/-- The run with another state in its place. -/
def withState {τ : Type} (p : Progress σ) (state : τ) : Progress τ where
  phase := p.phase
  casesRun := p.casesRun
  failure := p.failure
  state := state
  events := p.events

/-- Turns of a run log these executions; and an executor that gives the answers logged in them
takes the same turns. -/
structure Logs (turns : (τ : Type) → Executor τ → Progress τ → Progress τ) (execute : Executor σ)
    (p : Progress σ) (executions : List Contact) : Prop where
  all : ∀ c ∈ executions, c.isExecution = true
  logged : ∀ log, turns _ execute.logged (p.withState (p.state, log)) =
    (turns σ execute p).withState ((turns σ execute p).state, log ++ executions)
  scripted : ∀ later,
    turns _ .scripted (p.withState (executions.filterMap Contact.answer? ++ later)) =
      (turns σ execute p).withState later

theorem logs_runCase (total index : Nat) (case : Case) (execute : Executor σ) (p : Progress σ) :
    Logs (fun _ e q => q.runCase total index case e) execute p
      [.execute case.command (execute case.command p.state).1] := by
  constructor
  · simp [Contact.isExecution]
  · intro log
    simp only [runCase, Executor.logged, withState]
    split <;> rfl
  · intro later
    simp only [runCase, Executor.scripted, withState, List.filterMap, Contact.answer?,
      List.cons_append, List.nil_append]
    split <;> rfl

/-- A turn executes the command of the case whose turn it is, or none. -/
theorem logs_step (corpus : Corpus) (execute : Executor σ) (p : Progress σ) :
    ∃ executions, Logs (fun _ e q => q.step corpus e) execute p executions := by
  rcases hphase : p.phase with _ | _ | index | _ | _
  case running =>
    rcases hcase : corpus.cases[index]? with _ | case
    · refine ⟨[], ?_, ?_, ?_⟩ <;> simp [step, withState, hphase, hcase]
    · have h := logs_runCase corpus.size index case execute p
      refine ⟨_, h.all, ?_, ?_⟩
      · simpa [step, withState, hphase, hcase] using h.logged
      · simpa [step, withState, hphase, hcase] using h.scripted
  all_goals
    refine ⟨[], ?_, ?_, ?_⟩ <;> simp [step, withState, hphase]

theorem logs_advance (corpus : Corpus) (execute : Executor σ) (turns : Nat) (p : Progress σ) :
    ∃ executions, Logs (fun _ e q => q.advance corpus e turns) execute p executions := by
  induction turns generalizing p with
  | zero => exact ⟨[], by simp, fun log => by simp [advance], fun later => by simp [advance]⟩
  | succ turns ih =>
    obtain ⟨first, hfirst⟩ := logs_step corpus execute p
    obtain ⟨others, hothers⟩ := ih (p.step corpus execute)
    refine ⟨first ++ others, ?_, fun log => ?_, fun later => ?_⟩
    · intro c hc
      exact (List.mem_append.mp hc).elim (hfirst.all c) (hothers.all c)
    · simp only [advance_succ]
      rw [hfirst.logged, hothers.logged, List.append_assoc]
    · simp only [advance_succ]
      rw [List.filterMap_append, List.append_assoc, hfirst.scripted, hothers.scripted]

end Progress

/-- A run logs its executions, and is the run in which the answers logged are given again. -/
theorem Corpus.run_logged (corpus : Corpus) (execute : Executor σ) (s : σ) :
    ∃ executions : List Contact, (∀ c ∈ executions, c.isExecution = true) ∧
      (∀ log, corpus.run execute.logged (s, log) = (corpus.run execute s).withState
        ((corpus.run execute s).state, log ++ executions)) ∧
      corpus.run .scripted (executions.filterMap Contact.answer?) =
        (corpus.run execute s).withState [] := by
  obtain ⟨executions, h⟩ :=
    Progress.logs_advance corpus execute corpus.size (.start corpus s)
  refine ⟨executions, h.all, h.logged, ?_⟩
  have hscripted := h.scripted []
  rw [List.append_nil] at hscripted
  exact hscripted

/-! ## Whole replays -/

/-- What a replay logs, and its result: a start that failed; or a start, the executions of the
run that the logged answers lead to, and the end of the server. -/
inductive Logged (corpus : Corpus) (settings : ServerSettings) :
    Except Failure Summary → List Contact → Prop where
  | notStarted {failure : Failure} {start : List Contact} :
      Started settings (.error failure) start → Logged corpus settings (.error failure) start
  | replayed {start executions ending release : List Contact} :
      Started settings (.ok ()) start → (∀ c ∈ executions, c.isExecution = true) →
      Terminated settings.grace ending → LetGo release →
      Logged corpus settings
        (.ok ((corpus.run .scripted (executions.filterMap Contact.answer?)).summary corpus))
        (start ++ executions ++ (ending ++ release))

theorem Corpus.replay_logged (corpus : Corpus) (host : ServerHost σ) (settings : ServerSettings)
    (execute : Executor σ) (s : σ) :
    let replay := corpus.replay host.logged settings execute.logged (s, [])
    corpus.replay host settings execute s = ⟨replay.result, replay.events, replay.state.1⟩ ∧
      Logged corpus settings replay.result replay.state.2 := by
  intro replay
  obtain ⟨start, hstart, hlogged⟩ := host.start_logged s [] settings
  rw [List.nil_append] at hlogged
  rcases hresult : host.start settings s with ⟨failure | ⟨⟩, up⟩
  · rw [hresult] at hstart hlogged
    have hreplay : replay = ⟨.error failure, [.runStarted corpus.size], up, start⟩ := by
      simp only [replay, Corpus.replay, hlogged]
    rw [hreplay]
    exact ⟨by simp only [Corpus.replay, hresult], .notStarted hstart⟩
  · rw [hresult] at hstart hlogged
    obtain ⟨executions, hexecutions, hrun, hscripted⟩ := corpus.run_logged execute up
    let p := corpus.run execute up
    obtain ⟨ending, release, hending, hrelease, hstop⟩ :=
      host.stop_logged p.state (start ++ executions) settings
    let summary := p.summary corpus
    let events := .runStarted corpus.size :: p.events ++ [.runFinished summary]
    have hreplay : replay = ⟨.ok summary, events, (host.stop settings p.state).2,
        start ++ executions ++ (ending ++ release)⟩ := by
      simp only [replay, Corpus.replay, hlogged, hrun, Progress.withState]
      rw [hstop]
      rfl
    have hsummary :
        (corpus.run .scripted (executions.filterMap Contact.answer?)).summary corpus = summary := by
      rw [hscripted]
      rfl
    have hshape : Logged corpus settings (.ok _) (start ++ executions ++ (ending ++ release)) :=
      .replayed hstart hexecutions hending hrelease
    rw [hsummary] at hshape
    rw [hreplay]
    exact ⟨by simp only [Corpus.replay, hresult]; rfl, hshape⟩

end Transcript

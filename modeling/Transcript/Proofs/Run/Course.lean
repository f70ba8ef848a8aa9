-- The course of a run. While its cases pass, a run stands in one state for each
-- number of cases, `passing`; the first answer that is not the expected output moves
-- it to `stopped`, and it never moves again. What a run gives in the end is read off
-- these two.
import Transcript.Run

namespace Transcript

variable {σ : Type}

/-! ## The answers of an executor -/

namespace Executor

/-- The state of the executor after the commands of the cases, whatever it answered. -/
def after (execute : Executor σ) (cases : List Case) (state : σ) : σ :=
  cases.foldl (fun s case => (execute case.command s).2) state

theorem after_append (execute : Executor σ) (xs ys : List Case) (state : σ) :
    execute.after (xs ++ ys) state = execute.after ys (execute.after xs state) := by
  simp [after]

/-- What is recorded does not change the executor, and the record holds the commands in order. -/
theorem recording_after (execute : Executor σ) (cases : List Case) (state : σ)
    (commands : List String) :
    execute.recording.after cases (state, commands) =
      (execute.after cases state, commands ++ cases.map (·.command)) := by
  induction cases generalizing state commands with
  | nil => simp [after]
  | cons case rest ih =>
    have := ih (execute case.command state).2 (commands ++ [case.command])
    simpa [after, recording] using this

end Executor

/-- What is wrong with an answer to a case: its own failure, or a text that is not the
expected output. -/
def Case.failureOf? (case : Case) : Except Failure String → Option Failure
  | .error failure => some failure
  | .ok actual =>
    if actual = case.expected then none else some (.mismatch case.command actual case.expected)

theorem Case.outcome_eq (case : Case) (answer : Except Failure String) :
    Progress.outcome case answer =
      match case.failureOf? answer with
      | none => .ok ()
      | some failure => .error failure := by
  cases answer with
  | error failure => rfl
  | ok actual =>
    simp only [Progress.outcome, Case.judge, Case.failureOf?]
    split <;> rfl

namespace Corpus

theorem lt_size_of_getElem? {corpus : Corpus} {i : Nat} {case : Case}
    (h : corpus.cases[i]? = some case) : i < corpus.size := by
  obtain ⟨hi, -⟩ := List.getElem?_eq_some_iff.mp h
  exact hi

theorem take_succ_of_getElem? {corpus : Corpus} {i : Nat} {case : Case}
    (h : corpus.cases[i]? = some case) :
    corpus.cases.take (i + 1) = corpus.cases.take i ++ [case] := by
  rw [List.take_add_one, h, Option.toList_some]

/-- What is wrong with the answer to case `i` when the commands of the cases before it
were executed before it, in order. -/
def failureAt? (corpus : Corpus) (execute : Executor σ) (state : σ) (i : Nat) : Option Failure :=
  corpus.cases[i]?.bind fun case =>
    case.failureOf? (execute case.command (execute.after (corpus.cases.take i) state)).1

/-- Case `j` is the first one whose answer is an error or not the expected output. -/
structure DivergesFirstAt (corpus : Corpus) (execute : Executor σ) (state : σ) (j : Nat)
    (case : Case) (failure : Failure) : Prop where
  case_eq : corpus.cases[j]? = some case
  failure_eq : corpus.failureAt? execute state j = some failure
  before : ∀ i < j, corpus.failureAt? execute state i = none

/-- The commands that a run gives to the executor, in order. -/
def calls (corpus : Corpus) (execute : Executor σ) (state : σ) : List String :=
  (corpus.run execute.recording (state, [])).state.2

theorem failureAt?_recording (corpus : Corpus) (execute : Executor σ) (state : σ)
    (commands : List String) (i : Nat) :
    corpus.failureAt? execute.recording (state, commands) i =
      corpus.failureAt? execute state i := by
  simp [failureAt?, Executor.recording_after, Executor.recording]

theorem failureAt?_cons_zero (case : Case) (rest : List Case) (execute : Executor σ) (state : σ) :
    failureAt? ⟨case :: rest⟩ execute state 0 =
      case.failureOf? (execute case.command state).1 := rfl

theorem failureAt?_cons_succ (case : Case) (rest : List Case) (execute : Executor σ) (state : σ)
    (i : Nat) :
    failureAt? ⟨case :: rest⟩ execute state (i + 1) =
      failureAt? ⟨rest⟩ execute (execute case.command state).2 i := rfl

/-- Where some case fails, one of them is the first. -/
theorem failureAt?_eq_none_of_not_divergesFirstAt {corpus : Corpus} {execute : Executor σ}
    {state : σ} (h : ¬ ∃ j case failure, corpus.DivergesFirstAt execute state j case failure)
    (i : Nat) : corpus.failureAt? execute state i = none := by
  induction i using Nat.strongRecOn with
  | ind i ih =>
    rcases hf : corpus.failureAt? execute state i with _ | failure
    · rfl
    · have hbind := hf
      obtain ⟨case, hc, -⟩ := Option.bind_eq_some_iff.mp hbind
      exact absurd ⟨i, case, failure, hc, hf, ih⟩ h

end Corpus

/-! ## The states of a run -/

/-- The events of cases that passed. -/
def passedEvents (cases : List Case) : List Event :=
  cases.zipIdx.flatMap fun (case, i) => [.caseStarted i case, .casePassed i case]

namespace Progress

/-- A run whose first `i` cases passed. -/
def passing (corpus : Corpus) (execute : Executor σ) (state : σ) (i : Nat) : Progress σ where
  phase := if i < corpus.size then .running i else .passed
  casesRun := i
  failure := none
  state := execute.after (corpus.cases.take i) state
  events := passedEvents (corpus.cases.take i)

/-- A run that case `i` ended. -/
def stopped (corpus : Corpus) (execute : Executor σ) (state : σ) (i : Nat) (case : Case)
    (failure : Failure) : Progress σ where
  phase := .failed
  casesRun := i + 1
  failure := some (.of case failure)
  state := execute.after (corpus.cases.take (i + 1)) state
  events := passedEvents (corpus.cases.take i) ++
    [.caseStarted i case, .caseFailed i case failure]

variable {corpus : Corpus} {execute : Executor σ} {state : σ} {i : Nat} {case : Case}

theorem start_eq_passing : start corpus state = passing corpus execute state 0 := by
  have hphase : Phase.begin corpus.size = if 0 < corpus.size then .running 0 else .passed := by
    unfold Phase.begin
    split <;> split <;> first | rfl | omega
  simp [start, passing, hphase, Executor.after, passedEvents]

theorem step_passing (h : corpus.cases[i]? = some case) :
    (passing corpus execute state i).step corpus execute =
      (passing corpus execute state i).runCase corpus.size i case execute := by
  have hi := Corpus.lt_size_of_getElem? h
  simp [step, passing, hi, h]

theorem passedEvents_take_succ (h : corpus.cases[i]? = some case) :
    passedEvents (corpus.cases.take (i + 1)) =
      passedEvents (corpus.cases.take i) ++ [.caseStarted i case, .casePassed i case] := by
  have hlen : (corpus.cases.take i).length = i := by
    have := Corpus.lt_size_of_getElem? h
    rw [List.length_take]
    exact Nat.min_eq_left (Nat.le_of_lt this)
  simp [passedEvents, Corpus.take_succ_of_getElem? h, List.zipIdx_append, hlen]

theorem after_take_succ (h : corpus.cases[i]? = some case) :
    execute.after (corpus.cases.take (i + 1)) state =
      (execute case.command (execute.after (corpus.cases.take i) state)).2 := by
  rw [Corpus.take_succ_of_getElem? h, Executor.after_append]
  rfl

/-- A case that passes takes the run to the next one, or to the end. -/
theorem step_passing_of_pass (h : corpus.cases[i]? = some case)
    (hpass : corpus.failureAt? execute state i = none) :
    (passing corpus execute state i).step corpus execute =
      passing corpus execute state (i + 1) := by
  have hi := Corpus.lt_size_of_getElem? h
  simp only [Corpus.failureAt?, h, Option.bind_some] at hpass
  rw [step_passing h]
  simp only [runCase, passing, Case.outcome_eq, hpass, passedEvents_take_succ h, after_take_succ h]
  simp [hi, Phase.afterPass]

/-- A case that fails ends the run. -/
theorem step_passing_of_failure {failure : Failure} (h : corpus.cases[i]? = some case)
    (hfail : corpus.failureAt? execute state i = some failure) :
    (passing corpus execute state i).step corpus execute =
      stopped corpus execute state i case failure := by
  simp only [Corpus.failureAt?, h, Option.bind_some] at hfail
  rw [step_passing h]
  simp only [runCase, passing, stopped, Case.outcome_eq, hfail, after_take_succ h]

/-! ## Turns -/

theorem advance_of_isTerminal {p : Progress σ} (h : p.phase.isTerminal = true) (turns : Nat) :
    p.advance corpus execute turns = p := by
  cases turns with
  | zero => rfl
  | succ n => simp [advance, h]

theorem advance_succ (turns : Nat) (p : Progress σ) :
    p.advance corpus execute (turns + 1) =
      (p.step corpus execute).advance corpus execute turns := by
  by_cases h : p.phase.isTerminal = true
  · have hstep : p.step corpus execute = p := by
      cases hp : p.phase <;> simp_all [Phase.isTerminal, step]
    rw [hstep, advance_of_isTerminal h, advance_of_isTerminal h]
  · simp [advance, h]

/-- As long as the cases pass, `n` turns take the run to its state after `n` cases. -/
theorem advance_start_of_passes (n rest : Nat) (hn : n ≤ corpus.size)
    (hpass : ∀ i < n, corpus.failureAt? execute state i = none) :
    (start corpus state).advance corpus execute (n + rest) =
      (passing corpus execute state n).advance corpus execute rest := by
  induction n generalizing rest with
  | zero => rw [Nat.zero_add, start_eq_passing]
  | succ n ih =>
    obtain ⟨case, hc⟩ : ∃ case, corpus.cases[n]? = some case :=
      ⟨_, List.getElem?_eq_getElem (show n < corpus.cases.length from hn)⟩
    rw [Nat.add_right_comm, Nat.add_assoc,
      ih (rest + 1) (Nat.le_of_succ_le hn) fun i hi => hpass i (Nat.lt_succ_of_lt hi),
      advance_succ, step_passing_of_pass hc (hpass n (Nat.lt_succ_self n))]

end Progress

/-! ## Whole runs -/

namespace Corpus

variable {corpus : Corpus} {execute : Executor σ} {state : σ}

/-- A run whose cases all pass. -/
theorem run_of_passes (hpass : ∀ i, corpus.failureAt? execute state i = none) :
    corpus.run execute state = .passing corpus execute state corpus.size :=
  Progress.advance_start_of_passes corpus.size 0 (Nat.le_refl _) fun i _ => hpass i

theorem summary_of_passes (hpass : ∀ i, corpus.failureAt? execute state i = none) :
    (corpus.run execute state).summary corpus =
      { passed := true, phase := .passed, casesRun := corpus.size, casesTotal := corpus.size,
        failure := none } := by
  rw [run_of_passes hpass]
  simp [Progress.summary, Progress.passing]

/-- A run in which case `j` is the first to fail. -/
theorem run_of_divergesFirstAt {j : Nat} {case : Case} {failure : Failure}
    (h : corpus.DivergesFirstAt execute state j case failure) :
    corpus.run execute state = .stopped corpus execute state j case failure := by
  have hj := lt_size_of_getElem? h.case_eq
  have hsize : corpus.size = j + (corpus.size - j - 1 + 1) := by omega
  unfold run
  rw [hsize, Progress.advance_start_of_passes j _ (Nat.le_of_lt hj) h.before,
    Progress.advance_succ, Progress.step_passing_of_failure h.case_eq h.failure_eq,
    Progress.advance_of_isTerminal rfl]

theorem DivergesFirstAt.recording {j : Nat} {case : Case} {failure : Failure}
    (h : corpus.DivergesFirstAt execute state j case failure) (commands : List String) :
    corpus.DivergesFirstAt execute.recording (state, commands) j case failure where
  case_eq := h.case_eq
  failure_eq := by rw [failureAt?_recording]; exact h.failure_eq
  before i hi := by rw [failureAt?_recording]; exact h.before i hi

/-- A run stops exactly at the first divergence, having executed the commands up to it,
each once and in order; without one it executes all. Its summary says so. -/
theorem run_stops_at_the_first_divergence (corpus : Corpus) (execute : Executor σ) (state : σ) :
    (∀ j case failure, corpus.DivergesFirstAt execute state j case failure →
      corpus.calls execute state = corpus.commands.take (j + 1) ∧
      (corpus.run execute state).summary corpus =
        { passed := false, phase := .failed, casesRun := j + 1, casesTotal := corpus.size,
          failure := some (.of case failure) } ∧
      ((corpus.run execute state).summary corpus).exitCode = 1) ∧
    ((¬ ∃ j case failure, corpus.DivergesFirstAt execute state j case failure) →
      corpus.calls execute state = corpus.commands ∧
      (corpus.run execute state).summary corpus =
        { passed := true, phase := .passed, casesRun := corpus.size, casesTotal := corpus.size,
          failure := none } ∧
      ((corpus.run execute state).summary corpus).exitCode = 0) := by
  refine ⟨fun j case failure h => ?_, fun h => ?_⟩
  · have hrun := run_of_divergesFirstAt h
    refine ⟨?_, ?_, ?_⟩
    · rw [calls, run_of_divergesFirstAt (h.recording [])]
      simp [Progress.stopped, Executor.recording_after, commands, List.map_take]
    · rw [hrun]; rfl
    · rw [hrun]; rfl
  · have hpass := failureAt?_eq_none_of_not_divergesFirstAt h
    have hsummary := summary_of_passes hpass
    refine ⟨?_, hsummary, ?_⟩
    · have hrec : ∀ i, corpus.failureAt? execute.recording (state, []) i = none := by
        intro i
        rw [failureAt?_recording]
        exact hpass i
      rw [calls, run_of_passes hrec]
      simp [Progress.passing, Executor.recording_after, commands, size]
    · rw [hsummary]; rfl

/-- Of three cases the second gives a text without its newline, and the third is not run. -/
theorem run_stops_at_a_missing_newline :
    let corpus : Corpus := ⟨[⟨"ping", "PONG\n"⟩, ⟨"get n", "1\n"⟩, ⟨"ping", "PONG\n"⟩]⟩
    let answers : List (String → Except Failure String) := [fun _ => .ok "PONG\n", fun _ => .ok "1"]
    let failure : Failure := .mismatch "get n" "1" "1\n"
    corpus.DivergesFirstAt .scripted answers 1 ⟨"get n", "1\n"⟩ failure ∧
      corpus.calls .scripted answers = ["ping", "get n"] ∧
      (corpus.run .scripted answers).summary corpus =
        ⟨false, .failed, 2, 3, some (.of ⟨"get n", "1\n"⟩ failure)⟩ := by
  intro corpus answers failure
  have h : corpus.DivergesFirstAt .scripted answers 1 ⟨"get n", "1\n"⟩ failure :=
    { case_eq := rfl
      failure_eq := rfl
      before := fun i hi => by
        obtain rfl : i = 0 := by omega
        rfl }
  obtain ⟨hcalls, hsummary, -⟩ :=
    (run_stops_at_the_first_divergence corpus .scripted answers).1 1 _ failure h
  exact ⟨h, hcalls, hsummary⟩

end Corpus

end Transcript

-- Runs of corpora put together. What comes later in a corpus has no part in what its earlier
-- cases do: a run of the whole is the run of the first part, and where that passes, the run
-- of the second part from the state that the first one left, with the cases counted on.
import Transcript.Proofs.Run.Course

namespace Transcript

variable {σ : Type}

/-! ## Corpora put together -/

/-- The cases of one corpus and then those of another. -/
instance : Append Corpus where
  append a b := ⟨a.cases ++ b.cases⟩

/-- The event in a corpus that has `n` more cases before. -/
def Event.shift (n : Nat) : Event → Event
  | .caseStarted i case => .caseStarted (n + i) case
  | .casePassed i case => .casePassed (n + i) case
  | .caseFailed i case failure => .caseFailed (n + i) case failure
  | .runStarted total => .runStarted total
  | .runFinished summary => .runFinished summary

theorem passedEvents_append (xs ys : List Case) :
    passedEvents (xs ++ ys) =
      passedEvents xs ++ (passedEvents ys).map (.shift xs.length) := by
  have hlater : ys.zipIdx xs.length = ys.zipIdx.map (Prod.map id (xs.length + ·)) :=
    List.zipIdx_eq_map_add
  unfold passedEvents
  rw [List.zipIdx_append, List.flatMap_append, Nat.zero_add, hlater, List.flatMap_map,
    List.map_flatMap]
  rfl

namespace Corpus

variable {a b : Corpus} {execute : Executor σ} {state : σ}

@[simp]
theorem cases_append (a b : Corpus) : (a ++ b).cases = a.cases ++ b.cases := rfl

@[simp]
theorem size_append (a b : Corpus) : (a ++ b).size = a.size + b.size := List.length_append

@[simp]
theorem commands_append (a b : Corpus) : (a ++ b).commands = a.commands ++ b.commands :=
  List.map_append

theorem take_append_of_le {i : Nat} (h : i ≤ a.size) :
    (a ++ b).cases.take i = a.cases.take i := List.take_append_of_le_length h

theorem take_append_add (a b : Corpus) (i : Nat) :
    (a ++ b).cases.take (a.size + i) = a.cases ++ b.cases.take i :=
  List.take_length_add_append i

/-- What is wrong with a case of the first part does not depend on the second. -/
theorem failureAt?_append_of_lt {i : Nat} (h : i < a.size) :
    (a ++ b).failureAt? execute state i = a.failureAt? execute state i := by
  unfold failureAt?
  rw [take_append_of_le (Nat.le_of_lt h), cases_append, List.getElem?_append_left h]

/-- What is wrong with a case of the second part shows from the state after the first. -/
theorem failureAt?_append_add (a b : Corpus) (execute : Executor σ) (state : σ) (i : Nat) :
    (a ++ b).failureAt? execute state (a.size + i) =
      b.failureAt? execute (execute.after a.cases state) i := by
  have hcase : (a ++ b).cases[a.size + i]? = b.cases[i]? := by
    rw [cases_append, List.getElem?_append_right (Nat.le_add_right a.size i), size,
      Nat.add_sub_cancel_left]
  unfold failureAt?
  rw [take_append_add, hcase, Executor.after_append]

/-! ## Calls -/

theorem calls_of_divergesFirstAt {corpus : Corpus} {j : Nat} {case : Case} {failure : Failure}
    (h : corpus.DivergesFirstAt execute state j case failure) :
    corpus.calls execute state = corpus.commands.take (j + 1) := by
  rw [calls, run_of_divergesFirstAt (h.recording [])]
  simp [Progress.stopped, Executor.recording_after, commands, List.map_take]

theorem calls_of_passes {corpus : Corpus}
    (hpass : ∀ i, corpus.failureAt? execute state i = none) :
    corpus.calls execute state = corpus.commands := by
  have hrec : ∀ i, corpus.failureAt? execute.recording (state, []) i = none := by
    intro i
    rw [failureAt?_recording]
    exact hpass i
  rw [calls, run_of_passes hrec]
  simp [Progress.passing, Executor.recording_after, commands, size]

/-! ## A first part that fails -/

theorem DivergesFirstAt.append {j : Nat} {case : Case} {failure : Failure}
    (h : a.DivergesFirstAt execute state j case failure) (b : Corpus) :
    (a ++ b).DivergesFirstAt execute state j case failure := by
  have hj := lt_size_of_getElem? h.case_eq
  constructor
  · rw [cases_append, List.getElem?_append_left hj]
    exact h.case_eq
  · rw [failureAt?_append_of_lt hj]
    exact h.failure_eq
  · intro i hi
    rw [failureAt?_append_of_lt (Nat.lt_trans hi hj)]
    exact h.before i hi

/-- Where the first part fails, nothing of the second part is run. -/
theorem run_append_of_divergesFirstAt {j : Nat} {case : Case} {failure : Failure}
    (h : a.DivergesFirstAt execute state j case failure) (b : Corpus) :
    (a ++ b).run execute state = a.run execute state ∧
      (a ++ b).calls execute state = a.calls execute state := by
  have hj := lt_size_of_getElem? h.case_eq
  constructor
  · rw [run_of_divergesFirstAt h, run_of_divergesFirstAt (h.append b)]
    simp only [Progress.stopped, take_append_of_le (Nat.le_of_lt hj),
      take_append_of_le (Nat.succ_le_of_lt hj)]
  · rw [calls_of_divergesFirstAt h, calls_of_divergesFirstAt (h.append b), commands_append]
    refine List.take_append_of_le_length ?_
    rw [commands, List.length_map]
    exact Nat.succ_le_of_lt hj

/-! ## A first part that passes -/

/-- The end of a run of the whole, from that of a run of the second part: the cases of the
first part, which all passed, are counted before it and told before it. -/
def continued (a : Corpus) (second : Progress σ) : Progress σ where
  phase := second.phase
  casesRun := a.size + second.casesRun
  failure := second.failure
  state := second.state
  events := passedEvents a.cases ++ second.events.map (.shift a.size)

theorem failureAt?_append_of_passes (hpass : ∀ i, a.failureAt? execute state i = none) {i : Nat}
    (h : ∀ k, a.size + k = i → b.failureAt? execute (execute.after a.cases state) k = none) :
    (a ++ b).failureAt? execute state i = none := by
  rcases Nat.lt_or_ge i a.size with hi | hi
  · rw [failureAt?_append_of_lt hi]
    exact hpass i
  · obtain ⟨k, rfl⟩ := Nat.exists_eq_add_of_le hi
    rw [failureAt?_append_add]
    exact h k rfl

theorem DivergesFirstAt.append_left {j : Nat} {case : Case} {failure : Failure}
    (h : b.DivergesFirstAt execute (execute.after a.cases state) j case failure)
    (hpass : ∀ i, a.failureAt? execute state i = none) :
    (a ++ b).DivergesFirstAt execute state (a.size + j) case failure := by
  constructor
  · rw [cases_append, List.getElem?_append_right (Nat.le_add_right a.size j), size,
      Nat.add_sub_cancel_left]
    exact h.case_eq
  · rw [failureAt?_append_add]
    exact h.failure_eq
  · intro i hi
    refine failureAt?_append_of_passes hpass fun k hk => h.before k ?_
    omega

/-- Where the first part passes, the second is run from the state that it left. -/
theorem run_append_of_passes (hpass : ∀ i, a.failureAt? execute state i = none) (b : Corpus) :
    (a ++ b).run execute state = a.continued (b.run execute (execute.after a.cases state)) ∧
      (a ++ b).calls execute state =
        a.calls execute state ++ b.calls execute (execute.after a.cases state) := by
  rw [calls_of_passes hpass]
  by_cases h : ∃ j case failure,
      b.DivergesFirstAt execute (execute.after a.cases state) j case failure
  · obtain ⟨j, case, failure, hb⟩ := h
    have hwhole := hb.append_left hpass
    constructor
    · rw [run_of_divergesFirstAt hwhole, run_of_divergesFirstAt hb]
      simp only [Progress.stopped, continued, Nat.add_assoc, take_append_add,
        Executor.after_append, passedEvents_append, List.map_append, List.append_assoc]
      rfl
    · rw [calls_of_divergesFirstAt hwhole, calls_of_divergesFirstAt hb, commands_append,
        Nat.add_assoc, size, ← List.length_map Case.command]
      exact List.take_length_add_append (j + 1)
  · have hb := failureAt?_eq_none_of_not_divergesFirstAt h
    have hwhole : ∀ i, (a ++ b).failureAt? execute state i = none := fun i =>
      failureAt?_append_of_passes hpass fun k _ => hb k
    constructor
    · have htake : b.cases.take b.size = b.cases := List.take_length
      rw [run_of_passes hwhole, run_of_passes hb]
      simp only [Progress.passing, continued, size_append, take_append_add, htake,
        Executor.after_append, passedEvents_append, Nat.lt_irrefl, if_false]
      rfl
    · rw [calls_of_passes hwhole, calls_of_passes hb, commands_append]

/-! ## Composition -/

/-- A run passes exactly if no case fails. -/
theorem passed_run_iff (corpus : Corpus) (execute : Executor σ) (state : σ) :
    ((corpus.run execute state).summary corpus).passed = true ↔
      ∀ i, corpus.failureAt? execute state i = none := by
  constructor
  · intro hpassed
    refine failureAt?_eq_none_of_not_divergesFirstAt ?_
    rintro ⟨j, case, failure, h⟩
    rw [run_of_divergesFirstAt h] at hpassed
    cases hpassed
  · intro hpass
    rw [summary_of_passes hpass]

theorem exists_divergesFirstAt_of_failed
    (hfailed : ((a.run execute state).summary a).passed = false) :
    ∃ j case failure, a.DivergesFirstAt execute state j case failure := by
  by_cases h : ∃ j case failure, a.DivergesFirstAt execute state j case failure
  · exact h
  · have hpassed := (passed_run_iff a execute state).mpr
      (failureAt?_eq_none_of_not_divergesFirstAt h)
    rw [hfailed] at hpassed
    cases hpassed

/-- Runs compose. Where a run of the first part fails, a run of the whole is that run: the same
calls, events, count and failure, with more cases in total. Where it passes, a run of the whole
makes its calls and events and then those of a run of the second part from the state it left,
with every index moved up by the cases before, and ends as that run ends. -/
theorem runs_compose (a b : Corpus) (execute : Executor σ) (state : σ) :
    let first := a.run execute state
    let whole := (a ++ b).run execute state
    ((first.summary a).passed = false →
      (a ++ b).calls execute state = a.calls execute state ∧
      whole.events = first.events ∧ whole.state = first.state ∧
      whole.summary (a ++ b) = { first.summary a with casesTotal := a.size + b.size }) ∧
    ((first.summary a).passed = true →
      let second := b.run execute first.state
      (a ++ b).calls execute state = a.calls execute state ++ b.calls execute first.state ∧
      whole.events = first.events ++ second.events.map (.shift a.size) ∧
      whole.state = second.state ∧
      whole.summary (a ++ b) =
        { second.summary b with
          casesRun := a.size + (second.summary b).casesRun
          casesTotal := a.size + b.size }) := by
  intro first whole
  refine ⟨fun hfailed => ?_, fun hpassed => ?_⟩
  · obtain ⟨j, case, failure, h⟩ := exists_divergesFirstAt_of_failed hfailed
    obtain ⟨hrun, hcalls⟩ := run_append_of_divergesFirstAt h b
    have hwhole : whole = first := hrun
    rw [hwhole]
    refine ⟨hcalls, rfl, rfl, ?_⟩
    simp only [Progress.summary, size_append]
  · intro second
    have hpass := (passed_run_iff a execute state).mp hpassed
    have hfirst : first = .passing a execute state a.size := run_of_passes hpass
    have htake : a.cases.take a.size = a.cases := List.take_length
    have hstate : first.state = execute.after a.cases state := by
      rw [hfirst, Progress.passing, htake]
    have hevents : first.events = passedEvents a.cases := by
      rw [hfirst, Progress.passing, htake]
    obtain ⟨hrun, hcalls⟩ := run_append_of_passes hpass b
    rw [← hstate] at hrun hcalls
    have hwhole : whole = a.continued second := hrun
    rw [hwhole, hevents]
    refine ⟨hcalls, rfl, rfl, ?_⟩
    simp only [Progress.summary, continued, size_append]
    rfl

/-- Three cases in a row, cut once before the case that fails and once behind it. -/
theorem a_run_composes_on_both_sides_of_its_failure :
    let ping : Case := ⟨"ping", "PONG\n"⟩
    let get : Case := ⟨"get n", "1\n"⟩
    let answers : List (String → Except Failure String) :=
      [fun _ => .ok "PONG\n", fun _ => .ok "2\n"]
    let failure : Failure := .mismatch "get n" "2\n" "1\n"
    ((run ⟨[ping]⟩ .scripted answers).summary ⟨[ping]⟩).passed = true ∧
      (run (⟨[ping]⟩ ++ ⟨[get, ping]⟩) .scripted answers).events =
        [.caseStarted 0 ping, .casePassed 0 ping, .caseStarted 1 get, .caseFailed 1 get failure] ∧
      ((run ⟨[ping, get]⟩ .scripted answers).summary ⟨[ping, get]⟩).passed = false ∧
      (run (⟨[ping, get]⟩ ++ ⟨[ping]⟩) .scripted answers).summary (⟨[ping, get]⟩ ++ ⟨[ping]⟩) =
        ⟨false, .failed, 2, 3, some (.of get failure)⟩ := by
  intro ping get answers failure
  have hpassed : ((run ⟨[ping]⟩ .scripted answers).summary ⟨[ping]⟩).passed = true := rfl
  have hfailed : ((run ⟨[ping, get]⟩ .scripted answers).summary ⟨[ping, get]⟩).passed = false := rfl
  obtain ⟨-, hevents, -, -⟩ := (runs_compose ⟨[ping]⟩ ⟨[get, ping]⟩ .scripted answers).2 hpassed
  obtain ⟨-, -, -, hsummary⟩ := (runs_compose ⟨[ping, get]⟩ ⟨[ping]⟩ .scripted answers).1 hfailed
  exact ⟨hpassed, hevents, hfailed, hsummary⟩

end Corpus

end Transcript

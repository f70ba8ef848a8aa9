-- What the observers of a replay are told. The start comes first, whatever becomes of the
-- server; then each case is started and judged before the next, and none after one that
-- failed; and the end comes last, with the summary. The events of a run and its summary
-- tell the same.
import Transcript.Server
import Transcript.Proofs.Run.Course

namespace Transcript

variable {σ : Type}

/-! ## The events of cases -/

/-- The events of the cases from number `i` on. Each case is started and then judged; the
cases go on while they pass, to the end of the corpus, and stop with one that fails. -/
inductive CaseEvents (corpus : Corpus) : Nat → List Event → Prop where
  | finished : CaseEvents corpus corpus.size []
  | failed {i : Nat} {case : Case} {failure : Failure} : corpus.cases[i]? = some case →
      CaseEvents corpus i [.caseStarted i case, .caseFailed i case failure]
  | passed {i : Nat} {case : Case} {events : List Event} : corpus.cases[i]? = some case →
      CaseEvents corpus (i + 1) events →
      CaseEvents corpus i (.caseStarted i case :: .casePassed i case :: events)

/-- A case was started. -/
def Event.isCaseStarted : Event → Bool
  | .caseStarted .. => true
  | _ => false

variable {corpus : Corpus}

/-- Cases that passed stand before the events of the others. -/
theorem CaseEvents.of_passed {n : Nat} {events : List Event} (h : CaseEvents corpus n events)
    (hn : n ≤ corpus.size) :
    CaseEvents corpus 0 (passedEvents (corpus.cases.take n) ++ events) := by
  induction n generalizing events with
  | zero => exact h
  | succ n ih =>
    obtain ⟨case, hcase⟩ : ∃ case, corpus.cases[n]? = some case :=
      ⟨_, List.getElem?_eq_getElem (show n < corpus.cases.length from hn)⟩
    rw [Progress.passedEvents_take_succ hcase, List.append_assoc]
    exact ih (.passed hcase h) (Nat.le_of_succ_le hn)

theorem countP_isCaseStarted_passedEvents (cases : List Case) :
    (passedEvents cases).countP Event.isCaseStarted = cases.length := by
  unfold passedEvents
  rw [List.countP_flatMap]
  have hone : ∀ pair ∈ cases.zipIdx,
      (List.countP Event.isCaseStarted ∘ fun pair =>
        [Event.caseStarted pair.2 pair.1, Event.casePassed pair.2 pair.1]) pair = 1 :=
    fun _ _ => rfl
  rw [List.map_congr_left hone, List.map_const', List.sum_replicate_nat, List.length_zipIdx,
    Nat.mul_one]

theorem caseFailed_not_mem_passedEvents (cases : List Case) (i : Nat) (case : Case)
    (failure : Failure) : .caseFailed i case failure ∉ passedEvents cases := by
  simp [passedEvents]

/-! ## Runs -/

/-- The events of the cases tell what the summary tells. -/
structure Tells (corpus : Corpus) (events : List Event) (summary : Summary) : Prop where
  cases : CaseEvents corpus 0 events
  /-- As many cases were started as were run. -/
  count : events.countP Event.isCaseStarted = summary.casesRun
  /-- A case failed exactly if there is a report of a failure. -/
  failed_iff : (∃ i case failure, .caseFailed i case failure ∈ events) ↔ summary.failure.isSome
  /-- The report is made from the case that failed and from its failure. -/
  report : ∀ i case failure, .caseFailed i case failure ∈ events →
    summary.failure = some
      { kind := failure.kind.name, message := failure.message, command := case.command,
        actual := failure.actual?, expected := case.expected }

namespace Corpus

variable {execute : Executor σ} {state : σ}

theorem tells_of_passes (hpass : ∀ i, corpus.failureAt? execute state i = none) :
    Tells corpus (corpus.run execute state).events ((corpus.run execute state).summary corpus) := by
  have htake : corpus.cases.take corpus.size = corpus.cases := List.take_length
  rw [summary_of_passes hpass, run_of_passes hpass]
  simp only [Progress.passing, htake]
  refine ⟨?_, countP_isCaseStarted_passedEvents _, ?_, ?_⟩
  · have hall : CaseEvents corpus corpus.size [] := .finished
    have h := hall.of_passed (Nat.le_refl _)
    rwa [htake, List.append_nil] at h
  · constructor
    · rintro ⟨i, case, failure, hmem⟩
      exact absurd hmem (caseFailed_not_mem_passedEvents _ i case failure)
    · intro h
      cases h
  · intro i case failure hmem
    exact absurd hmem (caseFailed_not_mem_passedEvents _ i case failure)

theorem tells_of_divergesFirstAt {j : Nat} {case : Case} {failure : Failure}
    (h : corpus.DivergesFirstAt execute state j case failure) :
    Tells corpus (corpus.run execute state).events ((corpus.run execute state).summary corpus) := by
  have hj := lt_size_of_getElem? h.case_eq
  have hlen : (corpus.cases.take j).length = j := by
    rw [List.length_take]
    exact Nat.min_eq_left (Nat.le_of_lt hj)
  have hfailed : ∀ i c f, Event.caseFailed i c f ∈ passedEvents (corpus.cases.take j) ++
      [.caseStarted j case, .caseFailed j case failure] → i = j ∧ c = case ∧ f = failure := by
    intro i c f hmem
    rcases List.mem_append.mp hmem with hmem | hmem
    · exact absurd hmem (caseFailed_not_mem_passedEvents _ i c f)
    · simpa using hmem
  rw [run_of_divergesFirstAt h]
  simp only [Progress.summary, Progress.stopped]
  refine ⟨.of_passed (.failed h.case_eq) (Nat.le_of_lt hj), ?_, ?_, ?_⟩
  · rw [List.countP_append, countP_isCaseStarted_passedEvents, hlen]
    rfl
  · exact iff_of_true ⟨j, case, failure, by simp⟩ rfl
  · intro i c f hmem
    obtain ⟨-, rfl, rfl⟩ := hfailed i c f hmem
    rfl

/-- Whatever the executor answers, the events of a run tell what its summary tells. -/
theorem tells_run (corpus : Corpus) (execute : Executor σ) (state : σ) :
    Tells corpus (corpus.run execute state).events ((corpus.run execute state).summary corpus) := by
  by_cases h : ∃ j case failure, corpus.DivergesFirstAt execute state j case failure
  · obtain ⟨j, case, failure, h⟩ := h
    exact tells_of_divergesFirstAt h
  · exact tells_of_passes (failureAt?_eq_none_of_not_divergesFirstAt h)

end Corpus

/-! ## Replays -/

namespace ServerHost

variable {τ : Type} (host : ServerHost σ)

@[simp]
theorem onFirst_spawn (program : String) (arguments : List String) (directory : Option String)
    (s : σ) (t : τ) : host.onFirst.spawn program arguments directory (s, t) =
      ((host.spawn program arguments directory s).1,
        (host.spawn program arguments directory s).2, t) := rfl

@[simp]
theorem onFirst_pause (ms : Nat) (s : σ) (t : τ) :
    host.onFirst.pause ms (s, t) = (host.pause ms s, t) := rfl

@[simp]
theorem onFirst_poll (s : σ) (t : τ) :
    host.onFirst.poll (s, t) = ((host.poll s).1, (host.poll s).2, t) := rfl

@[simp]
theorem onFirst_killAtOnce (s : σ) (t : τ) :
    host.onFirst.killAtOnce (s, t) = (host.killAtOnce s, t) := rfl

theorem release_onFirst (s : σ) (t : τ) : host.onFirst.release (s, t) = (host.release s, t) := by
  unfold release
  rw [onFirst_poll]
  rcases host.poll s with ⟨_ | _ | status, after⟩ <;> simp

theorem warmUp_onFirst (settings : ServerSettings) (s : σ) (t : τ) :
    host.onFirst.warmUp settings (s, t) =
      ((host.warmUp settings s).1, (host.warmUp settings s).2, t) := by
  unfold warmUp
  rw [onFirst_pause, onFirst_poll]
  rcases host.poll (host.pause settings.warmup s) with ⟨reason | _ | status, after⟩
  · simp [release_onFirst]
  · rfl
  · dsimp only
    split
    · rfl
    · simp [release_onFirst]

/-- The start of the server leaves the rest of a larger state as it is. -/
theorem start_onFirst (settings : ServerSettings) (s : σ) (t : τ) :
    host.onFirst.start settings (s, t) =
      ((host.start settings s).1, (host.start settings s).2, t) := by
  unfold start
  rcases Words.ofCommand settings.command with fault | words
  · rfl
  · dsimp only
    rw [onFirst_spawn]
    rcases host.spawn (words.headD "") words.tail settings.directory s with ⟨reason | _, up⟩
    · rfl
    · exact warmUp_onFirst host settings up t

end ServerHost

/-- The commands that a replay gives to the executor, in order. -/
def Corpus.replayCalls (corpus : Corpus) (host : ServerHost σ) (settings : ServerSettings)
    (execute : Executor σ) (s : σ) : List String :=
  (corpus.replay host.onFirst settings execute.recording (s, [])).state.2

/-- The observers of a replay are told its start with the number of cases. If the server does
not start they are told no more, no command is executed, and its failure is the result.
Otherwise they are told the cases, as the summary tells them, and last the summary, which is
the result. -/
theorem observers_are_told_what_the_summary_tells (corpus : Corpus) (host : ServerHost σ)
    (settings : ServerSettings) (execute : Executor σ) (s : σ) :
    let replay := corpus.replay host settings execute s
    match host.start settings s with
    | (.error failure, _) =>
      replay.events = [.runStarted corpus.size] ∧ replay.result = .error failure ∧
        corpus.replayCalls host settings execute s = []
    | (.ok (), _) =>
      ∃ summary cases, replay.result = .ok summary ∧
        replay.events = .runStarted corpus.size :: cases ++ [.runFinished summary] ∧
        Tells corpus cases summary := by
  intro replay
  rcases hstart : host.start settings s with ⟨failure | ⟨⟩, up⟩
  · have hreplay : replay = ⟨.error failure, [.runStarted corpus.size], up⟩ := by
      simp [replay, Corpus.replay, hstart]
    have hcalls : corpus.replayCalls host settings execute s = [] := by
      simp [Corpus.replayCalls, Corpus.replay, host.start_onFirst, hstart]
    simp [hreplay, hcalls]
  · refine ⟨_, _, ?_, ?_, corpus.tells_run execute up⟩
    · simp [replay, Corpus.replay, hstart]
    · simp [replay, Corpus.replay, hstart]

end Transcript

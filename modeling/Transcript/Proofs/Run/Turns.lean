-- The turns of a run. The loop takes a turn as long as the phase holds an index, and for the
-- turn the corpus must have a case there. One invariant ties the phase, the cases run and
-- the failure to the number of turns taken, and every turn keeps it; so an index never
-- leaves the corpus, and the loop is left after at most one turn a case.
import Transcript.Proofs.Run.Course

namespace Transcript

variable {σ : Type} {corpus : Corpus} {execute : Executor σ}

/-- What phase a turn on case `i` of this many leads to. -/
inductive Phase.Follows (total i : Nat) : Phase → Prop where
  | next : i + 1 < total → Follows total i (.running (i + 1))
  | passed : i + 1 = total → Follows total i .passed
  | failed : Follows total i .failed

namespace Progress

/-- The turns of the loop: the run at the start of each turn, and the run with which the loop is
left. There is no turn for an index at which the corpus has no case. -/
inductive Turns (corpus : Corpus) (execute : Executor σ) :
    Progress σ → List (Progress σ) → Progress σ → Prop where
  | left {p : Progress σ} : (∀ i, p.phase ≠ .running i) → Turns corpus execute p [] p
  | turn {p last : Progress σ} {i : Nat} {case : Case} {later : List (Progress σ)} :
      p.phase = .running i → corpus.cases[i]? = some case →
      Turns corpus execute (p.runCase corpus.size i case execute) later last →
      Turns corpus execute p (p :: later) last

/-- Where a run stands after `n` turns. -/
inductive Stands (corpus : Corpus) (n : Nat) (p : Progress σ) : Prop where
  | running : p.phase = .running n → n < corpus.size → p.casesRun = n → p.failure = none →
      Stands corpus n p
  | passed : p.phase = .passed → n = corpus.size → p.casesRun = n → p.failure = none →
      Stands corpus n p
  | failed {report : FailureReport} : p.phase = .failed → n ≤ corpus.size → p.casesRun = n →
      p.failure = some report → Stands corpus n p

variable {p last : Progress σ} {heads : List (Progress σ)} {n i : Nat} {case : Case}

/-! ## One turn -/

theorem stands_start (corpus : Corpus) (state : σ) : (start corpus state).Stands corpus 0 := by
  by_cases hsize : corpus.size = 0
  · exact .passed (by simp [start, Phase.begin, hsize]) hsize.symm rfl rfl
  · exact .running (by simp [start, Phase.begin, hsize]) (Nat.pos_of_ne_zero hsize) rfl rfl

theorem Stands.le_size (h : p.Stands corpus n) : n ≤ corpus.size := by
  cases h with
  | running _ hn => exact Nat.le_of_lt hn
  | passed _ hn => exact Nat.le_of_eq hn
  | failed _ hn => exact hn

/-- A run that is not left is at the case with the number of the turns taken, and nothing has
failed. -/
theorem Stands.of_running (h : p.Stands corpus n) (hphase : p.phase = .running i) :
    i = n ∧ n < corpus.size ∧ p.casesRun = n ∧ p.failure = none := by
  cases h with
  | running hn hlt hrun hfailure =>
    rw [hphase] at hn
    cases hn
    exact ⟨rfl, hlt, hrun, hfailure⟩
  | passed hn | failed hn =>
    rw [hphase] at hn
    cases hn

/-- A turn keeps the invariant, whatever the executor answers. -/
theorem Stands.runCase (h : p.Stands corpus n) (hphase : p.phase = .running i) (case : Case)
    (execute : Executor σ) : (p.runCase corpus.size i case execute).Stands corpus (n + 1) := by
  obtain ⟨rfl, hlt, hrun, hfailure⟩ := h.of_running hphase
  simp only [Progress.runCase]
  split
  · by_cases hlast : i + 1 < corpus.size
    · refine .running ?_ hlast (congrArg (· + 1) hrun) hfailure
      simp only [hphase, Phase.afterPass, if_pos hlast]
    · refine .passed ?_ (by omega) (congrArg (· + 1) hrun) hfailure
      simp only [hphase, Phase.afterPass, if_neg hlast]
  · exact .failed rfl hlt (congrArg (· + 1) hrun) rfl

theorem Stands.follows (h : p.Stands corpus (n + 1)) : p.phase.Follows corpus.size n := by
  cases h with
  | running hphase hlt => exact hphase ▸ .next hlt
  | passed hphase hn => exact hphase ▸ .passed hn
  | failed hphase => exact hphase ▸ .failed

/-! ## All turns -/

/-- The invariant holds at the start of every turn and when the loop is left. By induction on the
turns, each of which moves the count on by one. -/
theorem Turns.stands (h : Turns corpus execute p heads last) (hp : p.Stands corpus n) {i : Nat}
    {q : Progress σ} (hq : (heads ++ [last])[i]? = some q) : q.Stands corpus (n + i) := by
  induction h generalizing n i with
  | left =>
    rcases i with _ | i
    · cases hq
      exact hp
    · cases hq
  | @turn p last k case later hphase hcase _ ih =>
    rcases i with _ | i
    · cases hq
      exact hp
    · rw [← Nat.add_assoc, Nat.add_right_comm]
      exact ih (hp.runCase hphase case execute) hq

theorem Turns.running_of_mem (h : Turns corpus execute p heads last) {q : Progress σ}
    (hq : q ∈ heads) : ∃ i, q.phase = .running i := by
  induction h with
  | left => cases hq
  | turn hphase _ _ ih =>
    rcases List.mem_cons.mp hq with rfl | hq
    · exact ⟨_, hphase⟩
    · exact ih hq

theorem Turns.last_ne_running (h : Turns corpus execute p heads last) (i : Nat) :
    last.phase ≠ .running i := by
  induction h with
  | left hphase => exact hphase i
  | turn _ _ _ ih => exact ih

/-- The loop is left: every turn leaves one case less. -/
theorem Stands.exists_turns (h : p.Stands corpus n) (execute : Executor σ) :
    ∃ heads last, Turns corpus execute p heads last := by
  obtain ⟨k, hk⟩ : ∃ k, corpus.size = n + k := Nat.exists_eq_add_of_le h.le_size
  induction k generalizing n p with
  | zero =>
    refine ⟨_, _, .left fun i hphase => ?_⟩
    obtain ⟨-, hlt, -⟩ := h.of_running hphase
    omega
  | succ k ih =>
    cases hphase : p.phase with
    | running i =>
      obtain ⟨rfl, hlt, -⟩ := h.of_running hphase
      have hcase : corpus.cases[i]? = some corpus.cases[i] := List.getElem?_eq_getElem hlt
      obtain ⟨later, last, hturns⟩ := ih (h.runCase hphase corpus.cases[i] execute) (by omega)
      exact ⟨_, _, .turn hphase hcase hturns⟩
    | notStarted | serverUp | passed | failed =>
      refine ⟨_, _, .left fun i hrunning => ?_⟩
      rw [hphase] at hrunning
      cases hrunning

theorem Turns.unique (h : Turns corpus execute p heads last) {heads' : List (Progress σ)}
    {last' : Progress σ} (h' : Turns corpus execute p heads' last') :
    heads' = heads ∧ last' = last := by
  induction h generalizing heads' last' with
  | left hleft =>
    cases h' with
    | left => exact ⟨rfl, rfl⟩
    | turn hphase => exact absurd hphase (hleft _)
  | turn hphase hcase _ ih =>
    cases h' with
    | left hleft => exact absurd hphase (hleft _)
    | turn hphase' hcase' hlater =>
      rw [hphase] at hphase'
      cases hphase'
      rw [hcase] at hcase'
      cases hcase'
      obtain ⟨rfl, rfl⟩ := ih hlater
      exact ⟨rfl, rfl⟩

theorem advance_of_left (hleft : ∀ i, p.phase ≠ .running i) (turns : Nat) :
    p.advance corpus execute turns = p := by
  have hstep : p.step corpus execute = p := by
    unfold step
    split
    · exact absurd ‹_› (hleft _)
    · rfl
  induction turns with
  | zero => rfl
  | succ turns ih => rw [advance_succ, hstep, ih]

/-- As many turns as the loop takes, or more, lead to where it is left. -/
theorem Turns.advance_eq (h : Turns corpus execute p heads last) {turns : Nat}
    (hturns : heads.length ≤ turns) : p.advance corpus execute turns = last := by
  induction h generalizing turns with
  | left hleft => exact advance_of_left hleft turns
  | turn hphase hcase _ ih =>
    obtain ⟨turns, rfl⟩ : ∃ k, turns = k + 1 := Nat.exists_eq_add_of_le' (Nat.zero_lt_of_lt hturns)
    rw [advance_succ, step, hphase]
    simp only [hcase]
    exact ih (Nat.le_of_succ_le_succ hturns)

end Progress

/-- A run never leaves its corpus, and ends. From its start the loop takes turns in one way, at
most one a case, each at a case that is there, and the run is what it is left with. Turn `i` is
on case `i`, after `i` cases and without a failure, and leads to the next case, from the last
case to `passed`, or to `failed`. At the end the run has passed or failed; it has passed
exactly if it tells of no failure, and then all cases were run. -/
theorem a_run_ends_inside_its_corpus (corpus : Corpus) (execute : Executor σ) (state : σ) :
    let last := corpus.run execute state
    let summary := last.summary corpus
    (∃ heads, Progress.Turns corpus execute (.start corpus state) heads last ∧
      (∀ heads' last', Progress.Turns corpus execute (.start corpus state) heads' last' →
        heads' = heads ∧ last' = last) ∧
      heads.length ≤ corpus.size ∧
      heads.map (·.phase) = (List.range heads.length).map .running ∧
      ∀ i p next, heads[i]? = some p → (heads ++ [last])[i + 1]? = some next →
        p.phase = .running i ∧ i < corpus.size ∧ p.casesRun = i ∧ p.failure = none ∧
          next.phase.Follows corpus.size i) ∧
    (summary.phase = .passed ∨ summary.phase = .failed) ∧
    (summary.passed = true ↔ summary.phase = .passed) ∧
    (summary.phase = .passed ↔ summary.failure = none) ∧
    (summary.phase = .passed → summary.casesRun = summary.casesTotal) := by
  intro last summary
  have hstart := Progress.stands_start corpus state
  obtain ⟨heads, found, hturns⟩ := hstart.exists_turns execute
  have hstands {i : Nat} {q : Progress σ} (hq : (heads ++ [found])[i]? = some q) :
      q.Stands corpus i := by
    rw [← Nat.zero_add i]
    exact hturns.stands hstart hq
  have hfound : found.Stands corpus heads.length := hstands (by simp)
  have hlast : last = found := hturns.advance_eq hfound.le_size
  have hhead {i : Nat} {p : Progress σ} (hp : heads[i]? = some p) :
      p.phase = .running i ∧ i < corpus.size ∧ p.casesRun = i ∧ p.failure = none := by
    obtain ⟨k, hphase⟩ := hturns.running_of_mem (List.mem_of_getElem? hp)
    have hi : i < heads.length := (List.getElem?_eq_some_iff.mp hp).1
    have hp' : p.Stands corpus i := hstands (by rw [List.getElem?_append_left hi, hp])
    obtain ⟨rfl, h⟩ := hp'.of_running hphase
    exact ⟨hphase, h⟩
  refine ⟨⟨heads, ?turns, ?unique, hfound.le_size, ?phases, ?turn⟩, ?_⟩
  case turns =>
    rw [hlast]
    exact hturns
  case unique =>
    rw [hlast]
    exact fun heads' last' h => hturns.unique h
  case phases =>
    refine List.ext_getElem (by simp) fun i hi _ => ?_
    rw [List.length_map] at hi
    simp [(hhead (List.getElem?_eq_getElem hi)).1]
  case turn =>
    rw [hlast]
    intro i p next hp hnext
    obtain ⟨hphase, hlt, hrun, hfailure⟩ := hhead hp
    exact ⟨hphase, hlt, hrun, hfailure, (hstands hnext).follows⟩
  simp only [summary, hlast, Progress.summary]
  cases hfound with
  | running hphase => exact absurd hphase (hturns.last_ne_running _)
  | passed hphase hn hrun hfailure => simp [hphase, hrun, hfailure, hn]
  | failed hphase _ _ hfailure => simp [hphase, hfailure]

/-- Of three cases the second fails. The loop takes two turns; the second is on case 1, with
one case run and no failure, and the run has not passed. -/
theorem a_run_takes_no_turn_behind_a_failure :
    let corpus : Corpus := ⟨[⟨"ping", "PONG\n"⟩, ⟨"get n", "1\n"⟩, ⟨"ping", "PONG\n"⟩]⟩
    let answers : List (String → Except Failure String) :=
      [fun _ => .ok "PONG\n", fun _ => .ok "2\n"]
    let first := Progress.start corpus answers
    let second := first.runCase 3 0 ⟨"ping", "PONG\n"⟩ .scripted
    let last := corpus.run .scripted answers
    Progress.Turns corpus .scripted first [first, second] last ∧
      second.phase = .running 1 ∧ second.casesRun = 1 ∧ second.failure = none ∧
      last.phase = .failed ∧ (last.summary corpus).passed ≠ true := by
  intro corpus answers first second last
  have hturns : Progress.Turns corpus .scripted first [first, second] last :=
    .turn (i := 0) rfl rfl (.turn (i := 1) rfl rfl (.left fun i h => by cases h))
  obtain ⟨⟨heads, -, hunique, -, -, hturn⟩, -, hpassed, -⟩ :=
    a_run_ends_inside_its_corpus corpus .scripted answers
  obtain ⟨rfl, -⟩ := hunique _ _ hturns
  obtain ⟨hphase, -, hrun, hfailure, -⟩ := hturn 1 second last rfl rfl
  have hfailed : last.phase = .failed := rfl
  refine ⟨hturns, hphase, hrun, hfailure, hfailed, fun h => ?_⟩
  have hphase := hpassed.mp h
  cases hphase

end Transcript

-- What the console prints of a run, row by row. Its two counts come from two sources: a case
-- that fails is told under its index and the number of cases that the console was told first,
-- the last row under the counts of the summary. The states of a run show that they agree.
import Transcript.Proofs.Corpus.Range
import Transcript.Proofs.Mismatch
import Transcript.Proofs.Run.Course

namespace Transcript

variable {σ : Type}

/-! ## Rows -/

namespace Console

/-- The row of a case that passed. -/
def passedRow (case : Case) : String := "✔ Test passed: " ++ case.command

/-- The row of the first difference between an output and the expected one, if they differ. -/
def differenceRow (case : Case) (actual : String) : List String :=
  (firstDivergentLine actual case.expected).toList.map fun n =>
    "  first difference at line " ++ toString n

/-- The rows of an output that a failure is about. -/
def actualRows (case : Case) : Failure → List String
  | .mismatch _ actual _ => "  actual:" :: blockRows actual ++ differenceRow case actual
  | _ => []

/-- The rows of a case that failed, under its number. -/
def failedRows (number total : Nat) (case : Case) (failure : Failure) : List String :=
  ["✖ Test failed: " ++ failure.message,
    "  case " ++ toString number ++ " of " ++ toString total, "  expected:"] ++
    blockRows case.expected ++ actualRows case failure

/-- The rows at the end of a run. -/
def lastRows (summary : Summary) : List String :=
  ["", if summary.passed then
      "✓ " ++ toString summary.casesTotal ++ "/" ++ toString summary.casesTotal ++ " cases passed"
    else "✗ Failed at case " ++ toString summary.casesRun ++ " of " ++ toString summary.casesTotal]

theorem lines_mismatchRows (case : Case) (actual : String) :
    lines (mismatchRows false case actual) =
      lines ("  actual:" :: blockRows actual ++ differenceRow case actual) := by
  have hdifference : mismatchRows false case actual =
      ["  actual:"] ++ [indentBlock false actual] ++ differenceRow case actual := by
    unfold mismatchRows differenceRow
    cases firstDivergentLine actual case.expected <;> rfl
  rw [hdifference, lines_append, lines_append, lines_indentBlock, ← lines_append, ← lines_append]
  rfl

variable (progress : Bool) (total : Nat)

/-- A failure is printed under the number of cases that the console was told. -/
theorem lines_failureRows (index : Nat) (case : Case) (failure : Failure) :
    lines ((⟨false, progress, total⟩ : Console).failureRows index case failure) =
      lines (failedRows (index + 1) total case failure) := by
  have hactual : ∃ shown, lines shown = lines (actualRows case failure) ∧
      (⟨false, progress, total⟩ : Console).failureRows index case failure =
        ["✖ Test failed: " ++ failure.message,
          "  case " ++ toString (index + 1) ++ " of " ++ toString total, "  expected:"] ++
          [indentBlock false case.expected] ++ shown := by
    cases failure
    case mismatch command actual expected =>
      refine ⟨mismatchRows false case actual, lines_mismatchRows case actual, ?_⟩
      simp [failureRows, Failure.actual?, Style.paint, ← String.append_assoc]
    all_goals
      refine ⟨[], rfl, ?_⟩
      simp [failureRows, Failure.actual?, Style.paint, ← String.append_assoc]
  obtain ⟨shown, hshown, hrows⟩ := hactual
  rw [hrows, lines_append, lines_append, hshown, lines_indentBlock, ← lines_append,
    ← lines_append]
  rfl

theorem lines_verdict (summary : Summary) :
    lines [verdict false summary] = lines (lastRows summary) := by
  unfold verdict lastRows
  split <;> simp [lines, Style.paint, ← String.append_assoc]

end Console

/-! ## Events one behind the other -/

namespace Observer

theorem transcript_cons (o : Observer) (e : Event) (events : List Event) :
    o.transcript (e :: events) = (o.observe e).2 ++ (o.observe e).1.transcript events := by
  simp [transcript, texts, String.join_cons]

variable (progress : Bool) (total : Nat)

/-- Cases that passed are told in one row each, and the console stays as it is. -/
theorem transcript_passedEvents_append (cases : List Case) (events : List Event) :
    (console ⟨false, progress, total⟩).transcript (passedEvents cases ++ events) =
      Console.lines (cases.map Console.passedRow) ++
        (console ⟨false, progress, total⟩).transcript events := by
  unfold passedEvents
  generalize 0 = first
  induction cases generalizing first with
  | nil => simp [Console.lines]
  | cons case rest ih =>
    have hrow : Console.lines (Console.passedRow case :: rest.map Console.passedRow) =
        Console.lines [Console.passedRow case] ++ Console.lines (rest.map Console.passedRow) :=
      Console.lines_append [_] _
    rw [List.zipIdx_cons, List.flatMap_cons, List.append_assoc, List.cons_append,
      List.cons_append, List.nil_append, transcript_cons, transcript_cons]
    simp only [observe, Console.observe, Style.paint, ih, List.map_cons, hrow]
    rw [String.empty_append, String.append_assoc]
    rfl

theorem transcript_failed (index : Nat) (case : Case) (failure : Failure) (events : List Event) :
    (console ⟨false, progress, total⟩).transcript
        (.caseStarted index case :: .caseFailed index case failure :: events) =
      Console.lines (Console.failedRows (index + 1) total case failure) ++
        (console ⟨false, progress, total⟩).transcript events := by
  rw [transcript_cons, transcript_cons]
  simp only [observe, Console.observe, Console.lines_failureRows, String.empty_append]

theorem transcript_runFinished (summary : Summary) :
    (console ⟨false, progress, total⟩).transcript [.runFinished summary] =
      Console.lines (Console.lastRows summary) := by
  rw [transcript_cons]
  simp [observe, Console.observe, Console.lines_verdict, transcript, texts]

end Observer

/-! ## Whole runs -/

namespace Corpus

/-- What the observers of a run are told: the number of cases, the cases, the summary. -/
def told (corpus : Corpus) (execute : Executor σ) (state : σ) : List Event :=
  .runStarted corpus.size :: (corpus.run execute state).events ++
    [.runFinished ((corpus.run execute state).summary corpus)]

/-- What the console prints of a run, without colours. -/
def printed (corpus : Corpus) (execute : Executor σ) (state : σ) (progress : Bool) : String :=
  (Observer.ofConsole false progress).transcript (corpus.told execute state)

variable {corpus : Corpus} {execute : Executor σ} {state : σ}

/-- The console first learns the number of cases. -/
theorem printed_eq (corpus : Corpus) (execute : Executor σ) (state : σ) (progress : Bool) :
    corpus.printed execute state progress =
      (Observer.console ⟨false, progress, corpus.size⟩).transcript
        ((corpus.run execute state).events ++
          [.runFinished ((corpus.run execute state).summary corpus)]) := by
  rw [printed, told, List.cons_append, Observer.transcript_cons]
  simp [Observer.ofConsole, Observer.observe, Console.observe]

theorem printed_of_passes (hpass : ∀ i, corpus.failureAt? execute state i = none)
    (progress : Bool) :
    corpus.printed execute state progress =
      Console.lines (corpus.cases.map Console.passedRow ++
        Console.lastRows ((corpus.run execute state).summary corpus)) := by
  have hevents : (corpus.run execute state).events = passedEvents corpus.cases := by
    rw [run_of_passes hpass]
    simp [Progress.passing, size]
  rw [printed_eq, hevents, Observer.transcript_passedEvents_append,
    Observer.transcript_runFinished, Console.lines_append]

theorem printed_of_divergesFirstAt {j : Nat} {case : Case} {failure : Failure}
    (h : corpus.DivergesFirstAt execute state j case failure) (progress : Bool) :
    corpus.printed execute state progress =
      Console.lines ((corpus.cases.take j).map Console.passedRow ++
        Console.failedRows (j + 1) corpus.size case failure ++
        Console.lastRows ((corpus.run execute state).summary corpus)) := by
  have hevents : (corpus.run execute state).events = passedEvents (corpus.cases.take j) ++
      [.caseStarted j case, .caseFailed j case failure] := by
    rw [run_of_divergesFirstAt h]
    rfl
  rw [printed_eq, hevents, List.append_assoc, Observer.transcript_passedEvents_append,
    List.cons_append, List.cons_append, List.nil_append, Observer.transcript_failed,
    Observer.transcript_runFinished, Console.lines_append, Console.lines_append,
    String.append_assoc]

/-- What an executor gave that is not the expected output differs from it in some line. -/
theorem DivergesFirstAt.exists_differenceRow {j : Nat} {case : Case} {failure : Failure}
    (h : corpus.DivergesFirstAt execute state j case failure) {actual : String}
    (hanswer : (execute case.command (execute.after (corpus.cases.take j) state)).1 = .ok actual) :
    failure = .mismatch case.command actual case.expected ∧
      ∃ n, firstDivergentLine actual case.expected = some n := by
  have hfailure := h.failure_eq
  simp only [failureAt?, h.case_eq, Option.bind_some, hanswer, Case.failureOf?] at hfailure
  split at hfailure
  · cases hfailure
  · rename_i hne
    refine ⟨(Option.some.inj hfailure).symm, ?_⟩
    rw [← Option.ne_none_iff_exists', firstDivergentLine_eq_by_characters, Ne,
      firstDivergentLineBy_eq_none_iff, String.toList_inj]
    exact hne

/-- The command of a case that was read stands on one line. -/
theorem newline_not_mem_passedRow {prompt text : String} (h : parse prompt text = .ok corpus) :
    ∀ case ∈ corpus.cases, '\n' ∉ (Console.passedRow case).toList := by
  intro case hcase hnewline
  have hrow : (Console.passedRow case).toList = "✔ Test passed: ".toList ++ case.command.toList :=
    String.toList_append
  rw [hrow, List.mem_append] at hnewline
  exact hnewline.elim (by decide) (wellFormed_of_parse h case hcase).command.oneLine

/-- What the console prints of a run is in step with its summary, with or without a progress bar.
It has one row for each case before the first that fails, one line each if the corpus was read.
Behind them a case that fails is told under the number of cases run and out of their total, and
the last row repeats both; an output that is not the expected one is shown, with the line in which
it differs. If no case fails, the last row counts all of them. -/
theorem the_console_counts_what_the_summary_counts (corpus : Corpus) (execute : Executor σ)
    (state : σ) :
    let summary := (corpus.run execute state).summary corpus
    summary.casesTotal = corpus.size ∧
      (∀ j case failure, corpus.DivergesFirstAt execute state j case failure →
        summary.casesRun = j + 1 ∧
        (∀ progress, corpus.printed execute state progress =
          Console.lines ((corpus.cases.take j).map Console.passedRow ++
            Console.failedRows summary.casesRun summary.casesTotal case failure ++
            ["", "✗ Failed at case " ++ toString summary.casesRun ++ " of " ++
              toString summary.casesTotal])) ∧
        ∀ actual,
          (execute case.command (execute.after (corpus.cases.take j) state)).1 = .ok actual →
          failure = .mismatch case.command actual case.expected ∧
            ∃ n, Console.actualRows case failure = "  actual:" :: blockRows actual ++
              ["  first difference at line " ++ toString n] ∧
              firstDivergentLine actual case.expected = some n) ∧
      ((¬ ∃ j case failure, corpus.DivergesFirstAt execute state j case failure) →
        ∀ progress, corpus.printed execute state progress =
          Console.lines (corpus.cases.map Console.passedRow ++
            ["", "✓ " ++ toString summary.casesTotal ++ "/" ++ toString summary.casesTotal ++
              " cases passed"])) ∧
      ∀ prompt text, parse prompt text = .ok corpus →
        ∀ case ∈ corpus.cases, '\n' ∉ (Console.passedRow case).toList := by
  intro summary
  refine ⟨rfl, fun j case failure h => ?_, fun h progress => ?_,
    fun prompt text htext => newline_not_mem_passedRow htext⟩
  · have hsummary : summary = ⟨false, .failed, j + 1, corpus.size, some (.of case failure)⟩ := by
      simp only [summary, run_of_divergesFirstAt h]
      rfl
    refine ⟨by rw [hsummary], fun progress => ?_, fun actual hanswer => ?_⟩
    · rw [printed_of_divergesFirstAt h progress, show (corpus.run execute state).summary corpus =
        summary from rfl, hsummary]
      rfl
    · obtain ⟨rfl, n, hn⟩ := h.exists_differenceRow hanswer
      exact ⟨rfl, n, by simp [Console.actualRows, Console.differenceRow, hn], hn⟩
  · have hpass := failureAt?_eq_none_of_not_divergesFirstAt h
    have hsummary : summary = ⟨true, .passed, corpus.size, corpus.size, none⟩ :=
      summary_of_passes hpass
    rw [printed_of_passes hpass progress, show (corpus.run execute state).summary corpus =
      summary from rfl, hsummary]
    rfl

/-- Of three cases the second gives a text without its newline; the third is not told of. -/
theorem the_console_counts_a_missing_newline :
    let corpus : Corpus := ⟨[⟨"ping", "PONG\n"⟩, ⟨"get n", "1\n"⟩, ⟨"ping", "PONG\n"⟩]⟩
    let answers : List (String → Except Failure String) := [fun _ => .ok "PONG\n", fun _ => .ok "1"]
    let failure : Failure := .mismatch "get n" "1" "1\n"
    parse ">" "> ping\nPONG\n> get n\n1\n> ping\nPONG" = .ok corpus ∧
      corpus.DivergesFirstAt .scripted answers 1 ⟨"get n", "1\n"⟩ failure ∧
      corpus.printed .scripted answers true =
        "✔ Test passed: ping\n" ++
          "✖ Test failed: command: get n returned: \"1\" but expected \"1\\n\"\n" ++
          "  case 2 of 3\n  expected:\n    1\n  actual:\n    1 (no newline at end)\n" ++
          "  first difference at line 1\n\n✗ Failed at case 2 of 3\n" ∧
      ∀ case ∈ corpus.cases, '\n' ∉ (Console.passedRow case).toList := by
  intro corpus answers failure
  have h : corpus.DivergesFirstAt .scripted answers 1 ⟨"get n", "1\n"⟩ failure :=
    { case_eq := rfl
      failure_eq := rfl
      before := fun i hi => by
        obtain rfl : i = 0 := by omega
        rfl }
  have htext : parse ">" "> ping\nPONG\n> get n\n1\n> ping\nPONG" = .ok corpus := by decide +kernel
  obtain ⟨-, hfailed, -, hlines⟩ :=
    the_console_counts_what_the_summary_counts corpus .scripted answers
  obtain ⟨-, hprinted, -⟩ := hfailed 1 _ failure h
  exact ⟨htext, h, (hprinted true).trans (by decide +kernel), hlines _ _ htext⟩

end Corpus

end Transcript

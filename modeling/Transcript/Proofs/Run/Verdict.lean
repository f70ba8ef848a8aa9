-- The verdict on a case whose command is run as a process. It is read off the bytes that the
-- process wrote on its output and off the way it ended: the case passes on exactly the bytes of
-- its expected output, another text is a mismatch, and all else is a command that failed.
import Transcript.Process
import Transcript.Proofs.Text.Utf8

namespace Transcript

/-! ## Bytes -/

/-- The bytes of a text. -/
def bytesOf (text : String) : List UInt8 := text.toUTF8.data.toList

theorem bytesOf_eq (text : String) : bytesOf text = Text.utf8 text.toList :=
  (Text.utf8_toList text).symm

theorem bytesOf_injective {s t : String} (h : bytesOf s = bytesOf t) : s = t := by
  rw [bytesOf_eq, bytesOf_eq] at h
  exact String.toList_inj.mp (Text.utf8_injective h)

theorem mapError_eq_ok_iff {ε ε' α : Type} {f : ε → ε'} {x : Except ε α} {a : α} :
    x.mapError f = .ok a ↔ x = .ok a := by
  rcases x with fault | b <;> simp [Except.mapError]

/-- An output is exactly what a process wrote that ended well. -/
theorem ProcessOutcome.answer_eq_ok_iff {program text : String} {outcome : ProcessOutcome} :
    outcome.answer program = .ok text ↔
      ∃ stderr, outcome = .ended (.code 0) (Text.utf8 text.toList) stderr := by
  rcases outcome with reason | ⟨n | n, stdout, stderr⟩
  · simp [answer]
  · by_cases hn : n = 0
    · subst hn
      have hdecode : answer program (.ended (.code 0) stdout stderr) = .ok text ↔
          Text.decodeUtf8 stdout = .ok text.toList := by
        rcases hstdout : Text.decodeUtf8 stdout with fault | cs
        · simp [answer, hstdout]
        · simp [answer, hstdout, ← String.toList_inj]
      rw [hdecode, Text.decodeUtf8_eq_ok_iff]
      simp [eq_comm]
    · simp [answer, hn]
  · simp [answer]

/-- What came of a process, but for what it wrote on its error output. -/
def ProcessOutcome.withoutStderr : ProcessOutcome → ProcessOutcome
  | .notStarted reason => .notStarted reason
  | .ended status stdout _ => .ended status stdout []

theorem ProcessOutcome.exists_of_withoutStderr {o : ProcessOutcome} {status : ExitStatus}
    {stdout stderr : List UInt8}
    (h : o.withoutStderr = (ended status stdout stderr).withoutStderr) :
    ∃ other, o = .ended status stdout other := by
  cases o with
  | notStarted reason => cases h
  | ended status' stdout' other =>
    cases h
    exact ⟨other, rfl⟩

/-! ## Commands as processes -/

variable {σ : Type}

namespace Launcher

/-- The command has words, and its process ended well and wrote this. -/
def Wrote (launch : Launcher σ) (settings : ClientSettings) (command : String) (s : σ)
    (stdout : List UInt8) : Prop :=
  ∃ program arguments stderr, Words.ofCommand command = .ok (program :: arguments) ∧
    (launch settings program arguments s).1 = .ended (.code 0) stdout stderr

/-- The verdict on a case whose command is run as a process. -/
def verdict (launch : Launcher σ) (settings : ClientSettings) (case : Case) (s : σ) :
    Except Failure Unit :=
  Progress.outcome case (launch.executor settings case.command s).1

variable {launch : Launcher σ} {settings : ClientSettings} {case : Case} {s : σ}

/-- A command with words is answered as its process answers. -/
theorem fst_executor {command program : String} {arguments : List String}
    (h : Words.ofCommand command = .ok (program :: arguments)) :
    (launch.executor settings command s).1 =
      ((launch settings program arguments s).1.answer program).mapError (.execution command) := by
  rw [executor, h]

/-- A command without words fails, and so does one that cannot be cut into words. -/
theorem exists_of_no_words (launch : Launcher σ) (settings : ClientSettings) (s : σ)
    {command : String}
    (h : ∀ program arguments, Words.ofCommand command ≠ .ok (program :: arguments)) :
    ∃ cause, (launch.executor settings command s).1 = .error (.execution command cause) := by
  unfold executor
  split
  · exact ⟨_, rfl⟩
  · exact ⟨_, rfl⟩
  · rename_i hwords
    exact absurd hwords (h _ _)

/-- A command is answered with a text where its process wrote the bytes of that text. -/
theorem executor_eq_ok_iff {command text : String} :
    (launch.executor settings command s).1 = .ok text ↔
      launch.Wrote settings command s (bytesOf text) := by
  rw [bytesOf_eq]
  constructor
  · intro h
    by_cases hwords : ∃ program arguments, Words.ofCommand command = .ok (program :: arguments)
    · obtain ⟨program, arguments, hwords⟩ := hwords
      rw [fst_executor hwords, mapError_eq_ok_iff, ProcessOutcome.answer_eq_ok_iff] at h
      obtain ⟨stderr, houtcome⟩ := h
      exact ⟨program, arguments, stderr, hwords, houtcome⟩
    · push Not at hwords
      obtain ⟨cause, herror⟩ := exists_of_no_words launch settings s hwords
      rw [herror] at h
      cases h
  · rintro ⟨program, arguments, stderr, hwords, houtcome⟩
    rw [fst_executor hwords, mapError_eq_ok_iff, ProcessOutcome.answer_eq_ok_iff]
    exact ⟨stderr, houtcome⟩

/-- A command without an output failed, and the failure names the command. -/
theorem exists_of_executor_eq_error {command : String} {failure : Failure}
    (h : (launch.executor settings command s).1 = .error failure) :
    ∃ cause, failure = .execution command cause := by
  by_cases hwords : ∃ program arguments, Words.ofCommand command = .ok (program :: arguments)
  · obtain ⟨program, arguments, hwords⟩ := hwords
    rw [fst_executor hwords] at h
    rcases hanswer : (launch settings program arguments s).1.answer program with cause | found
    · rw [hanswer] at h
      exact ⟨cause, (Except.error.inj h).symm⟩
    · rw [hanswer] at h
      cases h
  · push Not at hwords
    obtain ⟨cause, herror⟩ := exists_of_no_words launch settings s hwords
    rw [herror] at h
    exact ⟨cause, (Except.error.inj h).symm⟩

/-- The output of a command is the only one it has. -/
theorem Wrote.eq {command : String} {stdout stdout' : List UInt8}
    (h : launch.Wrote settings command s stdout) (h' : launch.Wrote settings command s stdout') :
    stdout = stdout' := by
  obtain ⟨program, arguments, stderr, hwords, houtcome⟩ := h
  obtain ⟨program', arguments', stderr', hwords', houtcome'⟩ := h'
  rw [hwords] at hwords'
  cases hwords'
  rw [houtcome] at houtcome'
  cases houtcome'
  rfl

theorem verdict_eq_ok_iff :
    launch.verdict settings case s = .ok () ↔
      launch.Wrote settings case.command s (bytesOf case.expected) := by
  rw [← executor_eq_ok_iff, verdict]
  rcases (launch.executor settings case.command s).1 with failure | actual
  · simp [Progress.outcome]
  · simp [Progress.outcome, Case.judge]

/-- What a case that did not pass is told to be: a mismatch with a text that was written, or a
command that failed without writing one. -/
theorem verdict_eq_error {failure : Failure}
    (h : launch.verdict settings case s = .error failure) :
    (∃ actual, launch.Wrote settings case.command s (bytesOf actual) ∧ actual ≠ case.expected ∧
        failure = .mismatch case.command actual case.expected) ∨
      (¬ ∃ actual, launch.Wrote settings case.command s (bytesOf actual)) ∧
        ∃ cause, failure = .execution case.command cause := by
  unfold verdict at h
  rcases hanswer : (launch.executor settings case.command s).1 with cause | actual
  · rw [hanswer] at h
    refine .inr ⟨?_, ?_⟩
    · rintro ⟨actual, hwrote⟩
      rw [executor_eq_ok_iff.mpr hwrote] at hanswer
      cases hanswer
    · rw [← Except.error.inj h]
      exact exists_of_executor_eq_error hanswer
  · rw [hanswer, Progress.outcome, Case.judge] at h
    split at h
    · cases h
    · rename_i hne
      exact .inl ⟨actual, executor_eq_ok_iff.mp hanswer, hne, (Except.error.inj h).symm⟩

/-- The processes of both come to the same, but for what they write on their error output. -/
def SameButStderr (launch other : Launcher σ) (settings : ClientSettings) (s : σ) : Prop :=
  ∀ program arguments,
    (launch settings program arguments s).1.withoutStderr =
      (other settings program arguments s).1.withoutStderr

theorem Wrote.of_sameButStderr {other : Launcher σ} {command : String} {stdout : List UInt8}
    (h : launch.SameButStderr other settings s) (hwrote : launch.Wrote settings command s stdout) :
    other.Wrote settings command s stdout := by
  obtain ⟨program, arguments, stderr, hwords, houtcome⟩ := hwrote
  have hsame := h program arguments
  rw [houtcome] at hsame
  obtain ⟨stderr', hother⟩ := ProcessOutcome.exists_of_withoutStderr hsame.symm
  exact ⟨program, arguments, stderr', hwords, hother⟩

/-- A case whose command is run as a process passes on exactly the bytes of its expected output,
from a process that ended well. Another text from such a process is a mismatch with that text. All
else, an output that is no text included, is a command that failed, and the failure names the
command as it stands in the case. What is written on the error output decides nothing. -/
theorem only_the_expected_bytes_pass (launch : Launcher σ) (settings : ClientSettings)
    (case : Case) (s : σ) :
    (launch.verdict settings case s = .ok () ↔
        launch.Wrote settings case.command s (bytesOf case.expected)) ∧
      (∀ failure, launch.verdict settings case s = .error failure →
        (∃ actual, launch.Wrote settings case.command s (bytesOf actual) ∧
            actual ≠ case.expected ∧ failure = .mismatch case.command actual case.expected) ∨
          (¬ ∃ actual, launch.Wrote settings case.command s (bytesOf actual)) ∧
            ∃ cause, failure = .execution case.command cause) ∧
      (∀ stdout, launch.Wrote settings case.command s stdout → (¬ ∃ text, bytesOf text = stdout) →
        ∃ cause, launch.verdict settings case s = .error (.execution case.command cause)) ∧
      ∀ other : Launcher σ, launch.SameButStderr other settings s →
        (other.verdict settings case s = .ok () ↔ launch.verdict settings case s = .ok ()) := by
  refine ⟨verdict_eq_ok_iff, fun _ => verdict_eq_error, fun stdout hwrote hnot => ?_,
    fun other hsame => ?_⟩
  · rcases hverdict : launch.verdict settings case s with failure | ⟨⟩
    · rcases verdict_eq_error hverdict with ⟨actual, hactual, -, -⟩ | ⟨-, cause, rfl⟩
      · exact absurd ⟨actual, hactual.eq hwrote⟩ hnot
      · exact ⟨cause, rfl⟩
    · exact absurd ⟨_, (verdict_eq_ok_iff.mp hverdict).eq hwrote⟩ hnot
  · rw [verdict_eq_ok_iff, verdict_eq_ok_iff]
    exact ⟨.of_sameButStderr fun p a => (hsame p a).symm, .of_sameButStderr hsame⟩

/-- The bytes that would be a slash in two bytes are no text and no output, a slash is no `/` with
a newline, and what a process complains about does not matter. -/
theorem an_overlong_slash_is_no_output :
    let wrote (stdout stderr : List UInt8) : Launcher Unit := fun _ _ _ s =>
      (.ended (.code 0) stdout stderr, s)
    let case : Case := ⟨"printf '/'", "/"⟩
    (∃ cause, (wrote [0xc0, 0xaf] []).verdict .default case () =
        .error (.execution "printf '/'" cause)) ∧
      (wrote [0x2f] []).verdict .default case () = .ok () ∧
      (wrote [0x2f] [0xff]).verdict .default case () = .ok () ∧
      (wrote [0x2f, 0x0a] []).verdict .default case () =
        .error (.mismatch "printf '/'" "/\n" "/") := by
  intro wrote case
  have hwords : Words.ofCommand "printf '/'" = .ok ["printf", "/"] := by decide +kernel
  have hwrote : ∀ stdout stderr,
      (wrote stdout stderr).Wrote .default case.command () stdout := fun stdout stderr =>
    ⟨"printf", ["/"], stderr, hwords, rfl⟩
  have hnot : ¬ ∃ text, bytesOf text = [0xc0, 0xaf] := by
    rintro ⟨text, htext⟩
    rw [bytesOf_eq, ← Text.decodeUtf8_eq_ok_iff] at htext
    cases htext
  have hslash : bytesOf "/" = [0x2f] := by decide +kernel
  have hline : bytesOf "/\n" = [0x2f, 0x0a] := by decide +kernel
  have hpassed : (wrote [0x2f] []).verdict .default case () = .ok () := by
    refine (only_the_expected_bytes_pass (wrote [0x2f] []) .default case ()).1.mpr ?_
    rw [hslash]
    exact hwrote _ _
  refine ⟨?_, hpassed, ?_, ?_⟩
  · obtain ⟨-, -, hrefused, -⟩ :=
      only_the_expected_bytes_pass (wrote [0xc0, 0xaf] []) .default case ()
    exact hrefused _ (hwrote _ _) hnot
  · obtain ⟨-, -, -, hsame⟩ := only_the_expected_bytes_pass (wrote [0x2f] []) .default case ()
    exact (hsame (wrote [0x2f] [0xff]) fun _ _ => rfl).mpr hpassed
  · obtain ⟨hok, herror, -, -⟩ :=
      only_the_expected_bytes_pass (wrote [0x2f, 0x0a] []) .default case ()
    rcases hverdict : (wrote [0x2f, 0x0a] []).verdict .default case () with failure | ⟨⟩
    · rcases herror failure hverdict with ⟨actual, hactual, -, rfl⟩ | ⟨hnone, -⟩
      · obtain rfl : actual = "/\n" :=
          bytesOf_injective ((hactual.eq (hwrote _ _)).trans hline.symm)
        rfl
      · exact absurd ⟨"/\n", hline ▸ hwrote _ _⟩ hnone
    · have hslashed := (hok.mp hverdict).eq (hwrote _ _)
      rw [hslash] at hslashed
      cases hslashed

end Launcher

end Transcript

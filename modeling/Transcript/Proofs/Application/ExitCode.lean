-- The exit code of a run. It is 0 exactly if the settings and the corpus are loaded, the server
-- comes up and every case passes in a process of its own; whatever else comes of it, it is 1. A
-- run that loads no corpus starts no process and prints nothing.
import Transcript.Proofs.Application.Loading
import Transcript.Proofs.Application.Processes

namespace Transcript.Application

variable {σ : Type} {system : System σ} {s opened : σ} {words : List String}
  {settingsFile logFile : Option String} {choice : CommandLine.RunChoice}
  {settings : Settings} {corpus : Corpus}

/-! ## Runs -/

/-- The log that a run was asked for is open. -/
inductive OpensLog (system : System σ) (s : σ) : Option String → σ → Prop where
  | asked {path : String} {opened : σ} :
      system.openLog path s = .ok opened → OpensLog system s (some path) opened
  | unasked : OpensLog system s none s

theorem withLog_eq_ok_iff :
    withLog system s logFile = .ok opened ↔ OpensLog system s logFile opened := by
  rcases logFile with _ | path
  · constructor
    · rintro ⟨⟩
      exact .unasked
    · rintro ⟨⟩
      rfl
  · rw [withLog, mapError_eq_ok_iff]
    constructor
    · exact .asked
    · rintro ⟨h⟩
      exact h

/-- What a run does once its log is open. -/
theorem run_eq (hwords : CommandLine.read words = .ok ⟨.run choice, settingsFile, logFile⟩)
    (hlog : withLog system s logFile = .ok opened) :
    run system s words =
      match load system opened settingsFile choice with
      | .error failure => .ofFailure "" failure opened
      | .ok (settings, corpus) =>
        replay system opened (choice.apply settings) corpus choice.asDocument := by
  simp only [run, hwords, invoke, hlog, load]
  rcases loadSettings system opened settingsFile with failure | settings
  · rfl
  · simp only [perform, effective, CommandLine.RunChoice.apply]
    rcases hcorpus : loadCorpus system opened (choice.corpus.apply settings.corpus) with
      failure | corpus
    · simp [bind, Except.bind, hcorpus]
    · simp [bind, Except.bind, hcorpus, pure, Except.pure]

/-! ## Processes -/

/-- The processes that a command line has the tool ask for, in order. -/
def processes (system : System σ) (s : σ) (words : List String) : List ProcessStart :=
  (run system.recording (s, []) words).state.2

theorem withLog_recording (hlog : withLog system s logFile = .ok opened)
    (starts : List ProcessStart) :
    withLog system.recording (s, starts) logFile = .ok (opened, starts) := by
  rcases logFile with _ | path
  · cases hlog
    rfl
  · have hopened : system.openLog path s = .ok opened := mapError_eq_ok_iff.mp hlog
    have hrecorded : system.recording.openLog path (s, starts) =
        (system.openLog path s).map fun opened => (opened, starts) := rfl
    rw [withLog, hrecorded, hopened]
    rfl

theorem replay_recording (system : System σ) (s : σ) (starts : List ProcessStart)
    (settings : Settings) (corpus : Corpus) (asDocument : Bool) :
    let plain := replay system s settings corpus asDocument
    replay system.recording (s, starts) settings corpus asDocument =
      ⟨plain.stdout, plain.stderr, plain.code, plain.state,
        starts ++ corpus.startsOfReplay system.server settings.server system.launch
          settings.client s⟩ := by
  have hreplay := corpus.replay_recording system.server settings.server system.launch
    settings.client s starts
  simp only [replay, System.recording, hreplay]
  rcases (corpus.replay system.server settings.server (system.launch.executor settings.client)
    s).result with failure | summary <;> rfl

/-- To keep the processes changes nothing of a run, and they are those of its replay. -/
theorem run_recording
    (hwords : CommandLine.read words = .ok ⟨.run choice, settingsFile, logFile⟩)
    (hlog : withLog system s logFile = .ok opened) :
    let plain := run system s words
    run system.recording (s, []) words =
      ⟨plain.stdout, plain.stderr, plain.code, plain.state,
        match load system opened settingsFile choice with
        | .error _ => []
        | .ok (settings, corpus) =>
          let settings := choice.apply settings
          corpus.startsOfReplay system.server settings.server system.launch settings.client
            opened⟩ := by
  have hload : load system.recording (opened, []) settingsFile choice =
      load system opened settingsFile choice := rfl
  rw [run_eq hwords hlog, run_eq hwords (withLog_recording hlog []), hload]
  rcases load system opened settingsFile choice with failure | ⟨settings, corpus⟩
  · rfl
  · exact replay_recording system opened [] (choice.apply settings) corpus choice.asDocument

/-- A replay has the exit code 0 exactly if the server comes up and after it every case passes
in a process of its own. -/
theorem code_replay_eq_zero_iff {asDocument : Bool} :
    (replay system s settings corpus asDocument).code = 0 ↔ ∃ program arguments commands,
      Words.ofCommand settings.server.command = .ok (program :: arguments) ∧
      system.server.ComesUp settings.server program arguments s ∧
      corpus.startsOfReplay system.server settings.server system.launch settings.client s =
        .server program arguments :: commands ∧
      List.Forall₂ Case.PassesIn corpus.cases commands := by
  unfold replay Corpus.replay Corpus.startsOfReplay
  rcases hstart : system.server.start settings.server s with ⟨failure | ⟨⟩, up⟩
  · have hdown : ∀ program arguments,
        Words.ofCommand settings.server.command = .ok (program :: arguments) →
        ¬ system.server.ComesUp settings.server program arguments s := by
      intro program arguments hwords hup
      have hok := system.server.start_eq_ok_iff.mpr ⟨program, arguments, hwords, hup⟩
      rw [hstart] at hok
      cases hok
    simp only [Outcome.ofFailure, Nat.one_ne_zero, false_iff]
    rintro ⟨program, arguments, commands, hwords, hup, -⟩
    exact hdown program arguments hwords hup
  · obtain ⟨program, arguments, hwords, hup⟩ :=
      system.server.start_eq_ok_iff.mp (congrArg Prod.fst hstart)
    have hpassed := corpus.forall₂_passesIn_startsOfRun_iff system.launch settings.client up
    simp only [Summary.exitCode, ServerHost.startsOf, hwords]
    simp [hpassed, hup]

theorem code_replay_le_one {asDocument : Bool} :
    (replay system s settings corpus asDocument).code ≤ 1 := by
  simp only [replay]
  split
  · simp only [Summary.exitCode]
    split
    · exact Nat.zero_le 1
    · exact Nat.le_refl 1
  · exact Nat.le_refl 1

/-! ## The exit code -/

/-- A run exits with 0 only for a corpus that matches. Once its log is open, its exit code is 0
exactly if its settings and its corpus are loaded, the server comes up, and the processes that
follow the server are one for each case, in order, each of which ended well with just the
expected output; or else the exit code is 1. If settings or corpus are not loaded, there is no
process and no output. To keep the processes changes nothing of the run. -/
theorem only_a_matched_corpus_exits_with_zero (system : System σ) (s opened : σ)
    (words : List String) (choice : CommandLine.RunChoice) (settingsFile logFile : Option String)
    (hwords : CommandLine.read words = .ok ⟨.run choice, settingsFile, logFile⟩)
    (hlog : OpensLog system s logFile opened) :
    let outcome := run system s words
    run system.recording (s, []) words =
        ⟨outcome.stdout, outcome.stderr, outcome.code, outcome.state, processes system s words⟩ ∧
      (outcome.code = 0 ↔ ∃ settings corpus program arguments commands,
        Loads system opened settingsFile choice settings corpus ∧
        Words.ofCommand (choice.apply settings).server.command = .ok (program :: arguments) ∧
        system.server.ComesUp (choice.apply settings).server program arguments opened ∧
        processes system s words = .server program arguments :: commands ∧
        List.Forall₂ Case.PassesIn corpus.cases commands) ∧
      (outcome.code = 0 ∨ outcome.code = 1) ∧
      ((¬ ∃ settings corpus, Loads system opened settingsFile choice settings corpus) →
        outcome.stdout = "" ∧ processes system s words = []) := by
  intro outcome
  rw [← withLog_eq_ok_iff] at hlog
  have hrun := run_eq hwords hlog
  have hrecorded := run_recording hwords hlog
  simp only [outcome, processes]
  rcases hload : load system opened settingsFile choice with failure | ⟨settings, corpus⟩ <;>
    simp only [hload] at hrun hrecorded
  · have hnothing : ∀ settings corpus,
        ¬ Loads system opened settingsFile choice settings corpus := by
      intro settings corpus hloads
      rw [load_eq_ok_iff.mpr hloads] at hload
      cases hload
    simp only [hrecorded, hrun, Outcome.ofFailure]
    refine ⟨trivial, ?_, .inr trivial, fun _ => ⟨trivial, trivial⟩⟩
    simp [hnothing]
  · have hloads := load_eq_ok_iff.mp hload
    have hcode : (replay system opened (choice.apply settings) corpus choice.asDocument).code ≤ 1 :=
      code_replay_le_one
    simp only [hrecorded, hrun]
    refine ⟨trivial, ?_, by omega, fun h => absurd ⟨settings, corpus, hloads⟩ h⟩
    rw [code_replay_eq_zero_iff]
    constructor
    · rintro ⟨program, arguments, commands, hprogram, hup, hcommands, hpass⟩
      exact ⟨settings, corpus, program, arguments, commands, hloads, hprogram, hup, hcommands,
        hpass⟩
    · rintro ⟨settings', corpus', program, arguments, commands, hloads', hrest⟩
      have hsame := load_eq_ok_iff.mpr hloads'
      rw [hload] at hsame
      cases hsame
      exact ⟨program, arguments, commands, hrest⟩

/-- A system on which every command prints what the one case of its one corpus expects. The
user's file, which is below the home directory of the account, names the server, and another
file of settings has no form. -/
def ponging : System Unit where
  environment _ _ := none
  accountHome _ := some "/home/ponger"
  isThere path _ := path = "/home/ponger/.config/golden-replay/config.toml"
  readText path _ :=
    if path = "ping.txt" then .ok "$ ping\nPONG\n"
    else if path = "/home/ponger/.config/golden-replay/config.toml" then
      .ok "[server]\ncommand = \"serve\"\n"
    else if path = "bad.toml" then .ok "[server\n"
    else .error "no such file"
  openLog _ _ := .ok ()
  launch _ _ _ _ := (.ended (.code 0) (Text.utf8 "PONG\n".toList) [], ())
  server :=
    { spawn := fun _ _ _ _ => (.ok (), ())
      pause := fun _ _ => ()
      poll := fun _ => (.ok none, ())
      requestStop := fun _ => ()
      await := fun _ _ => (.ended (.code 0), ())
      kill := fun _ => (.ok (), ())
      killAtOnce := fun _ => () }

/-- A run of the corpus that is there makes the server that the user's file names and the process
of its case; one of a corpus that is not there makes none, and neither does one with settings that
have no form. -/
theorem a_corpus_matches_and_another_is_missing :
    let choice (path : String) : CommandLine.RunChoice :=
      ⟨⟨some path, none⟩, none, none, false, false, true⟩
    let words (path : String) := ["run", "--corpus", path, "--json"]
    let badly := ["run", "--config", "bad.toml", "--corpus", "ping.txt", "--json"]
    CommandLine.read (words "ping.txt") = .ok ⟨.run (choice "ping.txt"), none, none⟩ ∧
      CommandLine.read (words "pong.txt") = .ok ⟨.run (choice "pong.txt"), none, none⟩ ∧
      CommandLine.read badly = .ok ⟨.run (choice "ping.txt"), some "bad.toml", none⟩ ∧
      (run ponging () (words "ping.txt")).code = 0 ∧
      processes ponging () (words "ping.txt") = [.server "serve" [],
        .command "ping" [] (.ended (.code 0) (Text.utf8 "PONG\n".toList) [])] ∧
      (run ponging () (words "pong.txt")).stdout = "" ∧
      processes ponging () (words "pong.txt") = [] ∧
      (run ponging () badly).code = 1 ∧ (run ponging () badly).stdout = "" ∧
      processes ponging () badly = [] := by
  intro choice words badly
  have hping : CommandLine.read (words "ping.txt") =
      .ok ⟨.run (choice "ping.txt"), none, none⟩ := by decide +kernel
  have hpong : CommandLine.read (words "pong.txt") =
      .ok ⟨.run (choice "pong.txt"), none, none⟩ := by decide +kernel
  have hbadly : CommandLine.read badly =
      .ok ⟨.run (choice "ping.txt"), some "bad.toml", none⟩ := by decide +kernel
  have hprocesses : processes ponging () (words "ping.txt") = [.server "serve" [],
      .command "ping" [] (.ended (.code 0) (Text.utf8 "PONG\n".toList) [])] := by
    decide +kernel
  have hmissing : ¬ ∃ settings corpus,
      Loads ponging () none (choice "pong.txt") settings corpus := by
    rintro ⟨settings, corpus, -, text, ⟨htext⟩, -⟩
    simp [ponging] at htext
  have hform : Settings.parse "[server\n" = .error .form := by decide +kernel
  have hunread : ¬ ∃ settings corpus,
      Loads ponging () (some "bad.toml") (choice "ping.txt") settings corpus := by
    rintro ⟨settings, corpus, ⟨htext, hparse⟩, -⟩
    obtain rfl := Except.ok.inj htext
    rw [hform] at hparse
    cases hparse
  have hfound := only_a_matched_corpus_exits_with_zero ponging () () _ _ _ _ hping .unasked
  have hlost := only_a_matched_corpus_exits_with_zero ponging () () _ _ _ _ hpong .unasked
  have hrefused := only_a_matched_corpus_exits_with_zero ponging () () _ _ _ _ hbadly .unasked
  refine ⟨hping, hpong, hbadly, ?found, hprocesses, (hlost.2.2.2 hmissing).1,
    (hlost.2.2.2 hmissing).2, ?refused, hrefused.2.2.2 hunread⟩
  case found =>
    refine hfound.2.1.mpr ⟨{ Settings.default with server := ⟨"serve", 1000, 2000, none⟩ },
      ⟨[⟨"ping", "PONG\n"⟩]⟩, "serve", [], _, ?loads, ?words, ?up, hprocesses, ?passes⟩
    case loads =>
      have hhome : IsHome ponging () "/home/ponger" := .account nofun rfl (by decide)
      have hall : IsForSettings ponging () "/home/ponger" "/home/ponger/.config" :=
        .inHome nofun (.apart (by decide))
      exact
        { finds := .users (.intro hhome hall (.apart (by decide)) (.apart (by decide))) rfl rfl
            (by decide +kernel)
          reads := ⟨"$ ping\nPONG\n", .file rfl, by decide +kernel⟩ }
    case words => decide +kernel
    case up => exact ⟨rfl, .inl rfl⟩
    case passes => exact .cons (.intro [] (by decide +kernel)) .nil
  case refused =>
    refine hrefused.2.2.1.resolve_left fun hzero => hunread ?_
    obtain ⟨settings, corpus, program, arguments, commands, hloads, -⟩ := hrefused.2.1.mp hzero
    exact ⟨settings, corpus, hloads⟩

end Transcript.Application

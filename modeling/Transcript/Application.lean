-- The tool on a system: it opens its log, reads its settings, and lists or replays a
-- corpus. What keeps a task from being done is told on the error output.
import Transcript.CommandLine
import Transcript.Corpus.Scenario
import Transcript.Listing
import Transcript.Settings.File
import Transcript.System

namespace Transcript.Application

variable {σ : Type} (system : System σ) (s : σ)

/-! ## Files -/

/-- The text of a file. -/
def readFile (path : String) : Except Failure String :=
  (system.readText path s).mapError (.unreadable path)

/-- A path below a directory. -/
def below (directory name : String) : String :=
  if directory.isEmpty ∨ directory.toList.getLast? = some '/' then directory ++ name
  else directory ++ "/" ++ name

/-- The user's home directory: the one that is named, or else the one of the account. -/
def homeDirectory? : Option String :=
  ((system.environment "HOME" s).filter fun d => !d.isEmpty).or
    ((system.accountHome s).filter fun d => !d.isEmpty)

/-- The directory of the user's settings, if the user has a home directory: below the one that
is named for settings, if its path is absolute, or else in the home directory. -/
def settingsDirectory? : Option String :=
  (homeDirectory? system s).map fun home =>
    let named := (system.environment "XDG_CONFIG_HOME" s).filter fun d => d.toList.head? = some '/'
    below (named.getD (below home ".config")) "golden-replay"

/-- The file of the user's settings. -/
def settingsFile? : Option String :=
  (settingsDirectory? system s).map fun d => below d "config.toml"

/-- The settings in a file. -/
def readSettings (path : String) : Except Failure Settings := do
  let text ← readFile system s path
  (Settings.parse text).mapError fun fault => .settingsFile fault.reason

/-- The settings: from the file that is named, from the user's file if there is one, or the
defaults. -/
def loadSettings (named : Option String) : Except Failure Settings :=
  match named, settingsFile? system s with
  | some path, _ => readSettings system s path
  | none, none => .ok .default
  | none, some path => if system.isThere path s then readSettings system s path else .ok .default

/-- The corpus: from its file, or the scenario. -/
def loadCorpus (settings : CorpusSettings) : Except Failure Corpus := do
  let text ← match settings.path with
    | some path => readFile system s path
    | none => pure Corpus.scenario
  Corpus.parse settings.prompt text

/-- The system with the log open. -/
def withLog : Option String → Except Failure σ
  | some path => (system.openLog path s).mapError (.unreadable path)
  | none => .ok s

/-! ## Colours -/

/-- Whether colours are on where the output is no terminal: only where they are forced. -/
def forcesColours : Bool :=
  match system.environment "CLICOLOR_FORCE" s with
  | some value => value ≠ "0"
  | none => false

/-! ## Tasks -/

/-- What the tool writes and its exit code, and the system after it. -/
structure Outcome (σ : Type) where
  stdout : String
  stderr : String
  code : Nat
  state : σ

/-- A task that could not be done. -/
def Outcome.ofFailure (stdout : String) (f : Failure) (s : σ) : Outcome σ :=
  ⟨stdout, "Error: " ++ f.message ++ "\n", 1, s⟩

/-- Lists a corpus. -/
def list (corpus : Corpus) (asDocument : Bool) : Outcome σ :=
  ⟨if asDocument then corpus.document else corpus.listing (forcesColours system s), "", 0, s⟩

/-- The observer of a run. -/
def observer (settings : OutputSettings) (asDocument : Bool) : Observer :=
  if asDocument then .document
  else .ofConsole (settings.colours && forcesColours system s) settings.progress

/-- Replays a corpus. -/
def replay (settings : Settings) (corpus : Corpus) (asDocument : Bool) : Outcome σ :=
  let result := corpus.replay system.server settings.server
    (system.launch.executor settings.client) s
  let stdout := (observer system s settings.output asDocument).transcript result.events
  match result.result with
  | .ok summary => ⟨stdout, "", summary.exitCode, result.state⟩
  | .error f => .ofFailure stdout f result.state

/-- The settings that a task is done with. -/
def effective (settings : Settings) : CommandLine.Task → Settings
  | .run choice => choice.apply settings
  | .list choice _ => { settings with corpus := choice.apply settings.corpus }

/-- Does a task with its settings. -/
def perform (settings : Settings) (task : CommandLine.Task) : Outcome σ :=
  let settings := effective settings task
  match loadCorpus system s settings.corpus, task with
  | .error f, _ => .ofFailure "" f s
  | .ok corpus, .run choice => replay system s settings corpus choice.asDocument
  | .ok corpus, .list _ asDocument => list system s corpus asDocument

/-- Does what an invocation asks for. -/
def invoke (invocation : CommandLine.Invocation) : Outcome σ :=
  match withLog system s invocation.logFile with
  | .error f => .ofFailure "" f s
  | .ok s =>
    match loadSettings system s invocation.settingsFile with
    | .error f => .ofFailure "" f s
    | .ok settings => perform system s settings invocation.task

/-- The file that the settings of an invocation are read from, if it is there. -/
def settingsPath? (invocation : CommandLine.Invocation) : Option String :=
  invocation.settingsFile.or (settingsFile? system s)

/-- The file that the corpus of an invocation is read from, if it is not the scenario. -/
def corpusPath? (invocation : CommandLine.Invocation) : Option String :=
  match loadSettings system s invocation.settingsFile with
  | .ok settings => (effective settings invocation.task).corpus.path
  | .error _ => none

/-! ## Command lines -/

def version : String := "replay 0.1.0\n"

def usage : String :=
  "Golden transcript replay harness\n\nUsage: replay [OPTIONS] <COMMAND>\n\nCommands:\n" ++
  "  run   Start the server and replay a corpus against it\n" ++
  "  list  Parse a corpus and print its cases without running anything\n"

/-- Does what the words of a command line ask for. -/
def run (words : List String) : Outcome σ :=
  match CommandLine.read words with
  | .ok invocation => invoke system s invocation
  | .error .version => ⟨version, "", 0, s⟩
  | .error .help => ⟨usage, "", 0, s⟩
  | .error .malformed => ⟨"", "error: " ++ usage, 2, s⟩

end Transcript.Application

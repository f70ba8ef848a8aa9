-- The command line of the tool: options, then a task, then options again. A task's
-- options follow its name; the shared ones can stand before it too, and the ones that
-- stand after it count.
import Transcript.Decimal.Reader
import Transcript.Settings

namespace Transcript.CommandLine

/-! ## Options -/

/-- What an option takes. -/
inductive OptionKind where
  /-- Nothing; it is given at most once. -/
  | flag
  /-- Nothing; it can be given again. -/
  | repeated
  | text
  /-- A path, which is not empty. -/
  | path
  /-- A whole number below 2 ^ 64. -/
  | number
deriving DecidableEq

/-- An option by its name, with a letter for short if it has one. -/
structure OptionRule where
  name : String
  letter : Option Char
  kind : OptionKind
deriving DecidableEq

def OptionKind.takesValue : OptionKind → Bool
  | .flag | .repeated => false
  | .text | .path | .number => true

/-- Whether a value will do. -/
def OptionKind.accepts (kind : OptionKind) (value : String) : Bool :=
  match kind with
  | .flag | .repeated | .text => true
  | .path => !value.isEmpty
  | .number => (Decimal.readNat? (twoTo 64) value.toList).isSome

/-- The options that every task shares. -/
def sharedOptions : List OptionRule :=
  [⟨"config", none, .path⟩, ⟨"verbose", some 'v', .repeated⟩, ⟨"log-file", none, .path⟩]

def corpusOptions : List OptionRule := [⟨"corpus", none, .path⟩, ⟨"prompt", none, .text⟩]

def runOptions : List OptionRule :=
  corpusOptions ++ [⟨"server", none, .text⟩, ⟨"warmup-ms", none, .number⟩,
    ⟨"no-progress", none, .flag⟩, ⟨"no-color", none, .flag⟩, ⟨"json", none, .flag⟩] ++ sharedOptions

def listOptions : List OptionRule := corpusOptions ++ [⟨"json", none, .flag⟩] ++ sharedOptions

/-! ## Reading options -/

/-- Why a command line asks for no task. -/
inductive Refusal where
  | malformed
  | version
  | help
deriving DecidableEq

/-- The options that were given, each with its value. -/
abbrev Given := Keyed String

/-- Takes in an option. -/
def give (given : Given) (rule : OptionRule) (value : String) : Except Refusal Given :=
  if (rule.kind ≠ .repeated ∧ (given.find? rule.name).isSome) ∨ !rule.kind.accepts value then
    .error .malformed
  else .ok (given.put rule.name value)

/-- The words that ask for help or for the version. The version is asked for before a task. -/
def informs? (beforeTask : Bool) (name : String) : Option Refusal :=
  if name = "help" then some .help
  else if beforeTask ∧ name = "version" then some .version
  else none

/-- Takes in the letters after a dash. -/
def giveLetters (rules : List OptionRule) (beforeTask : Bool) (given : Given) :
    List Char → Except Refusal Given
  | [] => .ok given
  | c :: rest =>
    if c = 'h' then .error .help
    else if beforeTask ∧ c = 'V' then .error .version
    else
      match rules.find? fun r => r.letter = some c with
      | some rule => do
        let given ← give given rule ""
        giveLetters rules beforeTask given rest
      | none => .error .malformed

/-- What stands before and after the first equals sign. -/
def splitValue (word : List Char) : String × Option String :=
  let name := word.takeWhile (· ≠ '=')
  (String.ofList name,
    if name.length < word.length then some (String.ofList (word.drop (name.length + 1))) else none)

/-- Whether a word is an option and no value. -/
def isOption (word : String) : Bool :=
  match word.toList with
  | '-' :: _ :: _ => true
  | _ => false

/-- The tasks by their names. -/
def taskNames : List String := ["run", "list", "ls", "help"]

/-- Reads options up to the end, or up to a task where one can follow; then what follows is
given too. -/
def readOptions (rules : List OptionRule) (beforeTask : Bool) (given : Given) :
    List String → Except Refusal (Given × Option (String × List String))
  | [] => .ok (given, none)
  | word :: rest =>
    if beforeTask ∧ taskNames.contains word then .ok (given, some (word, rest))
    else
      match word.toList with
      | '-' :: '-' :: [] => if rest.isEmpty then .ok (given, none) else .error .malformed
      | '-' :: '-' :: long =>
        let (name, value) := splitValue long
        match informs? beforeTask name, value, rules.find? fun r => r.name = name with
        | some refusal, none, _ => .error refusal
        | some _, some _, _ => .error .malformed
        | none, _, none => .error .malformed
        | none, some value, some rule =>
          if rule.kind.takesValue then do
            let given ← give given rule value
            readOptions rules beforeTask given rest
          else .error .malformed
        | none, none, some rule =>
          if rule.kind.takesValue then
            match rest with
            | [] => .error .malformed
            | value :: rest =>
              if isOption value then .error .malformed
              else do
                let given ← give given rule value
                readOptions rules beforeTask given rest
          else do
            let given ← give given rule ""
            readOptions rules beforeTask given rest
      | '-' :: c :: letters => do
        let given ← giveLetters rules beforeTask given (c :: letters)
        readOptions rules beforeTask given rest
      | _ => .error .malformed

/-! ## Invocations -/

/-- Which corpus is meant, as far as it is said. -/
structure CorpusChoice where
  path : Option String
  prompt : Option String
deriving DecidableEq

/-- What a run changes of the settings, and whether it prints a document. -/
structure RunChoice where
  corpus : CorpusChoice
  server : Option String
  warmup : Option Nat
  noProgress : Bool
  noColours : Bool
  asDocument : Bool
deriving DecidableEq

inductive Task where
  | run (choice : RunChoice)
  | list (corpus : CorpusChoice) (asDocument : Bool)
deriving DecidableEq

/-- A task, and where its settings are and its log goes. -/
structure Invocation where
  task : Task
  settingsFile : Option String
  logFile : Option String
deriving DecidableEq

def CorpusChoice.of (given : Given) : CorpusChoice := ⟨given.find? "corpus", given.find? "prompt"⟩

def RunChoice.of (given : Given) : RunChoice where
  corpus := .of given
  server := given.find? "server"
  warmup := (given.find? "warmup-ms").bind fun v => Decimal.readNat? (twoTo 64) v.toList
  noProgress := (given.find? "no-progress").isSome
  noColours := (given.find? "no-color").isSome
  asDocument := (given.find? "json").isSome

/-- A task by its name, with its options. -/
def readTask (name : String) (words : List String) : Except Refusal (Task × Given) :=
  if name = "help" then .error .help
  else if name = "run" then do
    let (given, _) ← readOptions runOptions false [] words
    return (.run (.of given), given)
  else do
    let (given, _) ← readOptions listOptions false [] words
    return (.list (.of given) (given.find? "json").isSome, given)

/-- What the words of a command line ask for. -/
def read (words : List String) : Except Refusal Invocation := do
  let (outer, task) ← readOptions sharedOptions true [] words
  match task with
  | none => throw .malformed
  | some (name, words) =>
    let (task, inner) ← readTask name words
    let shared (option : String) : Option String := (inner.find? option).or (outer.find? option)
    return ⟨task, shared "config", shared "log-file"⟩

/-! ## Settings of a task -/

/-- The settings with the corpus that is meant. -/
def CorpusChoice.apply (c : CorpusChoice) (s : CorpusSettings) : CorpusSettings where
  path := c.path.or s.path
  prompt := c.prompt.getD s.prompt

/-- The settings of a run: what is said counts, the rest stays. -/
def RunChoice.apply (c : RunChoice) (s : Settings) : Settings where
  server := { s.server with
    command := c.server.getD s.server.command
    warmup := c.warmup.getD s.server.warmup }
  client := s.client
  corpus := c.corpus.apply s.corpus
  output := ⟨s.output.progress && !c.noProgress, s.output.colours && !c.noColours⟩

end Transcript.CommandLine

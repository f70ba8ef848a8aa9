-- What a run prints. Observers are told the events of a run and answer with text;
-- they never change the run. One prints a line a case as it is judged, the other a
-- document with the summary at the end.
import Transcript.Run
import Transcript.Json
import Transcript.Text.Lines

namespace Transcript

/-! ## Colours -/

/-- A way to stress a text on a terminal. -/
structure Style where
  bold : Bool
  dim : Bool
  /-- The number of the text colour. -/
  colour : Option Nat

namespace Style

def red : Style := ⟨false, false, some 31⟩

def green : Style := ⟨false, false, some 32⟩

def cyan : Style := ⟨false, false, some 36⟩

def dimmed : Style := ⟨false, true, none⟩

def emphasized : Style := ⟨true, false, none⟩

def boldRed : Style := ⟨true, false, some 31⟩

def boldGreen : Style := ⟨true, false, some 32⟩

/-- The control sequence that turns the style on. -/
def opening (s : Style) : List Char :=
  let codes := (if s.bold then ["1"] else []) ++ (if s.dim then ["2"] else []) ++
    (match s.colour with
      | some n => [toString n]
      | none => [])
  "\x1b[".toList ++ (String.intercalate ";" codes).toList ++ ['m']

/-- The control sequence that ends every style. -/
def ending : List Char := "\x1b[0m".toList

/-- Turns the style on again after each place where the text ends it. -/
def reopen (opening : List Char) : List Char → List Char
  | '\x1b' :: '[' :: '0' :: 'm' :: rest => ending ++ opening ++ reopen opening rest
  | c :: rest => c :: reopen opening rest
  | [] => []

/-- The text in a style, or as it is when colours are off. -/
def paint (s : Style) (colours : Bool) (text : String) : String :=
  if colours then String.ofList (s.opening ++ reopen s.opening text.toList ++ ending) else text

end Style

/-! ## Blocks of text -/

/-- A text as an indented block. An empty text and a missing last newline are made visible. -/
def indentBlock (colours : Bool) (text : String) : String :=
  if text.isEmpty then "    " ++ Style.dimmed.paint colours "(empty)"
  else
    let rows := (Text.lines text.toList).map fun line => "    " ++ String.ofList line
    let block := String.intercalate "\n" rows
    if text.toList.getLast? = some '\n' then block
    else block ++ " " ++ Style.dimmed.paint colours "(no newline at end)"

/-! ## The console -/

/-- The observer that prints a line a case. A progress bar is for the terminal alone and
no part of what is printed. -/
structure Console where
  colours : Bool
  progress : Bool
  total : Nat

namespace Console

def lines (rows : List String) : String := String.join (rows.map (· ++ "\n"))

/-- What is shown of an output that was not the expected one. -/
def mismatchRows (colours : Bool) (case : Case) (actual : String) : List String :=
  ["  " ++ Style.cyan.paint colours "actual:", indentBlock colours actual] ++
    (match firstDivergentLine actual case.expected with
      | some n =>
        ["  " ++ Style.dimmed.paint colours "first difference at" ++ " line " ++ toString n]
      | none => [])

/-- What is shown of a case that failed. -/
def failureRows (c : Console) (index : Nat) (case : Case) (failure : Failure) : List String :=
  [Style.red.paint c.colours ("✖ Test failed: " ++ failure.message),
    "  " ++ Style.dimmed.paint c.colours
      ("case " ++ toString (index + 1) ++ " of " ++ toString c.total),
    "  " ++ Style.cyan.paint c.colours "expected:",
    indentBlock c.colours case.expected] ++
    (match failure.actual? with
      | some actual => mismatchRows c.colours case actual
      | none => [])

/-- The last line of a run. -/
def verdict (colours : Bool) (s : Summary) : String :=
  if s.passed then
    "\n" ++ Style.boldGreen.paint colours "✓" ++ " " ++
      Style.boldGreen.paint colours
        (toString s.casesTotal ++ "/" ++ toString s.casesTotal ++ " cases passed")
  else
    "\n" ++ Style.boldRed.paint colours "✗" ++ " " ++
      Style.boldRed.paint colours
        ("Failed at case " ++ toString s.casesRun ++ " of " ++ toString s.casesTotal)

/-- What the console prints on an event. It learns the number of cases from the first one. -/
def observe (c : Console) : Event → Console × String
  | .runStarted total => ({ c with total := total }, "")
  | .caseStarted .. => (c, "")
  | .casePassed _ case =>
    (c, lines [Style.green.paint c.colours ("✔ Test passed: " ++ case.command)])
  | .caseFailed index case failure => (c, lines (c.failureRows index case failure))
  | .runFinished summary => (c, lines [verdict c.colours summary])

end Console

/-! ## Documents -/

def Case.toJson (c : Case) : Json :=
  .obj [("command", .str c.command), ("expected_output", .str c.expected)]

/-- A corpus as the list of its cases. -/
def Corpus.toJson (c : Corpus) : Json := .arr (c.cases.map Case.toJson)

def FailureReport.toJson (r : FailureReport) : Json :=
  .obj [("kind", .str r.kind), ("message", .str r.message), ("command", .str r.command),
    ("actual", .ofOption .str r.actual), ("expected", .str r.expected)]

/-- A phase by its name, and the case while one is running. -/
def Phase.toJson (p : Phase) : Json :=
  match p with
  | .running index => .obj [("phase", .str p.name), ("case", .int index)]
  | _ => .obj [("phase", .str p.name)]

def Summary.toJson (s : Summary) : Json :=
  .obj [("passed", .bool s.passed), ("state", s.phase.toJson), ("cases_run", .int s.casesRun),
    ("cases_total", .int s.casesTotal), ("failure", .ofOption FailureReport.toJson s.failure)]

/-! ## Observers -/

/-- The observers of a run. -/
inductive Observer where
  | console (c : Console)
  | document

/-- A console that has been told nothing yet. -/
def Observer.ofConsole (colours progress : Bool) : Observer := .console ⟨colours, progress, 0⟩

/-- What an observer prints on an event. -/
def Observer.observe : Observer → Event → Observer × String
  | .console c, e =>
    let (c, text) := c.observe e
    (.console c, text)
  | .document, .runFinished summary => (.document, summary.toJson.pretty ++ "\n")
  | .document, _ => (.document, "")

/-- What an observer prints on each event. -/
def Observer.texts (o : Observer) : List Event → List String
  | [] => []
  | e :: es =>
    let (o, text) := o.observe e
    text :: o.texts es

/-- What an observer prints on all events together. -/
def Observer.transcript (o : Observer) (events : List Event) : String :=
  String.join (o.texts events)

end Transcript

-- Reading a corpus. A line that starts with the prompt opens a case; the lines
-- below it, up to the next prompt, are its output. Blanks around a line and blank
-- lines do not count.
import Transcript.Corpus
import Transcript.Text.Lines

namespace Transcript.Corpus

/-- The prompt that marks a command unless another is given. -/
def defaultPrompt : String := "$ "

/-! ## One line -/

/-- What a line of a corpus is. -/
inductive Line where
  | command (invocation : List Char)
  | output (text : List Char)
  | blank
deriving DecidableEq

/-- The rest of a text after what it starts with, if it starts so. -/
def afterStart? : List Char → List Char → Option (List Char)
  | [], s => some s
  | _ :: _, [] => none
  | p :: ps, c :: s => if p = c then afterStart? ps s else none

/-- A line without its outer blanks, told by its start. -/
def Line.classify (prompt line : List Char) : Line :=
  let trimmed := Text.trim line
  if trimmed.isEmpty then .blank
  else
    match afterStart? prompt trimmed with
    | some invocation => .command (Text.trim invocation)
    | none => .output trimmed

/-! ## Columns -/

/-- The commands and outputs read so far, the latest first. -/
structure Columns where
  commands : List (List Char)
  outputs : List (List Char)

/-- Output that no command precedes. -/
def orphanOutput (number : Nat) (text : List Char) : Failure :=
  .malformed number ("output " ++ Text.quote (String.ofList text) ++ " appears before any command")

/-- Takes in the line with this number: a command opens an empty output, and an
output line goes to the latest one. -/
def Columns.add (prompt : List Char) (columns : Columns) (number : Nat) (line : List Char) :
    Except Failure Columns :=
  match Line.classify prompt line with
  | .blank => .ok columns
  | .command invocation => .ok ⟨invocation :: columns.commands, [] :: columns.outputs⟩
  | .output text =>
    match columns.outputs with
    | [] => .error (orphanOutput number text)
    | latest :: older => .ok ⟨columns.commands, (latest ++ (text ++ ['\n'])) :: older⟩

/-- Takes in lines, the first of which has this number. -/
def Columns.addAll (prompt : List Char) (columns : Columns) (number : Nat) :
    List (List Char) → Except Failure Columns
  | [] => .ok columns
  | line :: rest =>
    match columns.add prompt number line with
    | .ok columns => columns.addAll prompt (number + 1) rest
    | .error failure => .error failure

/-- The columns of a text. A blank first line is passed over; it still counts as line 1. -/
def Columns.ofText (prompt text : List Char) : Except Failure Columns :=
  match Text.lines text with
  | [] => .ok ⟨[], []⟩
  | first :: rest =>
    if (Text.trim first).isEmpty then Columns.addAll prompt ⟨[], []⟩ 2 rest
    else Columns.addAll prompt ⟨[], []⟩ 1 (first :: rest)

/-! ## Whole texts -/

/-- Reads a corpus. Blanks before the prompt are no part of it. -/
def parse (prompt text : String) : Except Failure Corpus :=
  let marker := Text.trimStart prompt.toList
  if marker.isEmpty then .error (.settings "corpus prompt must not be blank")
  else
    match Columns.ofText marker text.toList with
    | .error failure => .error failure
    | .ok columns =>
      ofColumns (columns.commands.reverse.map String.ofList)
        (columns.outputs.reverse.map String.ofList)

end Transcript.Corpus

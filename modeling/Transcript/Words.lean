-- Command lines as words. Blanks part words, quotes and backslashes keep them
-- together, and there are no comments: a word may start with `#`.
import Transcript.Text.Blank

namespace Transcript

/-- Why a command line has no words. -/
inductive WordsFault where
  | empty
  | openQuote
deriving DecidableEq

namespace Words

/-! ## Splitting with comments -/

/-- Where the splitter stands between two characters. -/
inductive State where
  | between
  | betweenEscape
  | word
  | wordEscape
  | single
  | double
  | doubleEscape
  | comment
deriving DecidableEq

/-- The characters that part words. -/
def isSeparator (c : Char) : Bool := c = ' ' || c = '\t' || c = '\n'

/-- The characters that a backslash can escape between double quotes. -/
def isEscapable (c : Char) : Bool := c = '$' || c = '\x60' || c = '"' || c = '\\'

/-- The splitter after one character: its state, the word so far (last character
first), and the word that the character ended, if it ended one. With `comments`, a
`#` between words starts a comment that runs to the end of its line. -/
def step (comments : Bool) (state : State) (word : List Char) (c : Char) :
    State × List Char × Option (List Char) :=
  match state with
  | .between =>
    if c = '\'' then (.single, word, none)
    else if c = '"' then (.double, word, none)
    else if c = '\\' then (.betweenEscape, word, none)
    else if isSeparator c then (.between, word, none)
    else if comments && c = '#' then (.comment, word, none)
    else (.word, c :: word, none)
  | .betweenEscape => if c = '\n' then (.between, word, none) else (.word, c :: word, none)
  | .word =>
    if c = '\'' then (.single, word, none)
    else if c = '"' then (.double, word, none)
    else if c = '\\' then (.wordEscape, word, none)
    else if isSeparator c then (.between, [], some word.reverse)
    else (.word, c :: word, none)
  | .wordEscape => if c = '\n' then (.word, word, none) else (.word, c :: word, none)
  | .single => if c = '\'' then (.word, word, none) else (.single, c :: word, none)
  | .double =>
    if c = '"' then (.word, word, none)
    else if c = '\\' then (.doubleEscape, word, none)
    else (.double, c :: word, none)
  | .doubleEscape =>
    if c = '\n' then (.double, word, none)
    else if isEscapable c then (.double, c :: word, none)
    else (.double, c :: '\\' :: word, none)
  | .comment => if c = '\n' then (.between, word, none) else (.comment, word, none)

/-- The words that the end of the text leaves: a backslash at the very end stands for
itself, and a quote must be closed. -/
def finish (state : State) (word : List Char) : Except WordsFault (List (List Char)) :=
  match state with
  | .between | .comment => .ok []
  | .word => .ok [word.reverse]
  | .betweenEscape | .wordEscape => .ok [('\\' :: word).reverse]
  | .single | .double | .doubleEscape => .error .openQuote

/-- The words from here on. -/
def splitFrom (comments : Bool) (state : State) (word : List Char) :
    List Char → Except WordsFault (List (List Char))
  | [] => finish state word
  | c :: rest =>
    match step comments state word c with
    | (state', word', none) => splitFrom comments state' word' rest
    | (state', word', some done) => (splitFrom comments state' word' rest).map (done :: ·)

/-- The words of a text. -/
def split (comments : Bool) (s : List Char) : Except WordsFault (List (List Char)) :=
  splitFrom comments .between [] s

/-! ## Keeping words that start with `#` -/

/-- What the guard knows of the text before a character. -/
inductive Guard where
  /-- Outside quotes, after a blank or at the start. -/
  | fresh
  /-- Outside quotes, after anything else. -/
  | inside
  /-- After a backslash outside quotes. -/
  | escaped
  | single
  | double
  /-- After a backslash between double quotes. -/
  | doubleEscaped
deriving DecidableEq

/-- The guard after one character. -/
def Guard.next (g : Guard) (c : Char) : Guard :=
  match g with
  | .single => if c = '\'' then .inside else .single
  | .double => if c = '\\' then .doubleEscaped else if c = '"' then .inside else .double
  | .doubleEscaped => .double
  | .escaped => .inside
  | .fresh | .inside =>
    if Text.isBlank c then .fresh
    else if c = '\\' then .escaped
    else if c = '\'' then .single
    else if c = '"' then .double
    else .inside

/-- The text with a backslash before each `#` that would start a comment. -/
def guardHashesFrom (g : Guard) : List Char → List Char
  | [] => []
  | c :: rest =>
    if g = .fresh ∧ c = '#' then '\\' :: c :: guardHashesFrom (g.next c) rest
    else c :: guardHashesFrom (g.next c) rest

def guardHashes (s : List Char) : List Char := guardHashesFrom .fresh s

/-! ## The words of a command -/

/-- The words of a command line, at least one. -/
def ofChars (command : List Char) : Except WordsFault (List (List Char)) :=
  match split true (guardHashes command) with
  | .ok [] => .error .empty
  | result => result

/-- The words of a command line, at least one. -/
def ofCommand (command : String) : Except WordsFault (List String) :=
  (ofChars command.toList).map fun words => words.map String.ofList

end Words

end Transcript

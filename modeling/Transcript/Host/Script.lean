-- Scripts of the shell: what they consist of once they have been read.
import Transcript.Host.Octets

namespace Transcript.Host

/-- What is made of a parameter in a word. Some of these look at a word of their own. -/
inductive Treatment where
  | value
  | length
  /-- The word stands for a parameter without a value. -/
  | orElse
  /-- The word stands for a parameter with a value. -/
  | andThen
  /-- A parameter without a value is an error, or is given the word as its value. -/
  | orFail
  | orAssign
  /-- What the word matches at the end, or at the front, is left out. -/
  | withoutEnd (longest : Bool)
  | withoutFront (longest : Bool)
  | bad
deriving DecidableEq

/-- How a redirection uses the file that it names. -/
inductive Use where
  | input
  | output
  /-- The file is written even where files are protected. -/
  | forcedOutput
  | append
  | both
deriving DecidableEq

mutual

/-- A piece of a word. -/
inductive Piece where
  | plain (c : Char)
  /-- A character that only stands for itself. -/
  | escaped (c : Char)
  /-- Quotes begin or end here. -/
  | quote
  | parameter (name : Octets) (treatment : Treatment) (colon : Bool) (word : List Piece)
  | output (command : Option Command)
  | number (expression : List Piece)

inductive Redirection where
  | file (descriptor : Nat) (use : Use) (name : List Piece)
  /-- A copy of another descriptor, named by a digit or a dash, or nothing in its place. -/
  | copy (descriptor : Nat) (source : List Piece)
  /-- A text from the script, by the number that it was given there. -/
  | document (descriptor : Nat) (expands : Bool) (text : Nat)

/-- A command, with the number of its line where messages tell it. -/
inductive Command where
  | simple (line : Nat) (assignments words : List (List Piece)) (redirections : List Redirection)
  | pipeline (commands : List Command) (background : Bool)
  | redirected (line : Nat) (body : Command) (redirections : List Redirection)
  | subshell (line : Nat) (body : Option Command) (redirections : List Redirection)
  | background (line : Nat) (body : Command) (redirections : List Redirection)
  | both (first second : Command)
  | either (first second : Command)
  | sequence (first second : Command)
  | negation (body : Command)
  | choice (test yes : Option Command) (no : Option Command)
  | loop (isUntil : Bool) (test body : Option Command)
  | each (line : Nat) (name : Octets) (words : List (List Piece)) (body : Option Command)
  | select (line : Nat) (word : List Piece) (cases : List (List (List Piece) × Option Command))
  | function (line : Nat) (name : Octets) (body : Command)

end

/-- A word by its pieces. -/
abbrev ScriptWord := List Piece

namespace ScriptWord

/-- The text of a word that has only plain characters. -/
def plain? : ScriptWord → Option Octets
  | [] => some []
  | .plain c :: rest => (plain? rest).map (c :: ·)
  | _ => none

/-- The text of a word in which nothing is to be filled in. -/
def unquoted : ScriptWord → Octets
  | [] => []
  | .plain c :: rest | .escaped c :: rest => c :: unquoted rest
  | _ :: rest => unquoted rest

end ScriptWord

/-! ## Names -/

namespace Script

/-- The first character of a name, and the others. -/
def startsName (c : Char) : Bool := c = '_' || c.isAlpha

def isInName (c : Char) : Bool := c = '_' || c.isAlphanum

def isName (s : Octets) : Bool :=
  match s with
  | c :: cs => startsName c && cs.all isInName
  | [] => false

/-- The name at the front of a text. -/
def nameAtFront (s : Octets) : Octets :=
  match s with
  | c :: _ => if startsName c then s.takeWhile isInName else []
  | [] => []

/-- The parameters that are named by a sign. -/
def isSpecial (c : Char) : Bool := "@*#?-$!".toList.contains c || c.isDigit

/-- The plain characters at the front of a word. -/
def plainFront : ScriptWord → Octets
  | .plain c :: rest => c :: plainFront rest
  | _ => []

/-- Whether a word gives a variable a value. -/
def isAssignment (word : ScriptWord) : Bool :=
  let text := plainFront word
  let name := nameAtFront text
  !name.isEmpty && (text.drop name.length).head? = some '='

/-- The commands of the shell that a function may not be named for. -/
def specialNames : List String :=
  [":", ".", "break", "continue", "eval", "exec", "exit", "export", "local", "readonly", "return",
    "set", "shift", "times", "trap", "unset"]

end Script

end Transcript.Host

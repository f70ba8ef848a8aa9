-- The tokens of scripts, and the state in which a script is read: character by character,
-- with the values of aliases in the place of their names.
import Transcript.Host.Script

namespace Transcript.Host.Script

/-! ## Tokens -/

inductive Token where
  | endOfFile
  | newline
  | semicolon
  | ampersand
  | and
  | or
  | pipe
  | leftParen
  | rightParen
  | endCase
  | redirection
  | word
  | bang
  | caseWord
  | doWord
  | doneWord
  | elifWord
  | elseWord
  | esacWord
  | fiWord
  | forWord
  | ifWord
  | inWord
  | thenWord
  | untilWord
  | whileWord
  | begin
  | end
deriving DecidableEq

namespace Token

/-- The words that are tokens of their own where a command can begin. -/
def reserved : List (String × Token) :=
  [("!", .bang), ("case", .caseWord), ("do", .doWord), ("done", .doneWord), ("elif", .elifWord),
    ("else", .elseWord), ("esac", .esacWord), ("fi", .fiWord), ("for", .forWord), ("if", .ifWord),
    ("in", .inWord), ("then", .thenWord), ("until", .untilWord), ("while", .whileWord),
    ("\x7b", .begin), ("\x7d", .end)]

/-- A token as messages name it. -/
def name (t : Token) : String :=
  match t with
  | .endOfFile => "end of file"
  | .newline => "newline"
  | .semicolon => "\";\""
  | .ampersand => "\"&\""
  | .and => "\"&&\""
  | .or => "\"||\""
  | .pipe => "\"|\""
  | .leftParen => "\"(\""
  | .rightParen => "\")\""
  | .endCase => "\";;\""
  | .redirection => "redirection"
  | .word => "word"
  | _ =>
    match reserved.find? fun r => r.2 = t with
    | some (text, _) => "\"" ++ text ++ "\""
    | none => ""

/-- A list of commands ends in front of these. -/
def endsList : Token → Bool
  | .endOfFile | .rightParen | .endCase | .doWord | .doneWord | .elifWord | .elseWord | .esacWord
  | .fiWord | .thenWord | .end => true
  | _ => false

end Token

/-! ## The state of reading -/

/-- Why no command can be read: more of the script is needed, or what is there is none. -/
inductive ReadFault where
  | more
  | invalid (line : Nat) (message : String)
deriving DecidableEq

/-- A text that is read before the rest of the script: the value of an alias or what was read
too far. -/
structure Inset where
  text : Octets
  aliasName : Option Octets
  /-- The value ends in a blank, so that the next word may be an alias too. -/
  endsBlank : Bool
  /-- What was put back before the text came. -/
  back : List (Option Char)

/-- What is made of the next token. -/
structure Check where
  keywords : Bool
  newlines : Bool
  aliases : Bool
  /-- The word is the mark of a document, in which nothing is filled in. -/
  mark : Bool

namespace Check

def nothing : Check := ⟨false, false, false, false⟩

def or (a b : Check) : Check :=
  ⟨a.keywords || b.keywords, a.newlines || b.newlines, a.aliases || b.aliases, a.mark || b.mark⟩

/-- A command begins here, or after some line ends. -/
def command : Check := ⟨true, false, true, false⟩

def commandBelow : Check := ⟨true, true, true, false⟩

end Check

/-- A redirection before its name is read. -/
inductive Opening where
  | file (descriptor : Nat) (use : Use)
  | copy (descriptor : Nat)
  | document (descriptor : Nat) (strips : Bool)

/-- A document that the lines to come hold, up to its mark. -/
structure Awaited where
  mark : Octets
  strips : Bool
  expands : Bool
  text : Nat

structure Reader where
  insets : List Inset
  /-- The rest of the script as far as it is known, and whether it ends there. -/
  text : Octets
  isComplete : Bool
  /-- Characters that were put back, and ends of the script. -/
  back : List (Option Char)
  aliases : List (Octets × Octets)
  /-- The aliases whose values are being read, and those that were read to their ends. -/
  busy : List Octets
  spent : List Octets
  line : Nat
  /-- The line that is being executed while this is read. -/
  executing : Nat
  /-- The token that was read last stands to be read again. -/
  isPushed : Bool
  last : Token
  check : Check
  word : ScriptWord
  isQuoted : Bool
  opening : Opening
  awaited : List Awaited
  /-- The texts of documents by their numbers, and the next number. -/
  texts : List (Nat × ScriptWord)
  nextText : Nat

abbrev Reading := StateT Reader (Except ReadFault)

namespace Reading

/-- The script is not well formed here. -/
def fail {α : Type} (message : String) : Reading α := fun r => .error (.invalid r.line message)

/-- The last token cannot stand here, where only another one could. -/
def unexpected {α : Type} (expected : Option Token) : Reading α := do
  let what := (← get).last.name ++ " unexpected"
  match expected with
  | some t => fail (what ++ " (expecting " ++ t.name ++ ")")
  | none => fail what

/-- No script takes more turns than this to read. -/
def endless : Nat := 1000000000

/-! ## Characters -/

/-- Takes the next character, from the innermost text that has one. -/
def advance : List Inset → Reader → Except ReadFault (Option Char × Reader)
  | i :: outer, r =>
    match i.text with
    | c :: rest => .ok (some c, { r with insets := { i with text := rest } :: outer })
    | [] =>
      let r := { r with
        back := i.back
        check := { r.check with aliases := r.check.aliases || i.endsBlank }
        spent := i.aliasName.toList ++ r.spent }
      match r.back with
      | c :: back => .ok (c, { r with insets := outer, back := back })
      | [] => advance outer r
  | [], r =>
    match r.text with
    | c :: rest => .ok (some c, { r with insets := [], text := rest })
    | [] => if r.isComplete then .ok (none, { r with insets := [] }) else .error .more

/-- The next character, none at the end. An alias whose value was read to its end may be used
again from the character on that comes after the one behind it. -/
def next : Reading (Option Char) := fun r =>
  let r := { r with busy := r.busy.filter fun a => !r.spent.contains a, spent := [] }
  match r.back with
  | c :: back => .ok (c, { r with back := back })
  | [] => advance r.insets r

def putBack (c : Option Char) : Reading Unit := modify fun r => { r with back := c :: r.back }

def countLine : Reading Unit := modify fun r => { r with line := r.line + 1 }

/-- The next character that is not part of a line end after a backslash. -/
def nextJoinedWith : Nat → Reading (Option Char)
  | 0 => fail "end of file unexpected"
  | fuel + 1 => do
    match ← next with
    | some '\\' =>
      match ← next with
      | some '\n' =>
        countLine
        nextJoinedWith fuel
      | c =>
        putBack c
        return some '\\'
    | c => return c

def nextJoined : Reading (Option Char) := nextJoinedWith endless

/-- Puts a text in front of what is still to be read. -/
def inset (text : Octets) (aliasName : Option Octets) : Reading Unit :=
  modify fun r =>
    let endsBlank := match aliasName, text.getLast? with
      | some _, some c => c = ' ' || c = '\t'
      | _, _ => false
    { r with insets := ⟨text, aliasName, endsBlank, r.back⟩ :: r.insets, back := [] }

end Reading

end Transcript.Host.Script

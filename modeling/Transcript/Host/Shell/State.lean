-- The state of a shell, and the steps that work on it: variables with their scopes, options,
-- messages and the output of a command.
import Transcript.Host.Activity
import Transcript.Host.Numeral
import Transcript.Host.Script.Reader

namespace Transcript.Host

/-! ## Options -/

/-- What a shell can be told to do otherwise than usual. -/
inductive ShellOption where
  | errexit
  | noglob
  | ignoreeof
  | interactive
  | monitor
  | noexec
  | stdin
  | xtrace
  | verbose
  | vi
  | emacs
  | noclobber
  | allexport
  | notify
  | nounset
  | privileged
  | nolog
  | debug
deriving DecidableEq

namespace ShellOption

/-- The options with their names and letters. -/
def table : List (ShellOption × String × Option Char) :=
  [(.errexit, "errexit", some 'e'), (.noglob, "noglob", some 'f'),
    (.ignoreeof, "ignoreeof", some 'I'), (.interactive, "interactive", some 'i'),
    (.monitor, "monitor", some 'm'), (.noexec, "noexec", some 'n'), (.stdin, "stdin", some 's'),
    (.xtrace, "xtrace", some 'x'), (.verbose, "verbose", some 'v'), (.vi, "vi", some 'V'),
    (.emacs, "emacs", some 'E'), (.noclobber, "noclobber", some 'C'),
    (.allexport, "allexport", some 'a'), (.notify, "notify", some 'b'),
    (.nounset, "nounset", some 'u'), (.privileged, "privileged", some 'p'),
    (.nolog, "nolog", none), (.debug, "debug", none)]

def ofLetter? (c : Char) : Option ShellOption :=
  (table.find? fun e => e.2.2 = some c).map (·.1)

def ofName? (name : Octets) : Option ShellOption :=
  (table.find? fun e => e.2.1.toList = name).map (·.1)

end ShellOption

/-! ## The state -/

structure Variable where
  value : Option Octets
  isExported : Bool
  isReadOnly : Bool
  /-- It keeps what it is for when it is unset: a variable of the shell, or a local one. -/
  isFixed : Bool

/-- What a scope gives back at its end. -/
inductive Kept where
  | variable (name : Octets) (v : Option Variable)
  | options (on : List ShellOption)

/-- The parameters, and how far their options were looked at. -/
structure Parameters where
  values : List Octets
  optionIndex : Nat
  optionOffset : Option Nat

/-- What the rest of a list of commands waits for, when it is left out. -/
inductive Skip where
  | breaking
  | continuing
  | returning
  /-- The same, with the status as it is. -/
  | leaving
deriving DecidableEq

structure Function where
  line : Nat
  body : Command

/-- Where a program was found: the number of the directory in the path, and whether that is to
be looked up again. -/
structure Tracked where
  index : Nat
  isStale : Bool

/-- What the shell does with a signal. -/
inductive SignalMode where
  | default
  | caught
  | ignored
  /-- It was ignored when the shell began, and always is. -/
  | ignoredForever
deriving DecidableEq

/-- Processes that belong together, and what has become of each. -/
structure Job where
  number : Nat
  processes : List (Nat × Option ExitStatus)
  isWaitedFor : Bool

/-- The descriptors that redirections replaced: where each of them is kept, if it was open. -/
abbrev Frame := List (Nat × Option Nat)

structure Shell where
  name : Octets
  /-- The command that messages name. -/
  commandName : Option Octets
  id : Nat
  /-- How many shells within shells this one is in. -/
  level : Nat
  options : List ShellOption
  bindings : List (Octets × Variable)
  scopes : List (List Kept)
  parameters : Parameters
  status : Nat
  /-- The status that the shell ends with, where it is settled before a trap. -/
  saved : Option Nat
  /-- The status of the last command whose output was put into a word. -/
  commandStatus : Nat
  background : Option Nat
  functions : List (Octets × Function)
  tracked : List (Octets × Tracked)
  aliases : List (Octets × Octets)
  skip : Option Skip
  skipCount : Nat
  loops : Nat
  calls : Nat
  depth : Nat
  functionLine : Option Nat
  line : Nat
  errorLine : Nat
  /-- The line up to which the script was read. -/
  readLine : Nat
  traps : List (Nat × Octets)
  modes : List (Nat × SignalMode)
  /-- The signals that came and were not dealt with, the latest first. -/
  pending : List Nat
  jobs : List Job
  documents : List (Nat × ScriptWord)
  nextDocument : Nat
  frames : List Frame
  /-- Where commands are traced to, and whether one is traced now. -/
  traceDescriptor : Nat
  isTracing : Bool
  /-- What a command has written so far, the last part first. -/
  out : List Octets
  directory : Octets
  physical : Option Octets
  /-- The descriptor that the script is read from. -/
  source : Option Nat

/-- Why steps break off: an error, the end of the shell that was asked for, or the end of what
it was to do. -/
inductive Escape where
  | error
  | exit
  | ended
deriving DecidableEq

/-- Steps of a shell. -/
abbrev Sh (α : Type) : Type := Steps Shell Escape α

namespace Shell

def isOn (sh : Shell) (o : ShellOption) : Bool := sh.options.contains o

def withOption (sh : Shell) (o : ShellOption) (on : Bool) : Shell :=
  { sh with options := if on then o :: sh.options.erase o else sh.options.filter fun p => p ≠ o }

/-! ## Messages -/

/-- A message with what it is about in front. -/
def message (sh : Shell) (text : Octets) : Octets :=
  let command := match sh.commandName with
    | some name => name ++ [':', ' ']
    | none => []
  sh.name ++ [':', ' '] ++ Octets.ofNat sh.errorLine ++ [':', ' '] ++ command ++ text ++ ['\n']

/-! ## Variables -/

def setting? (sh : Shell) (name : Octets) : Option Variable := List.lookup name sh.bindings

/-- The value of a variable. -/
def value? (sh : Shell) (name : Octets) : Option Octets := (sh.setting? name).bind (·.value)

def valueOf? (sh : Shell) (name : String) : Option Octets := sh.value? name.toList

/-- Puts a variable at its name. -/
def putVariable (name : Octets) (v : Variable) :
    List (Octets × Variable) → List (Octets × Variable)
  | [] => [(name, v)]
  | (n, w) :: rest => if n = name then (name, v) :: rest else (n, w) :: putVariable name v rest

def dropVariable (name : Octets) (bindings : List (Octets × Variable)) :
    List (Octets × Variable) :=
  bindings.filter fun e => e.1 ≠ name

/-- The characters that separate fields: the default ones, and those that count now. -/
def defaultSeparators : Octets := [' ', '\t', '\n']

def separators (sh : Shell) : Octets := (sh.valueOf? "IFS").getD defaultSeparators

/-- The directories that programs are searched in where nothing else is said. -/
def defaultPath : Octets :=
  "/usr/local/sbin:/usr/local/bin:/usr/sbin:/usr/bin:/sbin:/bin".toList

def path (sh : Shell) : Octets := (sh.valueOf? "PATH").getD []

/-- The variables that a program is given. -/
def environment (sh : Shell) : List (Octets × Octets) :=
  sh.bindings.filterMap fun (name, v) =>
    if v.isExported then v.value.map fun value => (name, value) else none

/-! ## Parameters -/

def parametersOf (values : List Octets) : Parameters := ⟨values, 1, none⟩

/-- There are traps with something to do. -/
def hasTraps (sh : Shell) : Bool := sh.traps.any fun t => !t.2.isEmpty

end Shell

/-! ## Steps -/

namespace Sh

/-- Changes the state. -/
def change (f : Shell → Shell) : Sh Unit := modify f

/-- Tells that something is wrong. -/
def warn (text : Octets) : Sh Unit := do Steps.tell 2 ((← get).message text)

/-- Writes what a command has written so far; false if that cannot be done. -/
def flush : Sh Bool := do
  let out := (← get).out.reverse.flatten
  if out.isEmpty then return true
  change fun sh => { sh with out := [] }
  let result : Except HostError Unit ← Steps.writeAll 1 out
  return result.toBool

/-- Adds to what a command writes. -/
def put (text : Octets) : Sh Unit := change fun sh => { sh with out := text :: sh.out }

/-- Breaks off with an error. -/
def fail {α : Type} (text : Octets) : Sh α := do
  change fun sh => { sh with status := 2 }
  warn text
  let _ ← flush
  throw .error

def failText {α : Type} (text : String) : Sh α := fail text.toList

/-- A text is no number. -/
def badNumber {α : Type} (s : Octets) : Sh α := fail ("Illegal number: ".toList ++ s)

/-- The number that a text is in base 10. -/
def integer (s : Octets) : Sh Int := do
  let blank := s.takeWhile Numeral.isSpace
  let (negative, digits) := Decimal.takeSign (s.drop blank.length)
  let (ds, rest) := Numeral.takeDigits 10 digits
  let size := Numeral.valueOf 10 ds
  let n : Int := if negative then -(size : Int) else size
  if ds.isEmpty ∨ n < -(twoTo 63 : Int) ∨ (twoTo 63 : Int) ≤ n ∨ !rest.all Numeral.isSpace then
    badNumber s
  else return n

/-- The number that a text is, which may not be negative or large. -/
def natural (s : Octets) : Sh Nat := do
  let n ← integer s
  if n < 0 ∨ 2147483647 < n then badNumber s else return n.toNat

/-! ## Giving values -/

/-- What a variable is to be besides its value. -/
structure Marking where
  isExported : Bool
  isReadOnly : Bool
  isFixed : Bool

def plainMarking : Marking := ⟨false, false, false⟩

/-- Puts to use that a variable of the shell has another value. -/
def notice (name : Octets) (value : Option Octets) : Sh Unit := do
  if name = "PATH".toList then change fun sh => { sh with tracked := [] }
  else if name = "OPTIND".toList then
    let n ← natural (value.getD [])
    change fun sh => { sh with
      parameters := { sh.parameters with optionIndex := if n = 0 then 1 else n, optionOffset := none } }

/-- Gives a variable a value or takes it away, and marks the variable; what it was marked for
stays. -/
def assignWith (quiet : Bool) (name : Octets) (value : Option Octets) (m : Marking) :
    Sh Unit := do
  let sh ← get
  let exports := m.isExported || sh.isOn .allexport
  match sh.setting? name with
  | some v =>
    if v.isReadOnly then fail (name ++ ": is read only".toList)
    if v.isFixed && !quiet then notice name value
    if value.isNone && !exports && !m.isReadOnly && !m.isFixed && !v.isFixed then
      change fun sh => { sh with bindings := Shell.dropVariable name sh.bindings }
    else
      let v : Variable := ⟨value, exports || v.isExported, m.isReadOnly, m.isFixed || v.isFixed⟩
      change fun sh => { sh with bindings := Shell.putVariable name v sh.bindings }
  | none =>
    if value.isSome || exports || m.isReadOnly || m.isFixed then
      let v : Variable := ⟨value, exports, m.isReadOnly, m.isFixed⟩
      change fun sh => { sh with bindings := Shell.putVariable name v sh.bindings }

/-- The same for any text as a name. -/
def assignMarked (name : Octets) (value : Option Octets) (m : Marking) : Sh Unit := do
  if Script.isName name then assignWith false name value m
  else fail (name ++ ": bad variable name".toList)

def assign (name value : Octets) : Sh Unit := assignMarked name (some value) plainMarking

def unassign (name : Octets) : Sh Unit := assignMarked name none plainMarking

/-- The name and the value in a text with an equals sign. -/
def splitAssignment (s : Octets) : Octets × Option Octets :=
  let name := s.takeWhile (· ≠ '=')
  (name, if name.length < s.length then some (s.drop (name.length + 1)) else none)

/-! ## Scopes -/

/-- Makes a variable local to the innermost scope, with the value that it has or one that is
given. -/
def localize (s : Octets) (m : Marking) : Sh Unit := do
  let sh ← get
  let keep (k : Kept) : Sh Unit := change fun sh =>
    match sh.scopes with
    | scope :: outer => { sh with scopes := (k :: scope) :: outer }
    | [] => sh
  if s = ['-'] then keep (.options sh.options)
  else
    let (name, value) := splitAssignment s
    match sh.setting? name with
    | none =>
      assignWith false name value { m with isFixed := true }
      keep (.variable name none)
    | some v =>
      let fixed := { v with isFixed := true }
      change fun sh => { sh with bindings := Shell.putVariable name fixed sh.bindings }
      if value.isSome then assignWith false name value m
      keep (.variable name (some v))

/-- Gives back what one variable was. -/
def restore (k : Kept) : Sh Unit := do
  match k with
  | .options on => change fun sh => { sh with options := on }
  | .variable name none =>
    change fun sh => { sh with bindings := Shell.dropVariable name sh.bindings }
  | .variable name (some v) =>
    change fun sh => { sh with bindings := Shell.putVariable name v sh.bindings }
    if v.value.isSome then notice name v.value

/-- Ends scopes until only so many are left. -/
def leaveScopes (count : Nat) : Sh Unit := do
  let scopes := (← get).scopes
  let ended := scopes.take (scopes.length - count)
  change fun sh => { sh with scopes := sh.scopes.drop ended.length }
  for scope in ended do
    for k in scope do
      restore k

/-! ## Signals -/

/-- Takes note of the signals that came. -/
def takeSignals : Sh Unit := do
  let new : List Nat ← Steps.ask .caught
  if !new.isEmpty then
    change fun sh => { sh with pending := new.reverse ++ sh.pending.filter fun n => !new.contains n }

/-- Tells the system what the traps make of a signal. -/
def settleSignal (number : Nat) : Sh Unit := do
  let sh ← get
  let mode : SignalMode := match List.lookup number sh.traps with
    | none => .default
    | some action => if action.isEmpty then .ignored else .caught
  let disposition : SignalMode → Disposition
    | .default => .default
    | .caught => .catching
    | _ => .ignore
  let known := List.lookup number sh.modes
  let put (mode : SignalMode) : Sh Unit := change fun sh =>
    { sh with modes := (number, mode) :: sh.modes.filter fun m => m.1 ≠ number }
  if known = some .ignoredForever ∨ known = some mode then return
  let before : Disposition ← Steps.ask (.handle number (disposition mode))
  if known.isNone ∧ before = .ignore then
    let _ : Disposition ← Steps.ask (.handle number .ignore)
    put .ignoredForever
  else put mode

/-- Ignores a signal from now on, whatever traps say. -/
def ignoreSignal (number : Nat) : Sh Unit := do
  let _ : Disposition ← Steps.ask (.handle number .ignore)
  change fun sh =>
    { sh with modes := (number, .ignoredForever) :: sh.modes.filter fun m => m.1 ≠ number }

end Sh

/-! ## Words that are options -/

/-- What an option gives: its letter and what it takes. -/
abbrev Given := Char × Octets

namespace Sh

/-- The letters of an option word, where those followed by a colon take what follows them. -/
def readLetters (known : Octets) : Octets → List Octets → Sh (List Given × List Octets)
  | [], words => return ([], words)
  | c :: rest, words => do
    let takes := (known.dropWhile (· ≠ c)).tail.head? = some ':'
    if c = ':' ∨ !known.contains c then fail ("Illegal option -".toList ++ [c])
    if takes then
      if !rest.isEmpty then return ([(c, rest)], words)
      match words with
      | word :: words => return ([(c, word)], words)
      | [] => fail ("No arg for -".toList ++ [c] ++ " option".toList)
    else
      let (given, words) ← readLetters known rest words
      return ((c, []) :: given, words)

/-- The options in front of words, and the words after them. -/
def readOptionsWith (known : Octets) : Nat → List Octets → Sh (List Given × List Octets)
  | 0, words => return ([], words)
  | fuel + 1, words => do
    match words with
    | ['-', '-'] :: rest => return ([], rest)
    | ('-' :: c :: letters) :: rest => do
      let (given, rest) ← readLetters known (c :: letters) rest
      let (more, rest) ← readOptionsWith known fuel rest
      return (given ++ more, rest)
    | _ => return ([], words)

def readOptions (known : String) (words : List Octets) : Sh (List Given × List Octets) :=
  readOptionsWith known.toList (words.length + 1) words

/-! ## Quoted texts -/

/-- A text in the form in which the shell reads it as one word. -/
def quotedWith : Nat → Octets → Octets
  | 0, _ => []
  | fuel + 1, s =>
    let front := s.takeWhile (· ≠ '\'')
    let rest := s.drop front.length
    let quotes := rest.takeWhile (· = '\'')
    let rest := rest.drop quotes.length
    let text := ['\''] ++ front ++ ['\'']
    if quotes.isEmpty then text
    else
      let text := text ++ ['"'] ++ quotes ++ ['"']
      if rest.isEmpty then text else text ++ quotedWith fuel rest

def quoted (s : Octets) : Octets := quotedWith (s.length + 1) s

end Sh

end Transcript.Host

-- What the name of a command stands for: a function, a command of the shell itself, or a
-- program in one of the directories of the path.
import Transcript.Host.HostError
import Transcript.Host.Shell.Redirecting

namespace Transcript.Host

/-- What a name stands for. -/
inductive Found where
  | builtin
  | function (f : Function)
  /-- A program, by the number of its directory; none for a path of its own. -/
  | program (directory : Option Nat)
  | nothing

namespace Lookup

/-! ## Commands of the shell -/

/-- The commands of the shell that are no special ones. -/
def plainBuiltins : List String :=
  ["[", "alias", "bg", "cd", "chdir", "command", "echo", "false", "fg", "getopts", "hash", "jobs",
    "kill", "printf", "pwd", "read", "test", "true", "type", "ulimit", "umask", "unalias", "wait"]

def isSpecial (name : Octets) : Bool := Script.specialNames.contains (String.ofList name)

def isBuiltin (name : Octets) : Bool :=
  isSpecial name || plainBuiltins.contains (String.ofList name)

/-- The words after the command can be assignments. -/
def takesAssignments (name : Octets) : Bool :=
  ["alias", "export", "local", "readonly"].contains (String.ofList name)

/-! ## Programs -/

/-- The paths that a name has in the directories of a path. -/
def candidates (path name : Octets) : List Octets :=
  (path.split ':').map fun directory => if directory.isEmpty then name else directory ++ '/' :: name

/-- What is left to say when all paths were tried: the last thing that went wrong. -/
def searchFrom : Nat → HostError → List Octets → Sh (Except HostError Nat)
  | _, e, [] => return .error e
  | n, e, path :: rest => do
    match ← Steps.ask (.status path true) with
    | .error .noEntry | .error .notDirectory => searchFrom (n + 1) e rest
    | .error e => searchFrom (n + 1) e rest
    | .ok status =>
      if status.kind = .regular && status.runnable then return .ok n
      else searchFrom (n + 1) .denied rest

/-- The number of the directory in which a program is found. -/
def search (path name : Octets) : Sh (Except HostError Nat) :=
  searchFrom 0 .noEntry (candidates path name)

/-- The words for a program that cannot be run. -/
def explain (e : HostError) : Octets := Redirected.explain e "not found"

/-! ## Searching -/

/-- How a name is looked for. -/
structure Inquiry where
  /-- A path that is looked at in the place of the usual one. -/
  path : Option Octets
  skipsFunctions : Bool
  skipsPrograms : Bool
  tells : Bool
  /-- A path of its own must lead somewhere. -/
  isStrict : Bool

namespace Inquiry

/-- What the first word of a command stands for in the shell itself. -/
def inShell : Inquiry := ⟨none, false, true, false, false⟩

def ofName : Inquiry := ⟨none, false, false, true, false⟩

def description : Inquiry := ⟨none, false, false, false, true⟩

end Inquiry

/-- Puts where a program was found at its name. -/
def trackedIn (name : Octets) (index : Nat) : List (Octets × Tracked) → List (Octets × Tracked)
  | [] => [(name, ⟨index, false⟩)]
  | (n, t) :: rest =>
    if n = name then (name, ⟨index, false⟩) :: rest else (n, t) :: trackedIn name index rest

/-- Notes where a program was found. -/
def track (name : Octets) (index : Nat) : Sh Unit :=
  Sh.change fun sh => { sh with tracked := trackedIn name index sh.tracked }

def untrack (name : Octets) : Sh Unit :=
  Sh.change fun sh => { sh with tracked := sh.tracked.filter fun t => t.1 ≠ name }

/-- What a name stands for. -/
def find (name : Octets) (q : Inquiry) : Sh Found := do
  if name.contains '/' then
    if q.isStrict then
      let status : Except HostError FileStatus ← Steps.ask (.status name true)
      return if status.toBool then .program none else .nothing
    return .program none
  let sh ← get
  match if q.skipsFunctions then none else List.lookup name sh.functions with
  | some f => return .function f
  | none =>
    if isBuiltin name then return .builtin
    if q.skipsPrograms then return .nothing
    match if q.path.isNone then List.lookup name sh.tracked else none with
    | some ⟨index, false⟩ => return .program (some index)
    | _ =>
      match ← search (q.path.getD sh.path) name with
      | .ok index =>
        if q.path.isNone then track name index
        return .program (some index)
      | .error e =>
        if q.path.isNone then untrack name
        if q.tells then Sh.warn (name ++ ": ".toList ++ explain e)
        return .nothing

/-! ## Running programs -/

/-- Puts a program in the place of the shell; it only comes back when that cannot be done. -/
def tryAll (arguments : List Octets) : HostError → List Octets → Sh HostError
  | e, [] => return e
  | e, path :: rest => do
    let environment := (← get).environment
    let failed : HostError ← Steps.ask (.execute path arguments environment)
    tryAll arguments (if failed = .noEntry ∨ failed = .notDirectory then e else failed) rest

/-- Runs a program in the place of the shell, from the directory with a number on, and breaks
off if that cannot be done. -/
def execute {α : Type} (arguments : List Octets) (path : Octets) (index : Option Nat) :
    Sh α := do
  let name := arguments.headD []
  let e ←
    if name.contains '/' then do
      let environment := (← get).environment
      let e : HostError ← Steps.ask (.execute name arguments environment)
      pure e
    else tryAll arguments .noEntry ((candidates path name).drop (index.getD 0))
  let isMissing : Bool := match e with
    | .tooManyLinks | .nameTooLong | .noEntry | .notDirectory => true
    | _ => false
  Sh.change fun sh => { sh with status := if isMissing then 127 else 126 }
  Sh.warn (name ++ ": ".toList ++ explain e)
  let _ ← Sh.flush
  throw .ended

/-! ## Describing -/

/-- An alias as it would be made. -/
def aliasText (name value : Octets) : Octets := name ++ '=' :: Sh.quoted value ++ ['\n']

/-- Tells what a name stands for, in words or as it would be typed. The path is the one that is
looked at, if it is not the usual one. -/
def describe (name : Octets) (path : Option Octets) (isVerbose : Bool) : Sh Nat := do
  let sh ← get
  let say (words brief : Octets) : Sh Nat := do
    Sh.put (if isVerbose then name ++ words ++ ['\n'] else brief ++ ['\n'])
    return 0
  if (Script.Token.reserved.lookup (String.ofList name)).isSome then
    say " is a shell keyword".toList name
  else
    match List.lookup name sh.aliases with
    | some value =>
      if isVerbose then say (" is an alias for ".toList ++ value) []
      else
        Sh.put ("alias ".toList ++ aliasText name value)
        return 0
    | none =>
      let tracked := if path.isNone then List.lookup name sh.tracked else none
      let isFunction := (List.lookup name sh.functions).isSome && path.isNone
      let found ← match tracked with
        | some t => if isFunction then find name .description else pure (.program (some t.index))
        | none => find name { Inquiry.description with path := path }
      match found with
      | .builtin =>
        say (if isSpecial name then " is a special shell builtin".toList
          else " is a shell builtin".toList) name
      | .function _ => say " is a shell function".toList name
      | .program index =>
        let where' := match index with
          | some n => (candidates (path.getD sh.path) name)[n]?.getD name
          | none => name
        let verb := if tracked.isSome then " is a tracked alias for ".toList else " is ".toList
        say (verb ++ where') where'
      | .nothing =>
        if isVerbose then Sh.put (name ++ ": not found\n".toList)
        return 127

/-! ## Tables -/

/-- The place of a name in a table of this size, in which names are listed by their places. -/
def slot (size : Nat) (name : Octets) : Nat :=
  let first := match name with
    | c :: _ => 16 * c.toNat
    | [] => 0
  (name.foldl (fun n c => n + c.toNat) first) % 32768 % size

/-- The entries of a table in the order in which they are listed. -/
def listed {α : Type} (size : Nat) (entries : List (Octets × α)) : List (Octets × α) :=
  (List.range size).flatMap fun n => entries.filter fun e => slot size e.1 = n

end Lookup

end Transcript.Host

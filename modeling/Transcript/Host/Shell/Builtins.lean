-- The commands of the shell itself that run no others.
import Transcript.Host.Shell.Jobs
import Transcript.Host.Shell.Lookup
import Transcript.Host.Shell.Test
import Transcript.Host.Shell.Writing

namespace Transcript.Host.Builtin

/-! ## Variables -/

/-- The variables that are of interest, in order, as they would be given their values. -/
def showVariables (word : Octets) (isShown : Variable → Bool) : Sh Unit := do
  let shown := (← get).bindings.filter fun e => isShown e.2
  let lines := shown.map fun (name, v) =>
    match v.value with
    | some value => name ++ '=' :: Sh.quoted value
    | none => name
  let lead := if word.isEmpty then [] else word ++ [' ']
  let sorted := (shown.map (·.1)).zip lines |>.mergeSort fun a b => Octets.precedes a.1 b.1
  for (_, line) in sorted do
    Sh.put (lead ++ line ++ ['\n'])

/-- Marks variables, with the values that they are given. -/
def mark (word : Octets) (m : Sh.Marking) (isMarked : Variable → Bool) (words : List Octets) :
    Sh Nat := do
  let (given, words) ← Sh.readOptions "p" words
  if !given.isEmpty ∨ words.isEmpty then showVariables word isMarked
  else
    for word in words do
      let (name, value) := Sh.splitAssignment word
      match value, (← get).setting? name with
      | none, some v =>
        let v : Variable := { v with
          isExported := v.isExported || m.isExported, isReadOnly := v.isReadOnly || m.isReadOnly }
        Sh.change fun sh => { sh with bindings := Shell.putVariable name v sh.bindings }
      | _, _ => Sh.assignMarked name value m
  return 0

def localize (words : List Octets) : Sh Nat := do
  if (← get).scopes.isEmpty then Sh.failText "not in a function"
  for word in words do
    Sh.localize word Sh.plainMarking
  return 0

def unset (words : List Octets) : Sh Nat := do
  let (given, words) ← Sh.readOptions "vf" words
  let isOfFunctions := given.getLast?.map (·.1) = some 'f'
  for word in words do
    if isOfFunctions then
      Sh.change fun sh => { sh with functions := sh.functions.filter fun f => f.1 ≠ word }
    else Sh.unassign word
  return 0

/-! ## Parameters and options -/

/-- Lists the options, as a table or as they would be set. -/
def showOptions (isTable : Bool) : Sh Unit := do
  let sh ← get
  for (o, name, _) in ShellOption.table do
    let name := name.toList
    if isTable then
      let blanks := List.replicate (16 - name.length) ' '
      Sh.put (name ++ blanks ++ (if sh.isOn o then "on\n".toList else "off\n".toList))
    else
      Sh.put ((if sh.isOn o then "set -o ".toList else "set +o ".toList) ++ name ++ ['\n'])

/-- Sets one option by its letter. -/
def setLetter (on : Bool) (c : Char) : Sh Unit := do
  match ShellOption.ofLetter? c with
  | none => Sh.fail ("Illegal option -".toList ++ [c])
  | some o =>
    Sh.change fun sh => sh.withOption o on
    if on ∧ o = .vi then Sh.change fun sh => sh.withOption .emacs false
    if on ∧ o = .emacs then Sh.change fun sh => sh.withOption .vi false

/-- Sets one option by its name, or lists all. -/
def setNamed (on : Bool) : Option Octets → Sh Unit
  | some name => do
    match ShellOption.ofName? name with
    | some o => Sh.change fun sh => sh.withOption o on
    | none => Sh.fail ("Illegal option -o ".toList ++ name)
  | none => do
    if on then Sh.put "Current option settings\n".toList
    showOptions on

/-- Sets the options of a word; the words after it are given too, as it may need one. -/
def setLetters (on : Bool) : Octets → List Octets → Sh (List Octets)
  | [], words => return words
  | 'o' :: letters, words => do
    setNamed on words.head?
    setLetters on letters words.tail
  | c :: letters, words => do
    setLetter on c
    setLetters on letters words

def setParameters (words : List Octets) : Sh Unit :=
  Sh.change fun sh => { sh with parameters := Shell.parametersOf words }

/-- Sets the options in front of words, and gives the words after them. -/
def setOptions : Nat → List Octets → Sh (List Octets)
  | 0, words => return words
  | fuel + 1, words => do
    match words with
    | ['-'] :: rest =>
      Sh.change fun sh => (sh.withOption .xtrace false).withOption .verbose false
      return rest
    | ['-', '-'] :: rest =>
      if rest.isEmpty then setParameters []
      return rest
    | ('-' :: letters) :: rest => setOptions fuel (← setLetters true letters rest)
    | ('+' :: letters) :: rest => setOptions fuel (← setLetters false letters rest)
    | _ => return words

/-- Follows what options say beyond the shell's own state. -/
def settleOptions : Sh Unit := do
  if (← get).isOn .monitor then
    Sh.warn "can't access tty; job control turned off".toList
    Sh.change fun sh => sh.withOption .monitor false

def setAll (words : List Octets) : Sh Nat := do
  if words.isEmpty then showVariables [] fun v => v.value.isSome
  else
    let rest ← setOptions (words.length + 1) words
    settleOptions
    if !rest.isEmpty then setParameters rest
  return 0

def shift (words : List Octets) : Sh Nat := do
  let n ← match words with
    | word :: _ => Sh.natural word
    | [] => pure 1
  let values := (← get).parameters.values
  if values.length < n then Sh.failText "can't shift that many"
  setParameters (values.drop n)
  return 0

/-- The next option among parameters, for a variable. -/
def takeOption (known into : Octets) (words : List Octets) : Sh Nat := do
  let p := (← get).parameters
  Sh.change fun sh => { sh with parameters := { p with optionIndex := 1, optionOffset := none } }
  let index := p.optionIndex
  let isQuiet := known.head? = some ':'
  let before := words[index - 2]?.getD []
  let inWord : Option Octets :=
    match p.optionOffset with
    | some offset => if 1 < index ∧ offset < before.length then some (before.drop offset) else none
    | none => none
  let fresh := words[index - 1]?
  let start : Option (Octets × Nat) :=
    match inWord, fresh with
    | some rest, _ => some (rest, index)
    | none, some ('-' :: c :: rest) => some (c :: rest, index + 1)
    | none, _ => none
  let isDashes := inWord.isNone && fresh = some ['-', '-']
  let finish (index : Nat) (value : Octets) (offset : Option Nat) (status : Nat) : Sh Nat := do
    Sh.assignWith true "OPTIND".toList (some (Octets.ofNat index)) Sh.plainMarking
    Sh.assign into value
    Sh.change fun sh => { sh with
      parameters := { sh.parameters with optionIndex := index, optionOffset := offset } }
    return status
  let setArgument (value : Option Octets) : Sh Unit := do
    match value with
    | some value => Sh.assign "OPTARG".toList value
    | none => Sh.unassign "OPTARG".toList
  match start with
  | none => finish index ['?'] none 1
  | some ([], _) => finish index ['?'] none 1
  | some (c :: rest, index) =>
    if isDashes then finish index ['?'] none 1
    else
      let offset (index : Nat) : Option Nat :=
        some ((words[index - 2]?.getD []).length - rest.length)
      let place := known.dropWhile (· ≠ c)
      if c = ':' ∨ place.isEmpty then
        if isQuiet then setArgument (some [c])
        else
          Steps.tell 2 ("Illegal option -".toList ++ [c, '\n'])
          setArgument none
        finish index ['?'] (offset index) 0
      else if place.tail.head? ≠ some ':' then
        setArgument (some [])
        finish index [c] (offset index) 0
      else if !rest.isEmpty then
        setArgument (some rest)
        finish index [c] none 0
      else
        match words[index - 1]? with
        | some word =>
          setArgument (some word)
          finish (index + 1) [c] none 0
        | none =>
          if isQuiet then setArgument (some [c])
          else
            Steps.tell 2 ("No arg for -".toList ++ [c] ++ " option\n".toList)
            setArgument none
          finish index (if isQuiet then [':'] else ['?']) none 0

def getopts (words : List Octets) : Sh Nat := do
  let (_, words) ← Sh.readOptions "" words
  match words with
  | known :: into :: rest =>
    let values := (← get).parameters.values
    let words := if rest.isEmpty then values else rest
    if words.length + 1 < (← get).parameters.optionIndex then
      Sh.change fun sh => { sh with
        parameters := { sh.parameters with optionIndex := 1, optionOffset := none } }
    takeOption known into words
  | _ => Sh.failText "Usage: getopts optstring var [arg...]"

/-! ## Aliases and programs -/

/-- Puts an alias at its name. -/
def putAlias (name value : Octets) : List (Octets × Octets) → List (Octets × Octets)
  | [] => [(name, value)]
  | (n, v) :: rest => if n = name then (name, value) :: rest else (n, v) :: putAlias name value rest

def showAlias (name value : Octets) : Sh Unit := Sh.put (Lookup.aliasText name value)

def defineAliases (words : List Octets) : Sh Nat := do
  if words.isEmpty then
    for (name, value) in Lookup.listed 39 (← get).aliases do
      showAlias name value
  let mut status := 0
  for word in words do
    let front := word.take 1 ++ (word.drop 1).takeWhile (· ≠ '=')
    if front.length < word.length then
      let value := word.drop (front.length + 1)
      Sh.change fun sh => { sh with aliases := putAlias front value sh.aliases }
    else
      match List.lookup word (← get).aliases with
      | some value => showAlias word value
      | none =>
        Steps.tell 2 ("alias: ".toList ++ word ++ " not found\n".toList)
        status := 1
  return status

def unalias (words : List Octets) : Sh Nat := do
  let (given, words) ← Sh.readOptions "a" words
  if !given.isEmpty then
    Sh.change fun sh => { sh with aliases := [] }
    return 0
  let mut status := 0
  for word in words do
    if (List.lookup word (← get).aliases).isSome then
      Sh.change fun sh => { sh with aliases := sh.aliases.filter fun a => a.1 ≠ word }
    else
      Steps.tell 2 ("unalias: ".toList ++ word ++ " not found\n".toList)
      status := 1
  return status

def hash (words : List Octets) : Sh Nat := do
  let (given, words) ← Sh.readOptions "r" words
  if !given.isEmpty then
    Sh.change fun sh => { sh with tracked := [] }
    return 0
  let sh ← get
  if words.isEmpty then
    for (name, t) in Lookup.listed 31 sh.tracked do
      let path := (Lookup.candidates sh.path name)[t.index]?.getD name
      Sh.put (path ++ (if t.isStale then ['*'] else []) ++ ['\n'])
  let mut status := 0
  for word in words do
    Lookup.untrack word
    match ← Lookup.find word .ofName with
    | .nothing => status := 1
    | _ => pure ()
  return status

def type (words : List Octets) : Sh Nat := do
  let statuses ← words.mapM fun word => Lookup.describe word none true
  return if statuses.all (· = 0) then 0 else 127

/-- Tells what a command stands for, where the command is not run. -/
def command (words : List Octets) : Sh Nat := do
  let (given, words) ← Sh.readOptions "pvV" words
  let letters := given.map (·.1)
  let path := if letters.contains 'p' then some Shell.defaultPath else none
  match words with
  | word :: _ =>
    if letters.contains 'v' ∨ letters.contains 'V' then
      Lookup.describe word path (letters.contains 'V')
    else return 0
  | [] => return 0

/-! ## Directories -/

/-- The path that another one leads to from a directory, without the dots in it. -/
def resolved (directory path : Octets) : Octets :=
  let isAbsolute := path.head? = some '/'
  let base := if isAbsolute then path else directory
  let isDouble := base.head? = some '/' && base[1]? = some '/' && base[2]? ≠ some '/'
  let start := if isAbsolute then [] else Files.names directory
  let names := (Files.names path).foldl (fun names name =>
    if name = ['.'] then names
    else if name = ['.', '.'] then names.dropLast
    else names ++ [name]) start
  (if isDouble then ['/', '/'] else ['/']) ++ Octets.join ['/'] names

/-- Notes the working directory, by the path that leads to it or as the system names it. -/
def noteDirectory (path : Option Octets) (keepsOld : Bool) : Sh Unit := do
  let exported : Sh.Marking := ⟨true, false, false⟩
  if keepsOld then
    let old := (← get).directory
    Sh.assignMarked "OLDPWD".toList (some old) exported
  let here : Octets ← Steps.ask .directory
  let named := path.getD here
  Sh.change fun sh =>
    { sh with directory := named, physical := if path.isNone then some here else none }
  Sh.assignMarked "PWD".toList (some named) exported

/-- Whether the last of the options asks for the directory as the system names it. -/
def isPhysical (given : List Given) : Bool := given.getLast?.map (·.1) = some 'P'

/-- Enters a directory. -/
def enter (path : Octets) (physical : Bool) : Sh Bool := do
  let directory := (← get).directory
  let named := if physical then none else some (resolved directory path)
  match ← Steps.ask (.enter (named.getD path)) with
  | .error _ => return false
  | .ok () =>
    noteDirectory named true
    Sh.change fun sh => { sh with
      tracked := sh.tracked.map fun (name, t) => (name, { t with isStale := true }) }
    return true

/-- The first directory of a path below which another path leads to a directory. -/
def search (path : Octets) : List Octets → Sh (Option (Octets × Bool))
  | [] => return none
  | directory :: rest => do
    let candidate := if directory.isEmpty then path else directory ++ '/' :: path
    let status : Except HostError FileStatus ← Steps.ask (.status candidate true)
    match status with
    | .ok status =>
      if status.kind = .directory then return some (candidate, !directory.isEmpty)
      else search path rest
    | .error _ => search path rest

def changeDirectory (words : List Octets) : Sh Nat := do
  let (given, words) ← Sh.readOptions "LP" words
  let sh ← get
  let word := words.head?
  let isBack := word = some ['-']
  let path :=
    match word with
    | none => (sh.valueOf? "HOME").getD []
    | some path => if isBack then (sh.valueOf? "OLDPWD").getD [] else path
  let isPlain := path.head? = some '/' || path = ['.'] || path = ['.', '.'] ||
    ['.', '/'].isPrefixOf path || ['.', '.', '/'].isPrefixOf path
  let path' := if path.isEmpty then ['.'] else path
  let found ←
    if isPlain then pure none
    else search path' (((sh.valueOf? "CDPATH").getD []).split ':')
  let (target, isFound) := found.getD (path, false)
  if !(← enter target (isPhysical given)) then Sh.fail ("can't cd to ".toList ++ path)
  if isBack ∨ isFound then Sh.put ((← get).directory ++ ['\n'])
  return 0

def showDirectory (words : List Octets) : Sh Nat := do
  let (given, _) ← Sh.readOptions "LP" words
  if isPhysical given ∧ (← get).physical.isNone then
    let here : Octets ← Steps.ask .directory
    Sh.change fun sh => { sh with physical := some here }
  let sh ← get
  Sh.put ((if isPhysical given then sh.physical.getD [] else sh.directory) ++ ['\n'])
  return 0

/-! ## Reading -/

/-- A line as far as it was read: its draft, where the region that can be parted began, and
whether a backslash stands before the next character. -/
structure LineDraft where
  draft : Draft
  start : Nat
  isEscaped : Bool

/-- Reads a line character by character; false at the end of what there is to read. -/
def readLineWith (isRaw : Bool) : Nat → LineDraft → Sh (LineDraft × Bool)
  | 0, l => return (l, false)
  | fuel + 1, l => do
    let part : Except HostError Octets ← Steps.ask (.read 0 1)
    let again : Bool ← match part with
      | .error .interrupted => do
        Sh.takeSignals
        pure (← get).pending.isEmpty
      | _ => pure false
    match part with
    | .ok (c :: _) =>
      let d := l.draft
      let cell : Cell := if Script.isReserved c then .quoted c else .bare c
      if c = '\x00' then readLineWith isRaw fuel l
      else if l.isEscaped then
        let d' := if c = '\n' then d else d.put cell
        readLineWith isRaw fuel ⟨d'.record l.start d.size false, d'.size, false⟩
      else if !isRaw ∧ c = '\\' then readLineWith isRaw fuel { l with isEscaped := true }
      else if c = '\n' then return (l, true)
      else readLineWith isRaw fuel { l with draft := d.put cell }
    | _ => if again then readLineWith isRaw fuel l else return (l, false)

def read (words : List Octets) : Sh Nat := do
  let (given, words) ← Sh.readOptions "p:r" words
  if words.isEmpty then Sh.failText "arg count"
  let isRaw := given.any fun g => g.1 = 'r'
  let (l, isWhole) ← readLineWith isRaw Steps.endless ⟨.empty, 0, false⟩
  let d := l.draft.record l.start l.draft.size false
  let fields := d.fields (← get).separators (some words.length)
  for (word, i) in words.zipIdx do
    Sh.assign word (Cell.text (fields[i]?.getD []))
  return if isWhole then 0 else 1

/-! ## Traps -/

def trap (words : List Octets) : Sh Nat := do
  let (_, words) ← Sh.readOptions "" words
  let set (action : Option Octets) (n : Nat) : Sh Unit := do
    let others := (← get).traps.filter fun t => t.1 ≠ n
    let traps := match action with
      | some action => (n, action) :: others
      | none => others
    Sh.change fun sh => { sh with traps := traps }
    if n ≠ 0 then Sh.settleSignal n
  let rec setAll (action : Option Octets) : List Octets → Sh Nat
    | [] => return 0
    | word :: rest => do
      match Jobs.signal? 0 word with
      | some n =>
        set action n
        setAll action rest
      | none =>
        Steps.tell 2 ("trap: ".toList ++ word ++ ": bad trap\n".toList)
        return 1
  match words with
  | [] =>
    for n in List.range Signal.limit do
      match List.lookup n (← get).traps with
      | some action =>
        Sh.put ("trap -- ".toList ++ Sh.quoted action ++ ' ' :: Jobs.signalName n ++ ['\n'])
      | none => pure ()
    return 0
  | [_] => setAll none words
  | action :: rest =>
    if (Jobs.signalNumber? action).isSome then setAll none words
    else setAll (if action = ['-'] then none else some action) rest

/-! ## Limits -/

/-- What a bit counts in one of the three groups of a mask. -/
def unit (place : Nat) : Nat := if place = 0 then 1 else if place = 1 then 8 else 64

/-- The bits of one of the groups of a mask. -/
def group (mask place : Nat) : Nat := mask / unit place % 8

def modeText (bits : Nat) : Octets :=
  (if bits / 4 % 2 = 1 then ['r'] else []) ++ (if bits / 2 % 2 = 1 then ['w'] else []) ++
    (if bits % 2 = 1 then ['x'] else [])

/-- One change of modes: the groups that it is for, its sign, and the bits. -/
structure ModeChange where
  groups : List Nat
  sign : Char
  bits : Nat

def ModeChange.apply (m : ModeChange) (modes : List Nat) : List Nat :=
  modes.zipIdx.map fun (bits, place) =>
    if !m.groups.contains place then bits
    else if m.sign = '=' then m.bits
    else if m.sign = '+' then bits ||| m.bits
    else bits &&& (7 - m.bits)

/-- The bits that a letter stands for. -/
def letterBits (modes : List Nat) (c : Char) : Option Nat :=
  match c with
  | 'r' => some 4
  | 'w' => some 2
  | 'x' => some 1
  | 'u' => modes[2]?
  | 'g' => modes[1]?
  | 'o' => modes[0]?
  | 'X' => some (if modes.any fun b => b % 2 = 1 then 1 else 0)
  | 's' => some 0
  | _ => none

/-- The modes after changes that are written with letters; none where they are not well
formed. The last groups named count until a comma, and groups at the end change nothing. -/
def changedModes (before : List Nat) : Nat → List Nat → List Nat → Octets → Option (List Nat)
  | 0, _, _, _ => none
  | _, _, modes, [] => some modes
  | fuel + 1, groups, modes, s =>
    let whose := s.takeWhile fun c => "augo".toList.contains c
    let groups := whose.foldl (fun gs c =>
      gs ++ (if c = 'a' then [0, 1, 2] else if c = 'u' then [2] else if c = 'g' then [1] else [0]))
      groups
    let groups := if groups.isEmpty then [0, 1, 2] else groups
    match s.drop whose.length with
    | [] => some modes
    | sign :: rest =>
      if sign ≠ '=' ∧ sign ≠ '+' ∧ sign ≠ '-' then none
      else
        let letters := rest.takeWhile fun c => (letterBits before c).isSome
        let bits := letters.foldl (fun n c => n ||| (letterBits before c).getD 0) 0
        let modes := ModeChange.apply ⟨groups, sign, bits⟩ modes
        match rest.drop letters.length with
        | [] => some modes
        | ',' :: rest => changedModes before fuel [] modes rest
        | c :: rest =>
          if c = '=' ∨ c = '+' ∨ c = '-' then changedModes before fuel groups modes (c :: rest)
          else none

def umask (words : List Octets) : Sh Nat := do
  let (given, words) ← Sh.readOptions "S" words
  let mask : Nat ← Steps.ask (.mask none)
  let modes := (List.range 3).map fun place => 7 - group mask place
  match words with
  | [] =>
    if given.isEmpty then
      let digits := Nat.toDigits 8 mask
      Sh.put (List.replicate (4 - digits.length) '0' ++ digits ++ ['\n'])
    else
      let of (place : Nat) : Octets := modeText (modes[place]?.getD 0)
      Sh.put ("u=".toList ++ of 2 ++ ",g=".toList ++ of 1 ++ ",o=".toList ++ of 0 ++ ['\n'])
    return 0
  | word :: _ =>
    let new ←
      if (word.head?.map Char.isDigit).getD false then
        if word.all fun c => '0' ≤ c && c ≤ '7' then pure (Numeral.front 8 word.length word).1
        else Sh.badNumber word
      else
        match changedModes modes (word.length + 1) [] modes word with
        | some modes =>
          pure ((modes.zipIdx.map fun (bits, place) => (7 - bits) * unit place).foldl (· + ·) 0)
        | none => Sh.fail ("Illegal mode: ".toList ++ word)
    let _ : Nat ← Steps.ask (.mask (some (new % 512)))
    return 0

/-- The limits of processes with their letters, and what they are at first. -/
def limits : List (Char × String × String) :=
  [('t', "time(seconds)", "unlimited"), ('f', "file(blocks)", "unlimited"),
    ('d', "data(kbytes)", "unlimited"), ('s', "stack(kbytes)", "8192"),
    ('c', "coredump(blocks)", "0"), ('m', "memory(kbytes)", "unlimited"),
    ('l', "locked memory(kbytes)", "8192"), ('p', "process", "unlimited"),
    ('n', "nofiles", "1048576"), ('v', "vmemory(kbytes)", "unlimited"),
    ('w', "locks", "unlimited"), ('r', "rtprio", "0")]

def ulimit (words : List Octets) : Sh Nat := do
  let (given, words) ← Sh.readOptions "HSatfdscmlpnvwr" words
  let letters := (given.map (·.1)).filter fun c => c ≠ 'H' && c ≠ 'S'
  let isAll := letters.contains 'a'
  if 1 < words.length ∨ (isAll ∧ !words.isEmpty) then Sh.failText "too many arguments"
  match words with
  | word :: _ =>
    if word = "unlimited".toList ∨ word.all Char.isDigit then return 0
    Sh.failText "bad number"
  | [] =>
    let letter := letters.getLast?.getD 'f'
    for (l, name, value) in limits do
      if isAll then
        Sh.put (name.toList ++ List.replicate (20 - name.length) ' ' ++ ' ' :: value.toList ++ ['\n'])
      else if l = letter then Sh.put (value.toList ++ ['\n'])
    return 0

/-- The time that the shell and its children took. -/
def times : Sh Nat := do
  let line := "0m0.000000s 0m0.000000s\n".toList
  Sh.put (line ++ line)
  return 0

/-! ## Leaving -/

/-- Leaves loops, or goes on with the next turn of one. -/
def leaveLoops (skip : Skip) (words : List Octets) : Sh Nat := do
  let n ← match words with
    | word :: _ => do
      let n ← Sh.natural word
      if n = 0 then Sh.badNumber word
      pure n
    | [] => pure 1
  let count := min n (← get).loops
  if 0 < count then
    Sh.change fun sh => { sh with skip := some skip, skipCount := count }
  return 0

def leave (words : List Octets) : Sh Nat := do
  match words with
  | word :: _ =>
    let n ← Sh.natural word
    Sh.change fun sh => { sh with skip := some .returning }
    return n
  | [] =>
    Sh.change fun sh => { sh with skip := some .leaving }
    return (← get).status

def exit (words : List Octets) : Sh Nat := do
  match words with
  | word :: _ =>
    let n ← Sh.natural word
    Sh.change fun sh => { sh with saved := some n }
  | [] => pure ()
  throw .exit

def exec (words : List Octets) : Sh Nat := do
  let (_, words) ← Sh.readOptions "" words
  if words.isEmpty then return 0
  Sh.change fun sh => sh.withOption .interactive false
  Lookup.execute words (← get).path none

/-! ## By their names -/

/-- Runs a command that runs no others. -/
def run (name : Octets) (words : List Octets) : Sh Nat :=
  match String.ofList name with
  | "[" => Test.run true words
  | "test" => Test.run false words
  | "alias" => defineAliases words
  | "unalias" => unalias words
  | "bg" | "fg" => Jobs.move words
  | "break" => leaveLoops .breaking words
  | "continue" => leaveLoops .continuing words
  | "cd" | "chdir" => changeDirectory words
  | "command" => command words
  | "echo" => do
    Sh.put (Writing.line words)
    return 0
  | "exec" => exec words
  | "exit" => exit words
  | "export" => mark name ⟨true, false, false⟩ (·.isExported) words
  | "readonly" => mark name ⟨false, true, false⟩ (·.isReadOnly) words
  | "false" => return 1
  | "getopts" => getopts words
  | "hash" => hash words
  | "jobs" => Jobs.list words
  | "kill" => Jobs.kill words
  | "local" => localize words
  | "printf" => Writing.filled words
  | "pwd" => showDirectory words
  | "read" => read words
  | "return" => leave words
  | "set" => setAll words
  | "shift" => shift words
  | "times" => times
  | "trap" => trap words
  | "type" => type words
  | "ulimit" => ulimit words
  | "umask" => umask words
  | "unset" => unset words
  | "wait" => Jobs.wait words
  | _ => return 0

end Transcript.Host.Builtin

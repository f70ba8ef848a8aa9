-- The shell as a program: what it is started with, the script that it runs, and how it ends.
import Transcript.Host.Shell.Evaluation

namespace Transcript.Host.Shell

/-! ## Starting -/

/-- The variables of the shell itself, before those of the environment count. -/
def ownVariables : List (Octets × Variable) :=
  let of (name : String) (value : Option String) : Octets × Variable :=
    (name.toList, ⟨value.map String.toList, false, false, true⟩)
  [of "IFS" (some " \t\n"), of "MAIL" none, of "MAILPATH" none,
    ("PATH".toList, ⟨some defaultPath, false, false, true⟩), of "PS1" (some "# "),
    of "PS2" (some "> "), of "PS4" (some "+ "), of "OPTIND" (some "1")]

/-- The variables that a shell starts with. The separators and the count of the options are
always the usual ones. -/
def firstVariables (environment : List (Octets × Octets)) : List (Octets × Variable) :=
  let given := environment.filter fun e => Script.isName e.1
  let bindings := given.foldl (fun vs (name, value) =>
    let isFixed := ((List.lookup name vs).map (·.isFixed)).getD false
    putVariable name ⟨some value, true, false, isFixed⟩ vs) ownVariables
  let reset (name value : String) (vs : List (Octets × Variable)) : List (Octets × Variable) :=
    match List.lookup name.toList vs with
    | some v => putVariable name.toList { v with value := some value.toList } vs
    | none => vs
  reset "IFS" " \t\n" (reset "OPTIND" "1" bindings)

def first (call : Call) : Shell where
  name := call.name
  commandName := none
  id := 0
  level := 0
  options := []
  bindings := firstVariables call.environment
  scopes := []
  parameters := parametersOf []
  status := 0
  saved := none
  commandStatus := 0
  background := none
  functions := []
  tracked := []
  aliases := []
  skip := none
  skipCount := 0
  loops := 0
  calls := 0
  depth := 0
  functionLine := none
  line := 0
  errorLine := 0
  readLine := 1
  traps := []
  modes := []
  pending := []
  jobs := []
  documents := []
  nextDocument := 0
  frames := []
  traceDescriptor := 2
  isTracing := false
  out := []
  directory := []
  physical := none
  source := none

/-- Learns what the system knows of the shell, and settles the working directory. -/
def settle : Sh Unit := do
  let ids : Nat × Nat ← Steps.ask .identity
  Sh.change fun sh => { sh with id := ids.1 }
  Sh.assign "PPID".toList (Octets.ofNat ids.2)
  let named := ((← get).valueOf? "PWD").getD []
  let there : Except HostError FileStatus ← Steps.ask (.status named true)
  let here : Except HostError FileStatus ← Steps.ask (.status ['.'] true)
  let isGood : Bool := named.head? = some '/' &&
    match there, here with
    | .ok a, .ok b => a.identity = b.identity
    | _, _ => false
  Builtin.noteDirectory (if isGood then some named else none) false

/-! ## Arguments -/

/-- What a shell was asked to do on its command line. -/
structure Request where
  isCommand : Bool
  words : List Octets

/-- Sets the letters of an option word; `c` says that a script follows the options. -/
def setLetters (on : Bool) : Octets → List Octets → Sh (Bool × List Octets)
  | [], words => return (false, words)
  | c :: letters, words => do
    if c = 'c' then
      let (_, words) ← setLetters on letters words
      return (true, words)
    else if c = 'l' then setLetters on letters words
    else if c = 'o' then
      if words.isEmpty then
        let all := ShellOption.table.map (·.1)
        let before := (← get).options
        Sh.change fun sh => { sh with options := all }
        Builtin.setNamed on none
        Sh.change fun sh => { sh with options := before }
        let _ ← Sh.flush
      else Builtin.setNamed on words.head?
      setLetters on letters words.tail
    else
      Builtin.setLetter on c
      setLetters on letters words

/-- Reads the options of the command line. -/
def readArguments : Nat → List Octets → Sh Request
  | 0, words => return ⟨false, words⟩
  | fuel + 1, words => do
    match words with
    | ['-'] :: rest | ['-', '-'] :: rest => return ⟨false, rest⟩
    | (sign :: letters) :: rest =>
      if sign ≠ '-' ∧ sign ≠ '+' then return ⟨false, words⟩
      let (isCommand, rest) ← setLetters (sign = '-') letters rest
      let request ← readArguments fuel rest
      return { request with isCommand := isCommand || request.isCommand }
    | _ => return ⟨false, words⟩

/-! ## Running -/

/-- Runs the script that the shell was started with. -/
def runScript (words : List Octets) : Sh Unit := do
  let request ← readArguments (words.length + 1) words
  if (← get).isOn .interactive then Sh.change fun sh => sh.withOption .monitor true
  Builtin.settleOptions
  let begin (name : Option Octets) (rest : List Octets) : Sh Unit :=
    Sh.change fun sh => { sh with name := name.getD sh.name, parameters := parametersOf rest }
  let fromDescriptor (n : Nat) : Sh Unit := do
    let _ ← Evaluation.evaluateScript Steps.endless ⟨.start [] false 0, [], some n⟩
  if request.isCommand then
    match request.words with
    | [] => Sh.failText "-c requires an argument"
    | script :: rest =>
      begin rest.head? rest.tail
      let readsInput := (← get).isOn .stdin
      let way : Evaluation.Way := ⟨!readsInput, false⟩
      let _ ← Evaluation.evaluateText Steps.endless way script
      if readsInput then fromDescriptor 0
  else
    let sh ← get
    match request.words with
    | [] =>
      Sh.change fun sh => sh.withOption .stdin true
      fromDescriptor 0
    | path :: rest =>
      if sh.isOn .stdin then
        begin none request.words
        fromDescriptor 0
      else
        let descriptor ← Redirected.openFile path .reading
        let source : Nat ←
          match ← Steps.ask (.duplicate descriptor 10) with
          | .ok n => do
            let _ : Bool ← Steps.ask (.close descriptor)
            pure n
          | .error _ => pure descriptor
        begin (some path) rest
        Sh.change fun sh => { sh with source := some source }
        fromDescriptor source

/-- Forgets what was going on in the shell. The status is the one that was settled before, where
the shell was to end with that. -/
def reset (keeps : Bool) : Sh Unit := do
  Redirected.unwind 0
  Sh.change fun sh => { sh with
    status := if keeps then sh.saved.getD sh.status else sh.status
    saved := none, skip := none, loops := 0, isTracing := false, commandName := none
    functionLine := none }

/-- Runs the trap for the end of the shell, and gives the status to end with. -/
def finish : Sh Nat := do
  let sh ← get
  match List.lookup 0 sh.traps with
  | none => return sh.status
  | some action =>
    Sh.change fun sh => { sh with
      saved := some sh.status, traps := sh.traps.filter fun t => t.1 ≠ 0, skip := none }
    let keeps : Bool ←
      match ← Steps.attempt (Evaluation.evaluateText Steps.endless .plain action) with
      | .ok _ => pure true
      | .error e => pure (e = .exit)
    reset keeps
    let _ ← Sh.flush
    return (← get).status

/-- The shell from its start to its end. -/
def whole (words : List Octets) : Sh Nat := do
  let run : Sh Unit := do
    settle
    runScript words
  match ← Steps.attempt run with
  | .ok () => reset false
  | .error e => reset (e = .exit)
  finish

/-- What a process does that runs the shell. -/
def activity (call : Call) : Activity :=
  whole call.arguments.tail (first call) fun result sh =>
    match result with
    | .ok status => .ended (.code (status % 256))
    | .error _ => .ended (.code (sh.status % 256))

end Transcript.Host.Shell

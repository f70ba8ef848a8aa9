-- How commands are run: the shell's own ones within it, programs and subshells as processes
-- of their own, and the texts that are scripts themselves.
import Transcript.Host.Shell.Builtins
import Transcript.Host.Shell.Source

namespace Transcript.Host.Evaluation

/-! ## Ways -/

/-- How a command is run: whether the shell ends with it, and whether its status is looked at
by another command. -/
structure Way where
  ends : Bool
  isTested : Bool

namespace Way

def plain : Way := ⟨false, false⟩

def tested : Way := ⟨false, true⟩

/-- The way of a part of a command. -/
def part (w : Way) : Way := ⟨false, w.isTested⟩

end Way

/-- The most calls of functions within each other, and the most scripts within each other. -/
def mostCalls : Nat := 1000

def mostScripts : Nat := 5000

/-! ## Small steps -/

/-- Notes the line that is being executed. -/
def enterLine (line : Nat) : Sh Unit :=
  Sh.change fun sh => { sh with
    errorLine := line
    line := match sh.functionLine with
      | some start => line + 1 - start
      | none => line }

def setStatus (n : Nat) : Sh Unit := Sh.change fun sh => { sh with status := n }

/-- Does steps that may fail; a failure is a status. -/
def safely (x : Sh Unit) : Sh Nat := do
  match ← Steps.attempt x with
  | .ok () => return 0
  | .error .error => return 2
  | .error e => throw e

/-- Ends what is left out after a turn of a loop, if it is only left out there; what is still
left out is given. -/
def endTurn : Sh (Option Skip) := do
  let sh ← get
  match sh.skip with
  | some .breaking | some .continuing =>
    if sh.skipCount ≤ 1 then
      Sh.change fun sh => { sh with skip := none, skipCount := sh.skipCount - 1 }
    else Sh.change fun sh => { sh with skipCount := sh.skipCount - 1 }
    return if sh.skipCount ≤ 1 then sh.skip else some .breaking
  | other => return other

/-- The shell becomes one within another: it has no traps and no jobs of its own. -/
def enterSubshell : Sh Unit := do
  let sh ← get
  match sh.source with
  | some descriptor =>
    let _ : Bool ← Steps.ask (.close descriptor)
  | none => pure ()
  let active := sh.traps.filter fun t => !t.2.isEmpty
  Sh.change fun sh => { sh with
    level := sh.level + 1, traps := sh.traps.filter fun t => t.2.isEmpty
    jobs := [], frames := [], pending := [], source := none }
  for (n, _) in active do
    if n ≠ 0 then Sh.settleSignal n

/-- A process in the background takes no part in what is typed, and reads nothing unless it
reads from another one. -/
def enterBackground (isFirst : Bool) : Sh Unit := do
  Sh.ignoreSignal 2
  Sh.ignoreSignal 3
  if isFirst then
    let _ : Bool ← Steps.ask (.close 0)
    let _ : Except HostError Nat ← Steps.ask (.openFile "/dev/null".toList .reading)

/-- Leads a descriptor to where another one leads, which is closed then. -/
def moveTo (descriptor target : Nat) : Sh Unit := do
  if descriptor ≠ target then
    let _ : Except HostError Unit ← Steps.ask (.duplicateTo descriptor target)
    let _ : Bool ← Steps.ask (.close descriptor)

/-- The first of some paths that leads to a regular file. -/
def firstRegular (name : Octets) : List Octets → Sh Octets
  | [] => Sh.fail (name ++ ": not found".toList)
  | path :: rest => do
    let status : Except HostError FileStatus ← Steps.ask (.status path true)
    match status with
    | .ok status => if status.kind = .regular then return path else firstRegular name rest
    | .error _ => firstRegular name rest

/-- The file in the directories of the path that a name stands for. -/
def findFile (name : Octets) : Sh Octets := do
  let path := (← get).path
  firstRegular name (Lookup.candidates path name)

/-- The arguments of `command` up to the one that is run, if one is: the path that is asked
for, and the other words. -/
def afterCommand : List Octets → Option (Option Octets × List Octets)
  | [] => none
  | ['-', '-'] :: [] => none
  | ['-', '-'] :: rest => some (none, rest)
  | ('-' :: c :: letters) :: rest =>
    if (c :: letters).all (· = 'p') then
      (afterCommand rest).map fun (_, rest) => (some Shell.defaultPath, rest)
    else none
  | words => some (none, words)

/-- The command that words are for, once it is known. -/
structure Chosen where
  words : List Octets
  found : Found
  /-- The command is one of the shell's own, and a special one. -/
  isSpecial : Bool
  /-- Assignments in front of the command count for it alone. -/
  isLocal : Bool
  takesAssignments : Bool
  isExec : Bool
  skipsFunctions : Bool
  path : Option Octets

/-- No command at all. -/
def Chosen.none : Chosen := ⟨[], .builtin, false, false, false, false, false, Option.none⟩

/-! ## Commands -/

mutual

/-- Runs a command and gives its status. -/
def evaluate : Nat → Way → Option Command → Sh Nat
  | 0, _, _ => return 0
  | fuel + 1, way, command => do
    let sh ← get
    let leave (status : Nat) (isChecked : Bool) : Sh Nat := do
      runTraps fuel
      if way.ends ∨ (isChecked ∧ status ≠ 0) then throw .ended
      return status
    match if sh.isOn .noexec then none else command with
    | none => leave 0 false
    | some command =>
      runTraps fuel
      let isChecked := (← get).isOn .errexit && !way.isTested
      let settle (status : Nat) (isChecked : Bool) : Sh Nat := do
        setStatus status
        leave status isChecked
      let go (command : Option Command) : Sh Nat := do
        settle (← evaluate fuel way command) false
      match command with
      | .simple line assignments words redirections =>
        settle (← evaluateSimple fuel way line assignments words redirections) isChecked
      | .subshell line body redirections =>
        settle (← evaluateSubshell fuel way line body redirections false) isChecked
      | .background line body redirections =>
        settle (← evaluateSubshell fuel way line (some body) redirections true) isChecked
      | .pipeline commands isBackground =>
        settle (← evaluatePipeline fuel way commands isBackground) isChecked
      | .redirected line body redirections =>
        settle (← evaluateRedirected fuel way line body redirections) false
      | .loop isUntil test body =>
        Sh.change fun sh => { sh with loops := sh.loops + 1 }
        let status ← evaluateLoop fuel way.part isUntil test body 0
        Sh.change fun sh => { sh with loops := sh.loops - 1 }
        settle status false
      | .each line name words body =>
        enterLine line
        let fields ← words.mapM (Expansion.fields (output fuel) fuel)
        Sh.change fun sh => { sh with loops := sh.loops + 1 }
        let status ← evaluateEach fuel way.part name fields.flatten body 0
        Sh.change fun sh => { sh with loops := sh.loops - 1 }
        settle status false
      | .select line word cases =>
        enterLine line
        let text ← Expansion.text (output fuel) fuel .text word
        settle (← evaluateCases fuel way text cases) false
      | .negation body =>
        let status ← evaluate fuel .tested (some body)
        let isLeft := (← get).skip.isSome
        settle (if isLeft then status else if status = 0 then 1 else 0) false
      | .both first second =>
        let status ← evaluate fuel .tested (some first)
        if status ≠ 0 ∨ (← get).skip.isSome then leave status false else go (some second)
      | .either first second =>
        let status ← evaluate fuel .tested (some first)
        if status = 0 ∨ (← get).skip.isSome then leave status false else go (some second)
      | .sequence first second =>
        let status ← evaluate fuel way.part (some first)
        if (← get).skip.isSome then leave status false else go (some second)
      | .choice test yes no =>
        let status ← evaluate fuel .tested test
        if (← get).skip.isSome then leave status false
        else if status = 0 then go yes
        else if no.isSome then go no
        else settle 0 false
      | .function line name body =>
        let f : Function := ⟨line, body⟩
        Sh.change fun sh => { sh with
          functions := (name, f) :: sh.functions.filter fun e => e.1 ≠ name }
        settle 0 false

/-- Runs the traps of the signals that came. -/
def runTraps : Nat → Sh Unit
  | 0 => return
  | fuel + 1 => do
    Sh.takeSignals
    let sh ← get
    if sh.pending.isEmpty then return
    let status := sh.saved.getD sh.status
    Sh.change fun sh => { sh with saved := some status, pending := [] }
    runEachTrap fuel status (sh.pending.mergeSort fun a b => decide (a ≤ b))
    Sh.change fun s => { s with saved := sh.saved }

def runEachTrap : Nat → Nat → List Nat → Sh Unit
  | 0, _, _ => return
  | _, _, [] => return
  | fuel + 1, status, n :: rest => do
    let sh ← get
    if sh.skip.isSome then
      Sh.change fun sh => { sh with pending := sh.pending ++ n :: rest }
    else
      match List.lookup n sh.traps with
      | some action =>
        let _ ← evaluateText fuel .plain action
        if (← get).skip ≠ some .returning then setStatus status
      | none => pure ()
      runEachTrap fuel status rest

/-- Runs a command with redirections around it. -/
def evaluateRedirected : Nat → Way → Nat → Command → List Redirection → Sh Nat
  | 0, _, _, _, _ => return 0
  | fuel + 1, way, line, body, redirections => do
    enterLine line
    let rs ← Redirected.ofAll (output fuel) fuel redirections
    Redirected.push rs
    let failed ← safely (Redirected.apply (output fuel) fuel true false rs)
    let status ← if failed ≠ 0 then pure failed else evaluate fuel way.part (some body)
    if !rs.isEmpty then Redirected.pop false
    return status

/-- Runs a loop until its condition says so, with the status of its last turn. -/
def evaluateLoop : Nat → Way → Bool → Option Command → Option Command → Nat → Sh Nat
  | 0, _, _, _, _, status => return status
  | fuel + 1, way, isUntil, test, body, status => do
    let tested ← evaluate fuel .tested test
    match ← endTurn with
    | some .continuing => evaluateLoop fuel way isUntil test body status
    | some skip => return if skip = .returning then tested else status
    | none =>
      if (tested = 0) = isUntil then return status
      let status ← evaluate fuel way body
      match ← endTurn with
      | none | some .continuing => evaluateLoop fuel way isUntil test body status
      | some _ => return status

/-- Runs a command for each of some values of a variable. -/
def evaluateEach : Nat → Way → Octets → List Octets → Option Command → Nat → Sh Nat
  | 0, _, _, _, _, status => return status
  | _, _, _, [], _, status => return status
  | fuel + 1, way, name, value :: rest, body, _ => do
    Sh.assign name value
    let status ← evaluate fuel way body
    match ← endTurn with
    | none | some .continuing => evaluateEach fuel way name rest body status
    | some _ => return status

/-- Runs the first case with a pattern that matches a text. -/
def evaluateCases : Nat → Way → Octets → List (List ScriptWord × Option Command) → Sh Nat
  | 0, _, _, _ => return 0
  | _, _, _, [] => return 0
  | fuel + 1, way, text, (patterns, body) :: rest => do
    if (← get).skip.isSome then return 0
    if ← matchesAny fuel text patterns then
      if (← get).skip.isNone ∧ body.isSome then evaluate fuel way body else return 0
    else evaluateCases fuel way text rest

/-- Whether one of some patterns matches a text; those after it are not looked at. -/
def matchesAny : Nat → Octets → List ScriptWord → Sh Bool
  | 0, _, _ => return false
  | _, _, [] => return false
  | fuel + 1, text, pattern :: rest => do
    let d ← Expansion.fill (output fuel) fuel .pattern pattern .empty
    if Pattern.isMatch (Cell.pattern d.all) text then return true
    matchesAny fuel text rest

/-- Runs a command in a shell within the shell, as a process of its own unless the shell ends
with it. -/
def evaluateSubshell : Nat → Way → Nat → Option Command → List Redirection → Bool → Sh Nat
  | 0, _, _, _, _, _ => return 0
  | fuel + 1, way, line, body, redirections, isBackground => do
    enterLine line
    let rs ← Redirected.ofAll (output fuel) fuel redirections
    let inside (way : Way) : Sh Unit := do
      Redirected.apply (output fuel) fuel false false rs
      let _ ← evaluate fuel { way with ends := true } body
    if !isBackground ∧ way.ends ∧ !(← get).hasTraps then
      enterSubshell
      inside way
      return (← get).status
    let job ← Jobs.begin
    let id ← Steps.fork do
      enterSubshell
      if isBackground then enterBackground true
      inside (if isBackground then .plain else way)
      return .ended
    Jobs.add job id
    if isBackground then
      Sh.change fun sh => { sh with background := some id }
      return 0
    Jobs.finish job

/-- Runs commands as processes of which each reads what the one before it writes. -/
def evaluatePipeline : Nat → Way → List Command → Bool → Sh Nat
  | 0, _, _, _ => return 0
  | fuel + 1, way, commands, isBackground => do
    let job ← Jobs.begin
    startPipeline fuel way commands isBackground job true none
    if isBackground then return 0
    Jobs.finish job

/-- Starts the processes of a pipeline, of which the first may read from a pipe already. -/
def startPipeline : Nat → Way → List Command → Bool → Nat → Bool → Option Nat → Sh Unit
  | 0, _, _, _, _, _, _ => return
  | _, _, [], _, _, _, _ => return
  | fuel + 1, way, command :: rest, isBackground, job, isFirst, before => do
    let ends : Option (Nat × Nat) ←
      if rest.isEmpty then pure none
      else do
        let ends : Nat × Nat ← Steps.ask .pipe
        pure (some ends)
    let id ← Steps.fork do
      enterSubshell
      if isBackground then enterBackground isFirst
      match ends with
      | some (out, _) =>
        let _ : Bool ← Steps.ask (.close out)
      | none => pure ()
      match before with
      | some descriptor => moveTo descriptor 0
      | none => pure ()
      match ends with
      | some (_, into) => moveTo into 1
      | none => pure ()
      let _ ← evaluate fuel ⟨true, way.isTested⟩ (some command)
      return .ended
    Jobs.add job id
    if isBackground then Sh.change fun sh => { sh with background := some id }
    match before with
    | some descriptor =>
      let _ : Bool ← Steps.ask (.close descriptor)
    | none => pure ()
    match ends with
    | some (out, into) =>
      let _ : Bool ← Steps.ask (.close into)
      startPipeline fuel way rest isBackground job false (some out)
    | none => return

/-- What a command writes, run in a shell within the shell. -/
def output : Nat → Option Command → Sh Octets
  | 0, _ => return []
  | _, none => return []
  | fuel + 1, some command => do
    let ends : Nat × Nat ← Steps.ask .pipe
    let job ← Jobs.begin
    let id ← Steps.fork do
      enterSubshell
      let _ : Bool ← Steps.ask (.close ends.1)
      moveTo ends.2 1
      let _ ← evaluate fuel ⟨true, false⟩ (some command)
      return .ended
    Jobs.add job id
    let _ : Bool ← Steps.ask (.close ends.2)
    let text ← Steps.readAll ends.1
    let _ : Bool ← Steps.ask (.close ends.1)
    let status ← Jobs.finish job
    Sh.change fun sh => { sh with commandStatus := status }
    return text

/-- Fills in words until there is at least one field. -/
def takeField : Nat → List ScriptWord → Sh (List Octets × List ScriptWord)
  | 0, words => return ([], words)
  | _, [] => return ([], [])
  | fuel + 1, word :: rest => do
    let fields ← Expansion.fields (output fuel) fuel word
    if fields.isEmpty then takeField fuel rest else return (fields, rest)

/-- Fills in words as long as the arguments of `command` do not name one that is run. -/
def takeCommand : Nat → List Octets → List ScriptWord →
    Sh (Option (Option Octets × List Octets) × List Octets × List ScriptWord)
  | 0, fields, words => return (none, fields, words)
  | fuel + 1, fields, words => do
    match afterCommand fields.tail with
    | some (path, arguments) =>
      if !arguments.isEmpty then return (some (path, arguments), fields, words)
      let (more, words) ← takeField fuel words
      if more.isEmpty then return (none, fields, words)
      takeCommand fuel (fields ++ more) words
    | none =>
      if fields.tail.all fun f => f = ['-', '-'] || f.head? = some '-' && f.tail.all (· = 'p') then
        let (more, words) ← takeField fuel words
        if more.isEmpty then return (none, fields, words)
        takeCommand fuel (fields ++ more) words
      else return (none, fields, words)

/-- Finds out which command words are for, as far as the shell itself knows. -/
def choose : Nat → Bool → Chosen → List ScriptWord → Sh (Chosen × List ScriptWord)
  | 0, _, chosen, words => return (chosen, words)
  | fuel + 1, isFirst, chosen, words => do
    let name := chosen.words.headD []
    let found ← Lookup.find name { Lookup.Inquiry.inShell with
      skipsFunctions := chosen.skipsFunctions }
    let chosen := { chosen with found := found, isLocal := true }
    match found with
    | .builtin =>
      let isSpecial := if isFirst then Lookup.isSpecial name else chosen.isSpecial
      let chosen := { chosen with
        isSpecial := isSpecial, isLocal := !isFirst || !isSpecial
        takesAssignments := Lookup.takesAssignments name, isExec := name = "exec".toList }
      if name ≠ "command".toList then return (chosen, words)
      match ← takeCommand fuel chosen.words words with
      | (some (path, arguments), _, words) =>
        choose fuel false { chosen with
          words := arguments, path := path.or chosen.path, skipsFunctions := true } words
      | (none, fields, words) => return ({ chosen with words := fields }, words)
    | _ => return ({ chosen with takesAssignments := false }, words)

/-- Fills in the words after a command. -/
def fillWords : Nat → Bool → List ScriptWord → Sh (List Octets)
  | 0, _, _ => return []
  | _, _, [] => return []
  | fuel + 1, takesAssignments, word :: rest => do
    let fields ←
      if takesAssignments ∧ Script.isAssignment word then do
        let text ← Expansion.text (output fuel) fuel .assignment word
        pure [text]
      else Expansion.fields (output fuel) fuel word
    return fields ++ (← fillWords fuel takesAssignments rest)

/-- Gives variables the values in front of a command, and tells which they are. -/
def assignAll : Nat → Bool → Bool → List ScriptWord → Sh (List Octets)
  | 0, _, _, _ => return []
  | _, _, _, [] => return []
  | fuel + 1, isLocal, exports, word :: rest => do
    let text ← Expansion.text (output fuel) fuel .assignment word
    if isLocal then Sh.localize text ⟨true, false, false⟩
    else
      let (name, value) := Sh.splitAssignment text
      Sh.assignWith false name (some (value.getD [])) ⟨exports, false, false⟩
    return text :: (← assignAll fuel isLocal exports rest)

/-- Tells what is about to be run. -/
def trace : Nat → List Octets → Sh Unit
  | 0, _ => return
  | fuel + 1, words => do
    let sh ← get
    if sh.isOn .xtrace && !sh.isTracing then
      let lead := (sh.valueOf? "PS4").getD []
      Sh.change fun sh => { sh with isTracing := true }
      let filled : Except Escape Octets ← Steps.attempt do
        match Script.readTemplate lead sh.line sh.nextDocument with
        | .ok (word, _) => Expansion.text (output fuel) fuel .document word
        | .error _ => return lead
      Sh.change fun sh => { sh with isTracing := false }
      let text := (filled.toOption.getD lead) ++ Octets.join [' '] words ++ ['\n']
      Steps.tell (← get).traceDescriptor text

/-- Runs a simple command. -/
def evaluateSimple : Nat → Way → Nat → List ScriptWord → List ScriptWord → List Redirection →
    Sh Nat
  | 0, _, _, _, _, _ => return 0
  | fuel + 1, way, line, assignments, words, redirections => do
    enterLine line
    Sh.change fun sh => { sh with commandStatus := 0 }
    let (fields, rest) ← takeField fuel words
    let (chosen, rest) ←
      if fields.isEmpty then pure (Chosen.none, [])
      else choose fuel true { Chosen.none with words := fields } rest
    let more ← fillWords fuel chosen.takesAssignments rest
    let words := chosen.words ++ more
    let exports := chosen.isExec && decide (1 < words.length)
    let scopes := (← get).scopes.length
    let frames := (← get).frames.length
    if chosen.isLocal then Sh.change fun sh => { sh with scopes := [] :: sh.scopes }
    let rs ← Redirected.ofAll (output fuel) fuel redirections
    Redirected.push rs
    Sh.change fun sh => { sh with traceDescriptor := 2 }
    let failed ← safely (Redirected.apply (output fuel) fuel true true rs)
    let status ←
      if failed ≠ 0 then do
        setStatus failed
        if chosen.isSpecial then throw .error
        pure failed
      else do
        let given ← assignAll fuel chosen.isLocal exports assignments
        trace fuel (given ++ words)
        runChosen fuel way { chosen with words := words }
    if !rs.isEmpty then Redirected.pop chosen.isExec
    Redirected.unwind frames
    Sh.leaveScopes scopes
    return status

/-- Runs a command with its arguments. -/
def runChosen : Nat → Way → Chosen → Sh Nat
  | 0, _, _ => return 0
  | fuel + 1, way, chosen => do
    let name := chosen.words.headD []
    let found ←
      match chosen.found with
      | .builtin => pure Found.builtin
      | _ =>
        Lookup.find name { Lookup.Inquiry.ofName with
          path := chosen.path, skipsFunctions := chosen.skipsFunctions }
    match found with
    | .nothing =>
      setStatus 127
      return 127
    | .program index =>
      let path := chosen.path.getD (← get).path
      if way.ends ∧ !(← get).hasTraps then Lookup.execute chosen.words path index
      let job ← Jobs.begin
      let id ← Steps.spawn do
        let _ : Except Escape Unit ← Steps.attempt (Lookup.execute chosen.words path index)
        return (← get).status
      Jobs.add job id
      Jobs.finish job
    | .builtin =>
      if name.isEmpty && chosen.words.isEmpty then
        let status := (← get).commandStatus
        setStatus status
      else
        let result ← Steps.attempt (runBuiltin fuel way chosen.words)
        match result with
        | .ok () => pure ()
        | .error .error => if chosen.isSpecial then throw .error
        | .error e => throw e
      Jobs.catchUp
      return (← get).status
    | .function f =>
      callFunction fuel way f chosen.words
      return (← get).status

/-- Runs a command of the shell itself, which messages name in the meantime. -/
def runBuiltin : Nat → Way → List Octets → Sh Unit
  | 0, _, _ => return
  | fuel + 1, way, words => do
    let name := words.headD []
    let before := (← get).commandName
    Sh.change fun sh => { sh with commandName := some name, out := [] }
    let result ← Steps.attempt do
      let status ←
        if name = "eval".toList then
          if words.tail.isEmpty then pure 0
          else evaluateText fuel way.part (Octets.join [' '] words.tail)
        else if name = ['.'] then evaluateFile fuel words.tail
        else Builtin.run name words.tail
      let isWritten ← Sh.flush
      if !isWritten then Sh.warn (name ++ ": I/O error".toList)
      setStatus (if isWritten then status else if status = 0 then 1 else status)
    Sh.change fun sh => { sh with commandName := before, out := [] }
    match result with
    | .ok () => return
    | .error e => throw e

/-- Runs the body of a function with arguments as its parameters. -/
def callFunction : Nat → Way → Function → List Octets → Sh Unit
  | 0, _, _, _ => return
  | fuel + 1, way, f, words => do
    let before ← get
    if mostCalls ≤ before.calls then
      Sh.failText ("Maximum function recursion depth (" ++ toString mostCalls ++ ") reached")
    Sh.change fun sh => { sh with
      functionLine := some f.line, loops := 0, calls := sh.calls + 1
      parameters := Shell.parametersOf words.tail }
    let result ← Steps.attempt (evaluate fuel way.part (some f.body))
    Sh.change fun sh => { sh with
      functionLine := before.functionLine, loops := before.loops, calls := before.calls
      parameters := before.parameters
      skip := sh.skip.filter fun s => s ≠ .returning && s ≠ .leaving }
    match result with
    | .ok _ => return
    | .error e => throw e

/-- Runs a text as a script. -/
def evaluateText : Nat → Way → Octets → Sh Nat
  | 0, _, _ => return 0
  | fuel + 1, way, text => do
    let before ← get
    if mostScripts ≤ before.depth then
      let own : Nat × Nat ← Steps.ask .identity
      let _ : Except HostError Unit ← Steps.ask (.signal own.1 11)
    Sh.change fun sh => { sh with depth := sh.depth + 1 }
    let reader := Script.Reader.start text true before.line
    let result ← Steps.attempt (evaluateLines fuel way ⟨reader, [], none⟩ 0)
    Sh.change fun sh => { sh with depth := before.depth, readLine := before.readLine }
    match result with
    | .ok status => return status
    | .error e => throw e

/-- Runs the lines of a script one after the other. -/
def evaluateLines : Nat → Way → Source → Nat → Sh Nat
  | 0, _, _, status => return status
  | fuel + 1, way, source, status => do
    let (line, source) ← source.nextLine
    if line.isEnd then return status
    let ended ← evaluate fuel { way with ends := way.ends && line.isLast } line.command
    let status := if line.command.isSome then ended else status
    if (← get).skip.isSome then return status
    evaluateLines fuel way source status

/-- Runs the file that the first word names as a part of the script. -/
def evaluateFile : Nat → List Octets → Sh Nat
  | 0, _ => return 0
  | fuel + 1, words => do
    let (_, words) ← Sh.readOptions "" words
    match words with
    | [] => return 0
    | word :: _ =>
      let path ← if word.contains '/' then pure word else findFile word
      let descriptor ← Redirected.openFile path .reading
      let text ← Steps.readAll descriptor
      let _ : Bool ← Steps.ask (.close descriptor)
      let before ← get
      Sh.change fun sh => { sh with commandName := some path, depth := sh.depth + 1 }
      let result ← Steps.attempt (evaluateScript fuel ⟨.start [] false before.line, text, none⟩)
      Sh.change fun sh => { sh with depth := before.depth, readLine := before.readLine }
      match result with
      | .ok status => return status
      | .error e => throw e

/-- Runs a whole script, which may be left before its end. -/
def evaluateScript : Nat → Source → Sh Nat
  | 0, _ => return 0
  | fuel + 1, source => do
    let status ← evaluateLines fuel .plain source 0
    Sh.change fun sh => { sh with
      skip := sh.skip.filter fun s => s ≠ .returning && s ≠ .leaving }
    return status

end

end Transcript.Host.Evaluation

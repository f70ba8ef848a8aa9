-- The jobs of a shell: processes that it started and waits for, now or later.
import Transcript.Host.Shell.State
import Transcript.Host.Signal

namespace Transcript.Host

namespace Job

/-- All processes of a job have ended. -/
def isDone (job : Job) : Bool := job.processes.all fun p => p.2.isSome

/-- The status of a process as a number. -/
def code : ExitStatus → Nat
  | .code n => n
  | .signal n _ => 128 + n

/-- The status of a job is that of its last process. -/
def status (job : Job) : Nat :=
  match job.processes.getLast?.bind (·.2) with
  | some s => code s
  | none => 0

/-- What has become of a job. -/
def phrase (job : Job) : Octets :=
  if !job.isDone then "Running".toList
  else
    match job.processes.getLast?.bind (·.2) with
    | some (.signal n _) => (Signal.phrase n).toList
    | some (.code 0) | none => "Done".toList
    | some (.code n) => "Done(".toList ++ Octets.ofNat n ++ [')']

end Job

namespace Jobs

/-! ## Beginning -/

/-- The lowest number that no job has that is still of interest. -/
def freeNumber (jobs : List Job) : Nat :=
  let isFree (n : Nat) : Bool := jobs.all fun j => j.number ≠ n || (j.isDone && j.isWaitedFor)
  ((List.range (jobs.length + 1)).find? fun n => isFree (n + 1)).getD 0 + 1

/-- Begins a job without processes, and gives its number. -/
def begin : Sh Nat := do
  let n := freeNumber (← get).jobs
  Sh.change fun sh => { sh with jobs := ⟨n, [], false⟩ :: sh.jobs.filter fun j => j.number ≠ n }
  return n

def update (number : Nat) (f : Job → Job) : Sh Unit :=
  Sh.change fun sh => { sh with jobs := sh.jobs.map fun j => if j.number = number then f j else j }

def remove (number : Nat) : Sh Unit :=
  Sh.change fun sh => { sh with jobs := sh.jobs.filter fun j => j.number ≠ number }

/-- Adds a process to a job. -/
def add (number process : Nat) : Sh Unit :=
  update number fun j => { j with processes := j.processes ++ [(process, none)] }

def find? (number : Nat) : Sh (Option Job) := do
  return (← get).jobs.find? fun j => j.number = number

/-! ## Waiting -/

/-- Notes how a process has ended, and tells it where it matters. -/
def note (process : Nat) (status : ExitStatus) (foreground : Option Nat) : Sh Unit := do
  let isOf (j : Job) : Bool := j.processes.any fun p => p.1 = process && p.2.isNone
  match (← get).jobs.find? isOf with
  | none => return
  | some job =>
    let settle (p : Nat × Option ExitStatus) : Nat × Option ExitStatus :=
      if p.1 = process then (process, some status) else p
    update job.number fun j => { j with processes := j.processes.map settle }
    match status with
    | .signal n _ =>
      if foreground = some job.number ∧ n ≠ 2 ∧ n ≠ 13 then
        Steps.tell 2 ((Signal.phrase n).toList ++ ['\n'])
    | .code _ => return

/-- Notes the processes that have ended already. -/
def catchUpWith : Nat → Sh Unit
  | 0 => return
  | fuel + 1 => do
    if (← get).jobs.all (·.isDone) then return
    match ← Steps.ask (.wait .none) with
    | .child id status =>
      note id status none
      catchUpWith fuel
    | _ => return

def catchUp : Sh Unit := catchUpWith Steps.endless

/-- Waits for all processes of a job. -/
def outwait : Nat → Nat → Sh Unit
  | 0, _ => return
  | fuel + 1, number => do
    match ← find? number with
    | none => return
    | some job =>
      if job.isDone then return
      match ← Steps.ask (.wait .endless) with
      | .child id status =>
        note id status (some number)
        outwait fuel number
      | _ => return

/-- Waits for a job in front, which is of no interest after that, and gives its status. -/
def finish (number : Nat) : Sh Nat := do
  outwait Steps.endless number
  catchUp
  let status := ((← find? number).map (·.status)).getD 0
  remove number
  return status

/-- Waits as long as something is the case; false where a signal comes before. -/
def waitWhile (job : Option Nat) (isOpen : List Job → Bool) : Nat → Sh Bool
  | 0 => return true
  | fuel + 1 => do
    if !isOpen (← get).jobs then return true
    match ← Steps.ask (.wait .untilSignal) with
    | .child id status =>
      note id status job
      waitWhile job isOpen fuel
    | .interrupted => return false
    | _ => return true

/-! ## Naming -/

/-- The job that a text names, or what is wrong with it. -/
def named (name : Option Octets) : Sh Job := do
  let jobs := (← get).jobs
  let current : Sh Job := match jobs with
    | j :: _ => return j
    | [] => Sh.failText "No current job"
  let missing : Sh Job := Sh.fail ("No such job: ".toList ++ name.getD [])
  match name with
  | none | some ['%'] | some ['%', '+'] | some ['%', '%'] => current
  | some ['%', '-'] =>
    match jobs with
    | _ :: j :: _ => return j
    | _ => Sh.failText "No previous job"
  | some ('%' :: digits) =>
    if !digits.all Char.isDigit then missing
    else
      match jobs.find? fun j => j.number = Decimal.digitsValue digits with
      | some j => return j
      | none => missing
  | some _ => missing

/-! ## Commands -/

/-- Shows a job; one that is done is of no interest after that. -/
def display (job : Job) (showsIds : Bool) : Sh Unit := do
  let jobs := (← get).jobs
  let place := (jobs.map (·.number)).findIdx (· = job.number)
  let sign := if place = 0 then '+' else if place = 1 then '-' else ' '
  let front := ['['] ++ Octets.ofNat job.number ++ [']', ' ', sign, ' ']
  let fill (s : Octets) (width : Nat) : Octets :=
    s ++ List.replicate (max 1 (width - s.length)) ' '
  if showsIds then
    let ids := job.processes.map (·.1)
    let first := front ++ Octets.ofNat (ids.headD 0) ++ [' '] ++ job.phrase
    let others := ids.tail.map fun id =>
      [' ', '|', '\n'] ++ List.replicate front.length ' ' ++ Octets.ofNat id ++ [' ']
    let lines := (first :: others).map fun s =>
      if s.head? = some ' ' then s ++ List.replicate (36 - s.length) ' ' else fill s 33
    Sh.put (lines.flatten ++ ['\n'])
  else
    let others := job.processes.tail.flatMap fun _ => [' ', '|', ' ']
    Sh.put (fill (front ++ job.phrase) 33 ++ others ++ ['\n'])
  if job.isDone then remove job.number

def list (words : List Octets) : Sh Nat := do
  let (given, words) ← Sh.readOptions "lp" words
  let mode := given.getLast?.map (·.1)
  let one (job : Job) : Sh Unit := do
    if mode = some 'p' then
      Sh.put (Octets.ofNat ((job.processes.head?.map (·.1)).getD 0) ++ ['\n'])
    else display job (mode = some 'l')
  catchUp
  if words.isEmpty then
    for job in (← get).jobs do
      one job
  else
    for word in words do
      one (← named (some word))
  return 0

/-- Waits for the jobs that words name, or for all. -/
def wait (words : List Octets) : Sh Nat := do
  let (_, words) ← Sh.readOptions "" words
  let interrupted : Sh Nat := do
    Sh.takeSignals
    return 128 + (← get).pending.headD 0
  if words.isEmpty then
    let isWhole ← waitWhile none (fun jobs => jobs.any fun j => !j.isDone) Steps.endless
    if !isWhole then return ← interrupted
    Sh.change fun sh => { sh with jobs := sh.jobs.map fun j => { j with isWaitedFor := true } }
    return 0
  let one (word : Octets) : Sh (Option Nat) := do
    let job ←
      if word.head? = some '%' then some <$> named (some word)
      else do
        let id ← Sh.natural word
        pure ((← get).jobs.find? fun j => (j.processes.getLast?.map (·.1)) = some id)
    match job with
    | none => return some 127
    | some job =>
      let isOpen (jobs : List Job) : Bool := jobs.any fun j => j.number = job.number && !j.isDone
      if !(← waitWhile (some job.number) isOpen Steps.endless) then return none
      update job.number fun j => { j with isWaitedFor := true }
      return some (((← find? job.number).map (·.status)).getD 0)
  let rec all (status : Nat) : List Octets → Sh Nat
    | [] => return status
    | word :: rest => do
      match ← one word with
      | some status => all status rest
      | none => interrupted
  all 127 words

/-- A job cannot be moved where there is no terminal. -/
def move (words : List Octets) : Sh Nat := do
  let (_, words) ← Sh.readOptions "" words
  let _ ← named words.head?
  let name := words.head?.getD "(null)".toList
  Sh.fail ("job ".toList ++ name ++ " not created under job control".toList)

/-! ## Signals -/

/-- The name of a signal as it is listed. -/
def signalName (n : Nat) : Octets :=
  if n = 0 then "EXIT".toList
  else if n = 16 ∨ n = 32 ∨ n = 33 then Octets.ofNat n
  else if n < 32 then ((Signal.names[n - 1]?).getD "").toList
  else if n = 34 then "RTMIN".toList
  else if n = 64 then "RTMAX".toList
  else if n < 50 then "RTMIN+".toList ++ Octets.ofNat (n - 34)
  else "RTMAX-".toList ++ Octets.ofNat (64 - n)

/-- The number of a signal that is named by its number. -/
def signalNumber? (word : Octets) : Option Nat :=
  if word.isEmpty ∨ !word.all Char.isDigit then none
  else
    let n := Decimal.digitsValue word
    if n < Signal.limit then some n else none

/-- The number of a signal, by its number or its name. -/
def signal? (least : Nat) (word : Octets) : Option Nat :=
  (signalNumber? word).or <|
    if !word.isEmpty ∧ word.all Char.isDigit then none
    else
      ((List.range Signal.limit).drop least).find? fun n =>
        (signalName n).map Char.toUpper = word.map Char.toUpper

def usage {α : Type} : Sh α :=
  Sh.failText ("Usage: kill [-s sigspec | -signum | -sigspec] [pid | job]... or\n" ++
    "kill -l [exitstatus]")

/-- Sends a signal to a process or a job. -/
def send (number : Nat) (word : Octets) : Sh Bool := do
  let failed (e : HostError) : Sh Bool := do
    Sh.warn (e.phrase.toList ++ ['\n'])
    return false
  if word.head? = some '%' then
    let _ ← named (some word)
    failed .noProcess
  else if word.head? = some '-' then
    let _ ← Sh.natural word.tail
    failed .noProcess
  else
    let id ← Sh.natural word
    match ← Steps.ask (.signal id number) with
    | .ok () => return true
    | .error e => failed e

/-- Lists the names of signals, or the one of a status. -/
def listSignals (words : List Octets) : Sh Nat := do
  match words with
  | [] =>
    Sh.put ("0\n".toList ++ (List.range (Signal.limit - 1)).flatMap fun n =>
      signalName (n + 1) ++ ['\n'])
    return 0
  | word :: _ =>
    let n ← Sh.natural word
    let n := if 128 < n then n - 128 else n
    if 0 < n ∧ n < Signal.limit then
      Sh.put (signalName n ++ ['\n'])
      return 0
    else Sh.fail ("invalid signal number or exit status: ".toList ++ word)

def kill (words : List Octets) : Sh Nat := do
  if words.isEmpty then usage
  let direct : Option Nat := match words with
    | ('-' :: name) :: _ => signal? 1 name
    | _ => none
  let (isList, number, words) ←
    match direct, words with
    | some n, _ :: rest => pure (false, some n, rest)
    | _, _ => do
      let (given, rest) ← Sh.readOptions "ls:" words
      let mut number : Option Nat := none
      for (letter, name) in given do
        if letter = 's' then
          match signal? 1 name with
          | some n => number := some n
          | none => Sh.fail ("invalid signal number or name: ".toList ++ name)
      pure (given.any fun g => g.1 = 'l', number, rest)
  let number := if isList then number else some (number.getD 15)
  match number with
  | none => listSignals words
  | some n =>
    if isList ∨ words.isEmpty then usage
    let done ← words.mapM (send n)
    return if done.all id then 0 else 1

end Jobs

end Transcript.Host

-- How the descriptors of a shell are led elsewhere for a command, and back after it.
import Transcript.Host.Shell.Expansion

namespace Transcript.Host

/-- A redirection whose name is filled in. -/
inductive Redirected where
  | file (descriptor : Nat) (use : Use) (path : Octets)
  | copy (descriptor : Nat) (source : Option Nat)
  | document (descriptor : Nat) (expands : Bool) (text : ScriptWord)

namespace Redirected

def descriptor : Redirected → Nat
  | .file n _ _ | .copy n _ | .document n _ _ => n

/-- The descriptor that a copy is made of: a digit, or a dash for none. -/
def source? (s : Octets) : Option (Option Nat) :=
  match s with
  | ['-'] => some none
  | [c] => if c.isDigit then some (some (c.toNat - '0'.toNat)) else none
  | _ => none

/-- Redirections with their names filled in. -/
def ofAll (output : Option Command → Sh Octets) (fuel : Nat) (redirections : List Redirection) :
    Sh (List Redirected) :=
  redirections.mapM fun r => do
    match r with
    | .file descriptor use name =>
      return .file descriptor use (← Expansion.text output fuel .text name)
    | .copy descriptor name =>
      match source? (← Expansion.text output fuel .text name) with
      | some source => return .copy descriptor source
      | none =>
        Sh.change fun sh => { sh with errorLine := sh.readLine }
        Sh.failText "Syntax error: Bad fd number"
    | .document descriptor expands text =>
      return .document descriptor expands
        ((((← get).documents.find? fun d => d.1 = text).map (·.2)).getD [])

/-! ## Opening -/

/-- What messages say of an error. -/
def explain (e : HostError) (missing : String) : Octets :=
  match e with
  | .noEntry | .notDirectory => missing.toList
  | _ => e.phrase.toList

/-- Opens a file for a redirection, or tells why it cannot. -/
def openFile (path : Octets) (use : OpenUse) : Sh Nat := do
  match ← Steps.ask (.openFile path use) with
  | .ok descriptor => return descriptor
  | .error e =>
    if use.creates then
      Sh.fail ("cannot create ".toList ++ path ++ ": ".toList ++ explain e "Directory nonexistent")
    else Sh.fail ("cannot open ".toList ++ path ++ ": ".toList ++ explain e "No such file")

/-- Opens a file to be written that may not be a regular one already. -/
def openFresh (path : Octets) : Sh Nat := do
  let refuse : Sh Nat := Sh.fail ("cannot create ".toList ++ path ++ ": File exists".toList)
  let status : Except HostError FileStatus ← Steps.ask (.status path true)
  match status with
  | .error _ => openFile path { OpenUse.making with fresh := true }
  | .ok status =>
    if status.kind = .regular then refuse
    else openFile path ⟨false, true, false, false, false, false⟩

/-- A pipe from which a text is read. What does not fit into it is written by another
process. -/
def openText (text : Octets) : Sh Nat := do
  let ends : Nat × Nat ← Steps.ask .pipe
  if text.length ≤ 4096 then Steps.tell ends.2 text
  else
    let _ ← Steps.spawn (do
      let _ : Bool ← Steps.ask (.close ends.1)
      Steps.tell ends.2 text
      return 0)
  let _ : Bool ← Steps.ask (.close ends.2)
  return ends.1

/-- The descriptor that a redirection leads to: none in the outer place where nothing is to be
done, none in the inner one where there is to be none. -/
def opened (output : Option Command → Sh Octets) (fuel : Nat) : Redirected →
    Sh (Option (Option Nat))
  | .file _ use path => do
    match use with
    | .input => return some (some (← openFile path .reading))
    | .output =>
      if (← get).isOn .noclobber then return some (some (← openFresh path))
      else return some (some (← openFile path .writing))
    | .forcedOutput => return some (some (← openFile path .writing))
    | .append => return some (some (← openFile path .appending))
    | .both => return some (some (← openFile path .both))
  | .copy descriptor source => return if source = some descriptor then none else some source
  | .document _ expands text => do
    let text ←
      if expands then Expansion.text output fuel .document text
      else pure (ScriptWord.unquoted text)
    return some (some (← openText text))

/-! ## Leading elsewhere and back -/

/-- Keeps a descriptor at a place of its own, unless that was done already for this command. -/
def keep (descriptor : Nat) (new : Option Nat) : Sh Unit := do
  match (← get).frames with
  | [] => return
  | frame :: outer =>
    if (List.lookup descriptor frame).isSome then return
    let saved : Option Nat ←
      if new = some descriptor then pure none
      else do
        match ← Steps.ask (.duplicate descriptor 10) with
        | .ok n =>
          let _ : Bool ← Steps.ask (.close descriptor)
          pure (some n)
        | .error _ => pure none
    Sh.change fun sh => { sh with frames := ((descriptor, saved) :: frame) :: outer }

/-- Leads a descriptor elsewhere. -/
def lead (output : Option Command → Sh Octets) (fuel : Nat) (keeps : Bool) (r : Redirected) :
    Sh Unit := do
  let n := r.descriptor
  match ← opened output fuel r with
  | none => return
  | some new =>
    if keeps then keep n new
    if new = some n then return
    match r, new with
    | _, none =>
      let _ : Bool ← Steps.ask (.close n)
    | .copy .., some source =>
      match ← Steps.ask (.duplicateTo source n) with
      | .ok () => return
      | .error e => Sh.fail (Octets.ofNat source ++ ": ".toList ++ e.phrase.toList)
    | _, some source =>
      let _ : Except HostError Unit ← Steps.ask (.duplicateTo source n)
      let _ : Bool ← Steps.ask (.close source)

/-- Leads descriptors elsewhere. What they were is kept where that is asked for, and then
commands are traced to where errors went before. -/
def apply (output : Option Command → Sh Octets) (fuel : Nat) (keeps tracesOutside : Bool)
    (rs : List Redirected) : Sh Unit := do
  for r in rs do
    lead output fuel keeps r
  if tracesOutside then
    match ((← get).frames.head?.bind fun frame => List.lookup 2 frame).bind id with
    | some n => Sh.change fun sh => { sh with traceDescriptor := n }
    | none => return

/-- Begins to keep descriptors, if there are redirections. -/
def push (rs : List Redirected) : Sh Unit :=
  if rs.isEmpty then return else Sh.change fun sh => { sh with frames := [] :: sh.frames }

/-- Leads the descriptors of the last redirections back, or leaves them where they are. -/
def pop (drop : Bool) : Sh Unit := do
  match (← get).frames with
  | [] => return
  | frame :: outer =>
    Sh.change fun sh => { sh with frames := outer }
    for (n, saved) in frame do
      match saved with
      | none =>
        if !drop then
          let _ : Bool ← Steps.ask (.close n)
      | some source =>
        if !drop then
          let _ : Except HostError Unit ← Steps.ask (.duplicateTo source n)
        let _ : Bool ← Steps.ask (.close source)

/-- Leads descriptors back until only so many redirections are left. -/
def unwind (count : Nat) : Sh Unit := do
  for _ in (← get).frames.drop count do
    if count < (← get).frames.length then pop false

end Redirected

end Transcript.Host

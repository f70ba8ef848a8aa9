-- Files written one after the other, as they are or with what cannot be seen made visible
-- and with numbers in front of lines.
import Transcript.Host.Programs.Options
import Transcript.Host.Programs.Quoting

namespace Transcript.Host.Cat

/-! ## Options -/

def form : OptionForm where
  letters := ("benstuvAET".toList).map fun c => (c, .nothing)
  names := [("number-nonblank", 'b', .nothing), ("number", 'n', .nothing),
    ("squeeze-blank", 's', .nothing), ("show-nonprinting", 'v', .nothing),
    ("show-ends", 'E', .nothing), ("show-tabs", 'T', .nothing), ("show-all", 'A', .nothing)]

/-- How the content is shown. -/
structure View where
  /-- Lines are numbered: all of them, or those that hold something. -/
  numbers : Bool
  numbersFilled : Bool
  squeezes : Bool
  showsControls : Bool
  showsEnds : Bool
  showsTabs : Bool
deriving DecidableEq

def View.ofOptions (given : List (Char × Octets)) : View :=
  let has (letters : String) : Bool := given.any fun o => letters.toList.contains o.1
  ⟨has "nb", has "b", has "s", has "vAet", has "EAe", has "TAt"⟩

/-- The content is written as it is. -/
def View.isPlain (v : View) : Bool := v = ⟨false, false, false, false, false, false⟩

/-! ## Showing -/

/-- Where in its lines a content is: inside of one, or after this many line ends. -/
structure Position where
  inLine : Bool
  ends : Nat
  number : Nat
  /-- An end of a line may follow a carriage return that is not written yet. -/
  returning : Bool
deriving DecidableEq

def Position.start : Position := ⟨false, 0, 0, false⟩

/-- A byte below 32 or of the upper half by the sign on its key. -/
def control (c : Char) : Octets :=
  let low (n : Nat) : Octets :=
    if n < 32 then ['^', Octets.byte (n + 64)] else if n = 127 then ['^', '?'] else [Octets.byte n]
  if c.toNat < 128 then low c.toNat else 'M' :: '-' :: low (c.toNat - 128)

def View.showByte (v : View) (c : Char) : Octets :=
  if c = '\t' then (if v.showsTabs then ['^', 'I'] else [c])
  else if v.showsControls then control c
  else [c]

/-- The next number of a line, in six places. -/
def lineNumber (n : Nat) : Octets :=
  let digits := Octets.ofNat n
  List.replicate (6 - digits.length) ' ' ++ digits ++ ['\t']

/-- One byte as it is shown, and where the content is after it. -/
def View.step (v : View) (p : Position) (c : Char) : Octets × Position :=
  if c = '\n' then
    let ends := if p.inLine then 0 else min 2 (p.ends + 1)
    if v.squeezes ∧ ends = 2 then ([], { p with ends := ends })
    else
      let isNumbered := 0 < ends && v.numbers && !v.numbersFilled
      let number := if isNumbered then p.number + 1 else p.number
      ((if isNumbered then lineNumber number else []) ++
        (if v.showsEnds then (if p.returning then ['^', 'M', '$'] else ['$']) else []) ++ ['\n'],
        ⟨false, ends, number, false⟩)
  else
    let held : Octets := if p.returning then ['\r'] else []
    let isNumbered := !p.inLine && v.numbers
    let number := if isNumbered then p.number + 1 else p.number
    let lead := if isNumbered then lineNumber number else []
    if c = '\r' ∧ v.showsEnds ∧ !v.showsControls then
      (held ++ lead, ⟨true, 0, number, true⟩)
    else (held ++ lead ++ v.showByte c, ⟨true, 0, number, false⟩)

/-- A part of a content as it is shown. -/
def View.show (v : View) (p : Position) (part : Octets) : Octets × Position :=
  let (shown, p) := part.foldl (fun (shown, p) c =>
    let (more, p) := v.step p c
    (more.reverse ++ shown, p)) ([], p)
  (shown.reverse, p)

/-! ## Copying -/

/-- Copies what is open under a descriptor to the output. It gives the position after it, and
why it could not be read to its end. -/
def copy (call : Call) (view : View) (descriptor : Nat) : Nat → Position →
    Task (Position × Option HostError)
  | 0, p => pure (p, none)
  | fuel + 1, p => do
    match ← Steps.ask (.read descriptor 131072) with
    | .error .interrupted => copy call view descriptor fuel p
    | .error e => return (p, some e)
    | .ok [] => return (p, none)
    | .ok part =>
      let (shown, p) := if view.isPlain then (part, p) else view.show p part
      match ← Steps.writeAll 1 shown with
      | .ok () => copy call view descriptor fuel p
      | .error e =>
        call.warn (Octets.ofText ("write error: " ++ e.phrase))
        throw 1

/-- A file that is the output itself would never end. -/
def isOutput (descriptor : Nat) : Task Bool := do
  let input ← Steps.ask (.openStatus descriptor)
  let output ← Steps.ask (.openStatus 1)
  match input, output with
  | .ok i, .ok o =>
    return o.kind = .regular && i.identity = o.identity && decide (i.offset < i.size)
  | _, _ => return false

/-- Writes one file; a dash is the input. It gives the position after it, and whether all
went well. -/
def one (call : Call) (view : View) (p : Position) (name : Octets) : Task (Position × Bool) := do
  let complain (what : Octets) : Task (Position × Bool) := do
    call.warn (Quoting.fileName name ++ ": ".toList ++ what)
    return (p, false)
  let descriptor ←
    if name = ['-'] then pure (.ok 0) else Steps.ask (.openFile name .reading)
  match descriptor with
  | .error e => complain (Octets.ofText e.phrase)
  | .ok descriptor =>
    let result ← do
      match ← Steps.ask (.openStatus descriptor) with
      | .error e => complain (Octets.ofText e.phrase)
      | .ok _ =>
        if ← isOutput descriptor then complain "input file is output file".toList
        else
          let (p, fault) ← copy call view descriptor Steps.endless p
          match fault with
          | some e =>
            let _ ← complain (Octets.ofText e.phrase)
            pure (p, false)
          | none => pure (p, true)
    if name ≠ ['-'] then
      let _ ← Steps.ask (.close descriptor)
    return result

/-- Writes files one after the other. -/
def all (call : Call) (view : View) : List Octets → Position → Bool → Task (Position × Bool)
  | [], p, isFine => pure (p, isFine)
  | name :: rest, p, isFine => do
    let (p, wasFine) ← one call view p name
    all call view rest p (isFine && wasFine)

def run (call : Call) : Task Nat := do
  let options ← call.options form
  match ← Steps.ask (.openStatus 1) with
  | .error e =>
    call.warn (Octets.ofText ("standard output: " ++ e.phrase))
    return 1
  | .ok _ =>
    let names := if options.operands.isEmpty then [['-']] else options.operands
    let (p, isFine) ← all call (View.ofOptions options.given) names .start true
    if p.returning then Steps.tell 1 ['\r']
    if names.contains ['-'] then
      if !(← Steps.ask (.close 0)) then
        call.warn (Octets.ofText ("closing standard input: " ++ HostError.badDescriptor.phrase))
        throw 1
    return if isFine then 0 else 1

end Transcript.Host.Cat

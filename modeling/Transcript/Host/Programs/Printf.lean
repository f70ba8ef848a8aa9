-- A format filled with arguments, as often as there are arguments left for it.
import Transcript.Host.Layout
import Transcript.Host.Programs.Escape
import Transcript.Host.Programs.Options
import Transcript.Host.Programs.Quoting

namespace Transcript.Host.Printf

/-! ## Work -/

/-- What was done so far: the parts of the output, the last first, what was told, the
arguments that are left, and the exit code. -/
structure Work where
  out : List Octets
  told : List Octets
  arguments : List Octets
  code : Nat
  /-- The rules of the standard count where they differ. -/
  strict : Bool

/-- Work that may end before the format does. -/
abbrev Filling := StateT Work (Except Work)

def put (s : Octets) : Filling Unit := modify fun w => { w with out := s :: w.out }

/-- Tells that something is wrong, and goes on. -/
def complain (message : Octets) : Filling Unit :=
  modify fun w => { w with told := w.told ++ [message], code := 1 }

/-- Ends all work with a code. -/
def stop (code : Nat) : Filling Unit := fun w => .error { w with code := code }

/-- Tells that something is wrong, and ends all work. -/
def refuse (message : Octets) : Filling Unit := do
  complain message
  stop 1

/-- The next argument, if there is one. -/
def next? : Filling (Option Octets) := fun w =>
  .ok (w.arguments.head?, { w with arguments := w.arguments.tail })

/-! ## Escapes -/

/-- A character by its number, as far as it can be written. -/
def character (c : Char) (n : Nat) : Octets :=
  if n < 128 then [Octets.byte n]
  else
    let digits := (Nat.toDigits 16 n).map Char.toUpper
    if n < 65536 then ['\\', 'u'] ++ List.replicate (4 - digits.length) '0' ++ digits
    else if c = 'u' ∨ c = 'U' then ['\\', 'U'] ++ List.replicate (8 - digits.length) '0' ++ digits
    else []

/-- A character by a number of so many digits, which may not be one of those that have signs
of their own. -/
def putCharacter (letter : Char) (s : Octets) : Filling Octets := do
  let count := if letter = 'u' then 4 else 8
  let (n, found) := Numeral.front 16 count s
  if found < count then
    refuse "missing hexadecimal number in escape".toList
  else if (n ≤ 0x9f ∧ n ≠ 0x24 ∧ n ≠ 0x40 ∧ n ≠ 0x60) ∨ (0xd800 ≤ n ∧ n ≤ 0xdfff) then
    refuse ("invalid universal character name \\".toList ++ letter ::
      List.replicate (count - (Nat.toDigits 16 n).length) '0' ++ Nat.toDigits 16 n)
  else put (character letter n)
  return s.drop count

/-- What a backslash stands for; the rest of the text after it. -/
def putEscape (zero : Bool) (s : Octets) : Filling Octets := do
  match Escape.octal? zero s, s with
  | some (byte, used), _ =>
    put [byte]
    return s.drop used
  | none, [] =>
    put ['\\']
    return []
  | none, 'c' :: rest =>
    stop 0
    return rest
  | none, '"' :: rest =>
    put ['"']
    return rest
  | none, 'x' :: rest =>
    match Escape.hexadecimal? s with
    | some (byte, used) =>
      put [byte]
      return s.drop used
    | none =>
      refuse "missing hexadecimal number in escape".toList
      return rest
  | none, c :: rest =>
    if c = 'u' ∨ c = 'U' then putCharacter c rest
    else
      match Escape.letter? c with
      | some byte => put [byte]
      | none => put ['\\', c]
      return rest

/-- A text with its escapes replaced. -/
def putEscaped : Nat → Octets → Filling Unit
  | 0, _ => pure ()
  | _, [] => pure ()
  | fuel + 1, c :: rest => do
    if c = '\\' then putEscaped fuel (← putEscape true rest)
    else
      put [c]
      putEscaped fuel rest

/-! ## Numbers -/

/-- Tells what is wrong with an argument that is to be a number. -/
def report (s : Octets) : Option Numeral.Fault → Filling Unit
  | none => pure ()
  | some fault =>
    complain <| Quoting.plain s ++ ": ".toList ++
      match fault with
      | .absent => "expected a numeric value".toList
      | .followed => "value not completely converted".toList
      | .outOfRange => "Numerical result out of range".toList

/-- The number of an argument. After a quote it is that of the byte there. -/
def number {α : Type} (ofByte : Nat → α) (read : Octets → α × Option Numeral.Fault) (s : Octets) :
    Filling α := do
  match s with
  | quote :: c :: rest =>
    if quote = '"' ∨ quote = '\'' then
      if !rest.isEmpty ∧ !(← get).strict then
        modify fun w => { w with told := w.told ++
          ["warning: ".toList ++ rest ++
            ": character(s) following character constant have been ignored".toList] }
      return ofByte c.toNat
    else
      let (n, fault) := read s
      report s fault
      return n
  | _ =>
    let (n, fault) := read s
    report s fault
    return n

def signed : Octets → Filling Int := number (fun n => n) Numeral.readSigned

def unsigned : Octets → Filling Nat := number (fun n => n) Numeral.readUnsigned

def real : Octets → Filling Numeral.Real :=
  number (fun n => .finite false n 0) (Numeral.readReal Numeral.extended)

/-! ## Places of a format -/

/-- The flags that do not go with a letter. -/
def conflicting (letter : Char) : Octets :=
  if letter = 'c' then ['\'', 'I', '#', '0']
  else if letter = 's' then ['\'', 'I', '#', '0']
  else if letter = 'd' ∨ letter = 'i' ∨ letter = 'u' then ['#']
  else if letter = 'f' ∨ letter = 'F' ∨ letter = 'g' ∨ letter = 'G' then []
  else ['\'', 'I']

/-- A width or a precision: digits, or an argument behind a star. It gives the rest too. -/
def measure (what : String) (s : Octets) : Filling (Option Int × Octets) := do
  match s with
  | '*' :: rest =>
    let argument ← next?
    let n ← signed (argument.getD [])
    let limit : Int := 2147483647
    if limit < n ∨ (n < -limit - 1 ∧ what = "field width") then
      refuse ("invalid ".toList ++ what.toList ++ ": ".toList ++ Quoting.plain (argument.getD []))
    return (some n, rest)
  | _ =>
    let digits := s.takeWhile Char.isDigit
    return (if digits.isEmpty then none else some (Decimal.digitsValue digits),
      s.drop digits.length)

/-- An argument in the form of a letter. -/
def putArgument (l : Layout) (letter : Char) (s : Octets) : Filling Unit := do
  if letter = 's' then put (l.text s)
  else if letter = 'c' then put (l.pad [s.headD (Octets.byte 0)])
  else if letter = 'd' ∨ letter = 'i' then put (l.signed (← signed s))
  else if letter = 'o' ∨ letter = 'u' ∨ letter = 'x' ∨ letter = 'X' then
    put (l.unsigned letter (← unsigned s))
  else put (l.real Numeral.extended letter (← real s))

/-- A place after its percent sign, and the rest of the format. -/
def putPlace (s : Octets) : Filling Octets := do
  let flags := s.takeWhile fun c => "-+ #0'I".toList.contains c
  let (width, rest) ← measure "field width" (s.drop flags.length)
  let (precision, rest, isPointed) ←
    match rest with
    | '.' :: rest => do
      let (precision, rest) ← measure "precision" rest
      pure (some (precision.getD 0), rest, true)
    | _ => pure (none, rest, false)
  let rest := rest.dropWhile fun c => "lLhjtz".toList.contains c
  let letter := rest.headD (Octets.byte 0)
  let isKnown := "aAcdeEfFgGiosuxX".toList.contains letter
  let conflicts := conflicting letter
  if !isKnown ∨ flags.any conflicts.contains ∨ (letter = 'c' ∧ isPointed) then
    refuse ('%' :: s.take (s.length - rest.length + 1) ++
      ": invalid conversion specification".toList)
  let l := (Layout.ofFlags flags).withWidth (width.getD 0)
  let l := match precision with
    | some p => l.withPrecision p
    | none => l
  putArgument l letter ((← next?).getD [])
  return rest.tail

/-- The format once. -/
def fillOnce : Nat → Octets → Filling Unit
  | 0, _ => pure ()
  | _, [] => pure ()
  | fuel + 1, c :: rest => do
    if c = '\\' then fillOnce fuel (← putEscape false rest)
    else if c ≠ '%' then
      put [c]
      fillOnce fuel rest
    else
      match rest with
      | '%' :: rest =>
        put ['%']
        fillOnce fuel rest
      | 'b' :: rest =>
        let s := (← next?).getD []
        putEscaped (s.length + 1) s
        fillOnce fuel rest
      | 'q' :: rest =>
        match ← next? with
        | some s => put (Quoting.shell s)
        | none => pure ()
        fillOnce fuel rest
      | _ => fillOnce fuel (← putPlace rest)

/-- The format until no arguments are left; one that takes none is used once. -/
def fill (format : Octets) : Nat → Filling Unit
  | 0 => pure ()
  | fuel + 1 => do
    let before := (← get).arguments
    fillOnce (format.length + 1) format
    match (← get).arguments with
    | [] => pure ()
    | first :: rest =>
      if rest.length + 1 = before.length then
        modify fun w => { w with told := w.told ++
          ["warning: ignoring excess arguments, starting with ".toList ++ Quoting.plain first] }
      else fill format fuel

/-! ## The program -/

def run (call : Call) : Task Nat := do
  let words := call.arguments.tail
  if words = ["--help".toList] ∨ words = ["--version".toList] then throw 0
  match if words.head? = some ['-', '-'] then words.tail else words with
  | [] =>
    call.warn "missing operand".toList
    call.giveUp
  | format :: arguments =>
    let isStrict := (call.setting? "POSIXLY_CORRECT").isSome
    let work :=
      match (fill format (arguments.length + 1)).run ⟨[], [], arguments, 0, isStrict⟩ with
      | .ok (_, work) => work
      | .error work => work
    for message in work.told do
      call.warn message
    call.finish work.out.reverse.flatten work.code

end Transcript.Host.Printf

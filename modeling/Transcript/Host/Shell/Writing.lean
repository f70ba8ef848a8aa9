-- What the shell itself writes: words on a line, and a format filled with arguments as often
-- as there are arguments left for it.
import Transcript.Host.Layout
import Transcript.Host.Shell.State

namespace Transcript.Host.Writing

/-! ## Escapes -/

def letter? (c : Char) : Option Char :=
  match c with
  | '\\' => some '\\'
  | 'a' => some '\x07'
  | 'b' => some '\x08'
  | 'e' => some '\x1b'
  | 'f' => some '\x0c'
  | 'n' => some '\n'
  | 'r' => some '\r'
  | 't' => some '\t'
  | 'v' => some '\x0b'
  | _ => none

/-- What a backslash in front of a text stands for, and the text after that. -/
def escape (s : Octets) : Char × Octets :=
  match s with
  | [] => ('\\', [])
  | c :: rest =>
    let (n, count) := Numeral.front 8 3 s
    if 0 < count then (Octets.byte n, s.drop count)
    else
      match letter? c with
      | some byte => (byte, rest)
      | none => ('\\', s)

/-- A text with its escapes replaced, and whether one of them ends all output. -/
def replaced : Nat → Octets → Octets × Bool
  | 0, s => (s, false)
  | _, [] => ([], false)
  | fuel + 1, c :: rest =>
    if c ≠ '\\' then
      let (out, ends) := replaced fuel rest
      (c :: out, ends)
    else
      match rest with
      | 'c' :: _ => ([], true)
      | _ =>
        let isOctal (c : Char) : Bool := '0' ≤ c && c ≤ '7'
        let digits := if rest.head? = some '0' && (rest.tail.head?.map isOctal).getD false then
          rest.tail else rest
        let (byte, rest) := escape digits
        let (out, ends) := replaced fuel rest
        (byte :: out, ends)

def replace (s : Octets) : Octets × Bool := replaced (s.length + 1) s

/-! ## Words on a line -/

/-- Words with blanks between them and an end behind them; a text that ends all output cuts it
off. -/
def joined (last : Octets) : List Octets → Octets
  | [] => last
  | word :: rest =>
    let (text, ends) := replace word
    if ends then text
    else if rest.isEmpty then text ++ last
    else text ++ ' ' :: joined last rest

def line (words : List Octets) : Octets :=
  match words with
  | ['-', 'n'] :: words => joined [] words
  | _ => joined ['\n'] words

/-! ## Formats -/

/-- The arguments that are left, the status, and whether all output has ended. -/
structure Work where
  arguments : List Octets
  status : Nat
  hasEnded : Bool

abbrev Filling := StateT Work Sh

def next? : Filling (Option Octets) := modifyGet fun w =>
  (w.arguments.head?, { w with arguments := w.arguments.tail })

/-- The number at the front of an argument. After a quote it is that of the byte there. -/
def number {α : Type} (ofByte : Nat → α) (none' : α) (read : Octets → Option (α × Bool × Octets)) :
    Filling α := do
  match ← next? with
  | none => return none'
  | some s =>
    let complain (text : String) : Filling Unit := do
      (Sh.warn (s ++ ": ".toList ++ text.toList) : Sh Unit)
      modify fun w => { w with status := 1 }
    if s.head? = some '"' ∨ s.head? = some '\'' then
      return ofByte ((s.tail.head?.map Char.toNat).getD 0)
    match read s with
    | none =>
      if !s.isEmpty then complain "expected numeric value"
      return none'
    | some (n, outOfRange, rest) =>
      if !rest.isEmpty then complain "not completely converted"
      else if outOfRange then complain "Numerical result out of range"
      return n

def signed : Filling Int :=
  number (fun n => n) 0 fun s =>
    (Numeral.whole? s).map fun w =>
      let n : Int := if w.negative then -(w.size : Int) else w.size
      let least : Int := -(twoTo 63)
      let most : Int := twoTo 63 - 1
      (max least (min most n), decide (n < least) || decide (most < n), w.rest)

def unsigned : Filling Nat :=
  number (fun n => n) 0 fun s =>
    (Numeral.whole? s).map fun w =>
      if twoTo 64 ≤ w.size then (twoTo 64 - 1, true, w.rest)
      else (if w.negative then (twoTo 64 - w.size) % twoTo 64 else w.size, false, w.rest)

def real : Filling Numeral.Real :=
  number (fun n => .finite false n 0) (.finite false 0 0) (Numeral.real? Numeral.double)

/-- A width or a precision: digits, or an argument behind a star. It gives the rest too. -/
def measure (s : Octets) : Filling (Option Int × Octets) := do
  match s with
  | '*' :: rest => return (some (Int.bmod (← signed) (twoTo 32)), rest)
  | _ =>
    let digits := s.takeWhile Char.isDigit
    return (if digits.isEmpty then none else some (Decimal.digitsValue digits),
      s.drop digits.length)

def out (s : Octets) : Filling Unit := (Sh.put s : Sh Unit)

/-- A place after its percent sign, and the rest of the format. -/
def putPlace (s : Octets) : Filling Octets := do
  let flags := s.takeWhile fun c => "#-+ 0".toList.contains c
  let (width, rest) ← measure (s.drop flags.length)
  let (precision, rest) ←
    match rest with
    | '.' :: rest => do
      let (precision, rest) ← measure rest
      pure (some (precision.getD 0), rest)
    | _ => pure (none, rest)
  let l := (Layout.ofFlags flags).withWidth (width.getD 0)
  let l := match precision with
    | some p => l.withPrecision p
    | none => l
  match rest with
  | [] => (Sh.failText "missing format character" : Sh Octets)
  | letter :: after =>
    if letter = 'b' then
      let (text, ends) := replace ((← next?).getD [])
      out (l.text text)
      if ends then modify fun w => { w with hasEnded := true }
    else if letter = 's' then out (l.text ((← next?).getD []))
    else if letter = 'c' then out (l.pad [((← next?).getD []).headD (Octets.byte 0)])
    else if letter = 'd' ∨ letter = 'i' then out (l.signed (← signed))
    else if "ouxX".toList.contains letter then out (l.unsigned letter (← unsigned))
    else if "aAeEfFgG".toList.contains letter then
      out (l.real Numeral.double letter (← real))
    else
      let place := '%' :: s.take (s.length - after.length)
      (Sh.fail (place ++ ": invalid directive".toList) : Sh Unit)
    return after

/-- The format once. -/
def fillOnce : Nat → Octets → Filling Unit
  | 0, _ => return
  | _, [] => return
  | fuel + 1, c :: rest => do
    if (← get).hasEnded then return
    if c = '\\' then
      let (byte, rest) := escape rest
      out [byte]
      fillOnce fuel rest
    else if c ≠ '%' then
      let text := c :: rest.takeWhile fun c => c ≠ '\\' && c ≠ '%'
      out text
      fillOnce fuel ((c :: rest).drop text.length)
    else
      match rest with
      | '%' :: rest =>
        out ['%']
        fillOnce fuel rest
      | _ => fillOnce fuel (← putPlace rest)

/-- The format until no arguments are left; one that takes none is used once. -/
def fill (format : Octets) : Nat → Filling Unit
  | 0 => return
  | fuel + 1 => do
    let before := (← get).arguments.length
    fillOnce (format.length + 1) format
    let w ← get
    if w.hasEnded ∨ w.arguments.isEmpty ∨ w.arguments.length = before then return
    fill format fuel

/-- Writes a format filled with arguments, and gives the status. -/
def filled (words : List Octets) : Sh Nat := do
  let (_, words) ← Sh.readOptions "" words
  match words with
  | [] => Sh.failText "usage: printf format [arg ...]"
  | format :: arguments =>
    let (_, w) ← (fill format (arguments.length + 1)).run ⟨arguments, 0, false⟩
    return w.status

end Transcript.Host.Writing

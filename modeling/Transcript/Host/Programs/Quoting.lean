-- How programs name files and words in what they tell: as they are where that is clear, and
-- else in a form that a shell would read back, or between plain quotes with escapes.
import Transcript.Host.Octets

namespace Transcript.Host.Quoting

/-! ## Bytes -/

/-- A byte that is a printed sign of its own. -/
def isPrinted (c : Char) : Bool := ' ' ≤ c && c ≤ '~'

/-- The letter that stands for a byte after a backslash. -/
def letter? (c : Char) : Option Char :=
  if c = '\x07' then some 'a'
  else if c = '\x08' then some 'b'
  else if c = '\x0c' then some 'f'
  else if c = '\n' then some 'n'
  else if c = '\r' then some 'r'
  else if c = '\t' then some 't'
  else if c = '\x0b' then some 'v'
  else none

/-- A byte by three digits in base 8. -/
def octal (c : Char) : Octets :=
  let digit (n : Nat) : Char := Nat.digitChar (n % 8)
  [digit (c.toNat / 64), digit (c.toNat / 8), digit c.toNat]

/-- A byte that is not printed, after a backslash. -/
def escape (c : Char) : Octets :=
  match letter? c with
  | some l => ['\\', l]
  | none => '\\' :: octal c

/-! ## Plain quotes -/

/-- A text between quotes, in which a quote, a backslash and all that is not printed is
escaped. -/
def plain (s : Octets) : Octets :=
  let shown (c : Char) : Octets :=
    if c = '\'' ∨ c = '\\' then ['\\', c] else if isPrinted c then [c] else escape c
  '\'' :: s.flatMap shown ++ ['\'']

/-! ## Quotes of a shell -/

/-- The bytes that mean something to a shell. -/
def hasMeaning (c : Char) : Bool :=
  "!\"$&'()*;<=>?[\\^| ".toList.contains c || c = '\x60'

/-- The bytes between quotes of a shell. Those that are not printed stand between quotes with
a dollar sign of their own; `inside` tells whether these are open. -/
def segments : Bool → Octets → Octets
  | _, [] => []
  | inside, c :: rest =>
    let close : Octets := if inside then ['\'', '\''] else []
    if c = '\'' then ['\'', '\\', '\'', '\''] ++ segments false rest
    else if isPrinted c then close ++ c :: segments false rest
    else (if inside then [] else ['\'', '$', '\'']) ++ escape c ++ segments true rest

/-- A text in quotes as a shell would read it: double ones where that is enough to keep an
apostrophe. -/
def quoted (s : Octets) : Octets :=
  let isSafe (i : Nat) (c : Char) : Bool :=
    c.isAlphanum || "%+,-./:@]_'".toList.contains c || c = ' ' ||
      ((c = '#' || c = '~') && i = 0) || ((c = '\x7b' || c = '\x7d') && s.length = 1)
  if s.contains '\'' ∧ (s.zipIdx.all fun (c, i) => isSafe i c) then '"' :: s ++ ['"']
  else '\'' :: segments false s ++ ['\'']

/-- A text that needs quotes: one that is empty, or holds what means something to a shell or
is not printed. -/
def needsQuotes (s : Octets) : Bool :=
  s.isEmpty || s.any (fun c => hasMeaning c || !isPrinted c) ||
    s.head? = some '#' || s.head? = some '~' || s = ['\x7b'] || s = ['\x7d']

/-- A text, in quotes only where it needs them. -/
def shell (s : Octets) : Octets := if needsQuotes s then quoted s else s

/-- A name of a file in front of a message, which a colon in it would not be told from. -/
def fileName (s : Octets) : Octets := if needsQuotes s ∨ s.contains ':' then quoted s else s

end Transcript.Host.Quoting

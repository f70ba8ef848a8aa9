-- Texts as bytes. Decoding reads one byte at a time; between two bytes it holds
-- what the character under way still owes. The first byte that cannot go on is
-- where strict decoding stops, and where lenient decoding puts a mark instead.

namespace Transcript.Text

/-! ## Encoding -/

/-- The bytes of one character. -/
def utf8Char (c : Char) : List UInt8 :=
  let n := c.toNat
  if n < 0x80 then [UInt8.ofNat n]
  else if n < 0x800 then [UInt8.ofNat (0xc0 + n / 64), UInt8.ofNat (0x80 + n % 64)]
  else if n < 0x10000 then
    [UInt8.ofNat (0xe0 + n / 4096), UInt8.ofNat (0x80 + n / 64 % 64), UInt8.ofNat (0x80 + n % 64)]
  else
    [UInt8.ofNat (0xf0 + n / 262144), UInt8.ofNat (0x80 + n / 4096 % 64),
      UInt8.ofNat (0x80 + n / 64 % 64), UInt8.ofNat (0x80 + n % 64)]

/-- The bytes of a text. -/
def utf8 (s : List Char) : List UInt8 := s.flatMap utf8Char

/-! ## A character under way -/

/-- What is known of a character after some of its bytes: how many bytes it still
owes, the bits read, the range of its next byte, and how many bytes were read. -/
structure Pending where
  owed : Nat
  bits : Nat
  low : Nat
  high : Nat
  seen : Nat

/-- What one byte leads to. -/
inductive ByteStep where
  | char (c : Char)
  | more (p : Pending)
  | refused

/-- A byte at the start of a character. -/
def ByteStep.start (b : UInt8) : ByteStep :=
  let n := b.toNat
  if n < 0x80 then .char (Char.ofNat n)
  else if n < 0xc2 then .refused
  else if n < 0xe0 then .more ⟨1, n - 0xc0, 0x80, 0xbf, 1⟩
  else if n = 0xe0 then .more ⟨2, 0, 0xa0, 0xbf, 1⟩
  else if n = 0xed then .more ⟨2, n - 0xe0, 0x80, 0x9f, 1⟩
  else if n < 0xf0 then .more ⟨2, n - 0xe0, 0x80, 0xbf, 1⟩
  else if n = 0xf0 then .more ⟨3, 0, 0x90, 0xbf, 1⟩
  else if n < 0xf4 then .more ⟨3, n - 0xf0, 0x80, 0xbf, 1⟩
  else if n = 0xf4 then .more ⟨3, 4, 0x80, 0x8f, 1⟩
  else .refused

/-- A byte inside a character. -/
def Pending.next (p : Pending) (b : UInt8) : ByteStep :=
  let n := b.toNat
  if p.low ≤ n ∧ n ≤ p.high then
    let bits := p.bits * 64 + n % 64
    if p.owed ≤ 1 then .char (Char.ofNat bits)
    else .more ⟨p.owed - 1, bits, 0x80, 0xbf, p.seen + 1⟩
  else .refused

/-! ## Strict decoding -/

/-- Why bytes are no text: where the bad character starts, and how many bytes of it
rule it out; no length when the bytes only end too early. -/
structure Utf8Fault where
  start : Nat
  length : Option Nat
deriving DecidableEq

def Utf8Fault.message (f : Utf8Fault) : String :=
  match f.length with
  | some n => "invalid utf-8 sequence of " ++ toString n ++ " bytes from index " ++ toString f.start
  | none => "incomplete utf-8 byte sequence from index " ++ toString f.start

/-- Decodes the bytes from index `start` on, after those of the character under way. -/
def decodeFrom (start : Nat) : Option Pending → List UInt8 → Except Utf8Fault (List Char)
  | none, [] => .ok []
  | some _, [] => .error ⟨start, none⟩
  | none, b :: rest =>
    match ByteStep.start b with
    | .char c => (decodeFrom (start + 1) none rest).map (c :: ·)
    | .more p => decodeFrom start (some p) rest
    | .refused => .error ⟨start, some 1⟩
  | some p, b :: rest =>
    match p.next b with
    | .char c => (decodeFrom (start + p.seen + 1) none rest).map (c :: ·)
    | .more p' => decodeFrom start (some p') rest
    | .refused => .error ⟨start, some p.seen⟩

/-- The text that the bytes are, or the first place where they are none. -/
def decodeUtf8 (bytes : List UInt8) : Except Utf8Fault (List Char) := decodeFrom 0 none bytes

/-! ## Lenient decoding -/

/-- The mark for bytes that are no character. -/
def replacement : Char := '\uFFFD'

/-- Decodes with a mark for each longest run of bytes that starts a character and
cannot finish it, and for each byte that starts none. -/
def decodeLossyFrom : Option Pending → List UInt8 → List Char
  | none, [] => []
  | some _, [] => [replacement]
  | none, b :: rest =>
    match ByteStep.start b with
    | .char c => c :: decodeLossyFrom none rest
    | .more p => decodeLossyFrom (some p) rest
    | .refused => replacement :: decodeLossyFrom none rest
  | some p, b :: rest =>
    match p.next b with
    | .char c => c :: decodeLossyFrom none rest
    | .more p' => decodeLossyFrom (some p') rest
    | .refused =>
      replacement ::
        match ByteStep.start b with
        | .char c => c :: decodeLossyFrom none rest
        | .more p' => decodeLossyFrom (some p') rest
        | .refused => replacement :: decodeLossyFrom none rest

/-- The text of the bytes with a mark wherever they are none. -/
def decodeLossy (bytes : List UInt8) : List Char := decodeLossyFrom none bytes

end Transcript.Text

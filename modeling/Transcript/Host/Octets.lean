-- The bytes that programs pass to each other, each as the character with its number, so
-- that scripts and arguments can be read as texts without being decoded.
import Transcript.Text.Utf8

namespace Transcript.Host

/-- Bytes, each as the character with its number. -/
abbrev Octets := List Char

namespace Octets

def ofBytes (bytes : List UInt8) : Octets := bytes.map fun b => Char.ofNat b.toNat

def toBytes (o : Octets) : List UInt8 := o.map fun c => UInt8.ofNat c.toNat

/-- The bytes of a text. -/
def ofText (s : String) : Octets := ofBytes (Text.utf8 s.toList)

/-- The text of the bytes, with marks where they are none. -/
def toText (o : Octets) : String := String.ofList (Text.decodeLossy o.toBytes)

/-- A byte by its number. -/
def byte (n : Nat) : Char := Char.ofNat (n % 256)

/-- The number of a byte, taken as a number of 8 bits with a sign. -/
def signed (c : Char) : Int := if c.toNat < 128 then c.toNat else (c.toNat : Int) - 256

/-- A whole number in decimal. -/
def ofNat (n : Nat) : Octets := Nat.toDigits 10 n

def ofInt (n : Int) : Octets := if n < 0 then '-' :: ofNat n.natAbs else ofNat n.natAbs

/-- The pieces between the places where a byte stands. -/
def split (separator : Char) (s : Octets) : List Octets := s.splitOn separator

/-- Pieces with a byte between them. -/
def join (separator : Octets) (pieces : List Octets) : Octets := List.intercalate separator pieces

/-- The order by the numbers of the bytes. -/
def precedes : Octets → Octets → Bool
  | [], _ => true
  | _ :: _, [] => false
  | a :: as, b :: bs => if a = b then precedes as bs else decide (a.toNat < b.toNat)

/-- What follows some bytes at the front, if they are there. -/
def after? : Octets → Octets → Option Octets
  | [], s => some s
  | _ :: _, [] => none
  | p :: ps, c :: cs => if p = c then after? ps cs else none

end Octets

end Transcript.Host

-- A text between double quotes, as error messages show it: what a reader could
-- not see or could mistake for the quotes themselves is written as an escape.
import Transcript.Text.Unprintable

namespace Transcript.Text

/-! ## Escapes -/

/-- The code point in hexadecimal, between braces. -/
def escapeByNumber (c : Char) : List Char :=
  '\\' :: 'u' :: '\x7b' :: (Nat.toDigits 16 c.toNat ++ ['\x7d'])

/-- One character inside the quotes. -/
def escapeChar (c : Char) : List Char :=
  if c = '\x00' then ['\\', '0']
  else if c = '\t' then ['\\', 't']
  else if c = '\n' then ['\\', 'n']
  else if c = '\r' then ['\\', 'r']
  else if c = '"' then ['\\', '"']
  else if c = '\\' then ['\\', '\\']
  else if isUnprintable c then escapeByNumber c
  else [c]

/-! ## Quoting -/

/-- The characters of a quoted text. -/
def quoteChars (s : List Char) : List Char := '"' :: (s.flatMap escapeChar ++ ['"'])

/-- The text between quotes. -/
def quote (s : String) : String := String.ofList (quoteChars s.toList)

end Transcript.Text

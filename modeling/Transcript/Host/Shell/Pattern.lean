-- Patterns: a question mark stands for any character, a star for any characters, brackets for
-- one of those in them, and a backslash takes what follows it as it is.
import Transcript.Host.Octets

namespace Transcript.Host.Pattern

/-! ## Classes -/

def isLower (c : Char) : Bool := 'a' ≤ c && c ≤ 'z'

def isUpper (c : Char) : Bool := 'A' ≤ c && c ≤ 'Z'

def isVisible (c : Char) : Bool := '!' ≤ c && c ≤ '~'

/-- The named classes of characters. -/
def classes : List (String × (Char → Bool)) :=
  [(":alnum:]", Char.isAlphanum), (":cntrl:]", fun c => c.toNat < 32 || c.toNat = 127),
    (":lower:]", isLower), (":space:]", fun c => c = ' ' || ('\t' ≤ c && c ≤ '\r')),
    (":alpha:]", Char.isAlpha), (":digit:]", Char.isDigit),
    (":print:]", fun c => c = ' ' || isVisible c), (":upper:]", isUpper),
    (":blank:]", fun c => c = ' ' || c = '\t'), (":graph:]", isVisible),
    (":punct:]", fun c => isVisible c && !c.isAlphanum),
    (":xdigit:]", fun c => c.isDigit || ('a' ≤ c && c ≤ 'f') || ('A' ≤ c && c ≤ 'F'))]

/-- A class named behind a bracket, whether it holds a character, and what follows it. -/
def class? (c : Char) (s : Octets) : Option (Bool × Octets) :=
  classes.findSome? fun (name, holds) =>
    (Octets.after? name.toList s).map fun rest => (holds c, rest)

/-! ## Brackets -/

/-- The range of characters by their numbers with signs. -/
def isBetween (low high c : Char) : Bool :=
  decide (Octets.signed low ≤ Octets.signed c) && decide (Octets.signed c ≤ Octets.signed high)

/-- The rest of a bracket from one of its characters on: whether a character is in it, and what
follows it. None where it has no end. -/
def member? (c : Char) : Nat → Bool → Octets → Option (Bool × Octets)
  | 0, _, _ => none
  | _, _, [] => none
  | fuel + 1, found, first :: rest =>
    let goOn (found : Bool) (s : Octets) : Option (Bool × Octets) :=
      match s with
      | ']' :: rest => some (found, rest)
      | _ => member? c fuel found s
    match if first = '[' then class? c rest else none with
    | some (holds, rest) => goOn (found || holds) rest
    | none =>
      let (low, rest) :=
        match first, rest with
        | '\\', low :: rest => (low, rest)
        | _, _ => (first, rest)
      match rest with
      | '-' :: high :: rest =>
        if high = ']' then goOn (found || low = c) ('-' :: high :: rest)
        else
          let (high, rest) :=
            match high, rest with
            | '\\', high :: rest => (high, rest)
            | _, _ => (high, rest)
          goOn (found || isBetween low high c) rest
      | _ => goOn (found || low = c) rest

/-! ## Matching -/

/-- Whether something holds of a text or of what is left of it after some characters. -/
def anyRest (holds : Octets → Bool) : Octets → Bool
  | [] => holds []
  | c :: rest => holds (c :: rest) || anyRest holds rest

/-- Whether a pattern matches the whole of a text. A bracket without an end stands for
itself. -/
def matchesWith : Nat → Octets → Octets → Bool
  | 0, _, _ => false
  | _, [], s => s.isEmpty
  | fuel + 1, p :: rest, s =>
    let literal (c : Char) (rest : Octets) : Bool :=
      match s with
      | d :: s => c = d && matchesWith fuel rest s
      | [] => false
    match p with
    | '\\' =>
      match rest with
      | c :: rest => literal c rest
      | [] => literal '\\' []
    | '?' =>
      match s with
      | _ :: s => matchesWith fuel rest s
      | [] => false
    | '*' =>
      let rest := rest.dropWhile (· = '*')
      anyRest (matchesWith fuel rest) s
    | '[' =>
      match s with
      | [] => false
      | c :: after =>
        let isNegated := rest.head? = some '!'
        match member? c (rest.length + 1) false (if isNegated then rest.tail else rest) with
        | some (found, rest) => found ≠ isNegated && matchesWith fuel rest after
        | none => literal '[' rest
    | _ => literal p rest

def isMatch (pattern s : Octets) : Bool := matchesWith (pattern.length + 1) pattern s

end Transcript.Host.Pattern

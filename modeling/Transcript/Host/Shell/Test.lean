-- Conditions on texts, numbers and files. A word is an operator or an operand by the words
-- around it; all parts of a condition are looked at, from left to right.
import Transcript.Host.Shell.State

namespace Transcript.Host.Test

/-! ## Operators -/

inductive Unary where
  | isReadable
  | isWritable
  | isRunnable
  | exists
  | isRegular
  | isDirectory
  | isCharacter
  | isBlock
  | isPipe
  | isSocket
  | isLink
  | isSpecial (bit : Nat)
  | hasSize
  | isOwned
  | isTerminal
  | isEmpty
  | isNotEmpty
deriving DecidableEq

inductive Binary where
  | equal
  | notEqual
  | before
  | after
  | number (holds : Int → Int → Bool)
  | newer
  | older
  | same

inductive Operator where
  | unary (u : Unary)
  | binary (b : Binary)
  | not
  | and
  | or
  | leftParen
  | rightParen

def unaryOperators : List (String × Unary) :=
  [("-r", .isReadable), ("-w", .isWritable), ("-x", .isRunnable), ("-e", .exists),
    ("-f", .isRegular), ("-d", .isDirectory), ("-c", .isCharacter), ("-b", .isBlock),
    ("-p", .isPipe), ("-u", .isSpecial 2048), ("-g", .isSpecial 1024), ("-k", .isSpecial 512),
    ("-s", .hasSize), ("-t", .isTerminal), ("-z", .isEmpty), ("-n", .isNotEmpty),
    ("-h", .isLink), ("-O", .isOwned), ("-G", .isOwned), ("-L", .isLink), ("-S", .isSocket)]

def binaryOperators : List (String × Binary) :=
  [("=", .equal), ("!=", .notEqual), ("<", .before), (">", .after),
    ("-eq", .number fun a b => decide (a = b)), ("-ne", .number fun a b => decide (a ≠ b)),
    ("-ge", .number fun a b => decide (b ≤ a)), ("-gt", .number fun a b => decide (b < a)),
    ("-le", .number fun a b => decide (a ≤ b)), ("-lt", .number fun a b => decide (a < b)),
    ("-nt", .newer), ("-ot", .older), ("-ef", .same)]

def otherOperators : List (String × Operator) :=
  [("!", .not), ("-a", .and), ("-o", .or), ("(", .leftParen), (")", .rightParen)]

def unary? (word : Octets) : Option Unary := unaryOperators.lookup (String.ofList word)

def binary? (word : Octets) : Option Binary := binaryOperators.lookup (String.ofList word)

/-- What the first of some words is; none in the inner place for an operand, and none in the
outer one where there are no words. -/
def first (words : List Octets) : Option (Option Operator) :=
  match words with
  | [] => none
  | word :: rest =>
    let isOperand : Bool := match rest with
      | [] => true
      | [_] => false
      | second :: _ => (binary? second).isSome
    match unary? word, binary? word with
    | some u, _ => some (if isOperand then none else some (.unary u))
    | none, some b => some (some (.binary b))
    | none, none =>
      match otherOperators.lookup (String.ofList word) with
      | some .leftParen => some (if rest.isEmpty then none else some .leftParen)
      | other => some other

/-! ## Meanings -/

/-- Whether an operator holds of a word. -/
def holds (u : Unary) (word : Octets) : Sh Bool := do
  match u with
  | .isEmpty => return word.isEmpty
  | .isNotEmpty => return !word.isEmpty
  | .isTerminal =>
    let _ ← Sh.integer word
    return false
  | _ =>
    match ← Steps.ask (.status word (u ≠ .isLink)) with
    | .error _ => return false
    | .ok status =>
      return match u with
        | .isRunnable => status.runnable
        | .isRegular => status.kind = .regular
        | .isDirectory => status.kind = .directory
        | .isCharacter => status.kind = .character
        | .isPipe => status.kind = .pipe
        | .isLink => status.kind = .link
        | .isSpecial bit => status.mode / bit % 2 = 1
        | .hasSize => 0 < status.size
        | .isBlock | .isSocket => false
        | _ => true

/-- Whether an operator holds between two words. -/
def relates (b : Binary) (left right : Octets) : Sh Bool := do
  let compared (f : FileStatus → FileStatus → Bool) : Sh Bool := do
    match ← Steps.ask (.status left true), ← Steps.ask (.status right true) with
    | .ok a, .ok b => return f a b
    | _, _ => return false
  match b with
  | .equal => return left = right
  | .notEqual => return left ≠ right
  | .before => return left ≠ right && Octets.precedes left right
  | .after => return left ≠ right && Octets.precedes right left
  | .number f =>
    let a ← Sh.integer left
    return f a (← Sh.integer right)
  | .newer => compared fun a b => decide (b.modified < a.modified)
  | .older => compared fun a b => decide (a.modified < b.modified)
  | .same => compared fun a b => decide (a.identity = b.identity)

def fault {α : Type} (word : Octets) (text : String) : Sh α :=
  Sh.fail (if word.isEmpty then text.toList else word ++ ": ".toList ++ text.toList)

/-! ## Conditions -/

mutual

/-- A condition with its words from the first one on: whether it holds, and the words from its
last one on. -/
def disjunction : Nat → List Octets → Sh (Bool × List Octets)
  | 0, words => return (false, words)
  | fuel + 1, words => do
    let (a, words) ← conjunction fuel words
    match first words.tail with
    | some (some .or) =>
      let (b, words) ← disjunction fuel (words.drop 2)
      return (a || b, words)
    | _ => return (a, words)

def conjunction : Nat → List Octets → Sh (Bool × List Octets)
  | 0, words => return (false, words)
  | fuel + 1, words => do
    let (a, words) ← negation fuel words
    match first words.tail with
    | some (some .and) =>
      let (b, words) ← conjunction fuel (words.drop 2)
      return (a && b, words)
    | _ => return (a, words)

def negation : Nat → List Octets → Sh (Bool × List Octets)
  | 0, words => return (false, words)
  | fuel + 1, words => do
    match first words with
    | some (some .not) =>
      if words.tail.isEmpty then return (true, words)
      let (a, words) ← negation fuel words.tail
      return (!a, words)
    | _ => primary fuel words false

/-- A condition without operators around it. The first word may be known to be an operand. -/
def primary : Nat → List Octets → Bool → Sh (Bool × List Octets)
  | 0, words, _ => return (false, words)
  | fuel + 1, words, isOperand => do
    match if isOperand then some none else first words, words with
    | none, _ | _, [] => return (false, words)
    | some (some .leftParen), _ :: rest =>
      if first rest matches some (some .rightParen) then return (false, rest)
      let (a, words) ← disjunction fuel rest
      if !(first words.tail matches some (some .rightParen)) then
        fault [] "closing paren expected"
      return (a, words.tail)
    | some (some (.unary u)), word :: rest =>
      match rest with
      | [] => fault word "argument expected"
      | operand :: _ => return (← holds u operand, rest)
    | _, left :: rest =>
      match first rest, rest with
      | some (some (.binary b)), operator :: rest =>
        match rest with
        | [] => fault operator "argument expected"
        | right :: _ => return (← relates b left right, rest)
      | _, _ => return (!left.isEmpty, words)

end

/-- Whether the words of a condition hold, with the rules for few words. -/
def judge : Nat → Bool → List Octets → Sh Bool
  | 0, isNegated, _ => return isNegated
  | fuel + 1, isNegated, words => do
    let whole (words : List Octets) (isOperand : Bool) : Sh Bool := do
      let size := 8 * words.length + 8
      let (a, rest) ← if isOperand then primary size words true else disjunction size words
      match rest with
      | word :: _ :: _ => fault word "unexpected operator"
      | _ => return a ≠ isNegated
    if words.isEmpty then return false
    let isShort := words.length = 3 || words.length = 4
    if words.length = 3 ∧ (words[1]?.bind binary?).isSome then whole words true
    else if isShort ∧ words.head? = some ['('] ∧ words.getLast? = some [')'] then
      whole words.tail.dropLast false
    else if isShort ∧ words.head? = some ['!'] then judge fuel true words.tail
    else whole words false

/-- The status of a condition. -/
def run (isBracket : Bool) (words : List Octets) : Sh Nat := do
  let words ←
    if !isBracket then pure words
    else if words.getLast? = some [']'] then pure words.dropLast
    else Sh.failText "missing ]"
  return if ← judge (words.length + 1) false words then 0 else 1

end Transcript.Host.Test

-- Expressions of whole numbers of 64 bits, computed while they are read from left to right,
-- so that the first fault on the way is the one that counts. What a choice leaves out is read
-- but not computed.
import Transcript.Host.Numeral

namespace Transcript.Host.Arithmetic

/-! ## Marks -/

/-- A mark of an expression. -/
inductive Mark where
  | number (n : Int)
  | name (s : Octets)
  | sign (s : String)
  /-- A character that no expression has. -/
  | foreign
deriving DecidableEq

/-- The signs, longer ones before those that they begin with. -/
def signs : List String :=
  ["<<=", ">>=", "<<", ">>", "<=", ">=", "==", "!=", "&&", "||", "*=", "/=", "%=", "+=", "-=", "&=",
    "|=", "^=", "*", "/", "%", "+", "-", "<", ">", "&", "|", "^", "=", "!", "~", "(", ")", "?", ":"]

/-- The largest number, and the least. -/
def most : Int := twoTo 63 - 1

def least : Int := -(twoTo 63)

def isNamePart (c : Char) : Bool := c.isAlphanum || c = '_'

/-- The marks of a text, up to the first character that none begins with. -/
def marks : Nat → Octets → List Mark
  | 0, _ => []
  | _, [] => []
  | fuel + 1, c :: rest =>
    if c = ' ' ∨ c = '\t' ∨ c = '\n' then marks fuel rest
    else if c.isDigit then
      match Numeral.whole? (c :: rest) with
      | some w => .number (min w.size most) :: marks fuel w.rest
      | none => [.foreign]
    else if isNamePart c then
      .name (c :: rest.takeWhile isNamePart) :: marks fuel (rest.dropWhile isNamePart)
    else
      match signs.find? fun s => s.toList.isPrefixOf (c :: rest) with
      | some s => .sign s :: marks fuel ((c :: rest).drop s.length)
      | none => [.foreign]

/-! ## Operations -/

/-- What is wrong with an expression, or with a variable in it. -/
inductive Fault where
  | expecting (what : String)
  | divisionByZero
  | notNumber (text : Octets)
  | readOnly (name : Octets)
  /-- The quotient is no number of 64 bits. -/
  | overflow
deriving DecidableEq

/-- A number brought into the range of 64 bits with a sign. -/
def word (n : Int) : Int := Int.bmod n (twoTo 64)

def truth (b : Bool) : Int := if b then 1 else 0

/-- The bits of two numbers combined. -/
def bitwise (f : UInt64 → UInt64 → UInt64) (a b : Int) : Int :=
  word (f (UInt64.ofInt a) (UInt64.ofInt b)).toNat

/-- The value of an operator between two values. -/
def apply (operator : String) (a b : Int) : Except Fault Int :=
  if operator = "/" ∨ operator = "%" then
    if b = 0 then .error .divisionByZero
    else if a = least ∧ b = -1 then .error .overflow
    else .ok (if operator = "/" then Int.tdiv a b else Int.tmod a b)
  else .ok <|
    match operator with
    | "+" => word (a + b)
    | "-" => word (a - b)
    | "*" => word (a * b)
    | "<<" => word (a * (twoTo (b % 64).toNat : Int))
    | ">>" => Int.fdiv a (twoTo (b % 64).toNat)
    | "<" => truth (decide (a < b))
    | "<=" => truth (decide (a ≤ b))
    | ">" => truth (decide (b < a))
    | ">=" => truth (decide (b ≤ a))
    | "==" => truth (decide (a = b))
    | "!=" => truth (decide (a ≠ b))
    | "&" => bitwise (· &&& ·) a b
    | "|" => bitwise (· ||| ·) a b
    | _ => bitwise (· ^^^ ·) a b

/-- The value of an operator in front of a value. -/
def applyUnary (operator : String) (a : Int) : Int :=
  match operator with
  | "-" => word (-a)
  | "!" => truth (decide (a = 0))
  | "~" => -a - 1
  | _ => a

/-! ## Variables -/

/-- The variables that an expression sees. -/
structure Scope where
  value? : Octets → Option Octets
  isReadOnly : Octets → Bool

/-- The number that a text is, with blanks around it; an empty one is zero. -/
def ofText (s : Octets) : Except Fault Int :=
  match Numeral.whole? s with
  | none => if s.all Numeral.isSpace then .ok 0 else .error (.notNumber s)
  | some w =>
    let n : Int := if w.negative then -(w.size : Int) else w.size
    if n < least ∨ most < n ∨ !w.rest.all Numeral.isSpace then .error (.notNumber s) else .ok n

/-- The marks that are still to be read, and the values that were given to variables, the
latest first. -/
structure Work where
  marks : List Mark
  given : List (Octets × Octets)

abbrev Reckoning := ExceptT Fault (StateM Work)

def lookUp (scope : Scope) (name : Octets) : Reckoning Int := do
  match (List.lookup name (← get).given).or (scope.value? name) with
  | some text => ofText text
  | none => return 0

def give (scope : Scope) (name : Octets) (n : Int) : Reckoning Unit := do
  if scope.isReadOnly name then throw (.readOnly name)
  modify fun w => { w with given := (name, Octets.ofInt n) :: w.given }

/-- Takes a sign, if it comes next. -/
def takes (s : String) : Reckoning Bool := do
  if (← get).marks.head? = some (.sign s) then
    modify fun w => { w with marks := w.marks.tail }
    return true
  else return false

/-! ## Reading -/

/-- The operators between two values by how tightly they bind, the loosest first. -/
def levels : List (List String) :=
  [["|"], ["^"], ["&"], ["==", "!="], ["<", "<=", ">", ">="], ["<<", ">>"], ["+", "-"],
    ["*", "/", "%"]]

/-- The operator in a sign that gives a variable a value: none inside for a plain one. -/
def assigning? (s : String) : Option (Option String) :=
  if s = "=" then some none
  else if ["<<=", ">>=", "+=", "-=", "*=", "/=", "%=", "&=", "|=", "^="].contains s then
    some (some (String.ofList s.toList.dropLast))
  else none

mutual

/-- The value of an expression. Nothing is looked up or given where it is left out. -/
def expression (scope : Scope) : Nat → Bool → Reckoning Int
  | 0, _ => throw (.expecting "primary")
  | fuel + 1, isLeftOut => do
    match (← get).marks with
    | .name name :: .sign s :: rest =>
      match assigning? s with
      | none => choice scope fuel isLeftOut
      | some operator =>
        modify fun w => { w with marks := rest }
        let n ← expression scope fuel isLeftOut
        if isLeftOut then return n
        let n ← match operator with
          | none => pure n
          | some o => do apply o (← lookUp scope name) n
        give scope name n
        return n
    | _ => choice scope fuel isLeftOut

def choice (scope : Scope) : Nat → Bool → Reckoning Int
  | 0, _ => throw (.expecting "primary")
  | fuel + 1, isLeftOut => do
    let test ← disjunction scope fuel isLeftOut
    if !(← takes "?") then return test
    let yes ← expression scope fuel (isLeftOut || decide (test = 0))
    if !(← takes ":") then throw (.expecting "':'")
    let no ← choice scope fuel (isLeftOut || decide (test ≠ 0))
    return if test ≠ 0 then yes else no

def disjunction (scope : Scope) : Nat → Bool → Reckoning Int
  | 0, _ => throw (.expecting "primary")
  | fuel + 1, isLeftOut => do
    let a ← conjunction scope fuel isLeftOut
    if !(← takes "||") then return a
    let b ← disjunction scope fuel (isLeftOut || decide (a ≠ 0))
    return truth (decide (a ≠ 0) || decide (b ≠ 0))

def conjunction (scope : Scope) : Nat → Bool → Reckoning Int
  | 0, _ => throw (.expecting "primary")
  | fuel + 1, isLeftOut => do
    let a ← level scope fuel isLeftOut levels
    if !(← takes "&&") then return a
    let b ← conjunction scope fuel (isLeftOut || decide (a = 0))
    return truth (decide (a ≠ 0) && decide (b ≠ 0))

/-- Values joined by the operators of the loosest of these levels. -/
def level (scope : Scope) : Nat → Bool → List (List String) → Reckoning Int
  | 0, _, _ => throw (.expecting "primary")
  | fuel + 1, isLeftOut, [] => primary scope fuel isLeftOut
  | fuel + 1, isLeftOut, operators :: tighter => do
    joined scope fuel isLeftOut operators tighter (← level scope fuel isLeftOut tighter)

/-- More values of a level, from left to right. -/
def joined (scope : Scope) : Nat → Bool → List String → List (List String) → Int → Reckoning Int
  | 0, _, _, _, a => return a
  | fuel + 1, isLeftOut, operators, tighter, a => do
    match (← get).marks with
    | .sign s :: rest =>
      if !operators.contains s then return a
      modify fun w => { w with marks := rest }
      let b ← level scope fuel isLeftOut tighter
      let n ← if isLeftOut then pure b else apply s a b
      joined scope fuel isLeftOut operators tighter n
    | _ => return a

/-- A value with the operators in front of it. -/
def primary (scope : Scope) : Nat → Bool → Reckoning Int
  | 0, _ => throw (.expecting "primary")
  | fuel + 1, isLeftOut => do
    let marks := (← get).marks
    modify fun w => { w with marks := w.marks.tail }
    match marks.head? with
    | some (.number n) => return n
    | some (.name name) => if isLeftOut then return 0 else lookUp scope name
    | some (.sign s) =>
      if s = "(" then
        let n ← expression scope fuel isLeftOut
        if !(← takes ")") then throw (.expecting "')'")
        return n
      else if s = "-" ∨ s = "+" ∨ s = "!" ∨ s = "~" then
        return applyUnary s (← primary scope fuel isLeftOut)
      else throw (.expecting "primary")
    | _ => throw (.expecting "primary")

end

/-- The value of the expression that a text is, and the values that it gives to variables, in
order; those also where a fault comes after them. -/
def evaluate (scope : Scope) (s : Octets) : Except Fault Int × List (Octets × Octets) :=
  let marks := marks (s.length + 1) s
  let whole : Reckoning Int := do
    let n ← expression scope (20 * marks.length + 20) false
    if !(← get).marks.isEmpty then throw (.expecting "EOF")
    return n
  let (result, work) := whole.run.run ⟨marks, []⟩
  (result, work.given.reverse)

end Transcript.Host.Arithmetic

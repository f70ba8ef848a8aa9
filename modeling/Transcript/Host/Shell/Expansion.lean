-- What the words of a script become when they are filled in: the values of parameters, the
-- output of commands and numbers come in the place of their pieces, and what is not quoted is
-- parted into fields and matched with files.
import Transcript.Host.Arithmetic
import Transcript.Host.Shell.Paths

namespace Transcript.Host.Expansion

/-! ## Manners -/

/-- How a word is filled in. -/
structure Manner where
  /-- The result is parted into fields. -/
  splits : Bool
  /-- A tilde at the front stands for a home, or also one in the value of an assignment. -/
  hasTilde : Bool
  isAssignment : Bool
  isValue : Bool
  /-- The result is a pattern. -/
  isPattern : Bool
  /-- The word stands in the place of a parameter. -/
  isInner : Bool
  isQuoted : Bool

namespace Manner

/-- A word that becomes one text. -/
def text : Manner := ⟨false, true, false, false, false, false, false⟩

def fields : Manner := { text with splits := true }

def assignment : Manner := { text with hasTilde := false, isAssignment := true }

def pattern : Manner := { text with isPattern := true }

/-- The text of a document, or of a word in quotes. -/
def document : Manner := { text with hasTilde := false, isQuoted := true }

/-- Nothing but parameters, outputs and numbers is filled in. -/
def number : Manner := { text with hasTilde := false }

/-- Quotes are still seen in the result. -/
def keepsQuotes (m : Manner) : Bool := m.splits || m.isPattern

end Manner

/-- The characters that mean something in a pattern or where a tilde can stand. -/
def isSign (c : Char) : Bool := "!*?[=~:/-]\\".toList.contains c

/-- The cells of a text that is filled in. -/
def cells (m : Manner) (s : Octets) : List Cell :=
  s.map fun c =>
    if m.keepsQuotes && (Script.isReserved c || (m.isQuoted && isSign c)) then .quoted c
    else .bare c

/-! ## Parameters -/

/-- All parameters as one text. Where they are parted into fields a zero byte ends each. -/
def allParameters (sh : Shell) (m : Manner) (isSeparate : Bool) : Octets :=
  let separator : Octets :=
    if m.splits ∧ (isSeparate ∨ !m.isQuoted) then ['\x00'] else sh.separators.take 1
  Octets.join separator sh.parameters.values

/-- What a parameter stands for, if anything. -/
def valueOf? (sh : Shell) (m : Manner) (name : Octets) : Option Octets :=
  match name with
  | ['$'] => some (Octets.ofNat sh.id)
  | ['?'] => some (Octets.ofNat sh.status)
  | ['#'] => some (Octets.ofNat sh.parameters.values.length)
  | ['!'] => sh.background.map Octets.ofNat
  | ['-'] =>
    some (ShellOption.table.reverse.filterMap fun (o, _, letter) =>
      if sh.isOn o then letter else none)
  | ['@'] => some (allParameters sh m true)
  | ['*'] => some (allParameters sh m false)
  | c :: _ =>
    if c.isDigit then
      let n := Decimal.digitsValue name
      if n = 0 then some sh.name else sh.parameters.values[n - 1]?
    else sh.value? name
  | [] => none

/-- The cells that a parameter stands for. The letters of the options are never signs. -/
def parameterCells (m : Manner) (name s : Octets) : List Cell :=
  if name = ['-'] then s.map .bare else cells m s

/-- A parameter that has no value is an error where that is asked for. -/
def refuseUnset (name : Octets) : Sh Unit := do
  if (← get).isOn .nounset then Sh.fail (name ++ ": parameter not set".toList)

/-- Notes where the value of a parameter stands, from a place up to the end. -/
def recordValue (sh : Shell) (m : Manner) (name : Octets) (start : Nat) (d : Draft) : Draft :=
  if !m.isQuoted then d.record start d.size false
  else if name = ['@'] ∧ !sh.parameters.values.isEmpty then d.record start d.size true
  else d

/-! ## Cutting off -/

/-- The text of cells up to the end of the first parameter in it. -/
def textBefore (cells : List Cell) : Octets := (Cell.text cells).takeWhile (· ≠ '\x00')

/-- What is left of the cells of a value when a pattern is cut off its end. The shortest match
is looked for from behind, the longest one from the front. -/
def withoutEnd (longest : Bool) (pattern : Octets) (value : List Cell) : List Cell :=
  let places := List.range (value.length + 1)
  let places := if longest then places else places.reverse
  match places.find? fun n => Pattern.isMatch pattern (textBefore (value.drop n)) with
  | some n => value.take n
  | none => value

def withoutFront (longest : Bool) (pattern : Octets) (value : List Cell) : List Cell :=
  let places := List.range (value.length + 1)
  let places := if longest then places.reverse else places
  match places.find? fun n => Pattern.isMatch pattern (textBefore (value.take n)) with
  | some n => value.drop n
  | none => value

/-! ## Homes -/

/-- The homes of the users that the system knows. -/
def homes : List (String × String) :=
  [("root", "/root"), ("daemon", "/usr/sbin"), ("bin", "/bin"), ("sys", "/dev"), ("sync", "/bin"),
    ("games", "/usr/games"), ("man", "/var/cache/man"), ("lp", "/var/spool/lpd"),
    ("mail", "/var/mail"), ("news", "/var/spool/news"), ("uucp", "/var/spool/uucp"),
    ("proxy", "/bin"), ("www-data", "/var/www"), ("backup", "/var/backups"),
    ("list", "/var/list"), ("irc", "/run/ircd"), ("_apt", "/nonexistent"),
    ("nobody", "/nonexistent")]

/-- The name of a user after a tilde, and the pieces after it. -/
def user? (m : Manner) : ScriptWord → Option (Octets × ScriptWord)
  | [] => some ([], [])
  | .plain c :: rest =>
    if c = '/' ∨ (c = ':' ∧ m.isAssignment) then some ([], .plain c :: rest)
    else (user? m rest).map fun (name, rest) => (c :: name, rest)
  | _ => none

/-- The home that a tilde and the name after it stand for, and the pieces after it. -/
def home? (sh : Shell) (m : Manner) (pieces : ScriptWord) : Option (Octets × ScriptWord) := do
  let (name, rest) ← user? m pieces
  let home ←
    if name.isEmpty then sh.valueOf? "HOME"
    else (homes.find? fun e => e.1.toList = name).map fun e => e.2.toList
  return (home, rest)

/-! ## Numbers -/

/-- The number that an expression is. -/
def compute (s : Octets) : Sh Int := do
  let sh ← get
  let isReadOnly (name : Octets) : Bool := ((sh.setting? name).map (·.isReadOnly)).getD false
  let (result, given) := Arithmetic.evaluate ⟨sh.value?, isReadOnly⟩ s
  for (name, value) in given do
    Sh.assign name value
  let explain (what : String) : Sh Int :=
    Sh.fail (("arithmetic expression: " ++ what ++ ": \"").toList ++ s ++ ['"'])
  match result with
  | .ok n => return n
  | .error (.expecting what) => explain ("expecting " ++ what)
  | .error .divisionByZero => explain "division by zero"
  | .error (.notNumber text) => Sh.badNumber text
  | .error (.readOnly name) => Sh.fail (name ++ ": is read only".toList)
  | .error .overflow =>
    let own : Nat × Nat ← Steps.ask .identity
    let _ : Except HostError Unit ← Steps.ask (.signal own.1 8)
    throw .exit

/-! ## Words -/

/-- The output of commands without the line ends behind it. -/
def trimmedOutput (s : Octets) : Octets :=
  ((s.filter (· ≠ '\x00')).reverse.dropWhile (· = '\n')).reverse

/-- Ends a run of plain characters, which are parted into fields where they stand in the place
of a parameter. -/
def closeRun (m : Manner) (inQuotes : Bool) (start : Nat) (d : Draft) : Draft :=
  if m.isInner && !m.isQuoted && !inQuotes && decide (start < d.size) then
    d.record start d.size false
  else d

/-- All parameters between quotes, which leave nothing behind where there are none. -/
def afterAll? : ScriptWord → Option ScriptWord
  | .parameter ['@'] .value false [] :: .quote :: rest => some rest
  | _ => none

mutual

/-- Fills in a word behind what a draft has already. -/
def fill (output : Option Command → Sh Octets) : Nat → Manner → ScriptWord → Draft → Sh Draft
  | 0, _, _, d => return d
  | fuel + 1, m, word, d =>
    let plain := { m with hasTilde := false }
    if m.hasTilde then fillHome output fuel plain word d
    else fillFrom output fuel plain false d.size word d

/-- The same where a tilde at the front stands for a home. -/
def fillHome (output : Option Command → Sh Octets) : Nat → Manner → ScriptWord → Draft →
    Sh Draft
  | 0, _, _, d => return d
  | fuel + 1, m, word, d => do
    match word with
    | .plain '~' :: rest =>
      match home? (← get) m rest with
      | some (home, rest) =>
        let d := d.putAll (cells { m with isQuoted := true } home)
        fillFrom output fuel m false d.size rest d
      | none => fillFrom output fuel m false d.size rest (d.put (.bare '~'))
    | _ => fillFrom output fuel m false d.size word d

/-- Goes on within a word, in which a run of plain characters began at a place. -/
def fillFrom (output : Option Command → Sh Octets) : Nat → Manner → Bool → Nat → ScriptWord →
    Draft → Sh Draft
  | 0, _, _, _, _, d => return d
  | _, m, inQuotes, run, [], d => return closeRun m inQuotes run d
  | fuel + 1, m, inQuotes, run, piece :: rest, d => do
    let inner := { m with isQuoted := m.isQuoted || inQuotes }
    let closed := closeRun m inQuotes run d
    let goOn (d : Draft) : Sh Draft := fillFrom output fuel m inQuotes d.size rest d
    match piece with
    | .plain c =>
      let d := d.put (.bare c)
      if m.isAssignment && (c = ':' || (c = '=' && !m.isValue)) then
        let d := closeRun m inQuotes run d
        let m := { m with isValue := m.isValue || c = '=' }
        if rest.head? matches some (.plain '~') then fillHome output fuel m rest d
        else fillFrom output fuel m inQuotes d.size rest d
      else fillFrom output fuel m inQuotes run rest d
    | .escaped c => goOn (closed.put (if m.keepsQuotes then .quoted c else .bare c))
    | .quote =>
      match if inQuotes then none else afterAll? rest with
      | some rest =>
        let d ← fillParameter output fuel { m with isQuoted := true } ['@'] .value false [] closed
        fillFrom output fuel m false d.size rest d
      | none =>
        let d := if m.keepsQuotes then closed.put .mark else closed
        fillFrom output fuel m (!inQuotes) d.size rest d
    | .parameter name treatment colon word =>
      goOn (← fillParameter output fuel inner name treatment colon word closed)
    | .output command =>
      let text ← output command
      let d := closed.putAll (cells inner (trimmedOutput text))
      goOn (if inner.isQuoted then d else d.record closed.size d.size false)
    | .number expression =>
      let text := (← fill output fuel Manner.number expression .empty).text
      let n ← compute text
      let d := closed.putAll (cells inner (Octets.ofInt n))
      goOn (if inner.isQuoted then d else d.record closed.size d.size false)

/-- Fills in a parameter. -/
def fillParameter (output : Option Command → Sh Octets) : Nat → Manner → Octets → Treatment →
    Bool → ScriptWord → Draft → Sh Draft
  | 0, _, _, _, _, _, d => return d
  | fuel + 1, m, name, treatment, colon, word, d => do
    if treatment = .bad then Sh.failText "Bad substitution"
    let sh ← get
    let value := valueOf? sh m name
    let isSet := value.isSome && !(colon && value = some [])
    let text := value.getD []
    let record (d' : Draft) : Draft := recordValue sh m name d.size d'
    let whole := record (d.putAll (parameterCells m name text))
    let wordIn (m : Manner) : Sh Draft := fill output fuel m word .empty
    match treatment with
    | .bad => return d
    | .andThen =>
      if isSet then fill output fuel { m with hasTilde := true, isInner := true } word d
      else return record d
    | .value =>
      if isSet then return whole
      refuseUnset name
      return d
    | .orElse =>
      if isSet then return whole
      else fill output fuel { m with hasTilde := true, isInner := true } word d
    | .orAssign =>
      if isSet then return whole
      Sh.assign name (← wordIn Manner.text).text
      let text := (valueOf? (← get) m name).getD []
      return record (d.putAll (parameterCells m name text))
    | .orFail =>
      if isSet then return whole
      let why := (← wordIn Manner.text).text
      let standard := "parameter not set".toList ++ if colon then " or null".toList else []
      Sh.fail (name ++ ": ".toList ++ if word.isEmpty then standard else why)
    | .length =>
      if !isSet then refuseUnset name
      return record (d.putAll (cells m (Octets.ofNat text.length)))
    | .withoutEnd longest | .withoutFront longest =>
      if !isSet then
        refuseUnset name
        return d
      let pattern := Cell.pattern (← wordIn Manner.pattern).all
      let value := parameterCells m name text
      let isEnd := treatment matches .withoutEnd _
      return record <| d.putAll <|
        if isEnd then withoutEnd longest pattern value else withoutFront longest pattern value

end

/-! ## Results -/

/-- The fields that a word becomes. -/
def fields (output : Option Command → Sh Octets) (fuel : Nat) (word : ScriptWord) :
    Sh (List Octets) := do
  let d ← fill output fuel Manner.fields word .empty
  let paths ← (d.fields (← get).separators none).mapM Paths.ofField
  return paths.flatten

/-- The one text that a word becomes. -/
def text (output : Option Command → Sh Octets) (fuel : Nat) (m : Manner) (word : ScriptWord) :
    Sh Octets := do
  return (← fill output fuel m word .empty).text

end Transcript.Host.Expansion

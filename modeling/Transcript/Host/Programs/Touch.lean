-- Files made where there are none, and the times of files: of now, of another file, or as
-- given in one of a few forms.
import Transcript.Host.Numeral
import Transcript.Host.Programs.Options
import Transcript.Host.Programs.Quoting

namespace Transcript.Host.Touch

/-! ## Dates -/

/-- The count of days from the first of January 1970 to a day of the calendar. -/
def dayNumber (year month day : Int) : Int :=
  let year := if month ≤ 2 then year - 1 else year
  let era := Int.fdiv year 400
  let yearOfEra := year - era * 400
  let dayOfYear := Int.fdiv (153 * (Int.fmod (month + 9) 12) + 2) 5 + day - 1
  let dayOfEra := yearOfEra * 365 + Int.fdiv yearOfEra 4 - Int.fdiv yearOfEra 100 + dayOfYear
  era * 146097 + dayOfEra - 719468

def isLeapYear (year : Int) : Bool :=
  Int.fmod year 4 = 0 && (Int.fmod year 100 ≠ 0 || Int.fmod year 400 = 0)

def daysIn (year month : Int) : Int :=
  if month = 2 then (if isLeapYear year then 29 else 28)
  else if month = 4 ∨ month = 6 ∨ month = 9 ∨ month = 11 then 30
  else 31

/-- A time of the calendar in microseconds, if there is such a time. -/
def moment? (year month day hour minute second : Int) : Option Int :=
  if 1 ≤ month ∧ month ≤ 12 ∧ 1 ≤ day ∧ day ≤ daysIn year month ∧ 0 ≤ hour ∧ hour < 24 ∧
      0 ≤ minute ∧ minute < 60 ∧ 0 ≤ second ∧ second ≤ 60 then
    some ((dayNumber year month day * 86400 + hour * 3600 + minute * 60 + second) * 1000000)
  else none

/-- The numbers that pairs of digits are. -/
def pairs? : Octets → Option (List Int)
  | [] => some []
  | a :: b :: rest =>
    if a.isDigit ∧ b.isDigit then
      (pairs? rest).map (((10 * Decimal.digitValue a + Decimal.digitValue b : Nat) : Int) :: ·)
    else none
  | [_] => none

/-- A time as month, day, hour and minute, with a year in two or four digits in front and
seconds behind a point. -/
def stamp? (thisYear : Int) (s : Octets) : Option Int := do
  let numbers ← pairs? (s.takeWhile (· ≠ '.'))
  let second ←
    match s.dropWhile (· ≠ '.') with
    | [] => some 0
    | _ :: digits => do
      match ← pairs? digits with
      | [n] => some n
      | _ => none
  match numbers with
  | [month, day, hour, minute] => moment? thisYear month day hour minute second
  | [year, month, day, hour, minute] =>
    moment? (if year < 69 then 2000 + year else 1900 + year) month day hour minute second
  | [century, year, month, day, hour, minute] =>
    moment? (century * 100 + year) month day hour minute second
  | _ => none

/-- Numbers between marks. -/
def numbers? (mark : Char) (s : Octets) : Option (List Int) :=
  (s.split mark).mapM fun piece =>
    if !piece.isEmpty && piece.all Char.isDigit then some (Decimal.digitsValue piece : Int) else none

/-- Hours, minutes and seconds of a day, in seconds. -/
def timeOfDay? (s : Octets) : Option Int := do
  match ← numbers? ':' (s.takeWhile (· ≠ '.')) with
  | [h, m] => if h < 24 ∧ m < 60 then some (h * 3600 + m * 60) else none
  | [h, m, sec] => if h < 24 ∧ m < 60 ∧ sec ≤ 60 then some (h * 3600 + m * 60 + sec) else none
  | _ => none

/-- The units that a time can be moved by, in seconds. -/
def unit? (s : Octets) : Option Int :=
  let word := String.ofList s
  let word := if word.endsWith "s" ∧ word ≠ "s" then String.ofList s.dropLast else word
  if word = "sec" ∨ word = "second" then some 1
  else if word = "min" ∨ word = "minute" then some 60
  else if word = "hour" then some 3600
  else if word = "day" then some 86400
  else if word = "week" then some 604800
  else if word = "fortnight" then some 1209600
  else none

/-- A whole number with an optional sign. -/
def number? (s : Octets) : Option Int :=
  let (negative, ds) := Decimal.takeSign s
  if !ds.isEmpty && ds.all Char.isDigit then
    some (if negative then -(Decimal.digitsValue ds : Int) else Decimal.digitsValue ds)
  else none

/-- A time in words, seen from another one; all in microseconds. -/
def readWords (now : Int) : Nat → List Octets → Option Int
  | 0, _ => none
  | _, [] => some now
  | fuel + 1, word :: rest =>
    let text := String.ofList (word.map Char.toLower)
    if text = "now" ∨ text = "today" ∨ text = "utc" ∨ text = "z" then readWords now fuel rest
    else if text = "yesterday" then readWords (now - 86400000000) fuel rest
    else if text = "tomorrow" then readWords (now + 86400000000) fuel rest
    else
      match number? word, rest with
      | some n, name :: rest =>
        match unit? name with
        | none => none
        | some unit =>
          if rest.head? = some "ago".toList then
            readWords (now - n * unit * 1000000) fuel rest.tail
          else readWords (now + n * unit * 1000000) fuel rest
      | _, _ => none

/-- A time of a day that has begun, and what is said after it. -/
def dayTime? (midnight : Int) : List Octets → Option Int
  | [] => some midnight
  | first :: rest =>
    let time := if first.getLast? = some 'Z' then first.dropLast else first
    match timeOfDay? time with
    | some seconds => readWords (midnight + seconds * 1000000) (rest.length + 1) rest
    | none => readWords midnight (rest.length + 2) (first :: rest)

/-- The day of a date, and the time that stands in one word with it. -/
def day? (word : Octets) : Option (Int × List Octets) := do
  let hasTime := word.contains 'T' && word.contains '-'
  let day := if hasTime then word.takeWhile (· ≠ 'T') else word
  let time := if hasTime then [(word.dropWhile (· ≠ 'T')).drop 1] else []
  match ← numbers? '-' day with
  | [year, month, d] =>
    let year := if day.length = 8 then (if year < 69 then year + 2000 else year + 1900) else year
    return (← moment? year month d 0 0 0, time)
  | _ => none

/-- A time as words or as a date; all in microseconds. -/
def date? (now : Int) (s : Octets) : Option Int :=
  let today := Int.fdiv now 86400000000 * 86400000000
  match s with
  | '@' :: seconds => (number? seconds).map fun n => n * 1000000
  | _ =>
    match (Octets.split ' ' (s.map fun c => if c = '\t' then ' ' else c)).filter (!·.isEmpty) with
    | [] => some today
    | word :: rest =>
      match day? word with
      | some (midnight, time) => dayTime? midnight (time ++ rest)
      | none =>
        if (timeOfDay? word).isSome then dayTime? today (word :: rest)
        else readWords now (rest.length + 2) (word :: rest)

/-! ## Options -/

def form : OptionForm where
  letters := [('a', .nothing), ('c', .nothing), ('d', .argument), ('f', .nothing), ('h', .nothing),
    ('m', .nothing), ('r', .argument), ('t', .argument)]
  names := [("time", '=', .argument), ("no-create", 'c', .nothing), ("date", 'd', .argument),
    ("no-dereference", 'h', .nothing), ("reference", 'r', .argument)]

/-- The names for the time of reading, and for that of writing. -/
def readingNames : List String := ["atime", "access", "use"]

def writingNames : List String := ["mtime", "modify"]

/-- Which of its times a file is given: that of writing, unless only the other is named. -/
def changesWriting (given : List (Char × Octets)) : Bool :=
  let isFor (names : List String) (letter : Char) (o : Char × Octets) : Bool :=
    o.1 = letter || (o.1 = '=' && names.any fun n => o.2.isPrefixOf n.toList)
  (given.any (isFor writingNames 'm')) || !given.any (isFor readingNames 'a')

/-- The argument that was given last for a letter. -/
def last? (given : List (Char × Octets)) (letter : Char) : Option Octets :=
  (given.reverse.find? fun o => o.1 = letter).map (·.2)

/-! ## Files -/

/-- Refuses the name of a time that is none. -/
def checkNames (call : Call) (given : List (Char × Octets)) : Task Unit := do
  for (letter, argument) in given do
    if letter = '=' then
      if !(readingNames ++ writingNames).any fun n => argument.isPrefixOf n.toList then
        call.warn ("invalid argument ".toList ++ Quoting.plain argument ++
          (" for '--time'\nValid arguments are:\n  - 'atime', 'access', 'use'\n" ++
          "  - 'mtime', 'modify'").toList)
        call.giveUp

/-- The time that the files are given. -/
def timeOf (call : Call) (given : List (Char × Octets)) : Task FileTime := do
  let now ← Steps.ask .time
  let invalid (s : Octets) : Task FileTime := do
    call.warn ("invalid date format ".toList ++ Quoting.plain s)
    throw 1
  let date := last? given 'd'
  let reference := last? given 'r'
  let thisYear : Int := 1970 + Int.fdiv now 31556952000000
  match last? given 't' with
  | some s =>
    match stamp? thisYear s with
    | none => invalid s
    | some t =>
      if date.isSome ∨ reference.isSome then
        call.warn "cannot specify times from more than one source".toList
        call.giveUp
      else return .at t
  | none =>
    let start ←
      match reference with
      | none => pure none
      | some path => do
        match ← Steps.ask (.status path true) with
        | .ok status => pure (some status.modified)
        | .error e =>
          call.warn ("failed to get attributes of ".toList ++ Quoting.quoted path ++
            Octets.ofText (": " ++ e.phrase))
          throw 1
    match date with
    | none => return (start.map FileTime.at).getD .now
    | some s =>
      match date? (start.getD now) s with
      | none => invalid s
      | some t => return .at t

/-- Makes a file unless it is there, and gives it its time. -/
def one (call : Call) (creates : Bool) (time : FileTime) (name : Octets) : Task Bool := do
  let complain (what : String) (e : HostError) : Task Bool := do
    call.warn (what.toList ++ Quoting.quoted name ++ Octets.ofText (": " ++ e.phrase))
    return false
  if name = ['-'] then return true
  let opened ←
    if creates then Steps.ask (.openFile name .making) else pure (.error .noEntry)
  match opened with
  | .ok descriptor =>
    let _ ← Steps.ask (.close descriptor)
  | .error _ => pure ()
  match ← Steps.ask (.setTime name time), opened with
  | .ok (), _ => return true
  | .error e, .error o =>
    if creates then complain "cannot touch " o
    else if e = .noEntry then return true
    else complain "setting times of " e
  | .error e, .ok _ => complain "setting times of " e

def run (call : Call) : Task Nat := do
  let options ← call.options form
  checkNames call options.given
  let time ← timeOf call options.given
  if options.operands.isEmpty then
    call.warn "missing file operand".toList
    call.giveUp
  let creates := !options.given.any fun o => o.1 = 'c' ∨ o.1 = 'h'
  let time := if changesWriting options.given then time else .same
  let mut code := 0
  for name in options.operands do
    if !(← one call creates time name) then code := 1
  return code

end Transcript.Host.Touch

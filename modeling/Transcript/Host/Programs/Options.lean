-- The options of a program: letters after one dash, and names after two, which may be cut
-- short. They may stand between the other arguments, unless the first of these is to end
-- them, and two dashes alone end them in any case.
import Transcript.Host.Activity

namespace Transcript.Host

/-- Whether an option takes an argument. -/
inductive Need where
  | nothing
  | argument
deriving DecidableEq

/-- The options that a program knows. A name stands for a letter, which need not be one that
can be given itself. -/
structure OptionForm where
  letters : List (Char × Need)
  names : List (String × Char × Need)

/-- What options there are, in their order, and the other arguments; or what is wrong with
one of them, after those before it. -/
structure Options where
  given : List (Char × Octets)
  operands : List Octets
  fault : Option Octets

namespace OptionForm

/-- Reads the letters after a dash. What is left of the word is the argument of a letter that
takes one, or else the next word is. -/
def readLetters (form : OptionForm) : Octets → List Octets →
    List (Char × Octets) × List Octets × Option Octets
  | [], rest => ([], rest, none)
  | c :: cs, rest =>
    match form.letters.lookup c with
    | none => ([], rest, some ("invalid option -- '".toList ++ [c, '\'']))
    | some .nothing =>
      let (given, rest, fault) := readLetters form cs rest
      ((c, []) :: given, rest, fault)
    | some .argument =>
      if !cs.isEmpty then ([(c, cs)], rest, none)
      else
        match rest with
        | word :: rest => ([(c, word)], rest, none)
        | [] => ([], [], some ("option requires an argument -- '".toList ++ [c, '\'']))

/-- The names that a word can stand for: itself, or all that it is the front of. -/
def candidates (form : OptionForm) (word : Octets) : List (String × Char × Need) :=
  match form.names.find? fun n => n.1.toList = word with
  | some n => [n]
  | none => form.names.filter fun n => word.isPrefixOf n.1.toList

/-- Reads a name after two dashes, with its argument behind an equals sign or in the next
word. -/
def readName (form : OptionForm) (text : Octets) (rest : List Octets) :
    List (Char × Octets) × List Octets × Option Octets :=
  let word := text.takeWhile (· ≠ '=')
  let inline := (text.dropWhile (· ≠ '=')).tail?
  let quoted (s : Octets) : Octets := "option '--".toList ++ s ++ ['\'']
  match form.candidates word with
  | [] => ([], rest, some ("unrecognized option '--".toList ++ text ++ ['\'']))
  | (name, letter, need) :: others =>
    if others.any fun n => n.2 ≠ (letter, need) then
      let names := ((name, letter, need) :: others).flatMap fun n =>
        " '--".toList ++ n.1.toList ++ ['\'']
      ([], rest, some (quoted text ++ " is ambiguous; possibilities:".toList ++ names))
    else
      match need, inline, rest with
      | .nothing, none, _ => ([(letter, [])], rest, none)
      | .nothing, some _, _ =>
        ([], rest, some (quoted name.toList ++ " doesn't allow an argument".toList))
      | .argument, some argument, _ => ([(letter, argument)], rest, none)
      | .argument, none, argument :: rest => ([(letter, argument)], rest, none)
      | .argument, none, [] =>
        ([], [], some (quoted name.toList ++ " requires an argument".toList))

/-- Reads the arguments of a program. -/
def readWith (form : OptionForm) (strict : Bool) : Nat → List Octets → Options
  | 0, words => ⟨[], words, none⟩
  | _, [] => ⟨[], [], none⟩
  | fuel + 1, word :: rest =>
    let goOn (read : List (Char × Octets) × List Octets × Option Octets) : Options :=
      match read with
      | (given, _, some fault) => ⟨given, [], some fault⟩
      | (given, rest, none) =>
        let options := readWith form strict fuel rest
        { options with given := given ++ options.given }
    match word with
    | ['-', '-'] => ⟨[], rest, none⟩
    | '-' :: '-' :: text => goOn (form.readName text rest)
    | '-' :: c :: cs => goOn (form.readLetters (c :: cs) rest)
    | _ =>
      if strict then ⟨[], word :: rest, none⟩
      else
        let options := readWith form strict fuel rest
        { options with operands := word :: options.operands }

def read (form : OptionForm) (strict : Bool) (words : List Octets) : Options :=
  form.readWith strict (words.length + 1) words

end OptionForm

/-! ## Telling -/

namespace Call

/-- Says something on the error output, under the name of the program. -/
def warn (call : Call) (message : Octets) : Task Unit :=
  Steps.tell 2 (call.name ++ ": ".toList ++ message ++ ['\n'])

/-- Points to the help, and ends. -/
def giveUp {α : Type} (call : Call) : Task α := do
  Steps.tell 2 ("Try '".toList ++ call.name ++ " --help' for more information.\n".toList)
  throw 1

/-- The options of a call. The words that ask for help or for a version end it. -/
def options (call : Call) (form : OptionForm) : Task Options := do
  let isStrict := (call.setting? "POSIXLY_CORRECT").isSome
  let always : List (String × Char × Need) := [("help", 'H', .nothing), ("version", 'V', .nothing)]
  let options := { form with names := form.names ++ always }.read isStrict call.arguments.tail
  if options.given.any fun o => o.1 = 'H' ∨ o.1 = 'V' then throw 0
  match options.fault with
  | some fault =>
    call.warn fault
    call.giveUp
  | none => return options

/-- Writes the whole output of a program and ends with a code. -/
def finish (call : Call) (output : Octets) (code : Nat) : Task Nat := do
  match ← Steps.writeAll 1 output with
  | .ok () => return code
  | .error e =>
    call.warn (Octets.ofText ("write error: " ++ e.phrase))
    return 1

end Call

end Transcript.Host

-- How scripts are read: characters into words, words and signs into tokens, and tokens into
-- commands. Commands may stand inside of words, so that all of these go hand in hand.
import Transcript.Host.Script.Token

namespace Transcript.Host.Script

/-! ## Characters in words -/

/-- How characters count in a part of a word. -/
inductive Quoting where
  | none
  | double
  | single
  | arithmetic
deriving DecidableEq

/-- What a character does in a word. -/
inductive Effect where
  | newline
  | ordinary
  /-- The character stands for itself only where it is quoted. -/
  | sign
  | backslash
  | singleQuote
  | doubleQuote
  | endQuote
  | dollar
  | brace
  | leftParen
  | rightParen
  | backquote
  | separator
  | endOfFile
deriving DecidableEq

/-- The bytes that are never taken as they are. -/
def isReserved (c : Char) : Bool := 0x81 ≤ c.toNat && c.toNat ≤ 0x88

def effect (quoting : Quoting) (c : Option Char) : Effect :=
  match c with
  | Option.none => .endOfFile
  | some c =>
    if c = '\n' then .newline
    else if isReserved c then .sign
    else
      match quoting with
      | .single =>
        if c = '\'' then .endQuote
        else if "!*?[=~:/-]\\".toList.contains c then .sign
        else .ordinary
      | .double =>
        if c = '\\' then .backslash
        else if c = '"' then .endQuote
        else if c = '\x60' then .backquote
        else if c = '$' then .dollar
        else if c = '\x7d' then .brace
        else if "!*?[=~:/-]".toList.contains c then .sign
        else .ordinary
      | .arithmetic =>
        if c = '\\' then .backslash
        else if c = '\x60' then .backquote
        else if c = '$' then .dollar
        else if c = '\x7d' then .brace
        else if c = '(' then .leftParen
        else if c = ')' then .rightParen
        else .ordinary
      | .none =>
        if c = '\\' then .backslash
        else if c = '\'' then .singleQuote
        else if c = '"' then .doubleQuote
        else if c = '\x60' then .backquote
        else if c = '$' then .dollar
        else if c = '\x7d' then .brace
        else if "<>();&| \t".toList.contains c then .separator
        else .ordinary

/-! ## Marks -/

/-- A piece of a word while it is read: what holds a word of its own is opened and closed. -/
inductive Mark where
  | plain (c : Char)
  | escaped (c : Char)
  | quote
  | parameter (name : Octets) (colon : Bool)
  | openParameter (name : Octets) (treatment : Treatment) (colon : Bool)
  | openNumber
  | close
  | output (command : Option Command)

/-- The pieces up to a close, and the marks after it. -/
def nest : Nat → List Mark → ScriptWord × List Mark
  | 0, marks => ([], marks)
  | _, [] => ([], [])
  | fuel + 1, mark :: rest =>
    let goOn (piece : Piece) (rest : List Mark) : ScriptWord × List Mark :=
      let (pieces, rest) := nest fuel rest
      (piece :: pieces, rest)
    match mark with
    | .plain c => goOn (.plain c) rest
    | .escaped c => goOn (.escaped c) rest
    | .quote => goOn .quote rest
    | .parameter name colon => goOn (.parameter name .value colon []) rest
    | .output command => goOn (.output command) rest
    | .openParameter name treatment colon =>
      let (word, rest) := nest fuel rest
      goOn (.parameter name treatment colon word) rest
    | .openNumber =>
      let (word, rest) := nest fuel rest
      goOn (.number word) rest
    | .close => ([], rest)

/-- The word that marks are, of which the last stands first. -/
def wordOf (marks : List Mark) : ScriptWord := (nest (marks.length + 1) marks.reverse).1

/-! ## Levels -/

/-- A part of a word in which characters count in one way. -/
structure Level where
  quoting : Quoting
  /-- It is between double quotes, or stands for something that is. -/
  isDouble : Bool
  /-- It ends with the parameter that it belongs to. -/
  isPushed : Bool
  /-- Double quotes are open inside of a parameter. -/
  isInner : Bool
  /-- The parameters that are open, and how many of them between double quotes. -/
  depth : Nat
  doubleDepth : Nat
  parens : Nat

def Level.start (quoting : Quoting) (isDouble : Bool) : Level :=
  ⟨quoting, isDouble, false, false, 0, 0, 0⟩

/-- A word while it is read, with the character that is looked at. -/
structure Progress where
  level : Level
  outer : List Level
  /-- The marks, the last first. -/
  marks : List Mark
  isQuoted : Bool
  c : Option Char

namespace Progress

def put (p : Progress) (mark : Mark) : Progress := { p with marks := mark :: p.marks }

def push (p : Progress) (level : Level) : Progress :=
  { p with level := level, outer := p.level :: p.outer }

def pop (p : Progress) : Progress :=
  match p.outer with
  | level :: outer => { p with level := level, outer := outer }
  | [] => p

/-- Quotes begin or end; in a document they are characters like others. -/
def putQuote (p : Progress) (inDocument : Bool) : Progress :=
  if inDocument then p else p.put .quote

/-- Double quotes begin or end. -/
def toggle (p : Progress) (inDocument : Bool) : Progress :=
  let level := if 0 < p.level.depth then { p.level with isInner := !p.level.isInner } else p.level
  { p with level := level }.putQuote inDocument

end Progress

open Reading

/-! ## Documents -/

/-- The characters from here on as long as they are those of a mark: what was read, the last
first, and whether all of it was there. -/
def matchMark : Octets → Option Char → List (Option Char) → Reading (List (Option Char) × Bool)
  | [], c, read => return (c :: read, c = some '\n' || c = none)
  | m :: mark, c, read => do
    if c = some m then matchMark mark (← next) (c :: read) else return (c :: read, false)

/-- Leaves out the tabs at the front. -/
def skipTabs : Nat → Option Char → Reading (Option Char)
  | 0, c => return c
  | fuel + 1, c => do
    if c = some '\t' then skipTabs fuel (← next) else return c

/-- The character that a line of a document begins with, or its end in front of its mark. -/
def documentLine (document : Awaited) (c : Option Char) : Reading (Option Char) := do
  let c ← if document.strips then skipTabs endless c else pure c
  let (read, isMark) ← matchMark document.mark c []
  if isMark then
    countLine
    return none
  else
    match read.reverse with
    | first :: rest =>
      let text := rest.filterMap fun c => c
      if !text.isEmpty then inset text none
      return first
    | [] => return none

/-! ## Parameters -/

/-- A run of characters, and the one after it. -/
def takeRun (isPart : Char → Bool) : Nat → Octets → Option Char → Reading (Octets × Option Char)
  | 0, run, c => return (run.reverse, c)
  | fuel + 1, run, c => do
    match c with
    | some d =>
      if isPart d then takeRun isPart fuel (d :: run) (← nextJoined) else return (run.reverse, c)
    | none => return (run.reverse, c)

/-- What is known of a parameter after its name: what is made of it, as far as it is settled,
and the character after the name; none without a name. -/
structure Named where
  name : Octets
  treatment : Option Treatment
  c : Option Char

/-- The name of a parameter from a character on. -/
def readName (isBare : Bool) (treatment : Option Treatment) (c : Char) : Reading Named := do
  if startsName c then
    let (name, c) ← takeRun isInName endless [] (some c)
    return ⟨name, treatment, c⟩
  else if isBare then return ⟨[c], treatment, ← nextJoined⟩
  else
    let (name, c) ← takeRun Char.isDigit endless [] (some c)
    return ⟨name, treatment, c⟩

/-- The name of a parameter between braces. A hash in front asks for its length, where it is
not a name itself. -/
def readBraced (c : Option Char) : Reading (Option Named × Option Char) := do
  match c with
  | none => return (none, c)
  | some first =>
    if startsName first ∨ first.isDigit then
      let named ← readName false none first
      return (some named, named.c)
    else if first = '\x7d' then return (none, c)
    else
      let second ← nextJoined
      let isNameLike : Bool := match second with
        | some d => d = '_' || d.isAlphanum
        | none => false
      if first = '#' ∧ isNameLike then
        let named ← readName false (some .length) (second.getD '_')
        return (some named, named.c)
      else if first = '#' then
        let third ← nextJoined
        if second = some '\x7d' ∨ third ≠ some '\x7d' then
          putBack third
          return (some ⟨['#'], none, second⟩, second)
        else
          match second with
          | some d =>
            if isSpecial d then return (some ⟨[d], some .length, third⟩, third)
            else return (none, third)
          | none => return (none, third)
      else if isSpecial first then return (some ⟨[first], none, second⟩, second)
      else return (none, second)

/-- What is made of a parameter, by the signs after its name. -/
def readTreatment (c : Option Char) : Reading (Treatment × Bool) := do
  let colon := c = some ':'
  let c ← if colon then nextJoined else pure c
  match c with
  | some '\x7d' => return (.value, colon)
  | some '-' => return (.orElse, colon)
  | some '+' => return (.andThen, colon)
  | some '?' => return (.orFail, colon)
  | some '=' => return (.orAssign, colon)
  | some d =>
    if !colon ∧ (d = '%' ∨ d = '#') then
      let c ← nextJoined
      let longest := c = some d
      if !longest then putBack c
      return (if d = '#' then .withoutFront longest else .withoutEnd longest, false)
    else return (.bad, colon)
  | none => return (.bad, colon)

/-- Opens a parameter that has a word, with a level of its own where that counts otherwise. -/
def openParameter (p : Progress) (name : Octets) (treatment : Treatment) (colon : Bool) :
    Progress :=
  let inner : Quoting :=
    match treatment with
    | .withoutEnd _ | .withoutFront _ => .none
    | _ => p.level.quoting
  let inner := if inner = .arithmetic then .double else inner
  let p :=
    if inner ≠ p.level.quoting ∨ p.level.isInner then
      p.push { Level.start inner (inner ≠ .none) with isPushed := true }
    else p
  let level := { p.level with
    depth := p.level.depth + 1
    doubleDepth := p.level.doubleDepth + if p.level.isDouble then 1 else 0 }
  { p with level := level }.put (.openParameter name treatment colon)

/-- A parameter after its dollar sign. -/
def readParameter (p : Progress) (c : Char) : Reading Progress := do
  if c ≠ '\x7b' then
    let named ← readName true (some .value) c
    putBack named.c
    return p.put (.parameter named.name false)
  else
    match ← readBraced (← nextJoined) with
    | (none, c) =>
      putBack c
      return openParameter p [] .bad false
    | (some named, c) =>
      match named.treatment with
      | some treatment =>
        putBack c
        return openParameter p named.name (if c = some '\x7d' then treatment else .bad) false
      | none =>
        let (treatment, colon) ← readTreatment c
        if treatment = .value ∧ !colon then return p.put (.parameter named.name false)
        else return openParameter p named.name treatment colon

/-- The text between backquotes, in which backslashes count only in front of some signs. -/
def readBackquoted (isDouble : Bool) : Nat → Octets → Reading Octets
  | 0, text => return text.reverse
  | fuel + 1, text => do
    match ← nextJoined with
    | none => fail "EOF in backquote substitution"
    | some '\x60' => return text.reverse
    | some '\\' =>
      match ← next with
      | none => readBackquoted isDouble fuel ('\\' :: text)
      | some c =>
        if c = '\\' ∨ c = '\x60' ∨ c = '$' ∨ (isDouble ∧ c = '"') then
          readBackquoted isDouble fuel (c :: text)
        else readBackquoted isDouble fuel (c :: '\\' :: text)
    | some c =>
      if c = '\n' then countLine
      readBackquoted isDouble fuel (c :: text)

/-! ## Words -/

/-- A character after a backslash. -/
def readEscaped (p : Progress) (inDocument : Bool) : Reading Progress := do
  match ← next with
  | none =>
    putBack none
    return p.put (.escaped '\\')
  | some c =>
    let l := p.level
    let keeps := l.isDouble && c ≠ '\\' && c ≠ '\x60' && c ≠ '$' &&
      (c ≠ '"' || (inDocument && l.depth = 0)) &&
      (c ≠ '\x7d' || l.depth = 0 || (if 0 < l.doubleDepth then l.isInner else l.isDouble))
    let p := if keeps then p.put (.escaped '\\') else p
    return { p.put (.escaped c) with isQuoted := true }

/-- A closing brace. -/
def readBrace (p : Progress) : Progress :=
  let l := p.level
  if !l.isInner ∧ 0 < l.depth then
    let l := { l with depth := l.depth - 1 }
    let p :=
      if l.depth = 0 ∧ l.isPushed then { p with level := l }.pop
      else { p with level := { l with doubleDepth := l.doubleDepth - 1 } }
    p.put .close
  else p.put (.plain '\x7d')

/-- The end of quotes. -/
def readEndQuote (p : Progress) (inDocument : Bool) (c : Char) : Progress :=
  if inDocument ∧ p.level.depth = 0 then p.put (.plain c)
  else
    let level :=
      if p.level.doubleDepth = 0 then { p.level with quoting := .none, isDouble := false }
      else p.level
    let p := { p with level := level, isQuoted := true }
    if c = '"' then p.toggle inDocument else p.putQuote inDocument

/-- A closing parenthesis in a number. -/
def readRightParen (p : Progress) : Reading Progress := do
  if 0 < p.level.parens then
    return { p with level := { p.level with parens := p.level.parens - 1 } }.put (.plain ')')
  else
    match ← nextJoined with
    | some ')' => return p.pop.put .close
    | c =>
      putBack c
      return p.put (.plain ')')

/-- The kind of redirection after its first sign. -/
def readOpening (sign : Char) (digit : Option Nat) : Reading Opening := do
  if sign = '>' then
    let descriptor := digit.getD 1
    match ← nextJoined with
    | some '>' => return .file descriptor .append
    | some '|' => return .file descriptor .forcedOutput
    | some '&' => return .copy descriptor
    | c =>
      putBack c
      return .file descriptor .output
  else
    let descriptor := digit.getD 0
    match ← nextJoined with
    | some '<' =>
      match ← nextJoined with
      | some '-' => return .document descriptor true
      | c =>
        putBack c
        return .document descriptor false
    | some '&' => return .copy descriptor
    | some '>' => return .file descriptor .both
    | c =>
      putBack c
      return .file descriptor .input

/-- The digit that is all of a word in front of a redirection; none inside for no word. -/
def descriptorBefore? : List Mark → Option (Option Nat)
  | [] => some none
  | [.plain c] => if c.isDigit then some (some (c.toNat - '0'.toNat)) else none
  | _ => none

/-- A command that is not waited for. -/
def inBackground : Command → Command
  | .pipeline commands _ => .pipeline commands true
  | .redirected line body redirections => .background line body redirections
  | command => .background 0 command []

/-- The parts of a simple command that were read so far, the last of each first, and whether
it has no word yet that is more than an assignment. -/
structure SimpleParts where
  atStart : Bool
  assignments : List ScriptWord
  words : List ScriptWord
  redirections : List Redirection

def SimpleParts.command (parts : SimpleParts) (line : Nat) : Command :=
  .simple line parts.assignments.reverse parts.words.reverse parts.redirections.reverse

mutual

/-- Reads on in a word, or in a document. -/
def readMarks : Nat → Option Awaited → Bool → Progress → Reading Progress
  | 0, _, _, p => return p
  | fuel + 1, document, atLine, p => do
    let c ← match document with
      | some d => if atLine then documentLine d p.c else pure p.c
      | none => pure p.c
    let p := { p with c := c }
    let inDocument := document.isSome
    let goOn (p : Progress) : Reading Progress := do
      let c ← if p.level.quoting = .single then next else nextJoined
      readMarks fuel document false { p with c := c }
    let itself := c.getD ' '
    match effect p.level.quoting c with
    | .endOfFile => return p
    | .newline =>
      if p.level.quoting = .none ∧ p.level.depth = 0 then return p
      else
        countLine
        let c ← if p.level.quoting = .single then next else nextJoined
        readMarks fuel document true { p.put (.plain '\n') with c := c }
    | .ordinary => goOn (p.put (.plain itself))
    | .sign =>
      goOn (p.put (if !inDocument ∨ p.level.isDouble ∨ 0 < p.level.depth then .escaped itself
        else .plain itself))
    | .backslash => goOn (← readEscaped p inDocument)
    | .singleQuote => goOn ({ p with level := { p.level with quoting := .single } }.putQuote inDocument)
    | .doubleQuote =>
      goOn ({ p with level := { p.level with quoting := .double, isDouble := true } }.toggle
        inDocument)
    | .endQuote => goOn (readEndQuote p inDocument itself)
    | .dollar => goOn (← readDollar fuel p)
    | .brace => goOn (readBrace p)
    | .leftParen =>
      goOn ({ p with level := { p.level with parens := p.level.parens + 1 } }.put (.plain '('))
    | .rightParen => goOn (← readRightParen p)
    | .backquote =>
      if (← get).check.mark then goOn { p.put (.plain '\x60') with isQuoted := true }
      else goOn (← readOldOutput fuel p)
    | .separator => if p.level.depth = 0 then return p else goOn (p.put (.plain itself))

/-- What stands after a dollar sign. -/
def readDollar : Nat → Progress → Reading Progress
  | 0, p => return p
  | fuel + 1, p => do
    let c ← nextJoined
    let d := c.getD ' '
    if (← get).check.mark ∨ !(d = '(' ∨ d = '\x7b' ∨ startsName d ∨ isSpecial d) then
      putBack c
      return p.put (.plain '$')
    else if d ≠ '(' then readParameter p d
    else
      match ← nextJoined with
      | some '(' => return (p.push (Level.start .arithmetic true)).put .openNumber
      | c =>
        putBack c
        let awaited := (← get).awaited
        modify fun r => { r with awaited := [] }
        let command ← readList fuel 2
        if (← readToken fuel) ≠ .rightParen then unexpected (some .rightParen)
        modify fun r => { r with awaited := awaited }
        return p.put (.output command)

/-- A command between backquotes, which is read as a script of its own. -/
def readOldOutput : Nat → Progress → Reading Progress
  | 0, p => return p
  | fuel + 1, p => do
    let text ← readBackquoted p.level.isDouble endless []
    let outer ← get
    set { outer with
      insets := [], text := text, isComplete := true, back := [], line := outer.executing
      isPushed := false, awaited := [] }
    let command ← readList fuel 2
    modify fun r => { outer with
      isPushed := false, check := r.check, texts := r.texts, nextText := r.nextText }
    return p.put (.output command)

/-- A word from a character on. -/
def readWord : Nat → Option Char → Reading Token
  | 0, _ => fail "word unexpected"
  | fuel + 1, c => do
    let p ← readMarks fuel none false ⟨Level.start .none false, [], [], false, c⟩
    if p.level.quoting = .arithmetic then fail "Missing '))'"
    if p.level.quoting ≠ .none then fail "Unterminated quoted string"
    if p.level.depth ≠ 0 then fail "Missing '\x7d'"
    match p.c, descriptorBefore? p.marks with
    | some sign, some digit =>
      if (sign = '<' ∨ sign = '>') ∧ !p.isQuoted then
        let opening ← readOpening sign digit
        modify fun r => { r with opening := opening, last := .redirection }
        return .redirection
      else
        putBack p.c
        modify fun r => { r with word := wordOf p.marks, isQuoted := p.isQuoted, last := .word }
        return .word
    | _, _ =>
      putBack p.c
      modify fun r => { r with word := wordOf p.marks, isQuoted := p.isQuoted, last := .word }
      return .word

/-- The documents that begin on the next line. -/
def readDocuments : Nat → Reading Unit
  | 0 => return
  | fuel + 1 => do
    let awaited := (← get).awaited
    modify fun r => { r with awaited := [] }
    readEachDocument fuel awaited

def readEachDocument : Nat → List Awaited → Reading Unit
  | 0, _ => return
  | _, [] => return
  | fuel + 1, d :: rest => do
    let c ← if d.expands then nextJoined else next
    let level := if d.expands then Level.start .double true else Level.start .single false
    let p ← readMarks fuel (some d) true ⟨level, [], [], false, c⟩
    if p.level.quoting = .arithmetic then fail "Missing '))'"
    if p.level.depth ≠ 0 then fail "Missing '\x7d'"
    modify fun r => { r with texts := r.texts ++ [(d.text, wordOf p.marks)] }
    readEachDocument fuel rest

/-- The next token, as it is without regard to what could stand here. -/
def readPlainToken : Nat → Reading Token
  | 0 => fail "end of file unexpected"
  | fuel + 1 => do
    let r ← get
    if r.isPushed then
      set { r with isPushed := false }
      return r.last
    let give (t : Token) : Reading Token := do
      modify fun r => { r with last := t }
      return t
    let doubled (c : Char) (two one : Token) : Reading Token := do
      match ← nextJoined with
      | some d =>
        if c = d then give two
        else
          putBack (some d)
          give one
      | none =>
        putBack none
        give one
    match ← nextJoined with
    | none => give .endOfFile
    | some c =>
      if c = ' ' ∨ c = '\t' then readPlainToken fuel
      else if c = '#' then
        skipComment fuel
        readPlainToken fuel
      else if c = '\n' then
        countLine
        give .newline
      else if c = '&' then doubled c .and .ampersand
      else if c = '|' then doubled c .or .pipe
      else if c = ';' then doubled c .endCase .semicolon
      else if c = '(' then give .leftParen
      else if c = ')' then give .rightParen
      else readWord fuel (some c)

/-- Leaves out a comment up to the end of its line. -/
def skipComment : Nat → Reading Unit
  | 0 => return
  | fuel + 1 => do
    let c ← next
    if c = some '\n' ∨ c = none then putBack c else skipComment fuel

/-- Leaves out line ends, with the documents after them. -/
def skipNewlines : Nat → Token → Reading Token
  | 0, t => return t
  | fuel + 1, t => do
    if t = .newline then
      readDocuments fuel
      modify fun r => { r with check := .nothing }
      skipNewlines fuel (← readPlainToken fuel)
    else return t

/-- The next token. -/
def readToken : Nat → Reading Token
  | 0 => fail "end of file unexpected"
  | fuel + 1 => do
    let check := (← get).check
    let t ← readPlainToken fuel
    let t ← if check.newlines then skipNewlines fuel t else pure t
    settleToken fuel check t

/-- Takes a word for what it stands for where it could be a reserved word or an alias. -/
def settleToken : Nat → Check → Token → Reading Token
  | 0, _, t => return t
  | fuel + 1, check, t => do
    let r ← get
    let check := check.or r.check
    set { r with check := .nothing }
    if t ≠ .word ∨ r.isQuoted then return t
    match r.word.plain? with
    | none => return t
    | some text =>
      match if check.keywords then Token.reserved.lookup (String.ofList text) else none with
      | some t =>
        modify fun r => { r with last := t }
        return t
      | none =>
        match if check.aliases then r.aliases.lookup text else none with
        | some value =>
          if r.busy.contains text then return t
          else
            if !value.isEmpty then
              inset value (some text)
              modify fun r => { r with busy := text :: r.busy }
            let t ← readPlainToken fuel
            let t ← if check.newlines then skipNewlines fuel t else pure t
            settleToken fuel check t
        | none => return t

/-- Commands one after the other. A list of kind 1 is a line of a script; one of kind 2 may be
empty. -/
def readList : Nat → Nat → Reading (Option Command)
  | 0, _ => return none
  | fuel + 1, kind => readListFrom fuel kind (kind % 2 = 1) none

/-- The list after some of its commands. -/
def readListFrom : Nat → Nat → Bool → Option Command → Reading (Option Command)
  | 0, _, _, before => return before
  | fuel + 1, kind, isLine, before => do
    modify fun r => { r with check := ⟨true, !isLine, true, false⟩ }
    let t ← readToken fuel
    let push : Reading Unit := modify fun r => { r with isPushed := true }
    let endHere (before : Option Command) : Reading (Option Command) := do
      readDocuments fuel
      modify fun r => { r with isPushed := true, last := .endOfFile }
      return before
    match t with
    | .newline =>
      readDocuments fuel
      return before
    | .endOfFile => endHere before
    | _ =>
      push
      if kind = 2 ∧ t.endsList then return before
      let command ← readAndOr fuel
      let t ← readToken fuel
      let command := if t = .ampersand then inBackground command else command
      let all := match before with
        | some b => Command.sequence b command
        | none => command
      match t with
      | .endOfFile => endHere (some all)
      | .newline =>
        push
        readListFrom fuel (if isLine then 3 else 2) isLine (some all)
      | .ampersand | .semicolon => readListFrom fuel (if isLine then 3 else 2) isLine (some all)
      | _ =>
        if isLine then unexpected none
        push
        return some all

/-- Pipelines of which one depends on the result of the other. -/
def readAndOr : Nat → Reading Command
  | 0 => fail "end of file unexpected"
  | fuel + 1 => do readAndOrFrom fuel (← readPipeline fuel)

def readAndOrFrom : Nat → Command → Reading Command
  | 0, first => return first
  | fuel + 1, first => do
    let t ← readToken fuel
    if t = .and ∨ t = .or then
      modify fun r => { r with check := .commandBelow }
      let second ← readPipeline fuel
      readAndOrFrom fuel (if t = .and then .both first second else .either first second)
    else
      modify fun r => { r with isPushed := true }
      return first

/-- Commands of which each reads what the one before it writes. -/
def readPipeline : Nat → Reading Command
  | 0 => fail "end of file unexpected"
  | fuel + 1 => do
    let isNegated := (← readToken fuel) = .bang
    if isNegated then modify fun r => { r with check := .command }
    else modify fun r => { r with isPushed := true }
    let first ← readCommand fuel
    let command ←
      if (← readToken fuel) = .pipe then do
        let commands ← readPipelineFrom fuel [first]
        pure (Command.pipeline commands false)
      else pure first
    modify fun r => { r with isPushed := true }
    return if isNegated then .negation command else command

def readPipelineFrom : Nat → List Command → Reading (List Command)
  | 0, commands => return commands.reverse
  | fuel + 1, commands => do
    modify fun r => { r with check := .commandBelow }
    let command ← readCommand fuel
    if (← readToken fuel) = .pipe then readPipelineFrom fuel (command :: commands)
    else return (command :: commands).reverse

/-- Reads a token that must stand here. -/
def expect : Nat → Token → Reading Unit
  | 0, _ => return
  | fuel + 1, t => do if (← readToken fuel) ≠ t then unexpected (some t)

/-- One command. -/
def readCommand : Nat → Reading Command
  | 0 => fail "end of file unexpected"
  | fuel + 1 => do
    let line := (← get).line
    match ← readToken fuel with
    | .ifWord =>
      let command ← readChoice fuel
      expect fuel .fiWord
      readRedirected fuel line command
    | .whileWord => readLoop fuel line false
    | .untilWord => readLoop fuel line true
    | .forWord =>
      let command ← readEach fuel line
      expect fuel .doneWord
      readRedirected fuel line command
    | .caseWord =>
      let command ← readSelect fuel line
      readRedirected fuel line command
    | .leftParen =>
      let body ← readList fuel 0
      expect fuel .rightParen
      readRedirected fuel line (.subshell line body [])
    | .begin =>
      let body ← readList fuel 0
      expect fuel .end
      match body with
      | some command => readRedirected fuel line command
      | none => unexpected none
    | .word | .redirection =>
      modify fun r => { r with isPushed := true }
      readSimple fuel (← get).line ⟨true, [], [], []⟩
    | _ => unexpected none

/-- What stands after `if` or `elif`. -/
def readChoice : Nat → Reading Command
  | 0 => fail "end of file unexpected"
  | fuel + 1 => do
    let test ← readList fuel 0
    expect fuel .thenWord
    let yes ← readList fuel 0
    match ← readToken fuel with
    | .elifWord => return .choice test yes (some (← readChoice fuel))
    | .elseWord => return .choice test yes (← readList fuel 0)
    | _ =>
      modify fun r => { r with isPushed := true }
      return .choice test yes none

def readLoop : Nat → Nat → Bool → Reading Command
  | 0, _, _ => fail "end of file unexpected"
  | fuel + 1, line, isUntil => do
    let test ← readList fuel 0
    expect fuel .doWord
    let body ← readList fuel 0
    expect fuel .doneWord
    readRedirected fuel line (.loop isUntil test body)

/-- What stands after `for`, up to the end of its body. -/
def readEach : Nat → Nat → Reading Command
  | 0, _ => fail "end of file unexpected"
  | fuel + 1, line => do
    let t ← readToken fuel
    let r ← get
    let name := (r.word.plain?).getD []
    if t ≠ .word ∨ r.isQuoted ∨ !isName name then fail "Bad for loop variable"
    modify fun r => { r with check := .commandBelow }
    let words ←
      if (← readToken fuel) = .inWord then do
        let words ← readWords fuel []
        let last := (← get).last
        if last ≠ .newline ∧ last ≠ .semicolon then unexpected none
        pure words
      else do
        if (← get).last ≠ .semicolon then modify fun r => { r with isPushed := true }
        pure [[.quote, .parameter ['@'] .value false [], .quote]]
    modify fun r => { r with check := .commandBelow }
    expect fuel .doWord
    return .each line name words (← readList fuel 0)

/-- Words up to another token. -/
def readWords : Nat → List ScriptWord → Reading (List ScriptWord)
  | 0, words => return words.reverse
  | fuel + 1, words => do
    if (← readToken fuel) = .word then readWords fuel ((← get).word :: words)
    else return words.reverse

/-- What stands after `case`. -/
def readSelect : Nat → Nat → Reading Command
  | 0, _ => fail "end of file unexpected"
  | fuel + 1, line => do
    expect fuel .word
    let word := (← get).word
    modify fun r => { r with check := .commandBelow }
    expect fuel .inWord
    return .select line word (← readCases fuel [])

/-- The cases up to the end of them. -/
def readCases : Nat → List (List ScriptWord × Option Command) →
    Reading (List (List ScriptWord × Option Command))
  | 0, cases => return cases.reverse
  | fuel + 1, cases => do
    modify fun r => { r with check := ⟨true, true, false, false⟩ }
    if (← readToken fuel) = .esacWord then return cases.reverse
    if (← get).last = .leftParen then
      let _ ← readToken fuel
    let patterns ← readPatterns fuel []
    if (← get).last ≠ .rightParen then unexpected (some .rightParen)
    let body ← readList fuel 2
    modify fun r => { r with check := ⟨true, true, false, false⟩ }
    match ← readToken fuel with
    | .esacWord => return ((patterns, body) :: cases).reverse
    | .endCase => readCases fuel ((patterns, body) :: cases)
    | _ => unexpected (some .endCase)

/-- Patterns with bars between them, from the word on that was read last. -/
def readPatterns : Nat → List ScriptWord → Reading (List ScriptWord)
  | 0, patterns => return patterns.reverse
  | fuel + 1, patterns => do
    let patterns := (← get).word :: patterns
    if (← readToken fuel) = .pipe then
      let _ ← readToken fuel
      readPatterns fuel patterns
    else return patterns.reverse

/-- The name that a redirection needs. -/
def readTarget : Nat → Reading Redirection
  | 0 => fail "end of file unexpected"
  | fuel + 1 => do
    let opening := (← get).opening
    match opening with
    | .document _ _ => modify fun r => { r with check := { Check.nothing with mark := true } }
    | _ => pure ()
    if (← readToken fuel) ≠ .word then unexpected none
    let r ← get
    match opening with
    | .file descriptor use => return .file descriptor use r.word
    | .copy descriptor => return .copy descriptor r.word
    | .document descriptor strips =>
      let awaited : Awaited := ⟨r.word.unquoted, strips, !r.isQuoted, r.nextText⟩
      set { r with awaited := r.awaited ++ [awaited], nextText := r.nextText + 1 }
      return .document descriptor awaited.expands awaited.text

/-- Redirections as long as there are any. -/
def readRedirections : Nat → List Redirection → Reading (List Redirection)
  | 0, redirections => return redirections.reverse
  | fuel + 1, redirections => do
    if (← readToken fuel) = .redirection then
      readRedirections fuel ((← readTarget fuel) :: redirections)
    else
      modify fun r => { r with isPushed := true }
      return redirections.reverse

/-- A compound command with the redirections after it. -/
def readRedirected : Nat → Nat → Command → Reading Command
  | 0, _, command => return command
  | fuel + 1, line, command => do
    modify fun r => { r with check := .command }
    match ← readRedirections fuel [], command with
    | [], _ => return command
    | redirections, .subshell line body _ => return .subshell line body redirections
    | redirections, _ => return .redirected line command redirections

/-- A simple command from a word on, or the definition of a function. -/
def readSimple : Nat → Nat → SimpleParts → Reading Command
  | 0, _, _ => fail "word unexpected"
  | fuel + 1, line, parts => do
    modify fun r => { r with check := { Check.nothing with aliases := parts.atStart } }
    match ← readToken fuel with
    | .word =>
      let word := (← get).word
      if parts.atStart && isAssignment word then
        readSimple fuel line { parts with assignments := word :: parts.assignments }
      else readSimple fuel line { parts with words := word :: parts.words, atStart := false }
    | .redirection =>
      let redirection ← readTarget fuel
      readSimple fuel line { parts with redirections := redirection :: parts.redirections }
    | .leftParen =>
      match parts.words, parts.assignments, parts.redirections with
      | [word], [], [] =>
        expect fuel .rightParen
        let name := (ScriptWord.plain? word).getD []
        if !isName name ∨ specialNames.contains (String.ofList name) then
          fail "Bad function name"
        modify fun r => { r with check := .commandBelow }
        let line := (← get).line
        return .function line name (← readCommand fuel)
      | _, _, _ =>
        modify fun r => { r with isPushed := true }
        return parts.command line
    | _ =>
      modify fun r => { r with isPushed := true }
      return parts.command line

end

/-! ## Scripts -/

/-- A reader at the start of a text, which may be all of a script or only what is known of it.
Its lines are counted from one on, and one is being executed in the meantime. -/
def Reader.start (text : Octets) (isComplete : Bool) (executing : Nat) : Reader where
  insets := []
  text := text
  isComplete := isComplete
  back := []
  aliases := []
  busy := []
  spent := []
  line := 1
  executing := executing
  isPushed := false
  last := .newline
  check := .nothing
  word := []
  isQuoted := false
  opening := .copy 0
  awaited := []
  texts := []
  nextText := 0

/-- What a line of a script holds: a command, unless it is empty, and the texts of documents by
their numbers. -/
structure Line where
  command : Option Command
  /-- Nothing stands behind the line, or there was nothing left to be read at all. -/
  isLast : Bool
  isEnd : Bool
  texts : List (Nat × ScriptWord)

/-- Reads the next line, with the aliases that count for it and the number that its first
document is given. -/
def readLine (aliases : List (Octets × Octets)) (nextText : Nat) (r : Reader) :
    Except ReadFault (Line × Reader) := do
  let r := { r with
    aliases := aliases, nextText := nextText, texts := [], isPushed := false
    check := .nothing, awaited := [] }
  let (command, r) ← (readList endless 1).run r
  let isLast := r.isPushed && r.last = .endOfFile
  return (⟨command, isLast, isLast && command.isNone, r.texts⟩, r)

/-- A mark that no line of a document has. -/
def noMark : Octets := ['\x00']

/-- Reads a text in which parameters are filled in, like the text of a document. -/
def readTemplate (text : Octets) (executing nextText : Nat) :
    Except ReadFault (ScriptWord × List (Nat × ScriptWord)) := do
  let document : Awaited := ⟨noMark, false, true, 0⟩
  let reading : Reading ScriptWord := do
    let p ← readMarks endless (some document) false
      ⟨Level.start .double true, [], [], false, ← nextJoined⟩
    return wordOf p.marks
  let (word, r) ← reading.run { Reader.start text true executing with nextText := nextText }
  return (word, r.texts)

end Transcript.Host.Script

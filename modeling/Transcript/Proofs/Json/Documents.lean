-- Whole documents as the grammar has them, with any blanks, escapes and numbers. A text is a
-- document of one value at most: the first character behind the blanks tells what stands there,
-- a string ends at its quote, and a number goes on as far as it can. What is laid out over
-- several lines is a document, and so its value is the only one that it can be read as.
import Transcript.Proofs.Json.Numerals
import Transcript.Proofs.Json.Strings

namespace Transcript.Json

open Decimal (AllDigits digitsValue)

/-! ## Numbers -/

/-- The digits of a whole number. No zero stands before others. -/
structure IsWhole (ds : List Char) : Prop where
  ne_nil : ds ≠ []
  digits : AllDigits ds
  zero : ds.head? = some '0' → ds = ['0']

/-- A whole number, perhaps behind a minus. -/
inductive IsInteger : List Char → Prop where
  | plus {ds : List Char} : IsWhole ds → IsInteger ds
  | minus {ds : List Char} : IsWhole ds → IsInteger ('-' :: ds)

/-- Digits behind a point, or nothing. -/
inductive IsFraction : List Char → Prop where
  | absent : IsFraction []
  | present {ds : List Char} : ds ≠ [] → AllDigits ds → IsFraction ('.' :: ds)

/-- A power of ten behind its mark, or nothing. -/
inductive IsExponent : List Char → Prop where
  | absent : IsExponent []
  | present {mark : Char} {sign ds : List Char} : mark ∈ ['e', 'E'] → sign ∈ [[], ['+'], ['-']] →
      ds ≠ [] → AllDigits ds → IsExponent (mark :: (sign ++ ds))

/-- A number with a point or a power. -/
inductive IsReal : List Char → Prop where
  | number {whole fraction power : List Char} : IsInteger whole → IsFraction fraction →
      IsExponent power → fraction ++ power ≠ [] → IsReal (whole ++ (fraction ++ power))

/-- The number that digits stand for, perhaps behind a minus. -/
def integerValue : List Char → Int
  | '-' :: ds => -(digitsValue ds : Int)
  | ds => digitsValue ds

/-! ## The grammar -/

/-- What the grammar has texts for: a value, and what may stand behind the bracket that opens a
list or an object, or behind one of its entries, to the bracket that closes it. -/
inductive Phrase where
  | value (v : Json)
  | items (vs : List Json)
  | laterItems (vs : List Json)
  | members (fields : List (String × Json))
  | laterMembers (fields : List (String × Json))

/-- The texts of a phrase. A number with a point or a power may stand for anything, `real`. -/
inductive Derives (real : List Char → Binary64) : Phrase → List Char → Prop where
  | null : Derives real (.value .null) "null".toList
  | bool (b : Bool) : Derives real (.value (.bool b)) (if b then "true" else "false").toList
  | integer {text : List Char} : IsInteger text →
      Derives real (.value (.int (integerValue text))) text
  | real {text : List Char} : IsReal text → Derives real (.value (.double (real text))) text
  | str {s : String} {text : List Char} : Spelling s.toList text →
      Derives real (.value (.str s)) ('"' :: (text ++ ['"']))
  | arr {vs : List Json} {text : List Char} : Derives real (.items vs) text →
      Derives real (.value (.arr vs)) ('[' :: text)
  | obj {fields : List (String × Json)} {text : List Char} : Derives real (.members fields) text →
      Derives real (.value (.obj fields)) ('\x7b' :: text)
  | noItem {blanks : List Char} : Blanks blanks → Derives real (.items []) (blanks ++ [']'])
  | item {v : Json} {vs : List Json} {blanks text later : List Char} : Blanks blanks →
      Derives real (.value v) text → Derives real (.laterItems vs) later →
      Derives real (.items (v :: vs)) (blanks ++ (text ++ later))
  | lastItem {blanks : List Char} : Blanks blanks → Derives real (.laterItems []) (blanks ++ [']'])
  | nextItem {v : Json} {vs : List Json} {blanks text : List Char} : Blanks blanks →
      Derives real (.items (v :: vs)) text →
      Derives real (.laterItems (v :: vs)) (blanks ++ ',' :: text)
  | noMember {blanks : List Char} : Blanks blanks →
      Derives real (.members []) (blanks ++ ['\x7d'])
  | member {name : String} {v : Json} {fields : List (String × Json)}
      {blanks spelled beforeColon behindColon text later : List Char} : Blanks blanks →
      Spelling name.toList spelled → Blanks beforeColon → Blanks behindColon →
      Derives real (.value v) text → Derives real (.laterMembers fields) later →
      Derives real (.members ((name, v) :: fields)) (blanks ++ '"' :: (spelled ++ '"' ::
        (beforeColon ++ ':' :: (behindColon ++ (text ++ later)))))
  | lastMember {blanks : List Char} : Blanks blanks →
      Derives real (.laterMembers []) (blanks ++ ['\x7d'])
  | nextMember {name : String} {v : Json} {fields : List (String × Json)}
      {blanks text : List Char} : Blanks blanks →
      Derives real (.members ((name, v) :: fields)) text →
      Derives real (.laterMembers ((name, v) :: fields)) (blanks ++ ',' :: text)

/-- A text that is a document of this value: the value, with blanks around it. -/
def IsDocument (real : List Char → Binary64) (v : Json) (text : List Char) : Prop :=
  ∃ before body after, Blanks before ∧ Derives real (.value v) body ∧ Blanks after ∧
    text = before ++ (body ++ after)

variable {real : List Char → Binary64}

/-! ## What stands first -/

/-- What the first character of a phrase tells. -/
inductive Mark where
  | null
  | bool
  | number
  | str
  | arr
  | obj
  | comma
  | close
deriving DecidableEq

def markOf? (c : Char) : Option Mark :=
  if c = '-' ∨ c.isDigit then some .number
  else if c = 'n' then some .null
  else if c = 't' ∨ c = 'f' then some .bool
  else if c = '"' then some .str
  else if c = '[' then some .arr
  else if c = '\x7b' then some .obj
  else if c = ',' then some .comma
  else if c = ']' ∨ c = '\x7d' then some .close
  else none

def mark : Json → Mark
  | .null => .null
  | .bool _ => .bool
  | .int _ | .double _ => .number
  | .str _ => .str
  | .arr _ => .arr
  | .obj _ => .obj

def Phrase.mark : Phrase → Mark
  | .value v => v.mark
  | .items (v :: _) => v.mark
  | .members (_ :: _) => .str
  | .laterItems (_ :: _) | .laterMembers (_ :: _) => .comma
  | .items [] | .laterItems [] | .members [] | .laterMembers [] => .close

theorem isSpace_of_markOf? {c : Char} {m : Mark} (h : markOf? c = some m) : isSpace c = false := by
  by_contra hspace
  have hall : ∀ c ∈ [' ', '\n', '\t', '\r'], markOf? c = none := by simp [markOf?]
  rw [hall c (isSpace_iff.mp (by simpa using hspace))] at h
  cases h

/-- A number starts with a minus or a digit. -/
theorem IsInteger.exists_cons {text : List Char} (h : IsInteger text) :
    ∃ c rest, text = c :: rest ∧ markOf? c = some .number := by
  cases h with
  | plus hwhole =>
    obtain ⟨d, ds, rfl⟩ := List.exists_cons_of_ne_nil hwhole.ne_nil
    exact ⟨d, ds, rfl, if_pos (.inr (hwhole.digits d List.mem_cons_self))⟩
  | minus hwhole => exact ⟨'-', _, rfl, rfl⟩

/-- The first character of a value tells its kind. -/
theorem Derives.exists_cons {v : Json} {text : List Char} (h : Derives real (.value v) text) :
    ∃ c tail, text = c :: tail ∧ markOf? c = some v.mark := by
  cases h with
  | bool b => cases b <;> exact ⟨_, _, rfl, rfl⟩
  | integer hinteger => exact hinteger.exists_cons
  | real hreal =>
    obtain ⟨hwhole, -, -, -⟩ := hreal
    obtain ⟨c, tail, rfl, hc⟩ := hwhole.exists_cons
    exact ⟨c, _, rfl, hc⟩
  | _ => exact ⟨_, _, rfl, rfl⟩

/-- No blank stands before a value. -/
theorem Derives.skipSpace_append {v : Json} {text : List Char} (h : Derives real (.value v) text)
    (rest : List Char) : skipSpace (text ++ rest) = text ++ rest := by
  obtain ⟨c, tail, rfl, hc⟩ := h.exists_cons
  exact skipSpace_cons (isSpace_of_markOf? hc) _

/-- The first character behind the blanks tells what stands there. -/
theorem Derives.exists_mark {p : Phrase} {text : List Char} (h : Derives real p text)
    (rest : List Char) :
    ∃ c tail, skipSpace (text ++ rest) = c :: tail ∧ markOf? c = some p.mark := by
  have hvalue : ∀ {v : Json} {text : List Char}, Derives real (.value v) text → ∀ rest,
      ∃ c tail, skipSpace (text ++ rest) = c :: tail ∧ markOf? c = some v.mark := by
    intro v text h rest
    obtain ⟨c, tail, rfl, hc⟩ := h.exists_cons
    exact ⟨c, tail ++ rest, h.skipSpace_append rest, hc⟩
  have hwhole := h
  cases h with
  | null | bool | integer | real | str | arr | obj => exact hvalue hwhole rest
  | item hblanks hv =>
    rw [List.append_assoc, Json.skipSpace_append hblanks, List.append_assoc]
    exact hvalue hv _
  | noItem hblanks | lastItem hblanks | nextItem hblanks | noMember hblanks | lastMember hblanks
  | nextMember hblanks | member hblanks =>
    rw [List.append_assoc, Json.skipSpace_append hblanks]
    exact ⟨_, _, skipSpace_cons rfl _, rfl⟩

/-! ## Where numbers end -/

/-- What may follow a value: a blank, a comma, a bracket that closes, or nothing. -/
def EndsValue (rest : List Char) : Prop :=
  ∀ c ∈ rest.head?, c ∈ [' ', '\n', '\t', '\r', ',', ']', '\x7d']

/-- The characters of numbers. -/
def isNumberChar (c : Char) : Bool := c.isDigit || c ∈ ['-', '+', '.', 'e', 'E']

theorem endsValue_blanks_append {blanks rest : List Char} (hblanks : Blanks blanks)
    (h : EndsValue rest) : EndsValue (blanks ++ rest) := by
  cases blanks with
  | nil => exact h
  | cons b blanks =>
    intro c hc
    obtain rfl := Option.some.inj hc
    have hblank := hblanks b List.mem_cons_self
    have hall : ∀ c ∈ [' ', '\n', '\t', '\r'],
        c ∈ [' ', '\n', '\t', '\r', ',', ']', '\x7d'] := by simp
    exact hall b hblank

theorem endsValue_blanks_cons {blanks : List Char} (hblanks : Blanks blanks) {c : Char}
    (hc : c ∈ [',', ']', '\x7d']) (rest : List Char) : EndsValue (blanks ++ c :: rest) := by
  refine endsValue_blanks_append hblanks fun d hd => ?_
  obtain rfl := Option.some.inj hd
  exact List.mem_append_right [' ', '\n', '\t', '\r'] hc

/-- A number goes on as far as it can. -/
theorem eq_of_numbers_append {text other rest others : List Char}
    (htext : ∀ c ∈ text, isNumberChar c = true) (hother : ∀ c ∈ other, isNumberChar c = true)
    (hrest : EndsValue rest) (hothers : EndsValue others) (h : text ++ rest = other ++ others) :
    text = other ∧ rest = others := by
  have htake : ∀ {text rest : List Char}, (∀ c ∈ text, isNumberChar c = true) → EndsValue rest →
      (text ++ rest).takeWhile isNumberChar = text := by
    intro text rest htext hrest
    have hall : ∀ c ∈ [' ', '\n', '\t', '\r', ',', ']', '\x7d'], isNumberChar c = false := by
      simp [isNumberChar]
    rw [List.takeWhile_append_of_pos htext]
    cases rest with
    | nil => simp
    | cons c rest => simp [hall c (hrest c rfl)]
  have heq : text = other := by rw [← htake htext hrest, h, htake hother hothers]
  subst heq
  exact ⟨rfl, List.append_cancel_left h⟩

theorem isNumberChar_of_mem_digits {ds : List Char} (h : AllDigits ds) :
    ∀ c ∈ ds, isNumberChar c = true := by
  intro c hc
  rw [isNumberChar, h c hc, Bool.true_or]

theorem IsInteger.mem {text : List Char} (h : IsInteger text) :
    ∀ c ∈ text, c = '-' ∨ c.isDigit = true := by
  cases h with
  | plus hwhole => exact fun c hc => .inr (hwhole.digits c hc)
  | minus hwhole => exact List.forall_mem_cons.mpr ⟨.inl rfl, fun c hc => .inr (hwhole.digits c hc)⟩

theorem IsInteger.isNumberChar {text : List Char} (h : IsInteger text) :
    ∀ c ∈ text, isNumberChar c = true := by
  intro c hc
  rcases h.mem c hc with rfl | hdigit
  · rfl
  · rw [Json.isNumberChar, hdigit, Bool.true_or]

theorem IsReal.isNumberChar {text : List Char} (h : IsReal text) :
    ∀ c ∈ text, isNumberChar c = true := by
  obtain ⟨hwhole, hfraction, hpower, -⟩ := h
  refine List.forall_mem_append.mpr ⟨hwhole.isNumberChar, List.forall_mem_append.mpr ⟨?_, ?_⟩⟩
  · cases hfraction with
    | absent => exact List.forall_mem_nil _
    | present _ hds => exact List.forall_mem_cons.mpr ⟨rfl, isNumberChar_of_mem_digits hds⟩
  · cases hpower with
    | absent => exact List.forall_mem_nil _
    | present hmark hsign _ hds =>
      have hmarks : ∀ c ∈ ['e', 'E'], Json.isNumberChar c = true := by simp [Json.isNumberChar]
      have hsigns : ∀ sign ∈ [[], ['+'], ['-']], ∀ c ∈ sign, Json.isNumberChar c = true := by
        simp [Json.isNumberChar]
      exact List.forall_mem_cons.mpr ⟨hmarks _ hmark, List.forall_mem_append.mpr
        ⟨hsigns _ hsign, isNumberChar_of_mem_digits hds⟩⟩

/-- A point or a power is no part of a whole number. -/
theorem IsReal.not_isInteger {text : List Char} (h : IsReal text) : ¬ IsInteger text := by
  intro hinteger
  obtain ⟨-, hfraction, hpower, hne⟩ := h
  rename_i whole fraction power
  obtain ⟨c, hc, tail, htail⟩ :
      ∃ c ∈ ['.', 'e', 'E'], ∃ tail, fraction ++ power = c :: tail := by
    cases hfraction with
    | present => exact ⟨'.', by decide, _, rfl⟩
    | absent =>
      cases hpower with
      | absent => contradiction
      | present hmark => exact ⟨_, List.mem_cons_of_mem _ hmark, _, rfl⟩
  have hmem := hinteger.mem c (List.mem_append_right whole (htail ▸ List.mem_cons_self))
  have hall : ∀ c ∈ ['.', 'e', 'E'], ¬ (c = '-' ∨ c.isDigit = true) := by simp
  exact hall c hc hmem

/-! ## One value at most -/

/-- The phrases of one sort. -/
def Phrase.Alike : Phrase → Phrase → Prop
  | .value _, .value _ | .items _, .items _ | .laterItems _, .laterItems _
  | .members _, .members _ | .laterMembers _, .laterMembers _ => True
  | _, _ => False

/-- A spelling ends at its quote. -/
theorem eq_of_spellings_append {word other : String} {text text' rest rest' : List Char}
    (htext : Spelling word.toList text) (htext' : Spelling other.toList text')
    (h : text ++ '"' :: rest = text' ++ '"' :: rest') : word = other ∧ rest = rest' := by
  have hread := readString_append htext rest
  rw [h, readString_append htext' rest'] at hread
  cases hread
  exact ⟨rfl, rfl⟩

/-- What stands behind blanks, if it does not start with one. -/
theorem eq_of_blanks_append {blanks blanks' text text' : List Char} (h : Blanks blanks)
    (h' : Blanks blanks') (htext : skipSpace text = text) (htext' : skipSpace text' = text')
    (heq : blanks ++ text = blanks' ++ text') : text = text' := by
  rw [← htext, ← htext', ← skipSpace_append h, heq, skipSpace_append h']

/-- What stands behind blanks and a character that is none. -/
theorem eq_of_blanks_cons {blanks blanks' text text' : List Char} {c : Char} (h : Blanks blanks)
    (h' : Blanks blanks') (hc : isSpace c = false)
    (heq : blanks ++ c :: text = blanks' ++ c :: text') : text = text' :=
  (List.cons.inj (eq_of_blanks_append h h' (skipSpace_cons hc _) (skipSpace_cons hc _) heq)).2

theorem Derives.endsValue_laterItems {vs : List Json} {text : List Char}
    (h : Derives real (.laterItems vs) text) (rest : List Char) : EndsValue (text ++ rest) := by
  cases h with
  | lastItem hblanks | nextItem hblanks =>
    rw [List.append_assoc]
    exact endsValue_blanks_cons hblanks (by decide) _

theorem Derives.endsValue_laterMembers {fields : List (String × Json)} {text : List Char}
    (h : Derives real (.laterMembers fields) text) (rest : List Char) :
    EndsValue (text ++ rest) := by
  cases h with
  | lastMember hblanks | nextMember hblanks =>
    rw [List.append_assoc]
    exact endsValue_blanks_cons hblanks (by decide) _

/-- Texts that start alike are of phrases with one mark. -/
theorem Derives.mark_eq {p q : Phrase} {text text' rest rest' : List Char}
    (hp : Derives real p text) (hq : Derives real q text') (heq : text ++ rest = text' ++ rest') :
    p.mark = q.mark := by
  obtain ⟨c, tail, hc, hp⟩ := hp.exists_mark rest
  obtain ⟨c', tail', hc', hq⟩ := hq.exists_mark rest'
  rw [heq, hc'] at hc
  obtain ⟨rfl, -⟩ := List.cons.inj hc
  exact Option.some.inj (hp.symm.trans hq)

theorem mark_ne_close (v : Json) : v.mark ≠ .close := by cases v <;> exact nofun

/-- Of all phrases of one sort a text starts with one at most, and with one text of it. By
induction on the first text. -/
theorem Derives.eq_of_append {p q : Phrase} {text text' rest rest' : List Char}
    (hp : Derives real p text) (hq : Derives real q text') (halike : p.Alike q)
    (hrest : EndsValue rest) (hrest' : EndsValue rest') (heq : text ++ rest = text' ++ rest') :
    p = q ∧ rest = rest' := by
  have hmark := hp.mark_eq hq heq
  induction hp generalizing q text' rest rest' with
  | null =>
    cases hq with
    | null => exact ⟨rfl, List.append_cancel_left heq⟩
    | _ => first | exact halike.elim | cases hmark
  | bool b =>
    cases hq with
    | bool b' => cases b <;> cases b' <;> simp_all
    | _ => first | exact halike.elim | cases hmark
  | integer htext =>
    cases hq with
    | integer htext' =>
      obtain ⟨rfl, hrests⟩ :=
        eq_of_numbers_append htext.isNumberChar htext'.isNumberChar hrest hrest' heq
      exact ⟨rfl, hrests⟩
    | real htext' =>
      obtain ⟨rfl, -⟩ :=
        eq_of_numbers_append htext.isNumberChar htext'.isNumberChar hrest hrest' heq
      exact absurd htext htext'.not_isInteger
    | _ => first | exact halike.elim | cases hmark
  | real htext =>
    cases hq with
    | integer htext' =>
      obtain ⟨rfl, -⟩ :=
        eq_of_numbers_append htext.isNumberChar htext'.isNumberChar hrest hrest' heq
      exact absurd htext' htext.not_isInteger
    | real htext' =>
      obtain ⟨rfl, hrests⟩ :=
        eq_of_numbers_append htext.isNumberChar htext'.isNumberChar hrest hrest' heq
      exact ⟨rfl, hrests⟩
    | _ => first | exact halike.elim | cases hmark
  | str htext =>
    cases hq with
    | str htext' =>
      obtain ⟨rfl, hrests⟩ := eq_of_spellings_append htext htext' (by simpa using heq)
      exact ⟨rfl, hrests⟩
    | _ => first | exact halike.elim | cases hmark
  | arr htext ih =>
    cases hq with
    | arr htext' =>
      have hbehind := (List.cons.inj heq).2
      obtain ⟨hitems, hrests⟩ :=
        ih htext' trivial hrest hrest' hbehind (htext.mark_eq htext' hbehind)
      cases hitems
      exact ⟨rfl, hrests⟩
    | _ => first | exact halike.elim | cases hmark
  | obj htext ih =>
    cases hq with
    | obj htext' =>
      have hbehind := (List.cons.inj heq).2
      obtain ⟨hmembers, hrests⟩ :=
        ih htext' trivial hrest hrest' hbehind (htext.mark_eq htext' hbehind)
      cases hmembers
      exact ⟨rfl, hrests⟩
    | _ => first | exact halike.elim | cases hmark
  | noItem hblanks =>
    cases hq with
    | noItem hblanks' =>
      exact ⟨rfl, eq_of_blanks_cons hblanks hblanks' rfl (by simpa using heq)⟩
    | item => exact absurd hmark.symm (mark_ne_close _)
    | _ => exact halike.elim
  | item hblanks hv hlater ihv ihlater =>
    cases hq with
    | noItem => exact absurd hmark (mark_ne_close _)
    | item hblanks' hv' hlater' =>
      simp only [List.append_assoc] at heq
      have hbehind := eq_of_blanks_append hblanks hblanks' (hv.skipSpace_append _)
        (hv'.skipSpace_append _) heq
      obtain ⟨hvs, hlaters⟩ := ihv hv' trivial (hlater.endsValue_laterItems _)
        (hlater'.endsValue_laterItems _) hbehind (hv.mark_eq hv' hbehind)
      obtain ⟨hitems, hrests⟩ :=
        ihlater hlater' trivial hrest hrest' hlaters (hlater.mark_eq hlater' hlaters)
      cases hvs
      cases hitems
      exact ⟨rfl, hrests⟩
    | _ => exact halike.elim
  | lastItem hblanks =>
    cases hq with
    | lastItem hblanks' =>
      exact ⟨rfl, eq_of_blanks_cons hblanks hblanks' rfl (by simpa using heq)⟩
    | _ => first | exact halike.elim | cases hmark
  | nextItem hblanks htext ih =>
    cases hq with
    | nextItem hblanks' htext' =>
      have hbehind := eq_of_blanks_cons hblanks hblanks' rfl (by simpa using heq)
      obtain ⟨hitems, hrests⟩ :=
        ih htext' trivial hrest hrest' hbehind (htext.mark_eq htext' hbehind)
      cases hitems
      exact ⟨rfl, hrests⟩
    | _ => first | exact halike.elim | cases hmark
  | noMember hblanks =>
    cases hq with
    | noMember hblanks' =>
      exact ⟨rfl, eq_of_blanks_cons hblanks hblanks' rfl (by simpa using heq)⟩
    | _ => first | exact halike.elim | cases hmark
  | member hblanks hname hcolon hbehind hv hlater ihv ihlater =>
    cases hq with
    | member hblanks' hname' hcolon' hbehind' hv' hlater' =>
      simp only [List.append_assoc, List.cons_append] at heq
      obtain ⟨hnames, heq⟩ :=
        eq_of_spellings_append hname hname' (eq_of_blanks_cons hblanks hblanks' rfl heq)
      have heq := eq_of_blanks_append hbehind hbehind' (hv.skipSpace_append _)
        (hv'.skipSpace_append _) (eq_of_blanks_cons hcolon hcolon' rfl heq)
      obtain ⟨hvs, hlaters⟩ := ihv hv' trivial (hlater.endsValue_laterMembers _)
        (hlater'.endsValue_laterMembers _) heq (hv.mark_eq hv' heq)
      obtain ⟨hmembers, hrests⟩ :=
        ihlater hlater' trivial hrest hrest' hlaters (hlater.mark_eq hlater' hlaters)
      cases hvs
      cases hmembers
      exact ⟨by rw [hnames], hrests⟩
    | _ => first | exact halike.elim | cases hmark
  | lastMember hblanks =>
    cases hq with
    | lastMember hblanks' =>
      exact ⟨rfl, eq_of_blanks_cons hblanks hblanks' rfl (by simpa using heq)⟩
    | _ => first | exact halike.elim | cases hmark
  | nextMember hblanks htext ih =>
    cases hq with
    | nextMember hblanks' htext' =>
      have hbehind := eq_of_blanks_cons hblanks hblanks' rfl (by simpa using heq)
      obtain ⟨hmembers, hrests⟩ :=
        ih htext' trivial hrest hrest' hbehind (htext.mark_eq htext' hbehind)
      cases hmembers
      exact ⟨rfl, hrests⟩
    | _ => first | exact halike.elim | cases hmark

theorem Blanks.endsValue {blanks : List Char} (h : Blanks blanks) : EndsValue blanks := by
  have hnil : EndsValue [] := nofun
  rw [← List.append_nil blanks]
  exact endsValue_blanks_append h hnil

/-- A text is a document of one value at most. -/
theorem IsDocument.unique {v w : Json} {text : List Char} (hv : IsDocument real v text)
    (hw : IsDocument real w text) : v = w := by
  obtain ⟨before, body, after, hbefore, hbody, hafter, rfl⟩ := hv
  obtain ⟨before', body', after', hbefore', hbody', hafter', heq⟩ := hw
  have hbodies := eq_of_blanks_append hbefore hbefore' (hbody.skipSpace_append _)
    (hbody'.skipSpace_append _) heq
  obtain ⟨hvalue, -⟩ :=
    hbody.eq_of_append hbody' trivial hafter.endsValue hafter'.endsValue hbodies
  cases hvalue
  rfl

end Transcript.Json

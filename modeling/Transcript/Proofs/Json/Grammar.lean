-- Strings and lists of strings as the grammar of documents has them, with all the blanks and
-- escapes that may stand in them. A reader takes off the front of a text what the grammar
-- allows there and nothing else, so a text is read as a list of strings where it is one.
import Mathlib.Data.List.DropRight
import Mathlib.Tactic.SplitIfs
import Transcript.Json.Reader

namespace Transcript.Json

/-! ## The grammar -/

/-- A hexadecimal digit in either case. -/
def HexDigit (n : Nat) (c : Char) : Prop := n < 16 ∧ (c = n.digitChar ∨ c = n.digitChar.toUpper)

instance (n : Nat) (c : Char) : Decidable (HexDigit n c) :=
  inferInstanceAs (Decidable (_ ∧ _))

/-- Four hexadecimal digits. -/
inductive HexUnit : Nat → List Char → Prop where
  | digits {a b c d : Char} {w x y z : Nat} : HexDigit w a → HexDigit x b → HexDigit y c →
      HexDigit z d → HexUnit (w * 4096 + x * 256 + y * 16 + z) [a, b, c, d]

/-- The letters that stand for characters behind a backslash. -/
def escapeLetters : List (Char × Char) :=
  [('"', '"'), ('\\', '\\'), ('/', '/'), ('b', '\x08'), ('f', '\x0c'), ('n', '\n'), ('r', '\r'),
    ('t', '\t')]

/-- What may stand for a character behind a backslash: its letter, its number if it is no
surrogate, or the two surrogates that make it up. -/
inductive Escape : Char → List Char → Prop where
  | letter {e c : Char} : (e, c) ∈ escapeLetters → Escape c [e]
  | number {n : Nat} {digits : List Char} : HexUnit n digits → n < 0xd800 ∨ 0xdfff < n →
      Escape (Char.ofNat n) ('u' :: digits)
  | pair {lead trail : Nat} {digits digits' : List Char} : HexUnit lead digits →
      HexUnit trail digits' → 0xd800 ≤ lead ∧ lead ≤ 0xdbff → 0xdc00 ≤ trail ∧ trail ≤ 0xdfff →
      Escape (Char.ofNat ((lead - 0xd800) * 1024 + (trail - 0xdc00) + 0x10000))
        ('u' :: (digits ++ '\\' :: 'u' :: digits'))

/-- What may stand for characters between quotes: each itself, if it is no quote, no backslash
and no control character, or an escape. -/
inductive Spelling : List Char → List Char → Prop where
  | nil : Spelling [] []
  | plain {c : Char} {cs text : List Char} : c ≠ '"' → c ≠ '\\' → 0x20 ≤ c.toNat →
      Spelling cs text → Spelling (c :: cs) (c :: text)
  | escape {c : Char} {cs escape text : List Char} : Escape c escape → Spelling cs text →
      Spelling (c :: cs) ('\\' :: (escape ++ text))

/-- Blanks in any number. -/
def Blanks (text : List Char) : Prop := ∀ c ∈ text, c ∈ [' ', '\n', '\t', '\r']

/-- A string with blanks before it. -/
inductive StringValue : String → List Char → Prop where
  | quoted {word : String} {blanks text : List Char} : Blanks blanks →
      Spelling word.toList text → StringValue word (blanks ++ '"' :: (text ++ ['"']))

/-- What may stand behind a string of a list: the end of the list, or a comma and a string. -/
inductive LaterStrings : List String → List Char → Prop where
  | close {blanks : List Char} : Blanks blanks → LaterStrings [] (blanks ++ [']'])
  | next {word : String} {words : List String} {blanks value text : List Char} : Blanks blanks →
      StringValue word value → LaterStrings words text →
      LaterStrings (word :: words) (blanks ++ ',' :: (value ++ text))

/-- What may stand behind the bracket that opens a list of strings. -/
inductive Strings : List String → List Char → Prop where
  | close {blanks : List Char} : Blanks blanks → Strings [] (blanks ++ [']'])
  | first {word : String} {words : List String} {value text : List Char} :
      StringValue word value → LaterStrings words text → Strings (word :: words) (value ++ text)

/-- A text that is a list of strings. -/
inductive IsStringList : List String → List Char → Prop where
  | brackets {words : List String} {before text after : List Char} : Blanks before →
      Strings words text → Blanks after → IsStringList words (before ++ '[' :: (text ++ after))

/-! ## Escapes -/

/-- Digits in a row count up from the first of them. -/
theorem hexDigit_of_range {c low high : Char} (first : Nat) (h : low ≤ c ∧ c ≤ high)
    (hall : ∀ k ≤ high.toNat - low.toNat, HexDigit (k + first) (Char.ofNat (low.toNat + k))) :
    HexDigit (c.toNat - low.toNat + first) c := by
  simp only [Char.le_def, UInt32.le_iff_toNat_le, Char.toNat_val] at h
  have hdigit := hall (c.toNat - low.toNat) (by omega)
  rwa [Nat.add_sub_cancel' h.1, Char.ofNat_toNat] at hdigit

theorem hexDigit?_eq_some_iff {c : Char} {n : Nat} : hexDigit? c = some n ↔ HexDigit n c := by
  constructor
  · intro h
    unfold hexDigit? at h
    split_ifs at h with h1 h2 h3
    all_goals obtain rfl := Option.some.inj h
    · exact hexDigit_of_range 0 h1 (by decide)
    · exact hexDigit_of_range 10 h2 (by decide)
    · exact hexDigit_of_range 10 h3 (by decide)
  · rintro ⟨hn, h⟩
    have hall : ∀ n < 16, hexDigit? n.digitChar = some n ∧
        hexDigit? n.digitChar.toUpper = some n := by decide
    rcases h with rfl | rfl
    · exact (hall n hn).1
    · exact (hall n hn).2

theorem readUnit_append {digits : List Char} {n : Nat} (h : HexUnit n digits)
    (rest : List Char) : readUnit (digits ++ rest) = .ok (n, rest) := by
  obtain ⟨hw, hx, hy, hz⟩ := h
  rw [← hexDigit?_eq_some_iff] at hw hx hy hz
  simp [readUnit, hexUnit?, hw, hx, hy, hz]

theorem exists_of_readUnit {s rest : List Char} {n : Nat} (h : readUnit s = .ok (n, rest)) :
    ∃ digits, HexUnit n digits ∧ s = digits ++ rest := by
  unfold readUnit at h
  dsimp only at h
  split at h
  · split at h
    · rename_i hm
      cases h
      simp only [hexUnit?, Option.bind_eq_bind, Option.bind_eq_some_iff,
        hexDigit?_eq_some_iff] at hm
      obtain ⟨w, hw, x, hx, y, hy, z, hz, hm⟩ := hm
      cases hm
      exact ⟨_, .digits hw hx hy hz, rfl⟩
    · cases h
  · split at h <;> cases h

theorem simpleEscape?_eq_some_iff {e c : Char} :
    simpleEscape? e = some c ↔ (e, c) ∈ escapeLetters := by
  constructor
  · intro h
    unfold simpleEscape? at h
    split_ifs at h with h1 h2 h3 h4 h5 h6 h7 h8
    all_goals
      subst e
      obtain rfl := Option.some.inj h
      decide
  · have hall : ∀ p ∈ escapeLetters, simpleEscape? p.1 = some p.2 := by decide
    exact hall (e, c)

/-- A pair of surrogates is read where its second half stands. -/
theorem exists_of_readTrailing {lead : Nat} {s rest : List Char} {c : Char}
    (h : readTrailing lead s = .ok (c, rest)) : ∃ trail digits, HexUnit trail digits ∧
      (0xdc00 ≤ trail ∧ trail ≤ 0xdfff) ∧
      c = Char.ofNat ((lead - 0xd800) * 1024 + (trail - 0xdc00) + 0x10000) ∧
      s = '\\' :: 'u' :: (digits ++ rest) := by
  unfold readTrailing at h
  split at h
  · cases h
  · split at h
    · cases h
    · split at h
      · cases h
      · rename_i hunit
        obtain ⟨digits, hdigits, rfl⟩ := exists_of_readUnit hunit
        split at h
        · rename_i hrange
          obtain ⟨hc, hrest⟩ := Prod.mk.inj (Except.ok.inj h)
          exact ⟨_, digits, hdigits, hrange, hc.symm, by rw [hrest]⟩
        · cases h
    · cases h
  · cases h

/-- An escape is read, and the rest is left. -/
theorem readEscape_append {c : Char} {escape : List Char} (h : Escape c escape)
    (rest : List Char) : readEscape (escape ++ rest) = .ok (c, rest) := by
  cases h with
  | letter hletter =>
    have hsimple := simpleEscape?_eq_some_iff.mpr hletter
    rw [List.singleton_append]
    unfold readEscape
    split
    · contradiction
    · rename_i heq
      obtain ⟨rfl, -⟩ := List.cons.inj heq
      cases hsimple
    · rename_i heq
      obtain ⟨rfl, rfl⟩ := List.cons.inj heq
      rw [hsimple]
  | number hdigits hrange =>
    simp only [List.cons_append, readEscape, readUnicode, readUnit_append hdigits]
    rw [if_neg (by omega), if_neg (by omega)]
  | pair hdigits hdigits' hlead htrail =>
    simp only [List.cons_append, List.append_assoc, readEscape, readUnicode,
      readUnit_append hdigits, readTrailing, readUnit_append hdigits']
    rw [if_neg (by omega), if_pos hlead, if_pos htrail]

theorem exists_of_readEscape {s rest : List Char} {c : Char}
    (h : readEscape s = .ok (c, rest)) : ∃ escape, Escape c escape ∧ s = escape ++ rest := by
  unfold readEscape at h
  split at h
  · cases h
  · unfold readUnicode at h
    split at h
    · cases h
    · rename_i hunit
      obtain ⟨digits, hdigits, rfl⟩ := exists_of_readUnit hunit
      split_ifs at h with htrailing hlead
      · cases h
      · obtain ⟨trail, digits', hdigits', htrail, hc, rfl⟩ := exists_of_readTrailing h
        rw [hc]
        exact ⟨_, .pair hdigits hdigits' hlead htrail, by simp⟩
      · cases h
        exact ⟨_, .number hdigits (by omega), rfl⟩
  · split at h
    · rename_i hletter
      cases h
      exact ⟨_, .letter (simpleEscape?_eq_some_iff.mp hletter), rfl⟩
    · cases h

/-! ## Strings -/

theorem readStringFrom_append {cs text : List Char} (h : Spelling cs text) {fuel : Nat}
    (hfuel : cs.length < fuel) (rest : List Char) :
    readStringFrom fuel (text ++ '"' :: rest) = .ok (cs, rest) := by
  induction h generalizing fuel with
  | nil =>
    obtain ⟨fuel, rfl⟩ : ∃ n, fuel = n + 1 := ⟨fuel - 1, by omega⟩
    rfl
  | plain hquote hslash hprinted _ ih =>
    obtain ⟨fuel, rfl⟩ : ∃ n, fuel = n + 1 := ⟨fuel - 1, by omega⟩
    rw [List.cons_append, readStringFrom, if_neg hquote, if_neg hslash,
      if_neg (Nat.not_lt.mpr hprinted), ih (Nat.lt_of_succ_lt_succ hfuel)]
  | escape hescape _ ih =>
    obtain ⟨fuel, rfl⟩ : ∃ n, fuel = n + 1 := ⟨fuel - 1, by omega⟩
    rw [List.cons_append, List.append_assoc, readStringFrom, if_neg (by decide), if_pos rfl,
      readEscape_append hescape]
    dsimp only
    rw [ih (Nat.lt_of_succ_lt_succ hfuel)]

/-- What a string that is read was spelled like. Every character that is read takes one unit of
fuel, however it is spelled. -/
theorem exists_of_readStringFrom {fuel : Nat} {s cs rest : List Char}
    (h : readStringFrom fuel s = .ok (cs, rest)) :
    ∃ text, Spelling cs text ∧ s = text ++ '"' :: rest := by
  induction fuel generalizing s cs rest with
  | zero => cases s <;> cases h
  | succ fuel ih =>
    cases s with
    | nil => cases h
    | cons c s =>
      rw [readStringFrom] at h
      split_ifs at h with hquote hslash hcontrol
      · cases h
        exact ⟨[], .nil, by rw [hquote]; rfl⟩
      · split at h
        · cases h
        · rename_i hread
          obtain ⟨escape, hescape, rfl⟩ := exists_of_readEscape hread
          split at h
          · cases h
          · rename_i hlater
            obtain ⟨text, htext, rfl⟩ := ih hlater
            cases h
            exact ⟨_, .escape hescape htext, by simp [hslash]⟩
      · cases h
      · split at h
        · cases h
        · rename_i hlater
          obtain ⟨text, htext, rfl⟩ := ih hlater
          cases h
          exact ⟨_, .plain hquote hslash (Nat.le_of_not_lt hcontrol) htext, rfl⟩

/-- No character stands for itself in less than one character. -/
theorem Spelling.length_le {cs text : List Char} (h : Spelling cs text) :
    cs.length ≤ text.length := by
  induction h with
  | nil => exact Nat.le_refl 0
  | plain _ _ _ _ ih => exact Nat.succ_le_succ ih
  | escape _ _ ih =>
    rw [List.length_cons, List.length_cons, List.length_append]
    omega

theorem readString_append {word : String} {text : List Char} (h : Spelling word.toList text)
    (rest : List Char) : readString (text ++ '"' :: rest) = .ok (word, rest) := by
  have hfuel : word.toList.length < (text ++ '"' :: rest).length := by
    have hlen := h.length_le
    rw [List.length_append, List.length_cons]
    omega
  rw [readString, readStringFrom_append h hfuel]
  simp

theorem exists_of_readString {s rest : List Char} {word : String}
    (h : readString s = .ok (word, rest)) :
    ∃ text, Spelling word.toList text ∧ s = text ++ '"' :: rest := by
  unfold readString at h
  split at h
  · cases h
  · rename_i hread
    obtain ⟨text, htext, rfl⟩ := exists_of_readStringFrom hread
    cases h
    exact ⟨text, by simpa using htext, rfl⟩

/-! ## Values -/

theorem isSpace_iff {c : Char} : isSpace c = true ↔ c ∈ [' ', '\n', '\t', '\r'] := by
  simp [isSpace, or_assoc]

theorem skipSpace_cons {c : Char} (h : isSpace c = false) (s : List Char) :
    skipSpace (c :: s) = c :: s := List.dropWhile_cons_of_neg (by simp [h])

theorem skipSpace_append {blanks : List Char} (h : Blanks blanks) (s : List Char) :
    skipSpace (blanks ++ s) = skipSpace s :=
  List.dropWhile_append_of_pos fun c hc => isSpace_iff.mpr (h c hc)

/-- What is skipped is blank. -/
theorem exists_skipSpace (s : List Char) : ∃ blanks, Blanks blanks ∧ s = blanks ++ skipSpace s :=
  ⟨s.takeWhile isSpace, fun _ hc => isSpace_iff.mp (List.mem_takeWhile_imp hc),
    List.takeWhile_append_dropWhile.symm⟩

theorem wrongWord_ne_ok {α : Type} (word : List Char) (found expected : String)
    (rest : List Char) (a : α) : wrongWord word found expected rest ≠ .ok a := by
  unfold wrongWord
  split <;> exact nofun

/-- No value of the wrong type is read. -/
theorem wrongType_ne_ok {α : Type} (expected : String) (s : List Char) (a : α) :
    wrongType expected s ≠ .ok a := by
  unfold wrongType
  cases s with
  | nil => exact nofun
  | cons c rest =>
    dsimp only
    split_ifs
    · exact wrongWord_ne_ok _ _ _ _ a
    · exact wrongWord_ne_ok _ _ _ _ a
    · exact wrongWord_ne_ok _ _ _ _ a
    · exact nofun
    · exact nofun
    · split <;> exact nofun
    · split <;> exact nofun
    · split <;> exact nofun
    · exact nofun

theorem readStringValue_append {word : String} {value : List Char} (h : StringValue word value)
    (rest : List Char) : readStringValue (value ++ rest) = .ok (word, rest) := by
  obtain ⟨hblanks, htext⟩ := h
  have hread := readString_append htext rest
  unfold readStringValue
  rw [List.append_assoc, skipSpace_append hblanks, List.cons_append, List.append_assoc,
    List.singleton_append, skipSpace_cons rfl]
  exact hread

theorem exists_of_readStringValue {s rest : List Char} {word : String}
    (h : readStringValue s = .ok (word, rest)) :
    ∃ value, StringValue word value ∧ s = value ++ rest := by
  obtain ⟨blanks, hblanks, hs⟩ := exists_skipSpace s
  unfold readStringValue at h
  split at h
  · rename_i hquote
    obtain ⟨text, htext, rfl⟩ := exists_of_readString h
    exact ⟨_, .quoted hblanks htext, by rw [hs, hquote]; simp⟩
  · exact absurd h (wrongType_ne_ok _ _ _)

/-- A value is read behind its blanks, where its quote stands. -/
theorem readStringValue_skipSpace (s : List Char) :
    readStringValue (skipSpace s) = readStringValue s := by
  unfold readStringValue skipSpace
  rw [List.dropWhile_idempotent isSpace]

theorem StringValue.skipSpace_eq {word : String} {value : List Char} (h : StringValue word value)
    (rest : List Char) : ∃ text, skipSpace (value ++ rest) = '"' :: text := by
  obtain ⟨hblanks, -⟩ := h
  rw [List.append_assoc, skipSpace_append hblanks, List.cons_append, skipSpace_cons rfl]
  exact ⟨_, rfl⟩

/-! ## Lists -/

/-- A string and those behind it, as the reader of a list takes them. -/
def readWithLater (fuel : Nat) (s : List Char) : Reading (List String) :=
  match readStringValue s with
  | .error f => .error f
  | .ok (text, rest) =>
    match readStringItems fuel false rest with
    | .error f => .error f
    | .ok (texts, rest) => .ok (text :: texts, rest)

/-- The end of the list, or a string. -/
theorem readStringItems_true (fuel : Nat) (s : List Char) : readStringItems (fuel + 1) true s =
    match skipSpace s with
    | [] => faultOn .endInList []
    | ']' :: rest => .ok ([], rest)
    | c :: rest => readWithLater fuel (c :: rest) := rfl

/-- The end of the list, or a comma and a string. -/
theorem readStringItems_false (fuel : Nat) (s : List Char) : readStringItems (fuel + 1) false s =
    match skipSpace s with
    | [] => faultOn .endInList []
    | ']' :: rest => .ok ([], rest)
    | c :: rest =>
      if c = ',' then
        match skipSpace rest with
        | [] => faultOn .endInValue []
        | ']' :: rest => faultOn .trailingComma (']' :: rest)
        | rest => readWithLater fuel rest
      else faultOn .expectedListEnd (c :: rest) := rfl

theorem readWithLater_append {word : String} {value : List Char} (h : StringValue word value)
    {fuel : Nat} {words : List String} {s rest : List Char}
    (hlater : readStringItems fuel false s = .ok (words, rest)) :
    readWithLater fuel (skipSpace (value ++ s)) = .ok (word :: words, rest) := by
  rw [readWithLater, readStringValue_skipSpace, readStringValue_append h]
  simp only [hlater]

theorem readStringItems_append {words : List String} {text : List Char}
    (h : LaterStrings words text) {fuel : Nat} (hfuel : words.length < fuel) (rest : List Char) :
    readStringItems fuel false (text ++ rest) = .ok (words, rest) := by
  induction h generalizing fuel with
  | close hblanks =>
    obtain ⟨fuel, rfl⟩ : ∃ n, fuel = n + 1 := ⟨fuel - 1, by omega⟩
    rw [List.append_assoc, readStringItems_false, skipSpace_append hblanks]
    rfl
  | @next _ _ _ _ text hblanks hvalue _ ih =>
    obtain ⟨fuel, rfl⟩ : ∃ n, fuel = n + 1 := ⟨fuel - 1, by omega⟩
    have hread := readWithLater_append hvalue (ih (Nat.lt_of_succ_lt_succ hfuel))
    obtain ⟨quoted, hquoted⟩ := hvalue.skipSpace_eq (text ++ rest)
    rw [hquoted] at hread
    rw [List.append_assoc, List.cons_append, List.append_assoc, readStringItems_false,
      skipSpace_append hblanks, skipSpace_cons rfl]
    show (match skipSpace _ with
      | [] => faultOn .endInValue []
      | ']' :: rest => faultOn .trailingComma (']' :: rest)
      | rest => readWithLater fuel rest) = _
    rw [hquoted]
    exact hread

/-- The strings of a list are read behind its bracket. -/
theorem readStringItems_strings {words : List String} {text : List Char} (h : Strings words text)
    {fuel : Nat} (hfuel : words.length < fuel) (rest : List Char) :
    readStringItems fuel true (text ++ rest) = .ok (words, rest) := by
  obtain ⟨fuel, rfl⟩ : ∃ n, fuel = n + 1 := ⟨fuel - 1, by omega⟩
  cases h with
  | close hblanks =>
    rw [List.append_assoc, readStringItems_true, skipSpace_append hblanks]
    rfl
  | @first _ _ _ text hvalue hlater =>
    have hread := readWithLater_append hvalue
      (readStringItems_append hlater (Nat.lt_of_succ_lt_succ hfuel) rest)
    obtain ⟨quoted, hquoted⟩ := hvalue.skipSpace_eq (text ++ rest)
    rw [hquoted] at hread
    rw [List.append_assoc, readStringItems_true, hquoted]
    exact hread

theorem exists_of_readWithLater {fuel : Nat} {s rest : List Char} {words : List String}
    (h : readWithLater fuel (skipSpace s) = .ok (words, rest)) : ∃ word later value left,
      words = word :: later ∧ StringValue word value ∧ s = value ++ left ∧
        readStringItems fuel false left = .ok (later, rest) := by
  rw [readWithLater, readStringValue_skipSpace] at h
  split at h
  · cases h
  · rename_i hread
    obtain ⟨value, hvalue, rfl⟩ := exists_of_readStringValue hread
    split at h
    · cases h
    · rename_i hlater
      cases h
      exact ⟨_, _, value, _, rfl, hvalue, rfl, hlater⟩

theorem exists_of_readStringItems {fuel : Nat} {s rest : List Char} {words : List String}
    (h : readStringItems fuel false s = .ok (words, rest)) :
    ∃ text, LaterStrings words text ∧ s = text ++ rest := by
  induction fuel generalizing s words rest with
  | zero => cases h
  | succ fuel ih =>
    obtain ⟨blanks, hblanks, hs⟩ := exists_skipSpace s
    rw [readStringItems_false] at h
    split at h
    · cases h
    · rename_i hclose
      cases h
      exact ⟨_, .close hblanks, by rw [hs, hclose]; simp⟩
    · rename_i hnext
      split_ifs at h with hcomma
      · split at h
        · cases h
        · cases h
        · obtain ⟨word, later, value, left, rfl, hvalue, rfl, hlater⟩ := exists_of_readWithLater h
          obtain ⟨text, htext, rfl⟩ := ih hlater
          exact ⟨_, .next hblanks hvalue htext, by rw [hs, hnext, hcomma]; simp⟩
      · cases h

theorem exists_strings_of_readStringItems {fuel : Nat} {s rest : List Char}
    {words : List String} (h : readStringItems (fuel + 1) true s = .ok (words, rest)) :
    ∃ text, Strings words text ∧ s = text ++ rest := by
  obtain ⟨blanks, hblanks, hs⟩ := exists_skipSpace s
  rw [readStringItems_true] at h
  split at h
  · cases h
  · rename_i hclose
    cases h
    exact ⟨_, .close hblanks, by rw [hs, hclose]; simp⟩
  · rename_i hfirst
    rw [← hfirst] at h
    obtain ⟨word, later, value, left, rfl, hvalue, rfl, hlater⟩ := exists_of_readWithLater h
    obtain ⟨text, htext, rfl⟩ := exists_of_readStringItems hlater
    exact ⟨_, .first hvalue htext, by simp⟩

/-! ## Whole texts -/

theorem LaterStrings.length_lt {words : List String} {text : List Char}
    (h : LaterStrings words text) : words.length < text.length := by
  induction h with
  | close => simp
  | next _ _ _ ih =>
    simp only [List.length_append, List.length_cons]
    omega

/-- Every string of a list takes at least one character. -/
theorem Strings.length_lt {words : List String} {text : List Char} (h : Strings words text) :
    words.length < text.length := by
  cases h with
  | close => simp
  | first hvalue hlater =>
    have hlen := hlater.length_lt
    obtain ⟨hblanks, hspelling⟩ := hvalue
    simp only [List.length_append, List.length_cons]
    omega

theorem skipSpace_eq_nil {s : List Char} (h : skipSpace s = []) : Blanks s := by
  obtain ⟨blanks, hblanks, hs⟩ := exists_skipSpace s
  rw [h, List.append_nil] at hs
  rwa [hs]

/-- The reader of lists finds strings in a text where it is a list of these strings. -/
theorem readStrings_eq_ok_iff {s : List Char} {words : List String} :
    readStrings s = .ok words ↔ IsStringList words s := by
  constructor
  · intro h
    obtain ⟨before, hbefore, hs⟩ := exists_skipSpace s
    unfold readStrings at h
    split at h
    · cases h
    · rename_i hopen
      split at h
      · cases h
      · rename_i hread
        obtain ⟨text, htext, rfl⟩ := exists_strings_of_readStringItems hread
        split at h
        · rename_i hafter
          cases h
          rw [hs, hopen]
          exact .brackets hbefore htext (skipSpace_eq_nil hafter)
        · cases h
    · exact absurd h (wrongType_ne_ok _ _ _)
  · rintro ⟨hbefore, htext, hafter⟩
    rename_i before text after
    have hfuel : words.length < (before ++ '[' :: (text ++ after)).length + 1 := by
      have hlen := htext.length_lt
      simp only [List.length_append, List.length_cons]
      omega
    have hend : skipSpace after = [] := by
      rw [← List.append_nil after, skipSpace_append hafter]
      rfl
    have hread := readStringItems_strings htext hfuel after
    unfold readStrings
    rw [skipSpace_append hbefore, skipSpace_cons rfl]
    simp only [hread, hend]

theorem strings_eq_ok_iff {line : String} {words : List String} :
    strings line = .ok words ↔ IsStringList words line.toList := by
  rw [← readStrings_eq_ok_iff, strings]
  rcases readStrings line.toList with f | found
  · exact ⟨nofun, nofun⟩
  · exact Iff.intro (fun h => by cases h; rfl) fun h => by cases h; rfl

theorem not_isStringList {line reason : String}
    (h : strings line = .error reason)
    (words : List String) : ¬ IsStringList words line.toList := by
  intro hwords
  rw [strings_eq_ok_iff.mpr hwords] at h
  cases h

end Transcript.Json

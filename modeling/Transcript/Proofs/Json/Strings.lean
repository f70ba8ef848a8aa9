-- Strings of documents. Whatever characters a string has, its written form is one of those that
-- the grammar has for it, between quotes on one line.
import Transcript.Proofs.Json.Grammar

namespace Transcript.Json

/-! ## Control characters -/

theorem escapeControl_eq : ∀ n < 32, escapeControl (Char.ofNat n) =
    ['\\', 'u', '0', '0', Nat.digitChar (n / 16), Nat.digitChar (n % 16)] := by
  decide

theorem hexUnit_digitChar : ∀ n < 32,
    HexUnit n ['0', '0', Nat.digitChar (n / 16), Nat.digitChar (n % 16)] := by
  intro n hn
  have hdigit : ∀ k < 16, HexDigit k (Nat.digitChar k) := fun k hk => ⟨hk, .inl rfl⟩
  have hzero := hdigit 0 (by decide)
  have hunit := HexUnit.digits hzero hzero (hdigit (n / 16) (by omega)) (hdigit (n % 16) (by omega))
  have hvalue : 0 * 4096 + 0 * 256 + n / 16 * 16 + n % 16 = n := by omega
  rwa [hvalue] at hunit

/-- A control character is written as its number. -/
theorem escape_escapeControl {c : Char} (h : c.toNat < 32) : ∃ digits,
    escapeControl c = '\\' :: digits ∧ Escape c digits := by
  have hchar : Char.ofNat c.toNat = c := Char.ofNat_toNat c
  have heq := escapeControl_eq c.toNat h
  have hescape := Escape.number (hexUnit_digitChar c.toNat h) (by omega)
  rw [hchar] at heq hescape
  exact ⟨_, heq, hescape⟩

/-! ## One character -/

/-- A character is written as itself, or as a backslash and an escape that stands for it. -/
theorem escapeChar_cases (c : Char) :
    (escapeChar c = [c] ∧ c ≠ '"' ∧ c ≠ '\\' ∧ 32 ≤ c.toNat) ∨
      ∃ escape, escapeChar c = '\\' :: escape ∧ Escape c escape := by
  unfold escapeChar
  by_cases hquote : c = '"'
  · subst hquote
    exact .inr ⟨['"'], rfl, .letter (by decide)⟩
  by_cases hslash : c = '\\'
  · subst hslash
    exact .inr ⟨['\\'], rfl, .letter (by decide)⟩
  by_cases hback : c = '\x08'
  · subst hback
    exact .inr ⟨['b'], rfl, .letter (by decide)⟩
  by_cases hfeed : c = '\x0c'
  · subst hfeed
    exact .inr ⟨['f'], rfl, .letter (by decide)⟩
  by_cases hnewline : c = '\n'
  · subst hnewline
    exact .inr ⟨['n'], rfl, .letter (by decide)⟩
  by_cases hreturn : c = '\r'
  · subst hreturn
    exact .inr ⟨['r'], rfl, .letter (by decide)⟩
  by_cases htab : c = '\t'
  · subst htab
    exact .inr ⟨['t'], rfl, .letter (by decide)⟩
  rw [if_neg hquote, if_neg hslash, if_neg hback, if_neg hfeed, if_neg hnewline, if_neg hreturn,
    if_neg htab]
  by_cases hcontrol : c.toNat < 32
  · rw [if_pos hcontrol]
    exact .inr (escape_escapeControl hcontrol)
  · rw [if_neg hcontrol]
    exact .inl ⟨rfl, hquote, hslash, Nat.le_of_not_lt hcontrol⟩

/-! ## Whole strings -/

/-- The written form of a string is one of its spellings. -/
theorem spelling_flatMap_escapeChar (cs : List Char) : Spelling cs (cs.flatMap escapeChar) := by
  induction cs with
  | nil => exact .nil
  | cons c cs ih =>
    rw [List.flatMap_cons]
    rcases escapeChar_cases c with ⟨heq, hquote, hslash, hprinted⟩ | ⟨escape, heq, hescape⟩
    · rw [heq]
      exact .plain hquote hslash hprinted ih
    · rw [heq]
      exact .escape hescape ih

theorem readString_escaped (s : String) (rest : List Char) :
    readString (s.toList.flatMap escapeChar ++ '"' :: rest) = .ok (s, rest) :=
  readString_append (spelling_flatMap_escapeChar s.toList) rest

theorem stringChars_append (s : String) (rest : List Char) :
    stringChars s ++ rest = '"' :: (s.toList.flatMap escapeChar ++ '"' :: rest) := by
  simp [stringChars]

/-- A written string is read, and the rest is left. -/
theorem readStringValue_stringChars (s : String) (rest : List Char) :
    readStringValue (stringChars s ++ rest) = .ok (s, rest) := by
  rw [stringChars_append]
  exact readString_escaped s rest

/-! ## Lines -/

theorem newline_not_mem_escapeChar (c : Char) : '\n' ∉ escapeChar c := by
  have hcontrol : ∀ n < 32, '\n' ∉ escapeControl (Char.ofNat n) := by decide
  unfold escapeChar
  split_ifs with _ _ _ _ hnewline _ _ hlow
  iterate 7
    next => decide
  · have hthis := hcontrol c.toNat hlow
    rwa [Char.ofNat_toNat] at hthis
  · simpa using Ne.symm hnewline

theorem newline_not_mem_stringChars (s : String) : '\n' ∉ stringChars s := by
  intro h
  rw [stringChars, List.mem_cons, List.mem_append] at h
  rcases h with h | h | h
  · cases h
  · obtain ⟨c, -, hc⟩ := List.mem_flatMap.mp h
    exact newline_not_mem_escapeChar c hc
  · simp at h

end Transcript.Json

-- A quoted text can be read back, whatever follows it. Each character between the quotes is
-- found again, be it written as itself, by a letter or by its number, and none of them is taken
-- for the quote at the end; so texts that are not the same are never quoted the same, and none
-- is quoted as the start of another. Which characters count as unprintable does not matter.
import Mathlib.Data.List.TakeWhile
import Transcript.Text.Quoted

namespace Transcript.Text

/-! ## Numbers of characters -/

/-- The value of a digit below sixteen. -/
def hexValue (c : Char) : Nat := if c.isDigit then c.toNat - '0'.toNat else c.toNat - 'a'.toNat + 10

/-- The number that hexadecimal digits give. -/
def hexNumber (ds : List Char) : Nat := ds.foldl (fun n d => 16 * n + hexValue d) 0

theorem hexValue_digitChar : ∀ n < 16, hexValue n.digitChar = n := by decide

theorem digitChar_ne_brace : ∀ n < 16, n.digitChar ≠ '\x7d' := by decide

theorem hexNumber_concat (ds : List Char) (d : Char) :
    hexNumber (ds ++ [d]) = 16 * hexNumber ds + hexValue d := by
  rw [hexNumber, List.foldl_append]
  rfl

theorem hexNumber_toDigits (n : Nat) : hexNumber (Nat.toDigits 16 n) = n := by
  induction n using Nat.strongRecOn with
  | ind n ih =>
    rw [Nat.toDigits_eq_if (by decide)]
    split
    · rename_i hlt
      rw [hexNumber, List.foldl_cons, List.foldl_nil, hexValue_digitChar n hlt]
      omega
    · have hlast : n % 16 < 16 := Nat.mod_lt n (by decide)
      rw [hexNumber_concat, ih (n / 16) (by omega), hexValue_digitChar _ hlast]
      exact Nat.div_add_mod n 16

theorem brace_not_mem_toDigits (n : Nat) : ∀ c ∈ Nat.toDigits 16 n, c ≠ '\x7d' := by
  induction n using Nat.strongRecOn with
  | ind n ih =>
    rw [Nat.toDigits_eq_if (by decide)]
    split
    · rename_i hlt
      intro c hc
      rw [List.mem_singleton.mp hc]
      exact digitChar_ne_brace n hlt
    · intro c hc
      rcases List.mem_append.mp hc with hc | hc
      · exact ih (n / 16) (by omega) c hc
      · rw [List.mem_singleton.mp hc]
        exact digitChar_ne_brace _ (Nat.mod_lt n (by decide))

/-! ## Reading characters back -/

/-- The character that a letter behind a backslash stands for. -/
def letterEscape? (c : Char) : Option Char :=
  if c = '0' then some '\x00'
  else if c = 't' then some '\t'
  else if c = 'n' then some '\n'
  else if c = 'r' then some '\r'
  else if c = '"' ∨ c = '\\' then some c
  else none

/-- The number up to the brace that ends it. -/
def readNumbered (s : List Char) : Char × List Char :=
  (Char.ofNat (hexNumber (s.takeWhile (· ≠ '\x7d'))), (s.dropWhile (· ≠ '\x7d')).tail)

/-- The first character between quotes, and the rest; none at the quote that ends the text. -/
def readEscaped? : List Char → Option (Char × List Char)
  | [] => none
  | '"' :: _ => none
  | '\\' :: 'u' :: '\x7b' :: rest => some (readNumbered rest)
  | '\\' :: c :: rest => (letterEscape? c).map fun e => (e, rest)
  | c :: rest => some (c, rest)

theorem readNumbered_toDigits (c : Char) (rest : List Char) :
    readNumbered (Nat.toDigits 16 c.toNat ++ '\x7d' :: rest) = (c, rest) := by
  have hdigits : ∀ d ∈ Nat.toDigits 16 c.toNat, decide (d ≠ '\x7d') = true := fun d hd =>
    decide_eq_true (brace_not_mem_toDigits _ d hd)
  rw [readNumbered, List.takeWhile_append_of_pos hdigits, List.dropWhile_append_of_pos hdigits]
  simp [hexNumber_toDigits]

theorem readEscaped?_self {c : Char} (hquote : c ≠ '"') (hbackslash : c ≠ '\\')
    (rest : List Char) : readEscaped? (c :: rest) = some (c, rest) := by
  unfold readEscaped?
  split <;> simp_all

/-- A character is found again where it was written, whatever follows it. -/
theorem readEscaped?_escapeChar (c : Char) (rest : List Char) :
    readEscaped? (escapeChar c ++ rest) = some (c, rest) := by
  unfold escapeChar
  split_ifs with hnul htab hnewline hreturn hquote hbackslash hunprintable
  · rw [hnul]
    rfl
  · rw [htab]
    rfl
  · rw [hnewline]
    rfl
  · rw [hreturn]
    rfl
  · rw [hquote]
    rfl
  · rw [hbackslash]
    rfl
  · rw [escapeByNumber, List.cons_append, List.cons_append, List.cons_append, List.append_assoc]
    exact congrArg some (readNumbered_toDigits c rest)
  · exact readEscaped?_self hquote hbackslash rest

/-! ## Reading texts back -/

/-- What was written between quotes is told by what stands there, and so is what follows. -/
theorem flatMap_escapeChar_append_inj {s t rest rest' : List Char}
    (h : s.flatMap escapeChar ++ '"' :: rest = t.flatMap escapeChar ++ '"' :: rest') :
    s = t ∧ rest = rest' := by
  have hend : ∀ r, readEscaped? ('"' :: r) = none := fun _ => rfl
  induction s generalizing t with
  | nil =>
    cases t with
    | nil => exact ⟨rfl, (List.cons.inj h).2⟩
    | cons d t =>
      have hread := hend rest
      rw [List.flatMap_nil, List.nil_append] at h
      rw [h, List.flatMap_cons, List.append_assoc, readEscaped?_escapeChar] at hread
      cases hread
  | cons c s ih =>
    rw [List.flatMap_cons, List.append_assoc] at h
    have hread := readEscaped?_escapeChar c (s.flatMap escapeChar ++ '"' :: rest)
    cases t with
    | nil =>
      rw [h, List.flatMap_nil, List.nil_append, hend] at hread
      cases hread
    | cons d t =>
      rw [h, List.flatMap_cons, List.append_assoc, readEscaped?_escapeChar] at hread
      obtain ⟨rfl, hrest⟩ := Prod.mk.inj (Option.some.inj hread)
      obtain ⟨rfl, hfollows⟩ := ih hrest.symm
      exact ⟨rfl, hfollows⟩

/-- A quoted text is told from what follows it, and tells what was quoted. -/
theorem quote_append_inj {s t rest rest' : String} (h : quote s ++ rest = quote t ++ rest') :
    s = t ∧ rest = rest' := by
  have hchars := congrArg String.toList h
  simp only [quote, quoteChars, String.toList_append, String.toList_ofList, List.cons_append,
    List.append_assoc] at hchars
  obtain ⟨htext, hrest⟩ := flatMap_escapeChar_append_inj (List.cons.inj hchars).2
  exact ⟨String.toList_inj.mp htext, String.toList_inj.mp hrest⟩

theorem quote_injective : Function.Injective quote := by
  intro s t h
  exact (quote_append_inj (congrArg (· ++ "") h)).1

end Transcript.Text

-- Documents on one line. No value is written with a newline in it, and what is written for a
-- list of strings is such a list.
import Transcript.Proofs.Json.Numerals
import Transcript.Proofs.Json.Strings

namespace Transcript.Json

open Decimal (AllDigits)

/-! ## One line -/

theorem newline_not_mem_of_allDigits {ds : List Char} (h : AllDigits ds) : '\n' ∉ ds := by
  intro hmem
  exact absurd (h '\n' hmem) (by decide)

theorem IsPower.newline_not_mem {power : List Char} (h : IsPower power) : '\n' ∉ power := by
  cases h with
  | absent => simp
  | present down hds =>
    have hnot := newline_not_mem_of_allDigits hds
    cases down <;> simpa using hnot

theorem IsNumeral.newline_not_mem {text : List Char} (h : IsNumeral text) : '\n' ∉ text := by
  cases h with
  | pointed _ hwhole hfraction hpower =>
    have hwhole := newline_not_mem_of_allDigits hwhole
    have hfraction := newline_not_mem_of_allDigits hfraction
    simp [hwhole, hfraction, hpower.newline_not_mem]
  | scaled down _ hwhole hds =>
    have hwhole := newline_not_mem_of_allDigits hwhole
    have hpower := (IsPower.present down hds).newline_not_mem
    exact fun hmem => (List.mem_append.mp hmem).elim hwhole hpower

theorem newline_not_mem_doubleText (x : Binary64) : '\n' ∉ (doubleText x).toList := by
  unfold doubleText
  split
  · obtain ⟨text, htext, heq⟩ := isNumeral_documented x
    have hnot := htext.newline_not_mem
    rw [heq, Decimal.signed]
    split
    · simpa using hnot
    · exact hnot
  · decide

theorem newline_not_mem_toString_int (n : Int) : '\n' ∉ (toString n).toList := by
  rw [Int.toString_eq_repr, Int.repr_eq_if]
  split
  · rw [Nat.toList_repr]
    exact newline_not_mem_of_allDigits (Decimal.allDigits_toDigits _)
  · have hnot := newline_not_mem_of_allDigits (Decimal.allDigits_toDigits (-n).toNat)
    rw [String.toList_append, Nat.toList_repr]
    exact fun hmem => (List.mem_append.mp hmem).elim (by decide) hnot

mutual

/-- A value is written on one line. -/
theorem newline_not_mem_compactChars : (v : Json) → '\n' ∉ compactChars v
  | .null => by decide
  | .bool b => by cases b <;> decide
  | .int n => newline_not_mem_toString_int n
  | .double x => newline_not_mem_doubleText x
  | .str s => newline_not_mem_stringChars s
  | .arr items => by
    have h := newline_not_mem_compactItems items
    simp [compactChars, h]
  | .obj fields => by
    have h := newline_not_mem_compactFields fields
    simp [compactChars, h]

theorem newline_not_mem_compactItems : (items : List Json) → '\n' ∉ compactItems items
  | [] => by simp [compactItems]
  | [item] => newline_not_mem_compactChars item
  | item :: next :: rest => by
    have hitem := newline_not_mem_compactChars item
    have hrest := newline_not_mem_compactItems (next :: rest)
    simp [compactItems, hitem, hrest]

theorem newline_not_mem_compactFields : (fields : List (String × Json)) →
    '\n' ∉ compactFields fields
  | [] => by simp [compactFields]
  | [(name, value)] => by
    have hvalue := newline_not_mem_compactChars value
    simp [compactFields, newline_not_mem_stringChars, hvalue]
  | (name, value) :: next :: rest => by
    have hvalue := newline_not_mem_compactChars value
    have hrest := newline_not_mem_compactFields (next :: rest)
    simp [compactFields, newline_not_mem_stringChars, hvalue, hrest]

end

theorem newline_not_mem_compact (v : Json) : '\n' ∉ v.compact.toList := by
  rw [compact, String.toList_ofList]
  exact newline_not_mem_compactChars v

/-! ## Lists -/

/-- The items of a list that has some: the first, and each other one behind a comma. -/
theorem compactItems_cons (item : Json) (rest : List Json) :
    compactItems (item :: rest) =
      compactChars item ++ rest.flatMap fun other => ',' :: compactChars other := by
  induction rest generalizing item with
  | nil => simp [compactItems]
  | cons next rest ih =>
    rw [compactItems, ih, List.flatMap_cons, List.cons_append]
    simp

/-- Every item takes at least one character. -/
theorem length_le_length_compactItems {items : List Json} (h : ∀ v ∈ items, compactChars v ≠ []) :
    items.length ≤ (compactItems items).length := by
  induction items with
  | nil => simp
  | cons item rest ih =>
    have hpos := List.length_pos_iff.mpr (h item List.mem_cons_self)
    have hrest := ih fun v hv => h v (List.mem_cons_of_mem item hv)
    cases rest with
    | nil =>
      simp only [compactItems, List.length_singleton]
      omega
    | cons next rest =>
      simp only [compactItems, List.length_append, List.length_cons] at hrest ⊢
      omega

theorem stringValue_stringChars (s : String) : StringValue s (stringChars s) :=
  .quoted (List.forall_mem_nil _) (spelling_flatMap_escapeChar s.toList)

theorem laterStrings_flatMap (words : List String) :
    LaterStrings words ((words.flatMap fun w => ',' :: stringChars w) ++ [']']) := by
  induction words with
  | nil => exact .close (List.forall_mem_nil _)
  | cons w words ih =>
    have hnext := LaterStrings.next (List.forall_mem_nil _) (stringValue_stringChars w) ih
    simpa using hnext

/-- The items of a list of strings, up to its end. -/
theorem strings_compactItems (words : List String) :
    Strings words (compactItems (words.map .str) ++ [']']) := by
  cases words with
  | nil => exact .close (List.forall_mem_nil _)
  | cons w words =>
    rw [List.map_cons, compactItems_cons, List.flatMap_map, List.append_assoc]
    exact .first (stringValue_stringChars w) (laterStrings_flatMap words)

/-- A list of strings is read back from the line on which it was written. -/
theorem strings_compact (words : List String) :
    strings (Json.arr (words.map .str)).compact = .ok words := by
  have hlist := IsStringList.brackets (List.forall_mem_nil _) (strings_compactItems words)
    (List.forall_mem_nil _)
  rw [strings_eq_ok_iff, compact, String.toList_ofList, compactChars]
  simpa using hlist

end Transcript.Json

-- The rows of a reply, as the output of a corpus case. Every row is told by its tag, so it
-- is never taken for a command; a number has no blank in it, and a text makes a row of
-- its own where it is on one line and does not end in a blank.
import Transcript.SortedSet.Store
import Transcript.Proofs.Corpus.Writing

namespace Transcript

/-! ## Texts without blanks -/

namespace Text

/-- A text that is not empty and has no blank in it. -/
structure Solid (s : List Char) : Prop where
  ne_nil : s ≠ []
  not_blank : ∀ c ∈ s, isBlank c = false

theorem solid_of_all {s : List Char} (hne : s ≠ []) (h : s.all (!isBlank ·) = true) :
    Solid s where
  ne_nil := hne
  not_blank c hc := by simpa using List.all_eq_true.mp h c hc

theorem isBlank_of_isDigit {c : Char} (h : c.isDigit = true) : isBlank c = false := by
  simp only [Char.isDigit, UInt32.le_iff_toNat_le, Bool.and_eq_true, decide_eq_true_eq] at h
  change 48 ≤ c.toNat ∧ c.toNat ≤ 57 at h
  rw [← Bool.not_eq_true]
  simp only [isBlank, Bool.or_eq_true, Bool.and_eq_true, decide_eq_true_eq, beq_iff_eq]
  omega

theorem solid_toDigits (n : Nat) : Solid (Nat.toDigits 10 n) where
  ne_nil := Nat.toDigits_ne_nil
  not_blank _ hc := isBlank_of_isDigit (Nat.isDigit_of_mem_toDigits (by decide) (by decide) hc)

theorem Solid.cons {c : Char} {s : List Char} (hc : isBlank c = false) (h : Solid s) :
    Solid (c :: s) where
  ne_nil := List.cons_ne_nil c s
  not_blank d hd := by
    rcases List.mem_cons.mp hd with rfl | hd
    · exact hc
    · exact h.not_blank d hd

theorem solid_toString_int (value : Int) : Solid (toString value).toList := by
  rw [Int.toString_eq_repr, Int.repr_eq_if]
  split
  · rw [Nat.toList_repr]
    exact solid_toDigits _
  · rw [String.toList_append, Nat.toList_repr]
    exact (solid_toDigits _).cons (by decide)

end Text

namespace Decimal

theorem Scaled.solid_positional (d : Scaled) : Text.Solid d.positional := by
  have hdigits := Text.solid_toDigits d.digits
  have hzero : Text.isBlank '0' = false := by decide
  have hpoint : Text.isBlank '.' = false := by decide
  simp only [Scaled.positional]
  split
  · refine ⟨List.append_ne_nil_of_left_ne_nil hdigits.ne_nil _, fun c hc => ?_⟩
    rcases List.mem_append.mp hc with hc | hc
    · exact hdigits.not_blank c hc
    · rw [List.eq_of_mem_replicate hc]
      exact hzero
  · split
    · refine ⟨by simp, fun c hc => ?_⟩
      rcases List.mem_append.mp hc with hc | hc
      · exact hdigits.not_blank c (List.mem_of_mem_take hc)
      · rcases List.mem_cons.mp hc with rfl | hc
        · exact hpoint
        · exact hdigits.not_blank c (List.mem_of_mem_drop hc)
    · refine .cons hzero (.cons hpoint ⟨by simp [hdigits.ne_nil], fun c hc => ?_⟩)
      rcases List.mem_append.mp hc with hc | hc
      · rw [List.eq_of_mem_replicate hc]
        exact hzero
      · exact hdigits.not_blank c hc

theorem solid_signed (negative : Bool) {s : List Char} (h : Text.Solid s) :
    Text.Solid (signed negative s) := by
  unfold signed
  split
  · exact h.cons (by decide)
  · exact h

/-- A number as replies show it has no blank in it. -/
theorem solid_plain (x : Binary64) : Text.Solid (plain x).toList := by
  unfold plain
  rw [String.toList_ofList]
  split
  · exact Text.solid_of_all (by decide) (by decide)
  · split
    · exact solid_signed _ (Text.solid_of_all (by decide) (by decide))
    · split
      · exact solid_signed _ (Text.solid_of_all (by decide) (by decide))
      · exact solid_signed _ (Scaled.solid_positional _)

end Decimal

/-! ## Rows -/

/-- A text that can stand behind a tag: on one line, with no blank at its end. -/
structure EndsRow (text : List Char) : Prop where
  oneLine : '\n' ∉ text
  last_not_blank : ∃ c ∈ text.getLast?, Text.isBlank c = false

theorem Text.Solid.endsRow {text : List Char} (h : Text.Solid text) : EndsRow text where
  oneLine hmem := absurd (h.not_blank _ hmem) (by decide)
  last_not_blank :=
    ⟨text.getLast h.ne_nil, List.getLast?_eq_some_getLast h.ne_nil,
      h.not_blank _ (List.getLast_mem h.ne_nil)⟩

/-- The texts of a reply can stand behind their tags. -/
inductive Reply.Tidy : Reply → Prop where
  | nil : Tidy .nil
  | err {text : String} : EndsRow text.toList → Tidy (.err text)
  | str {text : String} : EndsRow text.toList → Tidy (.str text)
  | int {value : Int} : Tidy (.int value)
  | double {value : Binary64} : Tidy (.double value)
  | arr {items : List Reply} : (∀ item ∈ items, Tidy item) → Tidy (.arr items)

variable {marker : List Char}

/-- A row with a tag in front is a row of an output. -/
theorem isRow_tagged (hmarker : ∃ c ∈ marker.head?, c ≠ '(') {tag text : List Char}
    (htag : tag.head? = some '(') (hline : '\n' ∉ tag) (h : EndsRow text) :
    Corpus.IsRow marker (tag ++ text) := by
  obtain ⟨c, hc, hblank⟩ := h.last_not_blank
  obtain ⟨first, hfirst, hne⟩ := hmarker
  have hhead : (tag ++ text).head? = some '(' := by rw [List.head?_append, htag]; rfl
  have hlast : (tag ++ text).getLast? = some c := by
    rw [List.getLast?_append, Option.mem_def.mp hc]
    rfl
  refine ⟨fun hmem => ?_, ?_, ?_, ?_⟩
  · exact (List.mem_append.mp hmem).elim hline h.oneLine
  · exact Text.trim_eq_self_of_ends hhead hlast (by decide) hblank
  · intro hnil
    rw [hnil] at hhead
    cases hhead
  · rintro ⟨rest, hrest⟩
    rw [← hrest, List.head?_append, Option.mem_def.mp hfirst] at hhead
    exact hne (Option.some.inj hhead)

/-- A row of a reply, with its newline, is an output. -/
theorem isOutput_tagged (hmarker : ∃ c ∈ marker.head?, c ≠ '(') {tag text : String}
    (htag : tag.toList.head? = some '(') (hline : '\n' ∉ tag.toList) (h : EndsRow text.toList) :
    Corpus.IsOutput marker (tag ++ text ++ "\n").toList := by
  rw [String.toList_append, String.toList_append]
  exact (isRow_tagged hmarker htag hline h).isOutput

mutual

/-- A tidy reply is an output, whatever case it is the reply of. -/
theorem Reply.Tidy.isOutput_render (hmarker : ∃ c ∈ marker.head?, c ≠ '(') :
    (r : Reply) → r.Tidy → Corpus.IsOutput marker r.render.toList
  | .nil, _ => by
    have hend : EndsRow "nil)".toList := (Text.solid_of_all (by decide) (by decide)).endsRow
    have hrow : Corpus.IsOutput marker ("(" ++ "nil)" ++ "\n").toList :=
      isOutput_tagged hmarker (by decide) (by decide) hend
    exact hrow
  | .err text, .err h => by
    rw [Reply.render]
    exact isOutput_tagged hmarker (by decide) (by decide) h
  | .str text, .str h => by
    rw [Reply.render]
    exact isOutput_tagged hmarker (by decide) (by decide) h
  | .int value, _ => by
    rw [Reply.render]
    exact isOutput_tagged hmarker (by decide) (by decide) (Text.solid_toString_int value).endsRow
  | .double value, _ => by
    rw [Reply.render]
    exact isOutput_tagged hmarker (by decide) (by decide) (Decimal.solid_plain value).endsRow
  | .arr items, .arr h => by
    have hlength : EndsRow (toString items.length).toList := by
      rw [Nat.toString_eq_repr, Nat.toList_repr]
      exact (Text.solid_toDigits _).endsRow
    have hend : EndsRow "end".toList := (Text.solid_of_all (by decide) (by decide)).endsRow
    have hfirst : Corpus.IsOutput marker ("(arr) len=" ++ toString items.length ++ "\n").toList :=
      isOutput_tagged hmarker (by decide) (by decide) hlength
    have hlast : Corpus.IsOutput marker ("(arr) " ++ "end" ++ "\n").toList :=
      isOutput_tagged hmarker (by decide) (by decide) hend
    rw [Reply.render, String.toList_append, String.toList_append]
    exact (hfirst.append (isOutput_renderAll hmarker items h)).append hlast

theorem Reply.Tidy.isOutput_renderAll (hmarker : ∃ c ∈ marker.head?, c ≠ '(') :
    (items : List Reply) → (∀ item ∈ items, item.Tidy) →
      Corpus.IsOutput marker (Reply.renderAll items).toList
  | [], _ => Corpus.isOutput_nil
  | item :: rest, h => by
    rw [Reply.renderAll, String.toList_append]
    exact (isOutput_render hmarker item (h item List.mem_cons_self)).append
      (isOutput_renderAll hmarker rest fun r hr => h r (List.mem_cons_of_mem item hr))

end

end Transcript

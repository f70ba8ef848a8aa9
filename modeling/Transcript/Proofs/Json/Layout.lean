-- Documents laid out over several lines. Without numbers that have a point or a power, what is
-- written for a value is a document of that value and of no other.
import Transcript.Proofs.Json.Documents

namespace Transcript.Json

variable {real : List Char → Binary64}

/-! ## Whole numbers -/

theorem isWhole_toDigits (n : Nat) : IsWhole (Nat.toDigits 10 n) where
  ne_nil := Nat.toDigits_ne_nil
  digits := Decimal.allDigits_toDigits n
  zero h := by
    rcases Nat.eq_zero_or_pos n with rfl | hpos
    · rfl
    · exact absurd h (Decimal.head?_toDigits_ne_zero hpos)

theorem integerValue_toDigits (n : Nat) : integerValue (Nat.toDigits 10 n) = n := by
  have hdigits := Decimal.allDigits_toDigits n
  unfold integerValue
  split
  · rename_i heq
    exact absurd (hdigits '-' (heq ▸ List.mem_cons_self)) (by decide)
  · rw [Decimal.digitsValue_toDigits]

theorem derives_int {n : Int} {text : List Char} (h : IsInteger text)
    (hn : integerValue text = n) : Derives real (.value (.int n)) text := by
  rw [← hn]
  exact .integer h

/-- A whole number is written as its digits. -/
theorem derives_toString (n : Int) : Derives real (.value (.int n)) (toString n).toList := by
  rw [Int.toString_eq_repr, Int.repr_eq_if]
  split
  · rw [Nat.toList_repr]
    refine derives_int (.plus (isWhole_toDigits n.toNat)) ?_
    rw [integerValue_toDigits]
    omega
  · rw [String.toList_append, Nat.toList_repr]
    refine derives_int (.minus (isWhole_toDigits (-n).toNat)) ?_
    show -(Decimal.digitsValue (Nat.toDigits 10 (-n).toNat) : Int) = n
    rw [Decimal.digitsValue_toDigits]
    omega

/-! ## Layout -/

theorem blanks_newLine (depth : Nat) : Blanks (newLine depth) := by
  intro c hc
  rcases List.mem_cons.mp hc with rfl | hc
  · decide
  · rw [List.eq_of_mem_replicate hc]
    decide

/-- A value without numbers that have a point or a power. -/
inductive Plain : Json → Prop where
  | null : Plain .null
  | bool (b : Bool) : Plain (.bool b)
  | int (n : Int) : Plain (.int n)
  | str (s : String) : Plain (.str s)
  | arr {items : List Json} : (∀ item ∈ items, Plain item) → Plain (.arr items)
  | obj {fields : List (String × Json)} : (∀ field ∈ fields, Plain field.2) → Plain (.obj fields)

/-- The items of a list, each on a line of its own. -/
theorem derives_prettyItems {depth : Nat} {item : Json} {rest : List Json}
    (h : ∀ v ∈ item :: rest, Derives real (.value v) (prettyChars depth v)) {blanks : List Char}
    (hblanks : Blanks blanks) :
    Derives real (.items (item :: rest)) (prettyItems depth (item :: rest) ++ blanks ++ [']']) := by
  induction rest generalizing item with
  | nil =>
    have hitem :=
      Derives.item (blanks_newLine depth) (h item List.mem_cons_self) (.lastItem hblanks)
    simpa [prettyItems] using hitem
  | cons next rest ih =>
    have hlater := Derives.nextItem (List.forall_mem_nil _)
      (ih fun v hv => h v (List.mem_cons_of_mem item hv))
    have hitem := Derives.item (blanks_newLine depth) (h item List.mem_cons_self) hlater
    simpa [prettyItems] using hitem

/-- A field on a line of its own, and what stands behind it. -/
theorem derives_prettyField {depth : Nat} {field : String × Json}
    {rest : List (String × Json)} {later : List Char}
    (hfield : Derives real (.value field.2) (prettyChars depth field.2))
    (hlater : Derives real (.laterMembers rest) later) :
    Derives real (.members (field :: rest)) (newLine depth ++ stringChars field.1 ++
      ':' :: ' ' :: (prettyChars depth field.2 ++ later)) := by
  have hspace : Blanks [' '] := List.forall_mem_singleton.mpr (by decide)
  have hmember := Derives.member (blanks_newLine depth)
    (spelling_flatMap_escapeChar field.1.toList) (List.forall_mem_nil _) hspace hfield hlater
  simpa [stringChars] using hmember

/-- The fields of an object, each on a line of its own. -/
theorem derives_prettyFields {depth : Nat} {field : String × Json} {rest : List (String × Json)}
    (h : ∀ f ∈ field :: rest, Derives real (.value f.2) (prettyChars depth f.2))
    {blanks : List Char} (hblanks : Blanks blanks) :
    Derives real (.members (field :: rest))
      (prettyFields depth (field :: rest) ++ blanks ++ ['\x7d']) := by
  induction rest generalizing field with
  | nil =>
    have hmember := derives_prettyField (h field List.mem_cons_self) (.lastMember hblanks)
    simpa [prettyFields] using hmember
  | cons next rest ih =>
    have hlater := Derives.nextMember (List.forall_mem_nil _)
      (ih fun f hf => h f (List.mem_cons_of_mem field hf))
    have hmember := derives_prettyField (h field List.mem_cons_self) hlater
    simpa [prettyFields] using hmember

/-- A value is laid out as a text of its own. -/
theorem derives_prettyChars {v : Json} (h : Plain v) (depth : Nat) :
    Derives real (.value v) (prettyChars depth v) := by
  induction h generalizing depth with
  | null => exact .null
  | bool b => exact .bool b
  | int n => exact derives_toString n
  | str s => exact .str (spelling_flatMap_escapeChar s.toList)
  | @arr items _ ih =>
    cases items with
    | nil => exact .arr (.noItem (List.forall_mem_nil _))
    | cons item rest =>
      exact .arr (derives_prettyItems (fun v hv => ih v hv (depth + 1)) (blanks_newLine depth))
  | @obj fields _ ih =>
    cases fields with
    | nil => exact .obj (.noMember (List.forall_mem_nil _))
    | cons field rest =>
      exact .obj (derives_prettyFields (fun f hf => ih f hf (depth + 1)) (blanks_newLine depth))

/-- What is laid out for a value is a document of it, and of no other value. -/
theorem isDocument_pretty_iff {v : Json} (h : Plain v) (w : Json) :
    IsDocument real w v.pretty.toList ↔ w = v := by
  have hdocument : IsDocument real v v.pretty.toList := by
    rw [pretty, String.toList_ofList]
    have hblanks : Blanks [] := List.forall_mem_nil _
    exact ⟨[], _, [], hblanks, derives_prettyChars h 0, hblanks, by simp⟩
  refine ⟨fun hw => hw.unique hdocument, ?_⟩
  rintro rfl
  exact hdocument

example : (Json.obj [("a", .arr [.int 1, .null]), ("b", .arr [])]).pretty =
    "\x7b\n  \"a\": [\n    1,\n    null\n  ],\n  \"b\": []\n\x7d" := by decide +kernel

/-- Values that are laid out alike are the same. -/
theorem eq_of_pretty_eq {v w : Json} (hv : Plain v) (hw : Plain w) (h : v.pretty = w.pretty) :
    v = w := by
  have hdocument : IsDocument (fun _ => .zero false) v v.pretty.toList :=
    (isDocument_pretty_iff hv v).mpr rfl
  rw [h] at hdocument
  exact (isDocument_pretty_iff hw v).mp hdocument

end Transcript.Json

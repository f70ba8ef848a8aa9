-- The first line in which two texts differ. It is counted from what the texts start with in
-- common, byte by byte, and it is the line that a reader of both would point at: the lines before
-- it are the same and complete, and it is not the same in both. That settles its number, so it
-- does not matter which text comes first, nor whether bytes or characters are compared.
import Transcript.Divergence
import Transcript.Proofs.Text.Utf8

namespace Transcript

/-! ## Lines that differ -/

/-- Two texts, cut into lines, differ for the first time behind `k` lines: both have these, the
same ones, each with its newline, and the next line differs or only one of them has it. -/
structure DifferBehind {α : Type} (newline : α) (as bs : List (List α)) (k : Nat) : Prop where
  same : ∀ i < k, ∃ line, as[i]? = some line ∧ bs[i]? = some line ∧
    line.getLast? = some newline
  differs : as[k]? ≠ bs[k]?

namespace DifferBehind

variable {α β : Type} {newline : α} {as bs : List (List α)} {k : Nat}

theorem symm (h : DifferBehind newline as bs k) : DifferBehind newline bs as k where
  same i hi := by
    obtain ⟨line, ha, hb, hline⟩ := h.same i hi
    exact ⟨line, hb, ha, hline⟩
  differs := h.differs.symm

theorem le {m : Nat} (h : DifferBehind newline as bs k) (h' : DifferBehind newline as bs m) :
    m ≤ k := by
  by_contra hlt
  obtain ⟨line, ha, hb, -⟩ := h'.same k (Nat.not_le.mp hlt)
  exact h.differs (ha.trans hb.symm)

/-- There is one number of lines only behind which two texts differ for the first time. -/
theorem unique {m : Nat} (h : DifferBehind newline as bs k) (h' : DifferBehind newline as bs m) :
    k = m := Nat.le_antisymm (h'.le h) (h.le h')

/-- Texts that start differently differ in their first line. -/
theorem of_head?_ne (isEnd : α → Bool) {s t : List α} (h : s.head? ≠ t.head?) :
    DifferBehind newline (Text.piecesAfter isEnd s) (Text.piecesAfter isEnd t) 0 where
  same i hi := absurd hi (Nat.not_lt_zero i)
  differs heq := h (by
    rw [← Text.head?_piecesAfter isEnd s, heq, Text.head?_piecesAfter isEnd t])

/-- A line that both start with moves the first difference by one. -/
theorem cons {line : List α} (hline : line.getLast? = some newline)
    (h : DifferBehind newline as bs k) :
    DifferBehind newline (line :: as) (line :: bs) (k + 1) where
  same i hi := by
    cases i with
    | zero => exact ⟨line, rfl, rfl, hline⟩
    | succ i => exact h.same i (Nat.lt_of_succ_lt_succ hi)
  differs := h.differs

/-- More of the first line, the same in both, does not move the first difference. -/
theorem prepend (x : α) (ha : [] ∉ as) (hb : [] ∉ bs) (h : DifferBehind newline as bs k) :
    DifferBehind newline (Text.prepend [x] as) (Text.prepend [x] bs) k where
  same i hi := by
    obtain ⟨line, ha', hb', hline⟩ := h.same i hi
    cases i with
    | zero =>
      refine ⟨[x] ++ line, ?_, ?_, ?_⟩
      · rw [Text.getElem?_zero_prepend, ha', Option.getD_some]
      · rw [Text.getElem?_zero_prepend, hb', Option.getD_some]
      · rw [List.singleton_append, List.getLast?_cons, hline, Option.getD_some]
    | succ i =>
      simp only [Text.getElem?_succ_prepend]
      exact ⟨line, ha', hb', hline⟩
  differs := by
    have hdiffers := h.differs
    cases k with
    | succ k => simpa only [Text.getElem?_succ_prepend] using hdiffers
    | zero =>
      rw [Text.getElem?_zero_prepend, Text.getElem?_zero_prepend]
      cases as <;> cases bs <;> simp_all

/-- Lines can be compared as they are or as they are written, if different ones are written
differently. -/
theorem map_iff {newline' : β} {f : List α → List β} (hf : Function.Injective f)
    (hend : ∀ line, (f line).getLast? = some newline' ↔ line.getLast? = some newline) :
    DifferBehind newline' (as.map f) (bs.map f) k ↔ DifferBehind newline as bs k := by
  have hdiffers : (as.map f)[k]? ≠ (bs.map f)[k]? ↔ as[k]? ≠ bs[k]? := by
    rw [List.getElem?_map, List.getElem?_map]
    exact not_congr (Option.map_injective hf).eq_iff
  constructor
  · intro h
    refine ⟨fun i hi => ?_, hdiffers.mp h.differs⟩
    obtain ⟨written, ha, hb, hline⟩ := h.same i hi
    rw [List.getElem?_map, Option.map_eq_some_iff] at ha hb
    obtain ⟨line, ha, rfl⟩ := ha
    obtain ⟨line', hb, heq⟩ := hb
    rw [hf heq] at hb
    exact ⟨line, ha, hb, (hend line).mp hline⟩
  · intro h
    refine ⟨fun i hi => ?_, hdiffers.mpr h.differs⟩
    obtain ⟨line, ha, hb, hline⟩ := h.same i hi
    refine ⟨f line, ?_, ?_, (hend line).mpr hline⟩
    · rw [List.getElem?_map, ha, Option.map_some]
    · rw [List.getElem?_map, hb, Option.map_some]

end DifferBehind

/-! ## The number of the line -/

section Lines

variable {α : Type} [DecidableEq α]

/-- The number of the line in which two sequences first differ: one more than the newlines that
they start with in common. -/
def firstDivergentLineBy (newline : α) (actual expected : List α) : Option Nat :=
  if actual = expected then none else some ((commonStart actual expected).count newline + 1)

/-- Sequences that are not the same differ behind as many lines as they start with in common. -/
theorem differBehind_commonStart (newline : α) {as bs : List α} (h : as ≠ bs) :
    DifferBehind newline (Text.piecesAfter (· == newline) as)
      (Text.piecesAfter (· == newline) bs) ((commonStart as bs).count newline) := by
  induction as generalizing bs with
  | nil =>
    obtain ⟨b, bs, rfl⟩ := List.exists_cons_of_ne_nil h.symm
    exact .of_head?_ne _ (by simp)
  | cons a as ih =>
    rcases bs with _ | ⟨b, bs⟩
    · exact .of_head?_ne _ (by simp)
    unfold commonStart
    by_cases hab : a = b
    · subst hab
      have hrest := ih fun heq => h (by rw [heq])
      rw [if_pos rfl]
      by_cases ha : a = newline
      · subst ha
        rw [List.count_cons_self, Text.piecesAfter_cons_of_isEnd (by simp),
          Text.piecesAfter_cons_of_isEnd (by simp)]
        exact hrest.cons rfl
      · have hnot : (a == newline) = false := beq_eq_false_iff_ne.mpr ha
        have hcons : ∀ s, Text.piecesAfter (· == newline) (a :: s) =
            Text.prepend [a] (Text.piecesAfter (· == newline) s) := fun s =>
          Text.piecesAfter_cons_of_not_isEnd (by simpa using ha) s
        rw [List.count_cons_of_ne ha, hcons, hcons]
        exact hrest.prepend a (Text.nil_not_mem_piecesAfter _ _)
          (Text.nil_not_mem_piecesAfter _ _)
    · rw [if_neg hab]
      exact .of_head?_ne _ (by simpa using hab)

theorem firstDivergentLineBy_eq_none_iff (newline : α) (actual expected : List α) :
    firstDivergentLineBy newline actual expected = none ↔ actual = expected := by
  unfold firstDivergentLineBy
  split <;> simp_all

theorem firstDivergentLineBy_eq_some_iff (newline : α) (actual expected : List α) (n : Nat) :
    firstDivergentLineBy newline actual expected = some n ↔
      ∃ k, n = k + 1 ∧ DifferBehind newline (Text.piecesAfter (· == newline) actual)
        (Text.piecesAfter (· == newline) expected) k := by
  unfold firstDivergentLineBy
  split
  · rename_i heq
    subst heq
    refine iff_of_false (by simp) ?_
    rintro ⟨k, -, h⟩
    exact h.differs rfl
  · rename_i hne
    have hcommon := differBehind_commonStart newline hne
    rw [Option.some.injEq]
    constructor
    · rintro rfl
      exact ⟨_, rfl, hcommon⟩
    · rintro ⟨k, rfl, h⟩
      rw [hcommon.unique h]

theorem firstDivergentLineBy_comm (newline : α) (actual expected : List α) :
    firstDivergentLineBy newline actual expected =
      firstDivergentLineBy newline expected actual := by
  refine Option.ext fun n => ?_
  rw [firstDivergentLineBy_eq_some_iff, firstDivergentLineBy_eq_some_iff]
  exact exists_congr fun k => and_congr_right fun _ => ⟨.symm, .symm⟩

end Lines

/-! ## Texts -/

/-- Bytes and characters first differ in the same line, also where two characters that differ
have bytes in common. -/
theorem firstDivergentLine_eq_by_characters (actual expected : String) :
    firstDivergentLine actual expected =
      firstDivergentLineBy '\n' actual.toList expected.toList := by
  have hbytes : firstDivergentLine actual expected =
      firstDivergentLineBy 10 (Text.utf8 actual.toList) (Text.utf8 expected.toList) := rfl
  rw [hbytes]
  refine Option.ext fun n => ?_
  rw [firstDivergentLineBy_eq_some_iff, firstDivergentLineBy_eq_some_iff,
    Text.piecesAfter_utf8, Text.piecesAfter_utf8]
  refine exists_congr fun k => and_congr_right fun _ => ?_
  exact DifferBehind.map_iff (fun _ _ => Text.utf8_injective) Text.getLast?_utf8_eq_newline_iff

/-- A case passes exactly if no line is told, and then its output is the expected one byte for
byte. Otherwise the line that is told is the first in which the texts differ: the lines
before it are complete and the same, and it is not the same in both or is in one of them only.
The texts can change places, and characters can be compared instead of bytes. -/
theorem the_line_told_is_the_first_that_differs (command actual expected : String) :
    (firstDivergentLine actual expected = none ↔
      Case.judge ⟨command, expected⟩ actual = .ok ()) ∧
    (firstDivergentLine actual expected = none ↔
      Text.utf8 actual.toList = Text.utf8 expected.toList) ∧
    (∀ n, firstDivergentLine actual expected = some n ↔
      ∃ k, n = k + 1 ∧
        DifferBehind '\n' (Text.pieces actual.toList) (Text.pieces expected.toList) k) ∧
    firstDivergentLine actual expected = firstDivergentLine expected actual ∧
    firstDivergentLine actual expected =
      firstDivergentLineBy '\n' actual.toList expected.toList := by
  have hchars := firstDivergentLine_eq_by_characters actual expected
  refine ⟨?_, firstDivergentLineBy_eq_none_iff _ _ _, fun n => ?_, ?_, hchars⟩
  · rw [hchars, firstDivergentLineBy_eq_none_iff, String.toList_inj]
    unfold Case.judge
    split <;> simp_all
  · rw [hchars]
    exact firstDivergentLineBy_eq_some_iff '\n' actual.toList expected.toList n
  · exact firstDivergentLineBy_comm _ _ _

/-- Two characters that share their first byte, in a line behind one that is the same. -/
example : firstDivergentLine "a\nb\u00e9\n" "a\nb\u00e8\n" = some 2 := by decide +kernel

end Transcript

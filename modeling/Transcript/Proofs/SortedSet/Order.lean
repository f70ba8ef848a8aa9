-- The order of the members of a set: by score in the total order of the numbers of 64 bits,
-- and by the bytes of the name where the scores are the same. The order that the set
-- computes with, on ranks and on characters, is this one.
import Mathlib.Tactic.SplitIfs
import Transcript.Proofs.Text.Utf8
import Transcript.SortedSet

namespace Transcript

/-! ## The total order of the numbers -/

namespace Binary64

/-- `a` comes before `b`: numbers with the sign bit come before those without it, with it
the larger magnitude comes first, and without it the smaller one. -/
inductive TotalBefore (a b : Binary64) : Prop where
  | signs : a.isNegative = true → b.isNegative = false → TotalBefore a b
  | negative : a.isNegative = true → b.isNegative = true → b.magnitude < a.magnitude →
      TotalBefore a b
  | nonnegative : a.isNegative = false → b.isNegative = false → a.magnitude < b.magnitude →
      TotalBefore a b

theorem totalBefore_iff_rank_lt (a b : Binary64) : a.TotalBefore b ↔ a.rank < b.rank := by
  unfold rank
  cases ha : a.isNegative <;> cases hb : b.isNegative
  · constructor
    · rintro (⟨h, -⟩ | ⟨h, -⟩ | ⟨-, -, h⟩) <;> simp_all
    · intro h
      exact .nonnegative ha hb (by simpa using h)
  · constructor
    · rintro (⟨-, h⟩ | ⟨h, -⟩ | ⟨-, h⟩) <;> simp_all
    · intro h
      simp only [Bool.false_eq_true, if_false, if_true] at h
      omega
  · constructor
    · intro
      simp only [Bool.false_eq_true, if_false, if_true]
      omega
    · exact fun _ => .signs ha hb
  · constructor
    · rintro (⟨-, h⟩ | ⟨-, -, h⟩ | ⟨h, -⟩)
      · simp_all
      · simp only [if_true]
        omega
      · simp_all
    · intro h
      simp only [if_true] at h
      exact .negative ha hb (by omega)

/-- Numbers of one rank have the same bits: zero and minus zero are told apart, and so are
values that stand for no number. -/
theorem rank_injective {a b : Binary64} (h : a.rank = b.rank) : a = b := by
  obtain ⟨x⟩ := a
  obtain ⟨y⟩ := b
  have hx := x.toNat_lt
  have hy := y.toNat_lt
  have htwo : twoTo 63 = 9223372036854775808 := by decide
  simp only [rank, isNegative, magnitude, htwo, decide_eq_true_eq] at h
  have hxy : x.toNat = y.toNat := by
    split at h <;> split at h <;> omega
  rw [UInt64.toNat_inj.mp hxy]

end Binary64

/-! ## Names -/

theorem nameBefore_irrefl (s : List Char) : nameBefore s s = false := by
  induction s with
  | nil => rfl
  | cons c s ih => simpa [nameBefore] using ih

theorem nameBefore_trans {a b c : List Char} (hab : nameBefore a b = true)
    (hbc : nameBefore b c = true) : nameBefore a c = true := by
  induction a generalizing b c with
  | nil => cases b <;> cases c <;> simp_all [nameBefore]
  | cons x a ih =>
    rcases b with _ | ⟨y, b⟩
    · simp [nameBefore] at hab
    rcases c with _ | ⟨z, c⟩
    · simp [nameBefore] at hbc
    simp only [nameBefore] at hab hbc ⊢
    by_cases hxy : x = y
    · subst hxy
      by_cases hxz : x = z
      · simp only [hxz, if_true] at hab hbc ⊢
        exact ih hab hbc
      · simpa [hxz] using hbc
    · simp only [hxy, if_false, decide_eq_true_eq] at hab
      by_cases hyz : y = z
      · subst hyz
        simpa [hxy] using hab
      · simp only [hyz, if_false, decide_eq_true_eq] at hbc
        have hxz : x ≠ z := fun h => by subst h; omega
        simp only [hxz, if_false, decide_eq_true_eq]
        omega

theorem nameBefore_trichotomy (a b : List Char) :
    nameBefore a b = true ∨ a = b ∨ nameBefore b a = true := by
  induction a generalizing b with
  | nil => cases b <;> simp [nameBefore]
  | cons x a ih =>
    rcases b with _ | ⟨y, b⟩
    · simp [nameBefore]
    · by_cases hxy : x = y
      · subst hxy
        simpa [nameBefore] using ih b
      · have hne : x.toNat ≠ y.toNat := fun h => hxy (Char.toNat_inj.mp h)
        simp only [nameBefore, hxy, Ne.symm hxy, if_false, decide_eq_true_eq]
        omega

/-! ## Bytes -/

theorem ofNat_cons_lt_ofNat_cons {x y : Nat} {u v : List UInt8} (hy : y < 256) (hle : x ≤ y)
    (h : x = y → u < v) : UInt8.ofNat x :: u < UInt8.ofNat y :: v := by
  rw [List.cons_lt_cons_iff]
  rcases Nat.lt_or_eq_of_le hle with hlt | heq
  · left
    rw [UInt8.lt_iff_toNat_lt, UInt8.toNat_ofNat', UInt8.toNat_ofNat']
    omega
  · exact .inr ⟨by rw [heq], h heq⟩

/-- A smaller character has smaller bytes, whatever follows. -/
theorem utf8Char_append_lt {a b : Char} (h : a.toNat < b.toNat) (s t : List UInt8) :
    Text.utf8Char a ++ s < Text.utf8Char b ++ t := by
  have hb := Text.toNat_range b
  simp only [Text.utf8Char]
  generalize a.toNat = n at h ⊢
  generalize b.toNat = m at h hb ⊢
  split_ifs
  all_goals
    simp only [List.cons_append, List.nil_append]
    repeat refine ofNat_cons_lt_ofNat_cons (by omega) (by omega) fun _ => ?_
    exfalso
    omega

theorem utf8_lt_of_nameBefore {a b : List Char} (h : nameBefore a b = true) :
    Text.utf8 a < Text.utf8 b := by
  induction a generalizing b with
  | nil =>
    rcases b with _ | ⟨y, b⟩
    · simp [nameBefore] at h
    · have hne : Text.utf8 (y :: b) ≠ [] := by
        simp only [Text.utf8, List.flatMap_cons, Text.utf8Char]
        split_ifs <;> simp
      obtain ⟨x, xs, hx⟩ := List.exists_cons_of_ne_nil hne
      rw [hx]
      exact List.nil_lt_cons x xs
  | cons x a ih =>
    rcases b with _ | ⟨y, b⟩
    · simp [nameBefore] at h
    · simp only [nameBefore] at h
      by_cases hxy : x = y
      · subst hxy
        exact List.append_left_lt (ih (by simpa using h))
      · exact utf8Char_append_lt (by simpa [hxy] using h) _ _

/-- The order of the characters is the order of the bytes. -/
theorem utf8_lt_iff_nameBefore (a b : List Char) :
    Text.utf8 a < Text.utf8 b ↔ nameBefore a b = true := by
  refine ⟨fun h => ?_, utf8_lt_of_nameBefore⟩
  rcases nameBefore_trichotomy a b with hab | rfl | hba
  · exact hab
  · exact absurd h (List.lt_irrefl _)
  · exact absurd h (List.lt_asymm (utf8_lt_of_nameBefore hba))

/-! ## Members -/

namespace Member

/-- `a` comes before `b`: by score, and by the bytes of the name where the scores are the same. -/
def Precedes (a b : Member) : Prop :=
  a.score.TotalBefore b.score ∨
    a.score = b.score ∧ Text.utf8 a.name.toList < Text.utf8 b.name.toList

theorem precedes_iff_before (a b : Member) : a.Precedes b ↔ a.before b = true := by
  unfold Precedes before
  rw [Binary64.totalBefore_iff_rank_lt, utf8_lt_iff_nameBefore]
  by_cases h : a.score.rank = b.score.rank
  · simp [Binary64.rank_injective h]
  · have hne : a.score ≠ b.score := fun hs => h (by rw [hs])
    simp [h, hne]

theorem precedes_irrefl (a : Member) : ¬ a.Precedes a := by
  simp [precedes_iff_before, before, nameBefore_irrefl]

theorem Precedes.trans {a b c : Member} (hab : a.Precedes b) (hbc : b.Precedes c) :
    a.Precedes c := by
  simp only [precedes_iff_before, before] at hab hbc ⊢
  by_cases h : a.score.rank = b.score.rank <;> by_cases h' : b.score.rank = c.score.rank
  · simp only [h, h', if_true] at hab hbc ⊢
    exact nameBefore_trans hab hbc
  · simp_all
  · have hac : a.score.rank ≠ c.score.rank := fun e => h (e.trans h'.symm)
    simp_all
  · simp only [h, h', if_false, decide_eq_true_eq] at hab hbc
    have hac : a.score.rank ≠ c.score.rank := by omega
    simp only [hac, if_false, decide_eq_true_eq]
    omega

theorem precedes_trichotomy (a b : Member) : a.Precedes b ∨ a = b ∨ b.Precedes a := by
  simp only [precedes_iff_before, before]
  by_cases h : a.score.rank = b.score.rank
  · simp only [h, if_true]
    rcases nameBefore_trichotomy a.name.toList b.name.toList with hab | hab | hba
    · exact .inl hab
    · right; left
      obtain ⟨sa, na⟩ := a
      obtain ⟨sb, nb⟩ := b
      rw [Member.mk.injEq]
      exact ⟨Binary64.rank_injective h, String.toList_inj.mp hab⟩
    · exact .inr (.inr hba)
  · simp only [h, Ne.symm h, if_false, decide_eq_true_eq]
    omega

end Member

end Transcript

-- The number nearest to a ratio. The scale of a positive ratio and the whole number that it is
-- rounded to there are the only ones, so the nearest number depends on the ratio alone, and it is
-- found from any ratio in the interval of a number.
import Mathlib.Algebra.Order.Field.Power
import Mathlib.Data.Rat.Cast.Order
import Mathlib.Tactic.FieldSimp
import Mathlib.Tactic.Linarith
import Mathlib.Tactic.NormNum
import Mathlib.Tactic.Positivity
import Mathlib.Tactic.Ring
import Transcript.Decimal.Shortest

namespace Transcript

/-! ## Powers -/

theorem cast_twoTo (n : Nat) : (twoTo n : ℚ) = 2 ^ n := Nat.cast_pow 2 n

theorem cast_tenTo (n : Nat) : (tenTo n : ℚ) = 10 ^ n := Nat.cast_pow 10 n

theorem twoTo_pos (n : Nat) : 0 < twoTo n := Nat.two_pow_pos n

theorem tenTo_pos (n : Nat) : 0 < tenTo n := Nat.pow_pos (by decide)

/-- A power of any sign is a quotient of powers. -/
theorem pow_div_pow_toNat (b : ℚ) (e : ℤ) :
    b ^ e.toNat / b ^ (-e).toNat = b ^ e := by
  rcases Int.le_total 0 e with he | he
  · obtain ⟨n, rfl⟩ := Int.eq_ofNat_of_zero_le he
    simp
  · obtain ⟨n, rfl⟩ : ∃ n : Nat, e = -n := ⟨(-e).toNat, by omega⟩
    simp

theorem twoTo_div_twoTo (e : ℤ) : (twoTo e.toNat : ℚ) / twoTo (-e).toNat = 2 ^ e := by
  rw [cast_twoTo, cast_twoTo]
  exact pow_div_pow_toNat 2 e

theorem tenTo_div_tenTo (e : ℤ) : (tenTo e.toNat : ℚ) / tenTo (-e).toNat = 10 ^ e := by
  rw [cast_tenTo, cast_tenTo]
  exact pow_div_pow_toNat 10 e

theorem two_zpow_pos (e : ℤ) : (0 : ℚ) < 2 ^ e := zpow_pos two_pos e

theorem two_zpow_add (e f : ℤ) : (2 : ℚ) ^ (e + f) = 2 ^ e * 2 ^ f := zpow_add₀ two_ne_zero e f

theorem two_zpow_le {e f : ℤ} (h : e ≤ f) : (2 : ℚ) ^ e ≤ 2 ^ f :=
  zpow_le_zpow_right₀ one_le_two h

namespace Binary64

/-! ## Scales -/

/-- The scale of a positive ratio: the power of two at which it has 53 digits before the point, or
the least one. -/
structure IsScale (r : ℚ) (e : ℤ) : Prop where
  least : -1074 ≤ e
  below : r < 2 ^ 53 * 2 ^ e
  above : e = -1074 ∨ 2 ^ 52 * 2 ^ e ≤ r

theorem IsScale.le {r : ℚ} {e f : ℤ} (he : IsScale r e) (hf : IsScale r f) : e ≤ f := by
  by_contra hlt
  have habove := he.above.resolve_left (by have := hf.least; omega)
  have hstep : (2 : ℚ) ^ (f + 1) ≤ 2 ^ e := two_zpow_le (by omega)
  rw [two_zpow_add, zpow_one] at hstep
  have hbelow := hf.below
  linarith

theorem IsScale.unique {r : ℚ} {e f : ℤ} (he : IsScale r e) (hf : IsScale r f) : e = f :=
  le_antisymm (he.le hf) (hf.le he)

/-- The logarithms of a ratio's parts bound the ratio. -/
theorem ratio_bounds {num den : Nat} (hnum : 0 < num) (hden : 0 < den) :
    (2 : ℚ) ^ ((num.log2 : ℤ) - den.log2 - 1) < num / den ∧
      (num : ℚ) / den < 2 ^ ((num.log2 : ℤ) - den.log2 + 1) := by
  have hnumlow : ((2 ^ num.log2 : Nat) : ℚ) ≤ num := by
    exact_mod_cast Nat.log2_self_le hnum.ne'
  have hnumhigh : (num : ℚ) < (2 ^ (num.log2 + 1) : Nat) := by exact_mod_cast Nat.lt_log2_self
  have hdenlow : ((2 ^ den.log2 : Nat) : ℚ) ≤ den := by
    exact_mod_cast Nat.log2_self_le hden.ne'
  have hdenhigh : (den : ℚ) < (2 ^ (den.log2 + 1) : Nat) := by exact_mod_cast Nat.lt_log2_self
  have hdenpos : (0 : ℚ) < den := by exact_mod_cast hden
  push_cast [← zpow_natCast] at hnumlow hnumhigh hdenlow hdenhigh
  constructor
  · rw [lt_div_iff₀ hdenpos]
    calc (2 : ℚ) ^ ((num.log2 : ℤ) - den.log2 - 1) * den
        < 2 ^ ((num.log2 : ℤ) - den.log2 - 1) * 2 ^ ((den.log2 : ℤ) + 1) :=
          mul_lt_mul_of_pos_left hdenhigh (two_zpow_pos _)
      _ = 2 ^ (num.log2 : ℤ) := by rw [← two_zpow_add]; congr 1; ring
      _ ≤ num := hnumlow
  · rw [div_lt_iff₀ hdenpos]
    calc (num : ℚ) < 2 ^ ((num.log2 : ℤ) + 1) := hnumhigh
      _ = 2 ^ ((num.log2 : ℤ) - den.log2 + 1) * 2 ^ (den.log2 : ℤ) := by
          rw [← two_zpow_add]; congr 1; ring
      _ ≤ 2 ^ ((num.log2 : ℤ) - den.log2 + 1) * den :=
          mul_le_mul_of_nonneg_left hdenlow (two_zpow_pos _).le

/-- A ratio at a scale, as whole numbers. -/
theorem scaled_ratio (num den : Nat) (e : ℤ) :
    ((num * twoTo (-e).toNat : Nat) : ℚ) / ((den * twoTo e.toNat : Nat) : ℚ) =
      num / den / 2 ^ e := by
  rw [← twoTo_div_twoTo e]
  push_cast
  have h1 : (twoTo e.toNat : ℚ) ≠ 0 := by exact_mod_cast (twoTo_pos _).ne'
  have h2 : (twoTo (-e).toNat : ℚ) ≠ 0 := by exact_mod_cast (twoTo_pos _).ne'
  by_cases hden : (den : ℚ) = 0
  · simp [hden]
  · field_simp

/-- The power of two behind the logarithms is the scale or one above it. -/
theorem isScale_of_guess {r : ℚ} {g : ℤ} (hlow : 2 ^ (g + 51) < r) (hhigh : r < 2 ^ (g + 53)) :
    IsScale r (if r < 2 ^ 52 * 2 ^ max g (-1074) then max (max g (-1074) - 1) (-1074)
      else max g (-1074)) := by
  have hsplit : ∀ e n : ℤ, (2 : ℚ) ^ (e + n) = 2 ^ n * 2 ^ e := fun e n => by
    rw [two_zpow_add, mul_comm]
  have hhalf : (2 : ℚ) ^ (-1 : ℤ) = 1 / 2 := by norm_num
  rw [hsplit] at hlow hhigh
  rcases le_or_gt (-1074) g with hg | hg
  · rw [max_eq_left hg]
    split
    · rename_i hbelow
      rcases eq_or_lt_of_le hg with rfl | hlt
      · refine ⟨by decide, ?_, .inl (by decide)⟩
        exact hhigh
      · rw [max_eq_left (by omega)]
        refine ⟨by omega, ?_, .inr ?_⟩
        · rw [sub_eq_add_neg, hsplit, hhalf]
          linarith
        · rw [sub_eq_add_neg, hsplit, hhalf]
          linarith
    · rename_i habove
      exact ⟨hg, hhigh, .inr (not_lt.mp habove)⟩
  · have hleast : (2 : ℚ) ^ g ≤ 2 ^ (-1074 : ℤ) := two_zpow_le hg.le
    rw [max_eq_right hg.le, show max ((-1074 : ℤ) - 1) (-1074) = -1074 by decide, ite_self]
    refine ⟨le_refl _, ?_, .inl rfl⟩
    linarith

/-- The scale that is taken is the scale of the ratio. -/
theorem isScale_scaleOf {num den : Nat} (hnum : 0 < num) (hden : 0 < den) :
    IsScale (num / den) (scaleOf num den) := by
  have hbelow : ∀ e : ℤ, num * twoTo (-e).toNat < twoTo 52 * (den * twoTo e.toNat) ↔
      (num : ℚ) / den < 2 ^ 52 * 2 ^ e := by
    intro e
    have hpos : (0 : ℚ) < ((den * twoTo e.toNat : Nat) : ℚ) := by
      exact_mod_cast Nat.mul_pos hden (twoTo_pos _)
    rw [← div_lt_iff₀ (two_zpow_pos e), ← scaled_ratio, div_lt_iff₀ hpos, ← cast_twoTo]
    exact_mod_cast Iff.rfl
  obtain ⟨hlow, hhigh⟩ := ratio_bounds hnum hden
  unfold scaleOf
  dsimp only
  rw [if_congr (hbelow _) rfl rfl]
  exact isScale_of_guess (by convert hlow using 2; ring) (by convert hhigh using 2; ring)

/-! ## Rounding -/

/-- The whole number that a value is rounded to: at most a half away, and an even one at a
half. -/
structure Rounds (r : ℚ) (q : Nat) : Prop where
  low : 2 * (q : ℚ) - 1 ≤ 2 * r
  high : 2 * r ≤ 2 * q + 1
  tie : q % 2 = 1 → 2 * (q : ℚ) - 1 < 2 * r ∧ 2 * r < 2 * q + 1

theorem Rounds.le {r : ℚ} {p q : Nat} (hp : Rounds r p) (hq : Rounds r q) : p ≤ q := by
  by_contra hlt
  have hle : p ≤ q + 1 := by
    have h : (2 * (p : ℚ) - 1) ≤ 2 * q + 1 := hp.low.trans hq.high
    have h' : (p : ℚ) ≤ (q + 1 : Nat) := by push_cast; linarith
    exact_mod_cast h'
  obtain rfl : p = q + 1 := by omega
  have hlow := hp.low
  have hhigh := hq.high
  push_cast at hlow
  rcases Nat.mod_two_eq_zero_or_one q with heven | hodd
  · have := (hp.tie (by omega)).1
    push_cast at this
    linarith
  · have := (hq.tie hodd).2
    linarith

theorem Rounds.unique {r : ℚ} {p q : Nat} (hp : Rounds r p) (hq : Rounds r q) : p = q :=
  Nat.le_antisymm (hp.le hq) (hq.le hp)

/-- A whole number is rounded to itself. -/
theorem rounds_natCast (n : Nat) : Rounds n n :=
  ⟨by linarith, by linarith, fun _ => ⟨by linarith, by linarith⟩⟩

/-- Rounding of a quotient, in whole numbers. -/
theorem rounds_div {num den q : Nat} (hden : 0 < den) (hlow : 2 * (q * den) ≤ 2 * num + den)
    (hhigh : 2 * num ≤ 2 * (q * den) + den)
    (htie : q % 2 = 1 → 2 * (q * den) < 2 * num + den ∧ 2 * num < 2 * (q * den) + den) :
    Rounds (num / den) q := by
  have hpos : (0 : ℚ) < den := by exact_mod_cast hden
  have hlow' : (2 * (q * den) : ℚ) ≤ 2 * num + den := by exact_mod_cast hlow
  have hhigh' : (2 * num : ℚ) ≤ 2 * (q * den) + den := by exact_mod_cast hhigh
  refine ⟨?_, ?_, fun hodd => ?_⟩
  · rw [← mul_div_assoc, le_div_iff₀ hpos]
    linarith
  · rw [← mul_div_assoc, div_le_iff₀ hpos]
    linarith
  · obtain ⟨hlt, hgt⟩ := htie hodd
    have hlt' : (2 * (q * den) : ℚ) < 2 * num + den := by exact_mod_cast hlt
    have hgt' : (2 * num : ℚ) < 2 * (q * den) + den := by exact_mod_cast hgt
    constructor
    · rw [← mul_div_assoc, lt_div_iff₀ hpos]
      linarith
    · rw [← mul_div_assoc, div_lt_iff₀ hpos]
      linarith

/-- Division rounds the quotient. -/
theorem rounds_roundDiv (num : Nat) {den : Nat} (hden : 0 < den) :
    Rounds (num / den) (roundDiv num den) := by
  have hsplit : num = num / den * den + num % den := (Nat.div_add_mod' num den).symm
  have hrest : num % den < den := Nat.mod_lt num hden
  have hnext : (num / den + 1) * den = num / den * den + den := by rw [Nat.add_mul, Nat.one_mul]
  unfold roundDiv
  dsimp only
  split
  · refine rounds_div hden ?_ ?_ fun hodd => ?_ <;> rw [hnext] <;> omega
  · refine rounds_div hden ?_ ?_ fun hodd => ?_ <;> omega

/-! ## The nearest number -/

/-- The number nearest to a ratio is the ratio rounded at its scale. -/
theorem magnitudeOfRatio_eq {num den q : Nat} {e : ℤ} (hnum : 0 < num) (hden : 0 < den)
    (hscale : IsScale (num / den) e) (hround : Rounds (num / den / 2 ^ e) q) :
    magnitudeOfRatio num den = min ((e + 1074).toNat * twoTo 52 + q) infinityMagnitude := by
  obtain rfl := (isScale_scaleOf hnum hden).unique hscale
  have hrounds := rounds_roundDiv (num * twoTo (-scaleOf num den).toNat)
    (Nat.mul_pos hden (twoTo_pos (scaleOf num den).toNat))
  rw [scaled_ratio] at hrounds
  unfold magnitudeOfRatio
  dsimp only
  rw [hrounds.unique hround]

/-! ## Parts of a number -/

theorem magnitude_lt (x : Binary64) : x.magnitude < twoTo 63 := Nat.mod_lt _ (twoTo_pos 63)

theorem toNat_bits_ofMagnitude (negative : Bool) {m : Nat} (h : m < twoTo 63) :
    (ofMagnitude negative m).bits.toNat = (if negative then twoTo 63 else 0) + m := by
  have htwo : twoTo 63 = 9223372036854775808 := rfl
  rw [ofMagnitude, UInt64.toNat_ofNat']
  refine Nat.mod_eq_of_lt ?_
  split <;> omega

theorem magnitude_ofMagnitude (negative : Bool) {m : Nat} (h : m < twoTo 63) :
    (ofMagnitude negative m).magnitude = m := by
  rw [magnitude, toNat_bits_ofMagnitude negative h]
  split
  · rw [Nat.add_mod_left, Nat.mod_eq_of_lt h]
  · rw [Nat.zero_add, Nat.mod_eq_of_lt h]

theorem isNegative_ofMagnitude (negative : Bool) {m : Nat} (h : m < twoTo 63) :
    (ofMagnitude negative m).isNegative = negative := by
  rw [isNegative, toNat_bits_ofMagnitude negative h]
  cases negative
  · simpa using h
  · simp

/-- A number is its sign and its magnitude. -/
theorem ofMagnitude_magnitude (x : Binary64) : ofMagnitude x.isNegative x.magnitude = x := by
  have htwo : twoTo 63 = 9223372036854775808 := rfl
  have hbits := x.bits.toNat_lt
  have heq : (ofMagnitude x.isNegative x.magnitude).bits.toNat = x.bits.toNat := by
    rw [toNat_bits_ofMagnitude _ x.magnitude_lt]
    simp only [isNegative, magnitude, htwo, decide_eq_true_eq]
    split <;> omega
  exact congrArg Binary64.mk (UInt64.toNat_inj.mp heq)

theorem infinityMagnitude_lt : infinityMagnitude < twoTo 63 := by decide

theorem magnitude_lt_of_isFinite {x : Binary64} (h : x.isFinite = true) :
    x.magnitude < infinityMagnitude := of_decide_eq_true h

theorem isFinite_ofMagnitude (negative : Bool) {m : Nat} (h : m < infinityMagnitude) :
    (ofMagnitude negative m).isFinite = true := by
  rw [isFinite, magnitude_ofMagnitude negative (h.trans infinityMagnitude_lt)]
  exact decide_eq_true h

theorem neg_ofMagnitude (negative : Bool) {m : Nat} (h : m < twoTo 63) :
    (ofMagnitude negative m).neg = ofMagnitude (!negative) m := by
  rw [neg, isNegative_ofMagnitude negative h, magnitude_ofMagnitude negative h]

theorem least_le_exponent (x : Binary64) : -1074 ≤ x.exponent := by
  unfold exponent
  omega

theorem exponent_le {x : Binary64} (h : x.isFinite = true) : x.exponent ≤ 971 := by
  have hlt := magnitude_lt_of_isFinite h
  rw [infinityMagnitude, Nat.mul_comm] at hlt
  have hfield : x.exponentField < 0x7ff := Nat.div_lt_of_lt_mul hlt
  unfold exponent
  omega

theorem significand_lt (x : Binary64) : x.significand < twoTo 53 := by
  have hmod : x.magnitude % twoTo 52 < twoTo 52 := Nat.mod_lt _ (twoTo_pos 52)
  have htwo : twoTo 53 = twoTo 52 + twoTo 52 := rfl
  unfold significand
  split
  · rename_i hfield
    have hlt : x.magnitude < twoTo 52 := (Nat.div_eq_zero_iff_lt (twoTo_pos 52)).mp hfield
    omega
  · omega

/-- Only at the least exponent a significand can have fewer than 53 digits. -/
theorem least_or_le_significand (x : Binary64) :
    x.exponentField ≤ 1 ∧ x.exponent = -1074 ∨ 1 < x.exponentField ∧ twoTo 52 ≤ x.significand := by
  unfold significand exponent
  split <;> omega

theorem magnitude_eq (x : Binary64) :
    x.magnitude = (x.exponent + 1074).toNat * twoTo 52 + x.significand := by
  have hsplit : x.magnitude = x.exponentField * twoTo 52 + x.magnitude % twoTo 52 :=
    (Nat.div_add_mod' _ _).symm
  unfold significand exponent
  split
  · rename_i hfield
    rw [hfield]
    simp
  · rename_i hfield
    obtain ⟨n, hn⟩ := Nat.exists_eq_succ_of_ne_zero hfield
    have hpower : (((max n.succ 1 : Nat) : ℤ) - 1075 + 1074).toNat = n := by omega
    rw [hn, Nat.succ_mul] at hsplit
    rw [hn, hpower]
    omega

/-- The parts of a number made of a significand and an exponent. -/
theorem ofMagnitude_parts (negative : Bool) {q : Nat} {e : ℤ} (he : -1074 ≤ e) (hq : q < twoTo 53)
    (hnormal : e = -1074 ∨ twoTo 52 ≤ q)
    (hsmall : (e + 1074).toNat * twoTo 52 + q < twoTo 63) :
    (ofMagnitude negative ((e + 1074).toNat * twoTo 52 + q)).significand = q ∧
      (ofMagnitude negative ((e + 1074).toNat * twoTo 52 + q)).exponent = e := by
  obtain ⟨n, rfl⟩ : ∃ n : Nat, e = n - 1074 := ⟨(e + 1074).toNat, by omega⟩
  have hn : ((n : ℤ) - 1074 + 1074).toNat = n := by omega
  rw [hn] at hsmall ⊢
  have htwo : twoTo 53 = twoTo 52 + twoTo 52 := rfl
  unfold significand exponent exponentField
  rw [magnitude_ofMagnitude negative hsmall]
  by_cases hq52 : q < twoTo 52
  · obtain rfl : n = 0 := by omega
    rw [Nat.zero_mul, Nat.zero_add, Nat.div_eq_of_lt hq52, if_pos rfl]
    exact ⟨rfl, rfl⟩
  · obtain ⟨r, rfl⟩ : ∃ r, q = twoTo 52 + r := ⟨q - twoTo 52, by omega⟩
    have hr : r < twoTo 52 := by omega
    have hsplit : n * twoTo 52 + (twoTo 52 + r) = r + twoTo 52 * (n + 1) := by ring
    rw [hsplit, Nat.add_mul_div_left _ _ (twoTo_pos 52), Nat.div_eq_of_lt hr,
      Nat.add_mul_mod_self_left, Nat.mod_eq_of_lt hr, Nat.zero_add, if_neg (Nat.succ_ne_zero n)]
    exact ⟨Nat.add_comm _ _, by omega⟩

theorem significand_pos {x : Binary64} (h : 0 < x.magnitude) : 0 < x.significand := by
  unfold significand
  split
  · exact h
  · exact Nat.add_pos_right _ (twoTo_pos 52)

/-- The value of a finite number without its sign. -/
def value (x : Binary64) : ℚ := x.significand * 2 ^ x.exponent

/-! ## The interval of a number -/

/-- The value lies in the interval of the number. -/
structure Holds (x : Binary64) (r : ℚ) : Prop where
  low : (Decimal.Interval.of x).low * 2 ^ (x.exponent - 2) ≤ r
  high : r ≤ (Decimal.Interval.of x).high * 2 ^ (x.exponent - 2)
  inside : x.significand % 2 = 1 →
    (Decimal.Interval.of x).low * 2 ^ (x.exponent - 2) < r ∧
      r < (Decimal.Interval.of x).high * 2 ^ (x.exponent - 2)

theorem low_of_pos {x : Binary64} (h : 0 < x.magnitude) :
    ((Decimal.Interval.of x).low : ℚ) =
      if x.significand = twoTo 52 ∧ 1 < x.exponentField then 4 * (x.significand : ℚ) - 1
      else 4 * (x.significand : ℚ) - 2 := by
  have hpos := significand_pos h
  unfold Decimal.Interval.of
  dsimp only
  split
  · rw [Nat.cast_sub (by omega)]
    push_cast
    rfl
  · rw [Nat.cast_sub (by omega)]
    push_cast
    rfl

theorem high_eq (x : Binary64) :
    ((Decimal.Interval.of x).high : ℚ) = 4 * (x.significand : ℚ) + 2 := by
  unfold Decimal.Interval.of
  push_cast
  rfl

theorem quarter (e : ℤ) : (2 : ℚ) ^ e = 4 * 2 ^ (e - 2) := by
  have htwo : (2 : ℚ) ^ (2 : ℤ) = 4 := by norm_num
  rw [← htwo, ← two_zpow_add]
  congr 1
  ring

theorem one_le_significand {x : Binary64} (h : 0 < x.magnitude) : (1 : ℚ) ≤ x.significand := by
  exact_mod_cast significand_pos h

theorem low_le {x : Binary64} (h : 0 < x.magnitude) :
    4 * (x.significand : ℚ) - 2 ≤ (Decimal.Interval.of x).low := by
  rw [low_of_pos h]
  split <;> linarith

theorem Holds.pos {x : Binary64} {r : ℚ} (h : x.Holds r) (hpos : 0 < x.magnitude) : 0 < r := by
  have hsignificand := one_le_significand hpos
  have hlow : (0 : ℚ) < (Decimal.Interval.of x).low := by linarith [low_le hpos]
  exact (mul_pos hlow (two_zpow_pos _)).trans_le h.low

/-- A value of the interval that is not below the first number of the scale is rounded at the
scale of the number. -/
theorem Holds.rounds {x : Binary64} {r : ℚ} (h : x.Holds r) (hpos : 0 < x.magnitude)
    (habove : x.exponent = -1074 ∨ 2 ^ 52 * 2 ^ x.exponent ≤ r) :
    IsScale r x.exponent ∧ Rounds (r / 2 ^ x.exponent) x.significand := by
  have hlarge : (x.significand : ℚ) + 1 ≤ 2 ^ 53 := by
    rw [← cast_twoTo]
    exact_mod_cast x.significand_lt
  have hunit := two_zpow_pos (x.exponent - 2)
  have hlowest := mul_le_mul_of_nonneg_right (low_le hpos) hunit.le
  obtain ⟨hlow, hhigh, hinside⟩ := h
  rw [high_eq] at hhigh hinside
  refine ⟨⟨x.least_le_exponent, ?_, habove⟩, ?_, ?_, fun hodd => ?_⟩
  · rw [quarter]
    nlinarith
  · rw [← mul_div_assoc, le_div_iff₀ (two_zpow_pos _), quarter]
    linarith
  · rw [← mul_div_assoc, div_le_iff₀ (two_zpow_pos _), quarter]
    linarith
  · obtain ⟨hlt, hgt⟩ := hinside hodd
    rw [← mul_div_assoc, lt_div_iff₀ (two_zpow_pos _), div_lt_iff₀ (two_zpow_pos _), quarter]
    constructor <;> linarith

/-- A value of the interval below the first number of the scale is rounded up to it. -/
theorem Holds.rounds_up {x : Binary64} {r : ℚ} (h : x.Holds r) (hpos : 0 < x.magnitude)
    (hnormal : 1 < x.exponentField ∧ twoTo 52 ≤ x.significand)
    (hbelow : r < 2 ^ 52 * 2 ^ x.exponent) :
    x.significand = twoTo 52 ∧ IsScale r (x.exponent - 1) ∧
      Rounds (r / 2 ^ (x.exponent - 1)) (twoTo 53) := by
  have hunit := two_zpow_pos (x.exponent - 2)
  have hhalf : (2 : ℚ) ^ (x.exponent - 1) = 2 * 2 ^ (x.exponent - 2) := by
    rw [← zpow_one_add₀ two_ne_zero]
    congr 1
    ring
  have hlowest := mul_le_mul_of_nonneg_right (low_le hpos) hunit.le
  have hfirst : x.significand = twoTo 52 := by
    by_contra hne
    have hmore : (2 : ℚ) ^ 52 + 1 ≤ x.significand := by
      rw [← cast_twoTo]
      exact_mod_cast Nat.lt_of_le_of_ne hnormal.2 (Ne.symm hne)
    have hlow := h.low
    rw [quarter] at hbelow
    nlinarith
  have hlow := h.low
  rw [low_of_pos hpos, if_pos ⟨hfirst, hnormal.1⟩, hfirst, cast_twoTo] at hlow
  rw [quarter] at hbelow
  refine ⟨hfirst, ⟨?_, ?_, .inr ?_⟩, ?_, ?_, fun hodd => absurd hodd (by decide)⟩
  · unfold exponent
    omega
  · rw [hhalf]
    linarith
  · rw [hhalf]
    linarith
  · rw [← mul_div_assoc, le_div_iff₀ (two_zpow_pos _), hhalf, cast_twoTo]
    linarith
  · rw [← mul_div_assoc, div_le_iff₀ (two_zpow_pos _), hhalf, cast_twoTo]
    linarith

/-- A number is the nearest one to each value in its interval. -/
theorem Holds.magnitudeOfRatio_eq {x : Binary64} {num den : Nat} (h : x.Holds (num / den))
    (hfinite : x.isFinite = true) (hpos : 0 < x.magnitude) (hden : 0 < den) :
    magnitudeOfRatio num den = x.magnitude := by
  have hmin : min x.magnitude infinityMagnitude = x.magnitude :=
    Nat.min_eq_left (magnitude_lt_of_isFinite hfinite).le
  have hnum : 0 < num := by
    have hratio := h.pos hpos
    rw [Nat.pos_iff_ne_zero]
    rintro rfl
    simp at hratio
  by_cases habove : x.exponent = -1074 ∨ 2 ^ 52 * 2 ^ x.exponent ≤ (num : ℚ) / den
  · obtain ⟨hscale, hround⟩ := h.rounds hpos habove
    rw [Binary64.magnitudeOfRatio_eq hnum hden hscale hround, ← magnitude_eq, hmin]
  · rw [not_or, not_le] at habove
    have hnormal := x.least_or_le_significand.resolve_left fun hleast => habove.1 hleast.2
    obtain ⟨hfirst, hscale, hround⟩ := h.rounds_up hpos hnormal habove.2
    have hpower : (x.exponent + 1074).toNat = (x.exponent - 1 + 1074).toNat + 1 := by
      have := hscale.least
      omega
    have hsame : (x.exponent - 1 + 1074).toNat * twoTo 52 + twoTo 53 = x.magnitude := by
      rw [magnitude_eq, hfirst, hpower, Nat.succ_mul, Nat.add_assoc]
      congr 1
    rw [Binary64.magnitudeOfRatio_eq hnum hden hscale hround, hsame, hmin]

/-- A ratio rounded at its scale, as a significand and an exponent. -/
theorem Rounds.bounds {r : ℚ} {e : ℤ} {q : Nat} (hround : Rounds (r / 2 ^ e) q)
    (hscale : IsScale r e) : q ≤ twoTo 53 ∧ (e = -1074 ∨ twoTo 52 ≤ q) := by
  have hunit := two_zpow_pos e
  have hbelow : r / 2 ^ e < 2 ^ 53 := (div_lt_iff₀ hunit).mpr hscale.below
  constructor
  · have hlow := hround.low
    have hlt : (2 * q : ℚ) < 2 * 2 ^ 53 + 1 := by linarith
    have hwhole : 2 * q < 2 * 2 ^ 53 + 1 := by exact_mod_cast hlt
    have htwo : twoTo 53 = 2 ^ 53 := rfl
    omega
  · refine hscale.above.imp_right fun habove => ?_
    have hle : 2 ^ 52 ≤ r / 2 ^ e := (le_div_iff₀ hunit).mpr habove
    have hhigh := hround.high
    have hlt : (2 * 2 ^ 52 : ℚ) ≤ 2 * q + 1 := by linarith
    have hwhole : 2 * 2 ^ 52 ≤ 2 * q + 1 := by exact_mod_cast hlt
    have htwo : twoTo 52 = 2 ^ 52 := rfl
    omega

/-- A ratio that is rounded to the significand lies in the interval. -/
theorem Rounds.holds {x : Binary64} {r : ℚ} (hround : Rounds (r / 2 ^ x.exponent) x.significand)
    (hscale : IsScale r x.exponent) (hpos : 0 < x.magnitude) : x.Holds r := by
  have hunit := two_zpow_pos (x.exponent - 2)
  obtain ⟨hlow, hhigh, htie⟩ := hround
  rw [← mul_div_assoc, le_div_iff₀ (two_zpow_pos _), quarter] at hlow
  rw [← mul_div_assoc, div_le_iff₀ (two_zpow_pos _), quarter] at hhigh
  rw [← mul_div_assoc, lt_div_iff₀ (two_zpow_pos _), div_lt_iff₀ (two_zpow_pos _), quarter] at htie
  refine ⟨?_, ?_, fun hodd => ⟨?_, ?_⟩⟩
  · rw [low_of_pos hpos]
    split
    · rename_i hfirst
      have habove := hscale.above.resolve_left fun hleast => by
        unfold exponent at hleast
        omega
      rw [quarter, ← cast_twoTo, ← hfirst.1] at habove
      linarith
    · linarith
  · rw [high_eq]
    linarith
  · have hnot : ¬(x.significand = twoTo 52 ∧ 1 < x.exponentField) := fun hfirst => by
      rw [hfirst.1] at hodd
      exact absurd hodd (by decide)
    rw [low_of_pos hpos, if_neg hnot]
    linarith [(htie hodd).1]
  · rw [high_eq]
    linarith [(htie hodd).2]

/-- A ratio that is rounded up to the first significand of the next scale lies in the interval. -/
theorem Rounds.holds_up {x : Binary64} {r : ℚ} {e : ℤ} (hround : Rounds (r / 2 ^ e) (twoTo 53))
    (hscale : IsScale r e) (hexponent : x.exponent = e + 1)
    (hsignificand : x.significand = twoTo 52) (hpos : 0 < x.magnitude) : x.Holds r := by
  have hhalf : (2 : ℚ) ^ e = 2 * 2 ^ (x.exponent - 2) := by
    rw [← zpow_one_add₀ two_ne_zero, hexponent]
    congr 1
    ring
  have hnormal : 1 < x.exponentField := by
    have hleast := hscale.least
    unfold exponent at hexponent
    omega
  have hlow := hround.low
  have hbelow := hscale.below
  rw [← mul_div_assoc, le_div_iff₀ (two_zpow_pos e), hhalf, cast_twoTo] at hlow
  rw [hhalf] at hbelow
  have hunit := two_zpow_pos (x.exponent - 2)
  refine ⟨?_, ?_, fun hodd => ?_⟩
  · rw [low_of_pos hpos, if_pos ⟨hsignificand, hnormal⟩, hsignificand, cast_twoTo]
    linarith
  · rw [high_eq, hsignificand, cast_twoTo]
    linarith
  · rw [hsignificand] at hodd
    exact absurd hodd (by decide)

/-- A ratio lies in the interval of the number nearest to it. -/
theorem holds_of_magnitudeOfRatio {x : Binary64} {num den : Nat} (hnum : 0 < num) (hden : 0 < den)
    (hfinite : x.isFinite = true) (hpos : 0 < x.magnitude)
    (h : magnitudeOfRatio num den = x.magnitude) : x.Holds (num / den) := by
  have hscale := isScale_scaleOf hnum hden
  have hround := rounds_roundDiv (num * twoTo (-scaleOf num den).toNat)
    (Nat.mul_pos hden (twoTo_pos (scaleOf num den).toNat))
  rw [scaled_ratio] at hround
  generalize roundDiv _ _ = q at hround
  generalize scaleOf num den = e at hscale hround
  have hmagnitude := magnitudeOfRatio_eq hnum hden hscale hround
  have hlt := magnitude_lt_of_isFinite hfinite
  have hparts : x.magnitude = (e + 1074).toNat * twoTo 52 + q := by
    rw [h] at hmagnitude
    omega
  obtain ⟨hq, hnormal⟩ := hround.bounds hscale
  have hsmall := x.magnitude_lt
  rcases Nat.lt_or_eq_of_le hq with hlt53 | rfl
  · have hsplit := ofMagnitude_parts x.isNegative hscale.least hlt53 hnormal (hparts ▸ hsmall)
    rw [← hparts, ofMagnitude_magnitude] at hsplit
    obtain ⟨rfl, rfl⟩ := hsplit
    exact hround.holds hscale hpos
  · have hnext : x.magnitude = (e + 1 + 1074).toNat * twoTo 52 + twoTo 52 := by
      have htwo : twoTo 53 = twoTo 52 + twoTo 52 := rfl
      have hpower : (e + 1 + 1074).toNat = (e + 1074).toNat + 1 := by
        have := hscale.least
        omega
      rw [hparts, hpower, Nat.succ_mul, htwo, Nat.add_assoc]
    have hsplit := ofMagnitude_parts x.isNegative (by have := hscale.least; omega)
      (by decide : twoTo 52 < twoTo 53) (.inr (Nat.le_refl _)) (hnext ▸ hsmall)
    rw [← hnext, ofMagnitude_magnitude] at hsplit
    exact hround.holds_up hscale hsplit.2 hsplit.1 hpos

end Binary64

end Transcript

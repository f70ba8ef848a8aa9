-- Where the quick reader of decimals finds the nearest number. Digits and powers of ten that are
-- numbers themselves leave one rounding only, that of their product or quotient. Powers of ten are
-- numbers up to the twenty-second.
import Transcript.Decimal.Approximate
import Transcript.Proofs.Decimal.ReadBack

namespace Transcript

namespace Binary64

/-! ## Whole numbers -/

theorem magnitudeOfRatio_le (num den : Nat) : magnitudeOfRatio num den ≤ infinityMagnitude :=
  Nat.min_le_right _ _

theorem isNegative_ofRatio (negative : Bool) (num den : Nat) :
    (ofRatio negative num den).isNegative = negative := by
  refine isNegative_ofMagnitude negative ?_
  split
  · exact twoTo_pos 63
  · exact (magnitudeOfRatio_le num den).trans_lt infinityMagnitude_lt

/-- A significand and zeros behind it are a whole number that needs no rounding. -/
theorem exists_significand {m j : Nat} (hm : 0 < m) (hlt : m < twoTo 53) :
    ∃ q : Nat, ∃ e : ℤ, IsScale ((m * twoTo j : Nat) : ℚ) e ∧
      ((m * twoTo j : Nat) : ℚ) = q * 2 ^ e := by
  have hpos : 0 < m * twoTo j := Nat.mul_pos hm (twoTo_pos j)
  have hscale := isScale_scaleOf hpos Nat.one_pos
  rw [Nat.cast_one, div_one] at hscale
  generalize scaleOf (m * twoTo j) 1 = e at hscale
  have hcast : ((m * twoTo j : Nat) : ℚ) = m * 2 ^ (j : ℤ) := by
    rw [Nat.cast_mul, cast_twoTo, zpow_natCast]
  have hle : e ≤ j := by
    by_contra hgt
    have habove := hscale.above.resolve_left (by omega)
    have hstep : (2 : ℚ) ^ ((j : ℤ) + 1) ≤ 2 ^ e := two_zpow_le (by omega)
    have hmlt : (m : ℚ) < 2 ^ 53 := by
      rw [← cast_twoTo]
      exact_mod_cast hlt
    have hbelow := mul_lt_mul_of_pos_right hmlt (two_zpow_pos (j : ℤ))
    rw [two_zpow_add, zpow_one] at hstep
    rw [hcast] at habove
    linarith
  obtain ⟨n, hn⟩ : ∃ n : Nat, (j : ℤ) = e + n := ⟨(j - e).toNat, by omega⟩
  refine ⟨m * twoTo n, e, hscale, ?_⟩
  rw [hcast, hn, two_zpow_add, Nat.cast_mul, cast_twoTo, zpow_natCast]
  ring

/-- A whole number with as many digits as a significand has, and zeros behind them, is a
number. -/
theorem value_ofNat {m j : Nat} (hm : 0 < m) (hlt : m < twoTo 53)
    (hsmall : m * twoTo j < twoTo 1022) : (ofNat (m * twoTo j)).value = (m * twoTo j : Nat) := by
  have hpos : 0 < m * twoTo j := Nat.mul_pos hm (twoTo_pos j)
  obtain ⟨q, e, hscale, hvalue⟩ := exists_significand hm hlt (j := j)
  have hunit := two_zpow_pos e
  have hq : q < twoTo 53 := by
    have hbelow := hscale.below
    rw [hvalue] at hbelow
    have hlt := lt_of_mul_lt_mul_right hbelow hunit.le
    rw [← cast_twoTo] at hlt
    exact_mod_cast hlt
  have hnormal : e = -1074 ∨ twoTo 52 ≤ q := by
    refine hscale.above.imp_right fun habove => ?_
    rw [hvalue] at habove
    have hle := le_of_mul_le_mul_right habove hunit
    rw [← cast_twoTo] at hle
    exact_mod_cast hle
  have he : e ≤ 970 := by
    by_contra hgt
    have habove := hscale.above.resolve_left (by omega)
    have hstep : (2 : ℚ) ^ (970 : ℤ) ≤ 2 ^ e := two_zpow_le (by omega)
    have hlarge : twoTo 1022 = twoTo 52 * twoTo 970 := by decide +kernel
    have hcast : ((m * twoTo j : Nat) : ℚ) < twoTo 52 * twoTo 970 := by
      rw [← Nat.cast_mul, ← hlarge]
      exact_mod_cast hsmall
    rw [cast_twoTo, cast_twoTo, ← zpow_natCast 2 970] at hcast
    have := mul_le_mul_of_nonneg_left hstep (by positivity : (0 : ℚ) ≤ 2 ^ 52)
    exact absurd (hcast.trans_le (this.trans habove)) (lt_irrefl _)
  have hround : Rounds (((m * twoTo j : Nat) : ℚ) / (1 : Nat) / 2 ^ e) q := by
    rw [Nat.cast_one, div_one, hvalue, mul_div_cancel_right₀ _ hunit.ne']
    exact rounds_natCast q
  have hfinite : (e + 1074).toNat * twoTo 52 + q < infinityMagnitude := by
    have hfield : (e + 1074).toNat * twoTo 52 ≤ 2044 * twoTo 52 :=
      Nat.mul_le_mul_right _ (by omega)
    have htwo : twoTo 53 = twoTo 52 + twoTo 52 := rfl
    unfold infinityMagnitude
    omega
  have hmagnitude := magnitudeOfRatio_eq hpos Nat.one_pos
    (by rwa [Nat.cast_one, div_one]) hround
  rw [Nat.min_eq_left hfinite.le] at hmagnitude
  obtain ⟨hsignificand, hexponent⟩ := ofMagnitude_parts false hscale.least hq hnormal
    (hfinite.trans infinityMagnitude_lt)
  rw [ofNat, ofRatio, if_neg hpos.ne', hmagnitude, value, hsignificand, hexponent, ← hvalue]

theorem isNegative_ofNat (n : Nat) : (ofNat n).isNegative = false := isNegative_ofRatio false n 1

/-! ## Products and quotients -/

theorem value_pos_iff {x : Binary64} : 0 < x.value ↔ 0 < x.significand := by
  rw [value, mul_pos_iff_of_pos_right (two_zpow_pos _)]
  exact Nat.cast_pos

/-- A product is the number in whose interval it lies. -/
theorem Holds.mul_eq {x y z : Binary64} (h : z.Holds (x.value * y.value))
    (hfinite : z.isFinite = true) (hpos : 0 < z.magnitude) :
    x.mul y = .ofMagnitude (x.isNegative != y.isNegative) z.magnitude := by
  have hratio : x.value * y.value =
      ((x.significand * y.significand * twoTo (x.exponent + y.exponent).toNat : Nat) : ℚ) /
        (twoTo (-(x.exponent + y.exponent)).toNat : Nat) := by
    rw [Nat.cast_mul, mul_div_assoc, twoTo_div_twoTo, two_zpow_add, value, value]
    push_cast
    ring
  rw [hratio] at h
  exact h.ofRatio_eq hfinite hpos (twoTo_pos _) _

/-- A quotient is the number in whose interval it lies. -/
theorem Holds.div_eq {x y z : Binary64} (h : z.Holds (x.value / y.value))
    (hfinite : z.isFinite = true) (hpos : 0 < z.magnitude) (hy : 0 < y.value) :
    x.div y = .ofMagnitude (x.isNegative != y.isNegative) z.magnitude := by
  have hsignificand := value_pos_iff.mp hy
  have hratio : x.value / y.value =
      ((x.significand * twoTo (x.exponent - y.exponent).toNat : Nat) : ℚ) /
        (y.significand * twoTo (-(x.exponent - y.exponent)).toNat : Nat) := by
    have hpower := twoTo_div_twoTo (x.exponent - y.exponent)
    rw [zpow_sub₀ two_ne_zero] at hpower
    have hdown : (twoTo (-(x.exponent - y.exponent)).toNat : ℚ) ≠ 0 := by
      exact_mod_cast (twoTo_pos _).ne'
    have hne : (y.significand : ℚ) ≠ 0 := by exact_mod_cast hsignificand.ne'
    rw [Nat.cast_mul, Nat.cast_mul, mul_div_mul_comm, hpower, value, value]
    field_simp
  rw [hratio] at h
  exact h.ofRatio_eq hfinite hpos (Nat.mul_pos hsignificand (twoTo_pos _)) _

end Binary64

namespace Decimal

open Binary64 (ofNat)

/-! ## One rounding -/

/-- The largest power of ten that is a number with room to spare. -/
def exactPower : Nat := 22

/-- A power of ten that is a number. -/
theorem value_ofNat_tenTo {n : Nat} (h : n ≤ exactPower) : (ofNat (tenTo n)).value = 10 ^ n := by
  have hsplit : tenTo n = 5 ^ n * twoTo n := Nat.mul_pow 5 2 n
  have hpow : 5 ^ n ≤ 5 ^ 22 := Nat.pow_le_pow_right (by decide) h
  have hfive : 5 ^ 22 < twoTo 53 := by decide
  have hsmall : tenTo n ≤ tenTo 22 := Nat.pow_le_pow_right (by decide) h
  have hlarge : tenTo 22 < twoTo 1022 := by decide +kernel
  rw [hsplit, Binary64.value_ofNat (Nat.pow_pos (by decide)) (hpow.trans_lt hfive)
    (hsplit ▸ hsmall.trans_lt hlarge), ← hsplit, cast_tenTo]

/-- Digits that are a number and a small power are read as the number in whose interval they
lie. -/
theorem approximate_eq {x : Binary64} {digits : Nat} {power : ℤ}
    (h : x.Holds (digits * 10 ^ power)) (hfinite : x.isFinite = true) (hpos : 0 < x.magnitude)
    (hdigits : (ofNat digits).value = digits) (hpower : power.natAbs ≤ exactPower) :
    approximate digits power = some (.ofMagnitude false x.magnitude) := by
  have hrange : power.natAbs ≤ largestPower := hpower.trans (by decide)
  unfold approximate scaleBy
  rw [if_pos hrange]
  rcases Int.lt_or_le power 0 with hdown | hup
  · obtain ⟨n, rfl⟩ : ∃ n : Nat, power = -n := ⟨(-power).toNat, by omega⟩
    rw [Int.natAbs_neg, Int.natAbs_natCast] at hpower ⊢
    have hpowervalue := value_ofNat_tenTo hpower
    have hquotient : x.Holds ((ofNat digits).value / (ofNat (tenTo n)).value) := by
      rw [hdigits, hpowervalue]
      rwa [zpow_neg, zpow_natCast, ← div_eq_mul_inv] at h
    have hpositive : (0 : ℚ) < (ofNat (tenTo n)).value := by
      rw [hpowervalue]
      positivity
    rw [if_neg (by omega), hquotient.div_eq hfinite hpos hpositive, Binary64.isNegative_ofNat,
      Binary64.isNegative_ofNat, bne_self_eq_false]
  · obtain ⟨n, rfl⟩ := Int.eq_ofNat_of_zero_le hup
    have hproduct : x.Holds ((ofNat digits).value * (ofNat (tenTo n)).value) := by
      rw [hdigits, value_ofNat_tenTo (by simpa using hpower)]
      simpa using h
    rw [if_pos hup, Int.toNat_natCast, hproduct.mul_eq hfinite hpos, Binary64.isNegative_ofNat,
      Binary64.isNegative_ofNat]
    dsimp only
    rw [bne_self_eq_false,
      if_pos (Binary64.isFinite_ofMagnitude false (Binary64.magnitude_lt_of_isFinite hfinite))]

end Decimal

end Transcript

-- The shortest decimal lies in the interval of its number. Some grid has a point there, at the
-- latest one that is finer than the unit of the interval, so the search ends at a point and not
-- for want of steps, and it ends there or on a coarser grid, which bounds the digits.
import Mathlib.Data.Int.Log
import Mathlib.Data.Rat.Floor
import Transcript.Proofs.Decimal.Nearest

namespace Transcript

theorem ten_zpow_pos (e : ℤ) : (0 : ℚ) < 10 ^ e := zpow_pos (by norm_num) e

theorem ten_zpow_le {e f : ℤ} (h : e ≤ f) : (10 : ℚ) ^ e ≤ 10 ^ f :=
  zpow_le_zpow_right₀ (by norm_num) h

namespace Decimal

/-- The value of a decimal. -/
def Scaled.value (d : Scaled) : ℚ := d.digits * 10 ^ d.power

/-- The place of the first digit of a decimal, behind it the powers below one. -/
def Scaled.top (d : Scaled) : ℤ := (Nat.toDigits 10 d.digits).length + d.power

theorem Scaled.value_lt (d : Scaled) : d.value < 10 ^ d.top := by
  have hdigits : d.digits < 10 ^ (Nat.toDigits 10 d.digits).length :=
    (Nat.length_toDigits_le_iff (by decide) Nat.length_toDigits_pos).mp (Nat.le_refl _)
  have hcast : (d.digits : ℚ) < 10 ^ ((Nat.toDigits 10 d.digits).length : ℤ) := by
    rw [zpow_natCast]
    exact_mod_cast hdigits
  rw [top, zpow_add₀ (by norm_num)]
  exact mul_lt_mul_of_pos_right hcast (ten_zpow_pos _)

theorem Scaled.le_value {d : Scaled} (h : 0 < d.digits) : 10 ^ (d.top - 1) ≤ d.value := by
  obtain ⟨n, hn⟩ : ∃ n, (Nat.toDigits 10 d.digits).length = n + 1 :=
    Nat.exists_eq_succ_of_ne_zero Nat.length_toDigits_pos.ne'
  have hdigits : 10 ^ n ≤ d.digits := by
    rcases Nat.eq_zero_or_pos n with rfl | hpos
    · exact h
    · by_contra hlt
      have := (Nat.length_toDigits_le_iff (by decide) hpos).mpr (Nat.not_le.mp hlt)
      omega
  have hcast : (10 : ℚ) ^ (n : ℤ) ≤ d.digits := by
    rw [zpow_natCast]
    exact_mod_cast hdigits
  have hpower : d.top - 1 = n + d.power := by
    rw [top, hn]
    omega
  rw [hpower, zpow_add₀ (by norm_num)]
  exact mul_le_mul_of_nonneg_right hcast (ten_zpow_pos _).le

namespace Interval

variable {i : Interval} {tie : Tie} {power : ℤ} {digits : Nat}

/-! ## Points of a grid -/

theorem onGrid?_holds (h : i.onGrid? tie power = some digits) : i.holds power digits = true := by
  unfold onGrid? at h
  dsimp only at h
  split at h
  · rw [← Option.some.inj h]
    split <;> assumption
  · rename_i hbelow _
    rwa [← Option.some.inj h]
  · rename_i _ habove
    rwa [← Option.some.inj h]
  · cases h

/-- A grid with a point that reads back has one next to the value. -/
theorem isSome_onGrid?_of_holds (tie : Tie) (hlow : i.low < i.value) (hhigh : i.value < i.high)
    (hfactors : 0 < (i.factors power).1 ∧ 0 < (i.factors power).2)
    (h : i.holds power digits = true) : (i.onGrid? tie power).isSome := by
  have hsplit := Nat.div_add_mod' (i.value * (i.factors power).1) (i.factors power).2
  have hrest := Nat.mod_lt (i.value * (i.factors power).1) hfactors.2
  have hbelow := Nat.mul_lt_mul_of_pos_right hlow hfactors.1
  have habove := Nat.mul_lt_mul_of_pos_right hhigh hfactors.1
  have hnext : (i.value * (i.factors power).1 / (i.factors power).2 + 1) * (i.factors power).2 =
      i.value * (i.factors power).1 / (i.factors power).2 * (i.factors power).2 +
        (i.factors power).2 := Nat.succ_mul _ _
  suffices hpoint : i.holds power (i.value * (i.factors power).1 / (i.factors power).2) = true ∨
      i.holds power (i.value * (i.factors power).1 / (i.factors power).2 + 1) = true by
    unfold onGrid?
    dsimp only
    rcases hpoint with hpoint | hpoint
    · rw [hpoint]
      split <;> simp_all
    · rw [hpoint]
      split <;> simp_all
  unfold holds at h ⊢
  dsimp only at h ⊢
  rcases Nat.lt_or_ge (i.value * (i.factors power).1 / (i.factors power).2) digits with hlt | hge
  · have hle : (i.value * (i.factors power).1 / (i.factors power).2 + 1) * (i.factors power).2 ≤
        digits * (i.factors power).2 := Nat.mul_le_mul_right _ hlt
    refine .inr ?_
    cases hclosed : i.closed <;>
      simp only [hclosed, Bool.false_eq_true, if_true, if_false, Bool.and_eq_true,
        decide_eq_true_eq] at h ⊢ <;> omega
  · have hle := Nat.mul_le_mul_right (i.factors power).2 hge
    refine .inl ?_
    cases hclosed : i.closed <;>
      simp only [hclosed, Bool.false_eq_true, if_true, if_false, Bool.and_eq_true,
        decide_eq_true_eq] at h ⊢ <;> omega

/-- A grid that is finer than the unit has a point in the interval: the one below the value. -/
theorem exists_holds_of_le (hunit : (i.factors power).2 ≤ (i.factors power).1)
    (hden : 0 < (i.factors power).2) (hlow : i.low < i.value) (hhigh : i.value < i.high) :
    ∃ digits, i.holds power digits = true := by
  refine ⟨i.value * (i.factors power).1 / (i.factors power).2, ?_⟩
  have hsplit := Nat.div_add_mod' (i.value * (i.factors power).1) (i.factors power).2
  have hrest := Nat.mod_lt (i.value * (i.factors power).1) hden
  have hlower : (i.low + 1) * (i.factors power).1 ≤ i.value * (i.factors power).1 :=
    Nat.mul_le_mul_right _ hlow
  have hupper : i.value * (i.factors power).1 < i.high * (i.factors power).1 :=
    Nat.mul_lt_mul_of_pos_right hhigh (Nat.lt_of_lt_of_le hden hunit)
  rw [Nat.add_mul, Nat.one_mul] at hlower
  unfold holds
  dsimp only
  split <;> simp only [Bool.and_eq_true, decide_eq_true_eq] <;> omega

/-! ## The search -/

/-- The search ends on the coarsest grid that has a point, if any of its grids has one. -/
theorem search_spec {steps : Nat} (h : ∃ n < steps, (i.onGrid? tie (power - n)).isSome) :
    ∃ n < steps, i.onGrid? tie (power - n) = some (i.search tie steps power).digits ∧
      (i.search tie steps power).power = power - n ∧
      ∀ m < n, i.onGrid? tie (power - m) = none := by
  induction steps generalizing power with
  | zero => simp at h
  | succ steps ih =>
    unfold search
    cases hgrid : i.onGrid? tie power with
    | some digits =>
      refine ⟨0, Nat.succ_pos _, ?_, ?_, by simp⟩
      · simpa using hgrid
      · simp
    | none =>
      have hshift : ∀ n : Nat, power - ((n + 1 : Nat) : ℤ) = power - 1 - n := by
        intro n
        omega
      obtain ⟨n, hn, hsome⟩ := h
      have hrest : ∃ n < steps, (i.onGrid? tie (power - 1 - n)).isSome := by
        cases n with
        | zero => simp [hgrid] at hsome
        | succ n => exact ⟨n, by omega, by rwa [hshift] at hsome⟩
      obtain ⟨k, hk, hpoint, hpower, hnone⟩ := ih hrest
      refine ⟨k + 1, by omega, ?_, ?_, fun m hm => ?_⟩
      · rw [hshift]
        exact hpoint
      · rw [hshift]
        exact hpower
      · cases m with
        | zero => simpa using hgrid
        | succ m =>
          rw [hshift]
          exact hnone m (by omega)

/-! ## Intervals of numbers -/

theorem factors_pos (x : Binary64) (power : ℤ) :
    0 < ((Interval.of x).factors power).1 ∧ 0 < ((Interval.of x).factors power).2 :=
  ⟨Nat.mul_pos (twoTo_pos _) (tenTo_pos _), Nat.mul_pos (twoTo_pos _) (tenTo_pos _)⟩

/-- The factors scale a multiple of the unit to a multiple of the power of ten. -/
theorem factors_div (x : Binary64) (power : ℤ) :
    (((Interval.of x).factors power).1 : ℚ) / ((Interval.of x).factors power).2 * 10 ^ power =
      2 ^ (x.exponent - 2) := by
  rw [← twoTo_div_twoTo (x.exponent - 2), ← tenTo_div_tenTo power]
  unfold factors Interval.of
  push_cast
  have hup : (tenTo power.toNat : ℚ) ≠ 0 := by exact_mod_cast (tenTo_pos _).ne'
  have hdown : (tenTo (-power).toNat : ℚ) ≠ 0 := by exact_mod_cast (tenTo_pos _).ne'
  field_simp

/-- Comparing a point of a grid with a multiple of the unit. -/
theorem mul_factors_le_iff (x : Binary64) (power : ℤ) (n digits : Nat) :
    (n * ((Interval.of x).factors power).1 ≤ digits * ((Interval.of x).factors power).2 ↔
      (n : ℚ) * 2 ^ (x.exponent - 2) ≤ digits * 10 ^ power) ∧
    (digits * ((Interval.of x).factors power).2 ≤ n * ((Interval.of x).factors power).1 ↔
      (digits : ℚ) * 10 ^ power ≤ n * 2 ^ (x.exponent - 2)) := by
  have hten := ten_zpow_pos power
  have hden : (0 : ℚ) < ((Interval.of x).factors power).2 := by
    exact_mod_cast (factors_pos x power).2
  rw [← factors_div x power, ← mul_assoc, mul_le_mul_iff_of_pos_right hten,
    mul_le_mul_iff_of_pos_right hten, ← mul_div_assoc, div_le_iff₀ hden, le_div_iff₀ hden]
  exact ⟨by exact_mod_cast Iff.rfl, by exact_mod_cast Iff.rfl⟩

/-- A point of a grid reads back exactly if its value lies in the interval of the number. -/
theorem holds_iff (x : Binary64) (power : ℤ) (digits : Nat) :
    (Interval.of x).holds power digits = true ↔ x.Holds (digits * 10 ^ power) := by
  have hlow := mul_factors_le_iff x power (Interval.of x).low digits
  have hhigh := mul_factors_le_iff x power (Interval.of x).high digits
  have hclosed : (Interval.of x).closed = decide (x.significand % 2 = 0) := rfl
  unfold holds
  dsimp only
  rw [hclosed]
  by_cases heven : x.significand % 2 = 0
  · rw [if_pos (decide_eq_true heven)]
    simp only [Bool.and_eq_true, decide_eq_true_eq]
    rw [hlow.1, hhigh.2]
    exact ⟨fun h => ⟨h.1, h.2, fun hodd => by omega⟩, fun h => ⟨h.low, h.high⟩⟩
  · rw [if_neg (by simpa using heven)]
    simp only [Bool.and_eq_true, decide_eq_true_eq, ← not_le]
    rw [hlow.2, hhigh.1, not_le, not_le]
    exact ⟨fun h => ⟨h.1.le, h.2.le, fun _ => h⟩, fun h => h.inside (by omega)⟩

end Interval

/-! ## The shortest decimal -/

section Shortest

variable {x : Binary64}

theorem low_lt_value (hpos : 0 < x.magnitude) : (Interval.of x).low < (Interval.of x).value := by
  have hsignificand := Binary64.significand_pos hpos
  unfold Interval.of
  dsimp only
  split <;> omega

theorem value_lt_high (x : Binary64) : (Interval.of x).value < (Interval.of x).high := by
  unfold Interval.of
  dsimp only
  omega

/-- The power at which the search starts. -/
def topPower (x : Binary64) : Nat :=
  (Nat.toDigits 10 ((Interval.of x).high * (Interval.of x).unitNum / (Interval.of x).unitDen)).length

theorem shortest_eq (tie : Tie) (x : Binary64) :
    shortest tie x = (Interval.of x).search tie (topPower x + 345) (topPower x) := rfl

/-- A grid with a point that reads back is one on which the search ends. -/
theorem isSome_onGrid? (tie : Tie) (hpos : 0 < x.magnitude) {power : ℤ} {digits : Nat}
    (h : x.Holds (digits * 10 ^ power)) : ((Interval.of x).onGrid? tie power).isSome :=
  Interval.isSome_onGrid?_of_holds tie (low_lt_value hpos) (value_lt_high x)
    (Interval.factors_pos x power) ((Interval.holds_iff x power digits).mpr h)

/-- A grid that is finer than the unit has a point that reads back. -/
theorem exists_holds_of_le (hpos : 0 < x.magnitude) {power : ℤ}
    (h : (10 : ℚ) ^ power ≤ 2 ^ (x.exponent - 2)) :
    ∃ digits : Nat, x.Holds (digits * 10 ^ power) := by
  have hfine := (Interval.mul_factors_le_iff x power 1 1).2
  rw [Nat.one_mul, Nat.one_mul, Nat.cast_one, one_mul, one_mul] at hfine
  obtain ⟨digits, hdigits⟩ := Interval.exists_holds_of_le (hfine.mpr h)
    (Interval.factors_pos x power).2 (low_lt_value hpos) (value_lt_high x)
  exact ⟨digits, (Interval.holds_iff x power digits).mp hdigits⟩

/-- A grid that is finer than the unit is not above the start of the search. -/
theorem le_topPower {power : ℤ} (h : (10 : ℚ) ^ power ≤ 2 ^ (x.exponent - 2)) :
    power ≤ topPower x := by
  rcases Int.lt_or_le power 0 with hneg | hnonneg
  · omega
  obtain ⟨n, rfl⟩ := Int.eq_ofNat_of_zero_le hnonneg
  have hhigh : (1 : ℚ) ≤ (Interval.of x).high := by
    exact_mod_cast Nat.lt_of_le_of_lt (Nat.zero_le _) (value_lt_high x)
  have hbelow : ((1 : Nat) : ℚ) * 10 ^ (n : ℤ) ≤ (Interval.of x).high * 2 ^ (x.exponent - 2) := by
    rw [Nat.cast_one, one_mul]
    exact h.trans (le_mul_of_one_le_left (two_zpow_pos _).le hhigh)
  have hwhole := (Interval.mul_factors_le_iff x n (Interval.of x).high 1).2.mpr hbelow
  have hle : tenTo n ≤
      (Interval.of x).high * (Interval.of x).unitNum / (Interval.of x).unitDen := by
    have hden : 0 < (Interval.of x).unitDen := twoTo_pos _
    rw [Nat.le_div_iff_mul_le hden, Nat.mul_comm]
    simpa [Interval.factors, tenTo] using hwhole
  by_contra hlt
  have hshort : topPower x ≤ n := by omega
  have hpositive : 0 < n := Nat.lt_of_lt_of_le Nat.length_toDigits_pos hshort
  have hdigits := (Nat.length_toDigits_le_iff (by decide) hpositive).mp hshort
  exact absurd hdigits (Nat.not_lt.mpr hle)

/-- A power of ten below every unit. -/
theorem ten_zpow_le_unit (x : Binary64) : (10 : ℚ) ^ (-324 : ℤ) ≤ 2 ^ (x.exponent - 2) := by
  have hleast : (2 : ℚ) ^ (-1076 : ℤ) ≤ 2 ^ (x.exponent - 2) :=
    two_zpow_le (by have := x.least_le_exponent; omega)
  have hpowers : twoTo 1076 ≤ tenTo 324 := by decide +kernel
  have hfinest : (10 : ℚ) ^ (-324 : ℤ) ≤ 2 ^ (-1076 : ℤ) := by
    have htwo : (0 : ℚ) < twoTo 1076 := by exact_mod_cast twoTo_pos 1076
    rw [← tenTo_div_tenTo, ← twoTo_div_twoTo]
    exact div_le_div_of_nonneg_left zero_le_one htwo (by exact_mod_cast hpowers)
  exact hfinest.trans hleast

/-- The shortest decimal is a point of its grid that reads back, and coarser grids have none. -/
theorem shortest_spec (tie : Tie) (hpos : 0 < x.magnitude) :
    x.Holds (shortest tie x).value ∧ ∀ power : ℤ, power ≤ topPower x →
      ∀ digits : Nat, x.Holds (digits * 10 ^ power) → power ≤ (shortest tie x).power := by
  have hpoint : ∃ n < topPower x + 345, ((Interval.of x).onGrid? tie (topPower x - n)).isSome := by
    have hpower : (topPower x : ℤ) - (topPower x + 344 : Nat) = -344 := by omega
    obtain ⟨digits, hdigits⟩ := exists_holds_of_le hpos
      ((ten_zpow_le (by decide : (-344 : ℤ) ≤ -324)).trans (ten_zpow_le_unit x))
    exact ⟨topPower x + 344, by omega, by rw [hpower]; exact isSome_onGrid? tie hpos hdigits⟩
  obtain ⟨n, hn, hgrid, hpower, hnone⟩ := Interval.search_spec hpoint
  rw [← shortest_eq] at hgrid hpower
  refine ⟨?_, fun power htop digits hdigits => ?_⟩
  · rw [← hpower] at hgrid
    exact (Interval.holds_iff x _ _).mp (Interval.onGrid?_holds hgrid)
  · by_contra hlt
    obtain ⟨m, rfl⟩ : ∃ m : Nat, power = topPower x - m := ⟨(topPower x - power).toNat, by omega⟩
    have hsome := isSome_onGrid? tie hpos hdigits
    rw [hnone m (by omega)] at hsome
    cases hsome

/-- The shortest decimal has a value in the interval of its number. -/
theorem shortest_holds (tie : Tie) (hpos : 0 < x.magnitude) : x.Holds (shortest tie x).value :=
  (shortest_spec tie hpos).1

theorem shortest_digits_pos (tie : Tie) (hpos : 0 < x.magnitude) :
    0 < (shortest tie x).digits := by
  have hvalue := (shortest_holds tie hpos).pos hpos
  rw [Scaled.value] at hvalue
  exact_mod_cast pos_of_mul_pos_left hvalue (ten_zpow_pos _).le

theorem high_lt (x : Binary64) : (Interval.of x).high < twoTo 56 := by
  have hsignificand := x.significand_lt
  have htwo : twoTo 56 = 8 * twoTo 53 := rfl
  have hlarge : 1 < twoTo 53 := by decide
  unfold Interval.of
  dsimp only
  omega

/-- The digits are not many: the grid is at most ten times finer than the unit. -/
theorem shortest_digits_lt (tie : Tie) (hpos : 0 < x.magnitude) :
    (shortest tie x).digits < 10 * (Interval.of x).high := by
  have hunit := two_zpow_pos (x.exponent - 2)
  have hlog : (10 : ℚ) ^ Int.log 10 ((2 : ℚ) ^ (x.exponent - 2)) ≤ 2 ^ (x.exponent - 2) := by
    exact_mod_cast Int.zpow_log_le_self (by decide : 1 < 10) hunit
  have hnext : (2 : ℚ) ^ (x.exponent - 2) < 10 ^ (Int.log 10 ((2 : ℚ) ^ (x.exponent - 2)) + 1) := by
    exact_mod_cast
      Int.lt_zpow_succ_log_self (by decide : 1 < 10) ((2 : ℚ) ^ (x.exponent - 2))
  obtain ⟨digits, hdigits⟩ := exists_holds_of_le hpos hlog
  have hgrid := (shortest_spec tie hpos).2 _ (le_topPower hlog) digits hdigits
  have hhigh := (shortest_holds tie hpos).high
  have hten := ten_zpow_pos (shortest tie x).power
  have hstep : (2 : ℚ) ^ (x.exponent - 2) < 10 * 10 ^ (shortest tie x).power := by
    calc (2 : ℚ) ^ (x.exponent - 2) < 10 ^ (Int.log 10 ((2 : ℚ) ^ (x.exponent - 2)) + 1) := hnext
      _ ≤ 10 ^ (1 + (shortest tie x).power) := ten_zpow_le (by omega)
      _ = 10 * 10 ^ (shortest tie x).power := zpow_one_add₀ (by norm_num) _
  have hpositive : (0 : ℚ) < (Interval.of x).high := by
    exact_mod_cast Nat.lt_of_le_of_lt (Nat.zero_le _) (value_lt_high x)
  have hlt : ((shortest tie x).digits : ℚ) * 10 ^ (shortest tie x).power <
      10 * (Interval.of x).high * 10 ^ (shortest tie x).power := by
    calc ((shortest tie x).digits : ℚ) * 10 ^ (shortest tie x).power
        ≤ (Interval.of x).high * 2 ^ (x.exponent - 2) := hhigh
      _ < (Interval.of x).high * (10 * 10 ^ (shortest tie x).power) :=
          mul_lt_mul_of_pos_left hstep hpositive
      _ = 10 * (Interval.of x).high * 10 ^ (shortest tie x).power := by ring
  exact_mod_cast lt_of_mul_lt_mul_right hlt hten.le

/-- The place of the first digit is within the range that a reader of decimals tries. -/
theorem shortest_top (tie : Tie) (hfinite : x.isFinite = true) (hpos : 0 < x.magnitude) :
    -324 < (shortest tie x).top ∧ (shortest tie x).top ≤ 320 := by
  have hholds := shortest_holds tie hpos
  have hunit := two_zpow_pos (x.exponent - 2)
  have hlow : (1 : ℚ) ≤ (Interval.of x).low := by
    have := Binary64.low_le hpos
    have := Binary64.one_le_significand hpos
    linarith
  have hbelow : (10 : ℚ) ^ (-324 : ℤ) < 10 ^ (shortest tie x).top :=
    calc (10 : ℚ) ^ (-324 : ℤ) ≤ 2 ^ (x.exponent - 2) := ten_zpow_le_unit x
      _ ≤ (Interval.of x).low * 2 ^ (x.exponent - 2) := le_mul_of_one_le_left hunit.le hlow
      _ ≤ (shortest tie x).value := hholds.low
      _ < 10 ^ (shortest tie x).top := Scaled.value_lt _
  have hpowers : twoTo 56 * twoTo 969 ≤ tenTo 320 := by decide +kernel
  have habove : (10 : ℚ) ^ ((shortest tie x).top - 1) < 10 ^ (320 : ℤ) :=
    calc (10 : ℚ) ^ ((shortest tie x).top - 1)
        ≤ (shortest tie x).value := Scaled.le_value (shortest_digits_pos tie hpos)
      _ ≤ (Interval.of x).high * 2 ^ (x.exponent - 2) := hholds.high
      _ < twoTo 56 * 2 ^ (x.exponent - 2) :=
          mul_lt_mul_of_pos_right (by exact_mod_cast high_lt x) hunit
      _ ≤ twoTo 56 * 2 ^ (969 : ℤ) := mul_le_mul_of_nonneg_left
          (two_zpow_le (by have := Binary64.exponent_le hfinite; omega)) (Nat.cast_nonneg _)
      _ = twoTo 56 * twoTo 969 := by rw [cast_twoTo 969]; rfl
      _ ≤ tenTo 320 := by exact_mod_cast hpowers
      _ = 10 ^ (320 : ℤ) := by rw [cast_tenTo]; rfl
  have hbase : (1 : ℚ) < 10 := by norm_num
  have := (zpow_lt_zpow_iff_right₀ hbase).mp hbelow
  have := (zpow_lt_zpow_iff_right₀ hbase).mp habove
  omega

end Shortest

end Decimal

end Transcript

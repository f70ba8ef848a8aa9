-- Decimals of at most fifteen digits. A significand tells more of them apart than there are, so
-- the shortest decimal of the number nearest to one is that decimal again, without the zeros at
-- its end; and its digits are few enough to be a number themselves.
import Transcript.Proofs.Decimal.Approximate
import Transcript.Proofs.Json.Doubles

namespace Transcript

namespace Binary64

/-- A finite number whose written digits and power of ten are numbers themselves. -/
structure Short (x : Binary64) : Prop where
  finite : x.isFinite = true
  digits : 0 < x.magnitude → (ofNat (Decimal.shortest .even x).written.digits).value =
    (Decimal.shortest .even x).written.digits
  power : 0 < x.magnitude →
    (Decimal.shortest .even x).written.power.natAbs ≤ Decimal.exactPower

end Binary64

namespace Decimal

/-- The decimals of fifteen digits are below this. -/
def fewLimit : Nat := tenTo 15

section FewDigits

variable {x : Binary64} {digits places : Nat}

/-! ## The interval of a decimal of few digits -/

/-- The last place of a decimal of few places is far above the numbers of the least exponent. -/
theorem least_lt_place (hplaces : places ≤ exactPower) :
    (twoTo 56 : ℚ) * 2 ^ (-130 : ℤ) < 10 ^ (-places : ℤ) := by
  have hpowers : twoTo 56 * tenTo 22 < twoTo 130 := by decide +kernel
  have hcast : (twoTo 56 * tenTo 22 : ℚ) < twoTo 130 := by exact_mod_cast hpowers
  have htwo : (0 : ℚ) < twoTo 130 := by exact_mod_cast twoTo_pos 130
  have hten : (0 : ℚ) < tenTo 22 := by exact_mod_cast tenTo_pos 22
  calc (twoTo 56 : ℚ) * 2 ^ (-130 : ℤ) = twoTo 56 / twoTo 130 := by
        rw [cast_twoTo 130, zpow_neg, zpow_ofNat, div_eq_mul_inv]
    _ < 1 / tenTo 22 := by
        rw [div_lt_div_iff₀ htwo hten, one_mul]
        exact hcast
    _ = 10 ^ (-22 : ℤ) := by rw [cast_tenTo, zpow_neg, zpow_ofNat, one_div]
    _ ≤ 10 ^ (-places : ℤ) := ten_zpow_le (by unfold exactPower at hplaces; omega)

/-- A number nearest to a decimal of few places has all digits of a significand. -/
theorem normal_of_places (h : x.Holds (digits * 10 ^ (-places : ℤ))) (hpos : 0 < x.magnitude)
    (hplaces : places ≤ exactPower) : twoTo 52 ≤ x.significand := by
  have hten := ten_zpow_pos (-places)
  by_contra hsmall
  have hleast : x.exponent = -1074 := by
    rcases x.least_or_le_significand with hleast | hnormal
    · exact hleast.2
    · exact absurd hnormal.2 hsmall
  have hdigits : (1 : ℚ) ≤ digits := by
    exact_mod_cast (by exact_mod_cast pos_of_mul_pos_left (h.pos hpos) hten.le : 0 < digits)
  have hunit : (2 : ℚ) ^ (x.exponent - 2) ≤ 2 ^ (-130 : ℤ) :=
    two_zpow_le (by rw [hleast]; decide)
  have hhigh : ((Interval.of x).high : ℚ) ≤ twoTo 56 := by exact_mod_cast (high_lt x).le
  have hle : (10 : ℚ) ^ (-places : ℤ) ≤ twoTo 56 * 2 ^ (-130 : ℤ) :=
    calc (10 : ℚ) ^ (-places : ℤ) ≤ digits * 10 ^ (-places : ℤ) :=
          le_mul_of_one_le_left hten.le hdigits
      _ ≤ (Interval.of x).high * 2 ^ (x.exponent - 2) := h.high
      _ ≤ twoTo 56 * 2 ^ (-130 : ℤ) :=
          mul_le_mul hhigh hunit (two_zpow_pos _).le (Nat.cast_nonneg _)
  exact absurd (hle.trans_lt (least_lt_place hplaces)) (lt_irrefl _)

/-- The interval of a decimal of few digits is narrower than the place of its last digit. -/
theorem width_lt_of_few (h : x.Holds (digits * 10 ^ (-places : ℤ))) (hpos : 0 < x.magnitude)
    (hdigits : digits < fewLimit) (hplaces : places ≤ exactPower) :
    4 * (2 : ℚ) ^ (x.exponent - 2) < 10 ^ (-places : ℤ) := by
  have hten := ten_zpow_pos (-places)
  have hunit := two_zpow_pos (x.exponent - 2)
  have hnormal : (2 : ℚ) ^ 52 ≤ x.significand := by
    rw [← cast_twoTo]
    exact_mod_cast normal_of_places h hpos hplaces
  have hfew : (digits : ℚ) ≤ 10 ^ 15 := by
    rw [← cast_tenTo]
    exact_mod_cast hdigits.le
  have hlow := (mul_le_mul_of_nonneg_right (Binary64.low_le hpos) hunit.le).trans h.low
  have hdecimal := mul_le_mul_of_nonneg_right hfew hten.le
  have hsignificand := mul_le_mul_of_nonneg_right hnormal hunit.le
  linarith

/-! ## The shortest decimal -/

/-- The shortest decimal of a number nearest to a decimal of few digits is that decimal. -/
theorem shortest_of_few (tie : Tie) (h : x.Holds (digits * 10 ^ (-places : ℤ)))
    (hpos : 0 < x.magnitude) (hdigits : digits < fewLimit) (hplaces : places ≤ exactPower) :
    ∃ n : Nat, (shortest tie x).power = n - places ∧
      (shortest tie x).digits * tenTo n = digits := by
  have hten := ten_zpow_pos (-places)
  have hwidth := width_lt_of_few h hpos hdigits hplaces
  have hgrid := (shortest_spec tie hpos).2 (-places) (by omega) digits h
  obtain ⟨n, hn⟩ : ∃ n : Nat, (shortest tie x).power = n - places :=
    ⟨((shortest tie x).power + places).toNat, by omega⟩
  refine ⟨n, hn, ?_⟩
  have hholds := shortest_holds tie hpos
  have hvalue : (shortest tie x).value =
      ((shortest tie x).digits * tenTo n : Nat) * 10 ^ (-places : ℤ) := by
    rw [Scaled.value, hn, sub_eq_add_neg, zpow_add₀ (by norm_num), zpow_natCast, Nat.cast_mul,
      cast_tenTo, mul_assoc]
  rw [hvalue] at hholds
  generalize (shortest tie x).digits * tenTo n = other at hholds ⊢
  have hlow := Binary64.low_le hpos
  have hhigh := Binary64.high_eq x
  have hunit := two_zpow_pos (x.exponent - 2)
  have hclose : ∀ {a b : Nat}, x.Holds (a * 10 ^ (-places : ℤ)) → x.Holds (b * 10 ^ (-places : ℤ)) →
      a ≤ b := by
    intro a b ha hb
    have hdistance : ((a : ℚ) - b) * 10 ^ (-places : ℤ) < 1 * 10 ^ (-places : ℤ) := by
      have hla := mul_le_mul_of_nonneg_right hlow hunit.le
      have hup := ha.high
      have hdown := hb.low
      rw [hhigh] at hup
      linarith
    have hlt : (a : ℚ) < b + 1 := by linarith [lt_of_mul_lt_mul_right hdistance hten.le]
    exact Nat.lt_succ_iff.mp (by exact_mod_cast hlt)
  exact Nat.le_antisymm (hclose hholds h) (hclose h hholds)

/-! ## Short numbers -/

/-- A whole number of few digits is a number. -/
theorem value_ofNat_of_few {n : Nat} (hpos : 0 < n) (hfew : n < fewLimit) :
    (Binary64.ofNat n).value = n := by
  have hlimit : fewLimit < twoTo 53 := by decide +kernel
  have hlarge : fewLimit < twoTo 1022 := by decide +kernel
  have hone : n * twoTo 0 = n := Nat.mul_one n
  have hvalue := Binary64.value_ofNat (j := 0) hpos (hfew.trans hlimit)
    (by rw [hone]; exact hfew.trans hlarge)
  rwa [hone] at hvalue

/-- So it is with one more digit if that is a zero, since a two can be taken out of ten. -/
theorem value_ofNat_of_few_zero {n : Nat} (hpos : 0 < n) (hfew : n < fewLimit) :
    (Binary64.ofNat (n * 10)).value = (n * 10 : Nat) := by
  have hlimit : 5 * fewLimit < twoTo 53 := by decide +kernel
  have hlarge : 10 * fewLimit < twoTo 1022 := by decide +kernel
  have hsplit : 5 * n * twoTo 1 = n * 10 := by
    rw [show twoTo 1 = 2 from rfl]
    ring
  have hvalue := Binary64.value_ofNat (m := 5 * n) (j := 1) (by omega) (by omega)
    (by rw [hsplit]; omega)
  rwa [hsplit] at hvalue

/-- A number nearest to a decimal of few digits is short. -/
theorem short_of_few (h : x.Holds (digits * 10 ^ (-places : ℤ))) (hfinite : x.isFinite = true)
    (hdigits : digits < fewLimit) (hplaces : places ≤ exactPower) : x.Short := by
  have hshortest : 0 < x.magnitude → 0 < (shortest .even x).digits ∧
      (shortest .even x).digits * tenTo (shortest .even x).power.toNat < fewLimit ∧
      -places ≤ (shortest .even x).power := by
    intro hpos
    obtain ⟨n, hn, heq⟩ := shortest_of_few .even h hpos hdigits hplaces
    have hzeros : tenTo (shortest .even x).power.toNat ≤ tenTo n :=
      Nat.pow_le_pow_right (by decide) (by omega)
    exact ⟨shortest_digits_pos .even hpos,
      (Nat.mul_le_mul_left _ hzeros).trans_lt (heq ▸ hdigits), by omega⟩
  refine ⟨hfinite, fun hpos => ?_, fun hpos => ?_⟩ <;>
    obtain ⟨hsome, hfew, hpower⟩ := hshortest hpos <;>
    generalize shortest .even x = d at hsome hfew hpower
  · have hten := tenTo_pos d.power.toNat
    unfold Scaled.written
    split
    · have hsplit : d.digits * tenTo (d.power.toNat + 1) =
          d.digits * tenTo d.power.toNat * 10 := by
        rw [tenTo_succ]
        ring
      dsimp only
      rw [hsplit]
      exact value_ofNat_of_few_zero (Nat.mul_pos hsome hten) hfew
    · exact value_ofNat_of_few hsome ((Nat.le_mul_of_pos_right _ hten).trans_lt hfew)
  · have hten : d.power.toNat < 15 := by
      by_contra hle
      have hmany : fewLimit ≤ tenTo d.power.toNat :=
        Nat.pow_le_pow_right (by decide) (Nat.not_lt.mp hle)
      exact absurd hfew (Nat.not_lt.mpr (hmany.trans (Nat.le_mul_of_pos_left _ hsome)))
    unfold exactPower at hplaces ⊢
    unfold Scaled.written
    split
    · exact (by decide : (-1 : ℤ).natAbs ≤ 22)
    · omega

/-! ## The nearest number -/

theorem div_tenTo (digits places : Nat) :
    (digits : ℚ) / tenTo places = digits * 10 ^ (-places : ℤ) := by
  rw [cast_tenTo, zpow_neg, zpow_natCast, div_eq_mul_inv]

/-- The scale of a decimal of few digits is not the least one: its last place is far above. -/
theorem least_ne_scale {e : ℤ} (hscale : Binary64.IsScale (digits * 10 ^ (-places : ℤ)) e)
    (hpos : 0 < digits) (hplaces : places ≤ exactPower) : e ≠ -1074 := by
  rintro rfl
  have hone : (1 : ℚ) ≤ digits := by exact_mod_cast hpos
  have hunit : (2 : ℚ) ^ (-1074 : ℤ) ≤ 2 ^ (-130 : ℤ) := two_zpow_le (by decide)
  have hhigh : (2 : ℚ) ^ 53 ≤ twoTo 56 := by
    rw [cast_twoTo]
    norm_num
  have hlt : (10 : ℚ) ^ (-places : ℤ) < twoTo 56 * 2 ^ (-130 : ℤ) :=
    calc (10 : ℚ) ^ (-places : ℤ) ≤ digits * 10 ^ (-places : ℤ) :=
          le_mul_of_one_le_left (ten_zpow_pos _).le hone
      _ < 2 ^ 53 * 2 ^ (-1074 : ℤ) := hscale.below
      _ ≤ twoTo 56 * 2 ^ (-130 : ℤ) :=
          mul_le_mul hhigh hunit (two_zpow_pos _).le (Nat.cast_nonneg _)
  exact lt_asymm hlt (least_lt_place hplaces)

/-- The scale of a decimal of few digits is below one: a significand has more digits. -/
theorem scale_neg {e : ℤ} (hscale : Binary64.IsScale (digits * 10 ^ (-places : ℤ)) e)
    (hleast : e ≠ -1074) (hdigits : digits < fewLimit) : e < 0 := by
  by_contra hge
  have habove := hscale.above.resolve_left hleast
  have hunit : (1 : ℚ) ≤ 2 ^ e := by
    have := two_zpow_le (Int.not_lt.mp hge)
    rwa [zpow_zero] at this
  have hplace : (10 : ℚ) ^ (-places : ℤ) ≤ 1 := by
    have := ten_zpow_le (by omega : (-places : ℤ) ≤ 0)
    rwa [zpow_zero] at this
  have hfew : (digits : ℚ) < 2 ^ 52 := by
    rw [← cast_twoTo]
    exact_mod_cast hdigits.trans (by decide +kernel : fewLimit < twoTo 52)
  have hlt : (digits : ℚ) * 10 ^ (-places : ℤ) < 2 ^ 52 * 2 ^ e :=
    calc (digits : ℚ) * 10 ^ (-places : ℤ) ≤ digits :=
          mul_le_of_le_one_right (Nat.cast_nonneg _) hplace
      _ < 2 ^ 52 := hfew
      _ ≤ 2 ^ 52 * 2 ^ e := le_mul_of_one_le_right (by norm_num) hunit
  exact absurd habove (not_le.mpr hlt)

/-- The number nearest to a decimal of few digits is finite and not zero. -/
theorem magnitudeOfRatio_of_few (hpos : 0 < digits) (hdigits : digits < fewLimit)
    (hplaces : places ≤ exactPower) : 0 < Binary64.magnitudeOfRatio digits (tenTo places) ∧
      Binary64.magnitudeOfRatio digits (tenTo places) < Binary64.infinityMagnitude := by
  have hscale := Binary64.isScale_scaleOf hpos (tenTo_pos places)
  have hround := Binary64.rounds_roundDiv
    (digits * twoTo (-Binary64.scaleOf digits (tenTo places)).toNat)
    (Nat.mul_pos (tenTo_pos places) (twoTo_pos (Binary64.scaleOf digits (tenTo places)).toNat))
  rw [Binary64.scaled_ratio] at hround
  rw [Binary64.magnitudeOfRatio_eq hpos (tenTo_pos places) hscale hround]
  obtain ⟨hq, hnormal⟩ := hround.bounds hscale
  rw [div_tenTo] at hscale
  have hleast := least_ne_scale hscale hpos hplaces
  have hbelow := scale_neg hscale hleast hdigits
  have hsignificand := hnormal.resolve_left hleast
  have hfield : (Binary64.scaleOf digits (tenTo places) + 1074).toNat * twoTo 52 ≤
      1073 * twoTo 52 := Nat.mul_le_mul_right _ (by omega)
  have htwo : twoTo 53 = twoTo 52 + twoTo 52 := rfl
  have hunit := twoTo_pos 52
  unfold Binary64.infinityMagnitude
  omega

/-- The number nearest to a decimal of few digits is short, with any sign. -/
theorem short_ofRatio (hdigits : digits < fewLimit) (hplaces : places ≤ exactPower)
    (negative : Bool) : (Binary64.ofRatio negative digits (tenTo places)).Short := by
  unfold Binary64.ofRatio
  split
  · have hzero := Binary64.magnitude_ofMagnitude negative (twoTo_pos 63)
    refine ⟨Binary64.isFinite_ofMagnitude negative (by decide), fun hpos => ?_, fun hpos => ?_⟩ <;>
      exact absurd hpos (by rw [hzero]; exact lt_irrefl 0)
  · rename_i hne
    have hpos := Nat.pos_of_ne_zero hne
    obtain ⟨hmagnitude, hlt⟩ := magnitudeOfRatio_of_few hpos hdigits hplaces
    have hsame := Binary64.magnitude_ofMagnitude negative (hlt.trans Binary64.infinityMagnitude_lt)
    have hfinite := Binary64.isFinite_ofMagnitude negative hlt
    have hholds := Binary64.holds_of_magnitudeOfRatio hpos (tenTo_pos places) hfinite
      (hsame.symm ▸ hmagnitude) hsame.symm
    rw [div_tenTo] at hholds
    exact short_of_few hholds hfinite hdigits hplaces

end FewDigits

/-! ## Texts of few digits -/

theorem digitsValue_lt {ds : List Char} (h : AllDigits ds) : digitsValue ds < tenTo ds.length := by
  induction ds using List.reverseRecOn with
  | nil => exact Nat.one_pos
  | append_singleton ds d ih =>
    have hd : digitValue d ≤ 9 := by
      have hdigit := h d (by simp)
      simp only [Char.isDigit, Bool.and_eq_true, decide_eq_true_eq] at hdigit
      exact Nat.sub_le_sub_right hdigit.2 '0'.toNat
    have hrest := ih h.left
    rw [digitsValue_concat, List.length_append, List.length_singleton, tenTo_succ]
    omega

/-- A decimal of at most fifteen digits, with or without a minus and a point. -/
inductive OfFewDigits : List Char → Prop where
  | whole (negative : Bool) {ds : List Char} : ds ≠ [] → AllDigits ds → ds.length ≤ 15 →
    OfFewDigits (signed negative ds)
  | pointed (negative : Bool) {ds es : List Char} : ds ≠ [] → AllDigits (ds ++ es) →
    (ds ++ es).length ≤ 15 → OfFewDigits (signed negative (ds ++ '.' :: es))

/-- A decimal of few digits is read as a short number. -/
theorem OfFewDigits.exists_short {text : List Char} (h : OfFewDigits text) :
    ∃ x, read? text = some x ∧ x.Short := by
  have hparts : ∀ (negative : Bool) {ds es tail : List Char}, ds ≠ [] → AllDigits (ds ++ es) →
      (ds ++ es).length ≤ 15 → (tail = [] ∧ es = [] ∨ tail = '.' :: es) →
      ∃ x, read? (signed negative (ds ++ tail)) = some x ∧ x.Short := by
    intro negative ds es tail hne hdigits hcount htail
    obtain ⟨c, rest, hds⟩ := List.exists_cons_of_ne_nil hne
    have hsignificant : ((ds ++ es).dropWhile (· == '0')).length ≤ 15 :=
      (List.length_dropWhile_le _ _).trans hcount
    have hplaces : es.length ≤ 15 := by
      rw [List.length_append] at hcount
      omega
    have hfew : digitsValue (ds ++ es) < fewLimit :=
      (digitsValue_lt hdigits).trans_le (Nat.pow_le_pow_right (by decide) hcount)
    refine ⟨_, ?_, short_ofRatio hfew (hplaces.trans (by decide)) negative⟩
    rw [read?_signed ⟨c, rest ++ tail, by rw [hds]; rfl, hdigits c (by rw [hds]; simp)⟩,
      readUnsigned?_append hne hdigits htail,
      nearest_eq_ofRatio negative (by omega) (by omega)]
  cases h with
  | whole negative hne hdigits hcount =>
    have hwhole := hparts negative hne (by rwa [List.append_nil]) (by rwa [List.append_nil])
      (.inl ⟨rfl, rfl⟩)
    rwa [List.append_nil] at hwhole
  | pointed negative hne hdigits hcount => exact hparts negative hne hdigits hcount (.inr rfl)

end Decimal

end Transcript

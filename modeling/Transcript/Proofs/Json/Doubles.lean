-- The digits and the power that a reader takes from a written double. All digits fit the word
-- that it collects them in, so nothing of the number is lost before it is scaled.
import Transcript.Proofs.Decimal.ReadBack

namespace Transcript

namespace Decimal

/-- The digits and the power that a reader takes from a decimal as documents write it. A whole
number gets a zero behind its point, which is one more digit. -/
def Scaled.written (d : Scaled) : Scaled :=
  if d.isModest ∧ 0 ≤ d.power then ⟨d.digits * tenTo (d.power.toNat + 1), -1⟩ else d

/-- The zero adds nothing to the value. -/
theorem Scaled.value_written (d : Scaled) : d.written.value = d.value := by
  unfold Scaled.written
  split
  · rename_i h
    obtain ⟨n, hn⟩ := Int.eq_ofNat_of_zero_le h.2
    have hten : (10 : ℚ) ≠ 0 := by norm_num
    rw [Scaled.value, Scaled.value, hn, Int.toNat_natCast, Nat.cast_mul, cast_tenTo, zpow_natCast,
      zpow_neg_one, pow_succ, mul_assoc, mul_assoc, mul_inv_cancel₀ hten, mul_one]
  · rfl

theorem digitsValue_append_zero (ds : List Char) :
    digitsValue (ds ++ ['0']) = digitsValue ds * 10 := digitsValue_append_zeros ds 1

end Decimal

namespace Json

open Decimal (AllDigits Positional Scaled digitsValue takeDigits_append)

/-! ## Digits around a point -/

theorem absorb_digitsValue {ds : List Char} (h : digitsValue ds ≤ Decimal.largestWord) :
    Decimal.absorb Decimal.largestWord 0 ds = (digitsValue ds, []) := Decimal.absorb_eq_of_le h

/-- The digits of a whole part that fits the word are taken in, and what follows decides. -/
theorem readNumber_append {whole : List Char} (tail : List Char) (hne : whole ≠ [])
    (hwhole : AllDigits whole) (hleading : whole.head? = some '0' → whole = ['0'])
    (hword : digitsValue whole ≤ Decimal.largestWord)
    (htail : ∀ c ∈ tail.head?, c.isDigit = false) (negative : Bool) :
    readNumber negative (whole ++ tail) = readAfterWhole negative (digitsValue whole) [] tail := by
  have habsorb := absorb_digitsValue hword
  obtain ⟨c, ds, rfl⟩ := List.exists_cons_of_ne_nil hne
  have hzero : ¬(c = '0' ∧ ds.head?.any Char.isDigit = true) := by
    rintro ⟨rfl, hany⟩
    rw [(List.cons.inj (hleading rfl)).2] at hany
    cases hany
  rw [List.cons_append, readNumber, ← List.cons_append, takeDigits_append hwhole htail,
    head?_any_isDigit_append htail, if_neg hzero]
  simp only [hwhole c List.mem_cons_self, habsorb]
  rfl

/-- The digits behind the point are taken in too, each lowering the power. -/
theorem readNumber_pointed {whole : List Char} (fraction tail : List Char) (hne : whole ≠ [])
    (hleading : whole.head? = some '0' → whole = ['0']) (hdigits : AllDigits (whole ++ fraction))
    (hfraction : fraction ≠ []) (hword : digitsValue (whole ++ fraction) ≤ Decimal.largestWord)
    (htail : tail = [] ∨ ∃ power, tail = 'e' :: power) (negative : Bool) :
    readNumber negative (whole ++ '.' :: (fraction ++ tail)) =
      match tail with
      | [] => finishDouble negative (digitsValue (whole ++ fraction)) (-fraction.length) []
      | _ :: power =>
        readExponent negative (digitsValue (whole ++ fraction)) (-fraction.length) power := by
  have hsplit : digitsValue (whole ++ fraction) =
      fraction.foldl (fun n d => 10 * n + Decimal.digitValue d) (digitsValue whole) :=
    List.foldl_append
  have hle : digitsValue whole ≤ digitsValue (whole ++ fraction) := by
    rw [hsplit]
    exact Decimal.le_foldl_digits _ _
  have habsorb := Decimal.absorb_eq_of_le (hsplit ▸ hword)
  rw [← hsplit] at habsorb
  have hstop : ∀ c ∈ tail.head?, c.isDigit = false := by
    rcases htail with rfl | ⟨power, rfl⟩
    · simp
    · exact Decimal.not_digit_of_cons rfl power
  have hempty : fraction.isEmpty = false := by simpa using hfraction
  rw [readNumber_append _ hne hdigits.left hleading (hle.trans hword)
    (Decimal.not_digit_of_cons rfl _)]
  unfold readAfterWhole readFraction
  simp only [takeDigits_append hdigits.right hstop, habsorb, hempty]
  rcases htail with rfl | ⟨power, rfl⟩ <;> simp

/-- A power that is written behind the digits. -/
theorem readExponent_toDigits (negative : Bool) (digits : Nat) (scale : ℤ) (down : Bool) {n : Nat}
    (hn : n ≤ 1000) (hscale : scale.natAbs ≤ 1000) :
    readExponent negative digits scale ((if down then '-' else '+') :: Nat.toDigits 10 n) =
      finishDouble negative digits (if down then scale - n else scale + n) [] := by
  have hlarge : largestExponent = 2147483647 := by decide
  have habsorb : Decimal.absorb largestExponent 0 (Nat.toDigits 10 n) = (n, []) := by
    have hvalue := Decimal.digitsValue_toDigits n
    unfold digitsValue at hvalue
    rw [Decimal.absorb_eq_of_le (by rw [hvalue]; omega), hvalue]
  obtain ⟨c, ds, hds⟩ := List.exists_cons_of_ne_nil (Nat.toDigits_ne_nil (b := 10) (n := n))
  have hdigits := Decimal.allDigits_toDigits n
  have htake : Decimal.takeDigits (Nat.toDigits 10 n ++ []) = (Nat.toDigits 10 n, []) :=
    takeDigits_append hdigits (by simp)
  rw [List.append_nil] at htake
  have hpower : readPower negative digits scale down (Nat.toDigits 10 n) =
      finishDouble negative digits (if down then scale - n else scale + n) [] := by
    have hc : c.isDigit = true := hdigits c (by rw [hds]; exact List.mem_cons_self)
    have hclamp : ∀ total : ℤ, total.natAbs ≤ 2000 →
        max (min total largestExponent) (-largestExponent - 1) = total := by
      intro total htotal
      rw [hlarge]
      omega
    rw [hds, readPower, ← hds]
    simp only [hc, htake, habsorb]
    refine congrArg (finishDouble negative digits · []) (hclamp _ ?_)
    split <;> omega
  cases down <;> exact hpower

/-- A power with its sign in front. -/
theorem readExponent_power (negative : Bool) (digits : Nat) {scale power : ℤ}
    (hpower : power.natAbs ≤ 1000) (hscale : scale.natAbs ≤ 1000) :
    readExponent negative digits scale
      ((if power < 0 then '-' else '+') :: Nat.toDigits 10 power.natAbs) =
      finishDouble negative digits (scale + power) [] := by
  have hread := readExponent_toDigits negative digits scale (decide (power < 0)) hpower hscale
  simp only [decide_eq_true_eq] at hread
  rw [hread]
  refine congrArg (finishDouble negative digits · []) ?_
  split <;> omega

/-! ## Written decimals -/

/-- The positional form with a point in any case. -/
theorem readNumber_positional {d : Scaled} (hpos : 0 < d.digits)
    (hup : 0 ≤ d.power → d.digits * tenTo (d.power.toNat + 1) ≤ Decimal.largestWord)
    (hdown : d.power < 0 → d.digits ≤ Decimal.largestWord) (negative : Bool) :
    readNumber negative (d.positional ++ if 0 ≤ d.power then ['.', '0'] else []) =
      if 0 ≤ d.power then finishDouble negative (d.digits * tenTo (d.power.toNat + 1)) (-1) []
      else finishDouble negative d.digits d.power [] := by
  obtain ⟨whole, fraction, hparts⟩ := Decimal.exists_positional hpos
  have hvalue := hparts.digitsValue_eq
  rw [hparts.text]
  by_cases hpower : 0 ≤ d.power
  · have hfraction : fraction = [] := by
      rw [← List.length_eq_zero_iff, hparts.length]
      omega
    rw [hfraction, List.append_nil] at hvalue
    have hdigits : digitsValue (whole ++ ['0']) = d.digits * tenTo (d.power.toNat + 1) := by
      rw [Decimal.digitsValue_append_zero, hvalue, Decimal.tenTo_succ]
      ring
    have hread := readNumber_pointed ['0'] [] hparts.nonempty hparts.leading
      (hparts.allDigits.left.append allDigits_zero) (List.cons_ne_nil _ _)
      (hdigits.trans_le (hup hpower)) (.inl rfl) negative
    rw [hdigits] at hread
    rw [if_pos hpower, if_pos hpower, if_pos hpower, List.append_nil]
    exact hread
  · have hlength := hparts.length
    have hfraction : fraction ≠ [] := by
      rintro rfl
      rw [List.length_nil] at hlength
      omega
    have hzero : d.power.toNat = 0 := by omega
    rw [hzero, Decimal.tenTo_zero, Nat.mul_one] at hvalue
    have hread := readNumber_pointed fraction [] hparts.nonempty hparts.leading hparts.allDigits
      hfraction (hvalue.trans_le (hdown (by omega))) (.inl rfl) negative
    rw [hvalue, List.append_nil, hlength] at hread
    rw [if_neg hpower, if_neg hpower, if_neg hpower, List.append_nil, hread]
    exact congrArg (finishDouble negative d.digits · []) (by omega)

/-- The form with a power. -/
theorem readNumber_scientific {d : Scaled} (hpos : 0 < d.digits)
    (hword : d.digits ≤ Decimal.largestWord) (hlow : -900 ≤ d.top) (hhigh : d.top ≤ 900)
    (negative : Bool) :
    readNumber negative d.scientific = finishDouble negative d.digits d.power [] := by
  have hdigits := Decimal.allDigits_toDigits d.digits
  have hvalue := Decimal.digitsValue_toDigits d.digits
  have hhead := Decimal.head?_toDigits_ne_zero hpos
  have hne : Nat.toDigits 10 d.digits ≠ [] := Nat.toDigits_ne_nil
  have hlength : (Nat.toDigits 10 d.digits).length ≤ 20 :=
    (Nat.length_toDigits_le_iff (by decide) (by decide)).mpr
      (hword.trans_lt (by decide +kernel : Decimal.largestWord < 10 ^ 20))
  unfold Scaled.top at hlow hhigh
  unfold Scaled.scientific
  dsimp only
  generalize Nat.toDigits 10 d.digits = ds at *
  obtain ⟨power, hpower⟩ : ∃ power, (ds.length : ℤ) + d.power - 1 = power := ⟨_, rfl⟩
  rw [hpower]
  have hrange : power.natAbs ≤ 1000 := by omega
  rcases ds with _ | ⟨c, _ | ⟨e, ds⟩⟩
  · contradiction
  · -- One digit, and no point.
    have hread := readNumber_append ('e' :: (if power < 0 then '-' else '+') ::
      Nat.toDigits 10 power.natAbs) hne hdigits (fun hzero => absurd hzero hhead)
      (hvalue.trans_le hword) (Decimal.not_digit_of_cons rfl _) negative
    have hsum : 0 + power = d.power := by
      rw [List.length_singleton] at hpower
      omega
    rw [hvalue] at hread
    rw [← hsum, ← readExponent_power negative d.digits hrange (by decide)]
    exact hread
  · -- The point stands behind the first digit.
    have hread := readNumber_pointed (e :: ds) ('e' :: (if power < 0 then '-' else '+') ::
      Nat.toDigits 10 power.natAbs) (List.cons_ne_nil c [])
      (fun hzero => by rw [← Option.some.inj hzero]) hdigits (List.cons_ne_nil _ _)
      (hvalue.trans_le hword) (.inr ⟨_, rfl⟩) negative
    have hcons : digitsValue ([c] ++ e :: ds) = d.digits := hvalue
    have hsum : -((e :: ds).length : ℤ) + power = d.power := by
      rw [List.length_cons] at hpower
      omega
    rw [List.length_cons] at hlength
    rw [hcons] at hread
    rw [← hsum, ← readExponent_power negative d.digits hrange (by omega)]
    exact hread

/-! ## Written doubles -/

theorem shortest_digits_le_word (tie : Decimal.Tie) {x : Binary64} (hpos : 0 < x.magnitude) :
    (Decimal.shortest tie x).digits ≤ Decimal.largestWord := by
  have hdigits := Decimal.shortest_digits_lt tie hpos
  have hhigh := Decimal.high_lt x
  have hword : 10 * twoTo 56 ≤ Decimal.largestWord := by decide
  omega

/-- A whole number below `10 ^ 16` fits the word with a zero behind it. -/
theorem modest_digits_le_word {d : Scaled} (hmodest : d.isModest = true) (hpower : 0 ≤ d.power) :
    d.digits * tenTo (d.power.toNat + 1) ≤ Decimal.largestWord := by
  have hwhole : ((Nat.toDigits 10 d.digits).length : ℤ) + d.power ≤ 16 := by
    simp only [Scaled.isModest, Bool.and_eq_true, decide_eq_true_eq] at hmodest
    exact hmodest.1
  have hdigits : d.digits < 10 ^ (Nat.toDigits 10 d.digits).length :=
    (Nat.length_toDigits_le_iff (by decide) Nat.length_toDigits_pos).mp (Nat.le_refl _)
  have hten : 10 ^ (Nat.toDigits 10 d.digits).length * tenTo (d.power.toNat + 1) ≤ 10 ^ 17 := by
    rw [tenTo, Nat.pow_eq, ← Nat.pow_add]
    exact Nat.pow_le_pow_right (by decide) (by omega)
  have hword : 10 ^ 17 ≤ Decimal.largestWord := by decide
  exact (Nat.mul_le_mul_right _ hdigits.le).trans (hten.trans hword)

/-- A written double is read from the digits and the power of its shortest decimal. -/
theorem readNumber_documented {x : Binary64} (hfinite : x.isFinite = true)
    (hpos : 0 < x.magnitude) : ∃ text, IsNumeral text ∧
      (Decimal.documented x).toList = Decimal.signed x.isNegative text ∧
      ∀ negative, readNumber negative text =
        finishDouble negative (Decimal.shortest .even x).written.digits
          (Decimal.shortest .even x).written.power [] := by
  have hdigits := Decimal.shortest_digits_pos .even hpos
  have hword := shortest_digits_le_word .even hpos
  obtain ⟨hlow, hhigh⟩ := Decimal.shortest_top .even hfinite hpos
  unfold Decimal.documented Scaled.written
  rw [String.toList_ofList, if_neg hpos.ne']
  dsimp only
  by_cases hmodest : (Decimal.shortest .even x).isModest = true
  · rw [if_pos hmodest]
    refine ⟨_, isNumeral_positional _, rfl, fun negative => ?_⟩
    rw [readNumber_positional hdigits (modest_digits_le_word hmodest) fun _ => hword]
    by_cases hpower : 0 ≤ (Decimal.shortest .even x).power
    · rw [if_pos hpower, if_pos ⟨hmodest, hpower⟩]
    · rw [if_neg hpower, if_neg fun h => hpower h.2]
  · rw [if_neg hmodest, if_neg fun h => hmodest h.1]
    exact ⟨_, isNumeral_scientific _, rfl, fun negative =>
      readNumber_scientific hdigits hword (by omega) (by omega) negative⟩

end Json

end Transcript

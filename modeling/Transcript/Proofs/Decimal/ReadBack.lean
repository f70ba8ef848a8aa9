-- The plain form of a finite number is read back as the number. Its digits, with the zeros that
-- the layout puts around them, are those of the shortest decimal, whose value lies in the
-- interval of the number.
import Transcript.Decimal.Layout
import Transcript.Proofs.Decimal.Shortest
import Transcript.Proofs.Json.Numerals

namespace Transcript

/-! ## Numbers from their intervals -/

theorem Binary64.Holds.ofRatio_eq {x : Binary64} {num den : Nat} (h : x.Holds (num / den))
    (hfinite : x.isFinite = true) (hpos : 0 < x.magnitude) (hden : 0 < den) (negative : Bool) :
    Binary64.ofRatio negative num den = .ofMagnitude negative x.magnitude := by
  have hnum : num ≠ 0 := by
    rintro rfl
    have hratio := h.pos hpos
    simp at hratio
  rw [Binary64.ofRatio, if_neg hnum, h.magnitudeOfRatio_eq hfinite hpos hden]

namespace Decimal

/-! ## Digits and zeros -/

theorem tenTo_zero : tenTo 0 = 1 := rfl

theorem tenTo_succ (n : Nat) : tenTo (n + 1) = 10 * tenTo n := Nat.pow_succ'

theorem digitsValue_concat (ds : List Char) (d : Char) :
    digitsValue (ds ++ [d]) = 10 * digitsValue ds + digitValue d := by
  rw [digitsValue, List.foldl_append]
  rfl

theorem digitsValue_append_zeros (ds : List Char) (n : Nat) :
    digitsValue (ds ++ List.replicate n '0') = digitsValue ds * tenTo n := by
  induction n with
  | zero => rw [List.replicate_zero, List.append_nil, tenTo_zero, Nat.mul_one]
  | succ n ih =>
    have hzero : digitValue '0' = 0 := rfl
    rw [List.replicate_succ', ← List.append_assoc, digitsValue_concat, ih, hzero, tenTo_succ]
    ring

theorem digitsValue_zeros_append (n : Nat) (ds : List Char) :
    digitsValue (List.replicate n '0' ++ ds) = digitsValue ds := by
  induction n with
  | zero => rfl
  | succ n ih =>
    rw [List.replicate_succ, List.cons_append, digitsValue, List.foldl_cons]
    exact ih

theorem dropWhile_zeros_append {ds : List Char} (n : Nat) (h : ds.head? ≠ some '0') :
    (List.replicate n '0' ++ ds).dropWhile (· == '0') = ds := by
  induction n with
  | zero =>
    cases ds with
    | nil => rfl
    | cons d ds =>
      have hd : (d == '0') = false := beq_eq_false_iff_ne.mpr fun heq => h (by rw [heq]; rfl)
      rw [List.replicate_zero, List.nil_append, List.dropWhile_cons_of_neg (by simp [hd])]
  | succ n ih =>
    rw [List.replicate_succ, List.cons_append, List.dropWhile_cons_of_pos (by rfl), ih]

theorem digitsValue_dropWhile_zeros (ds : List Char) :
    digitsValue (ds.dropWhile (· == '0')) = digitsValue ds := by
  induction ds with
  | nil => rfl
  | cons d ds ih =>
    by_cases hd : d = '0'
    · subst hd
      rw [List.dropWhile_cons_of_pos (by rfl), ih]
      exact (digitsValue_zeros_append 1 ds).symm
    · rw [List.dropWhile_cons_of_neg (by simpa using hd)]

/-- The number nearest to digits with a point before the last `places` of them. -/
theorem nearest_eq_ofRatio (negative : Bool) {ds : List Char} {places : Nat}
    (hlow : -330 ≤ ((ds.dropWhile (· == '0')).length : ℤ) - places)
    (hhigh : ((ds.dropWhile (· == '0')).length : ℤ) - places ≤ 320) :
    nearest negative ds (0 - places) = .ofRatio negative (digitsValue ds) (tenTo places) := by
  have hvalue := digitsValue_dropWhile_zeros ds
  have hup : (0 - (places : ℤ)).toNat = 0 := by omega
  have hdown : (-(0 - (places : ℤ))).toNat = places := by omega
  unfold nearest
  dsimp only
  rw [hup, hdown, hvalue, tenTo_zero, Nat.mul_one]
  split
  · rename_i hempty
    rw [List.isEmpty_iff.mp hempty] at hvalue
    rw [← hvalue]
    rfl
  · rw [if_neg (by omega), if_neg (by omega)]

/-! ## The positional form -/

/-- The digits of a decimal before and behind the point, in positional form. -/
structure Positional (d : Scaled) (whole fraction : List Char) : Prop where
  text : d.positional = whole ++ if 0 ≤ d.power then [] else '.' :: fraction
  nonempty : whole ≠ []
  leading : whole.head? = some '0' → whole = ['0']
  length : fraction.length = (-d.power).toNat
  digits : ∃ zeros, whole ++ fraction = List.replicate zeros '0' ++
    (Nat.toDigits 10 d.digits ++ List.replicate d.power.toNat '0')

theorem exists_positional {d : Scaled} (h : 0 < d.digits) :
    ∃ whole fraction, Positional d whole fraction := by
  have hhead := head?_toDigits_ne_zero h
  have hne : Nat.toDigits 10 d.digits ≠ [] := Nat.toDigits_ne_nil
  by_cases hpower : 0 ≤ d.power
  · refine ⟨Nat.toDigits 10 d.digits ++ List.replicate d.power.toNat '0', [], ?_, ?_, ?_, ?_, 0, ?_⟩
    · rw [if_pos hpower, List.append_nil, Scaled.positional]
      simp only [if_pos hpower]
    · exact List.append_ne_nil_of_left_ne_nil hne _
    · rw [List.head?_append_of_ne_nil _ hne]
      exact fun hzero => absurd hzero hhead
    · rw [List.length_nil]
      omega
    · rw [List.append_nil, List.replicate_zero, List.nil_append]
  · have hzeros : d.power.toNat = 0 := by omega
    by_cases hwhole : 0 < ((Nat.toDigits 10 d.digits).length : ℤ) + d.power
    · -- The point stands among the digits.
      obtain ⟨n, hn⟩ : ∃ n : Nat, ((Nat.toDigits 10 d.digits).length : ℤ) + d.power = n + 1 :=
        ⟨((Nat.toDigits 10 d.digits).length + d.power - 1).toNat, by omega⟩
      have htake : (Nat.toDigits 10 d.digits).take (n + 1) ≠ [] := by simp [hne]
      refine ⟨(Nat.toDigits 10 d.digits).take (n + 1), (Nat.toDigits 10 d.digits).drop (n + 1), ?_,
        htake, ?_, ?_, 0, ?_⟩
      · have hcount : ((Nat.toDigits 10 d.digits).length + d.power).toNat = n + 1 := by omega
        rw [if_neg hpower, Scaled.positional]
        simp only [if_neg hpower, if_pos hwhole, hcount]
      · rw [List.head?_take, if_neg (Nat.succ_ne_zero n)]
        exact fun hzero => absurd hzero hhead
      · rw [List.length_drop]
        omega
      · rw [List.take_append_drop, hzeros, List.replicate_zero, List.nil_append, List.append_nil]
    · -- Zeros stand between the point and the digits.
      refine ⟨['0'], List.replicate (-((Nat.toDigits 10 d.digits).length + d.power)).toNat '0' ++
        Nat.toDigits 10 d.digits, ?_, List.cons_ne_nil _ _, fun _ => rfl, ?_,
        (-((Nat.toDigits 10 d.digits).length + d.power)).toNat + 1, ?_⟩
      · rw [if_neg hpower, Scaled.positional]
        simp only [if_neg hpower, if_neg hwhole]
        rfl
      · rw [List.length_append, List.length_replicate]
        omega
      · rw [hzeros, List.replicate_zero, List.append_nil, List.replicate_succ]
        rfl

namespace Positional

variable {d : Scaled} {whole fraction : List Char}

theorem allDigits (h : Positional d whole fraction) : AllDigits (whole ++ fraction) := by
  obtain ⟨zeros, hdigits⟩ := h.digits
  rw [hdigits]
  exact (allDigits_replicate_zero zeros).append
    ((allDigits_toDigits _).append (allDigits_replicate_zero _))

theorem digitsValue_eq (h : Positional d whole fraction) :
    digitsValue (whole ++ fraction) = d.digits * tenTo d.power.toNat := by
  obtain ⟨zeros, hdigits⟩ := h.digits
  rw [hdigits, digitsValue_zeros_append, digitsValue_append_zeros, digitsValue_toDigits]

/-- The number nearest to the digits is the one nearest to the decimal. -/
theorem nearest_eq (h : Positional d whole fraction) (hpos : 0 < d.digits) (negative : Bool)
    (hlow : -330 ≤ d.top) (hhigh : d.top ≤ 320) :
    nearest negative (whole ++ fraction) (0 - fraction.length) =
      .ofRatio negative (d.digits * tenTo d.power.toNat) (tenTo (-d.power).toNat) := by
  have hne : Nat.toDigits 10 d.digits ≠ [] := Nat.toDigits_ne_nil
  have hhead : (Nat.toDigits 10 d.digits ++ List.replicate d.power.toNat '0').head? ≠ some '0' := by
    rw [List.head?_append_of_ne_nil _ hne]
    exact head?_toDigits_ne_zero hpos
  have hsignificant : (whole ++ fraction).dropWhile (· == '0') =
      Nat.toDigits 10 d.digits ++ List.replicate d.power.toNat '0' := by
    obtain ⟨zeros, hdigits⟩ := h.digits
    rw [hdigits, dropWhile_zeros_append zeros hhead]
  have htop : (((whole ++ fraction).dropWhile (· == '0')).length : ℤ) - fraction.length =
      d.top := by
    rw [hsignificant, List.length_append, List.length_replicate, h.length, Scaled.top]
    omega
  rw [nearest_eq_ofRatio negative (by omega) (by omega), h.digitsValue_eq, h.length]

end Positional

/-! ## Reading digits -/

/-- Digits with or without a point among them are read with the power that the point gives
them. -/
theorem readUnsigned?_append {whole fraction tail : List Char} (hne : whole ≠ [])
    (hdigits : AllDigits (whole ++ fraction))
    (htail : tail = [] ∧ fraction = [] ∨ tail = '.' :: fraction) (negative : Bool) :
    readUnsigned? negative (whole ++ tail) =
      some (nearest negative (whole ++ fraction) (0 - fraction.length)) := by
  have hempty : whole.isEmpty = false := by simpa using hne
  rcases htail with ⟨rfl, rfl⟩ | rfl
  · have htake : takeDigits (whole ++ []) = (whole, []) :=
      takeDigits_append hdigits.left (by simp)
    unfold readUnsigned?
    simp only [htake, hempty]
    rfl
  · have htake : takeDigits (whole ++ '.' :: fraction) = (whole, '.' :: fraction) :=
      takeDigits_append hdigits.left (not_digit_of_cons rfl fraction)
    have hrest : takeDigits (fraction ++ []) = (fraction, []) :=
      takeDigits_append hdigits.right (by simp)
    rw [List.append_nil] at hrest
    unfold readUnsigned?
    simp only [htake, hrest, hempty]
    rfl

theorem readUnsigned?_positional {d : Scaled} {whole fraction : List Char}
    (h : Positional d whole fraction) (negative : Bool) :
    readUnsigned? negative d.positional =
      some (nearest negative (whole ++ fraction) (0 - fraction.length)) := by
  rw [h.text]
  refine readUnsigned?_append h.nonempty h.allDigits ?_ negative
  by_cases hpower : 0 ≤ d.power
  · refine .inl ⟨if_pos hpower, ?_⟩
    rw [← List.length_eq_zero_iff, h.length]
    omega
  · exact .inr (if_neg hpower)

/-- A sign is taken off a text that starts with a digit. -/
theorem takeSign_signed {text : List Char} (h : ∃ c s, text = c :: s ∧ c.isDigit = true)
    (negative : Bool) : takeSign (signed negative text) = (negative, text) := by
  obtain ⟨c, s, rfl, hc⟩ := h
  cases negative with
  | true => rfl
  | false =>
    unfold signed takeSign
    split
    · rename_i heq
      rw [(List.cons.inj heq).1] at hc
      cases hc
    · rename_i heq
      rw [(List.cons.inj heq).1] at hc
      cases hc
    · rfl

theorem toLower_of_isDigit {c : Char} (h : c.isDigit = true) : c.toLower = c := by
  have hdigit : c.toNat ≤ 57 := by
    simp only [Char.isDigit, Bool.and_eq_true, decide_eq_true_eq] at h
    exact h.2
  unfold Char.toLower
  rw [dif_neg]
  rintro ⟨hlow, -⟩
  exact absurd (Nat.le_trans hlow hdigit) (by decide)

/-- No word starts with a digit. -/
theorem readWord?_of_isDigit {text : List Char} (h : ∃ c s, text = c :: s ∧ c.isDigit = true)
    (negative : Bool) : readWord? negative text = none := by
  obtain ⟨c, s, rfl, hc⟩ := h
  have hne : ∀ {word : String} {d : Char}, word.toList.head? = some d → d.isDigit = false →
      String.ofList ((c :: s).map Char.toLower) ≠ word := by
    rintro word d hhead hd rfl
    rw [String.toList_ofList, List.map_cons, List.head?_cons, toLower_of_isDigit hc] at hhead
    rw [← Option.some.inj hhead, hc] at hd
    cases hd
  unfold readWord?
  simp only
  rw [if_neg, if_neg (hne (d := 'n') rfl rfl)]
  exact fun hword => hword.elim (hne (d := 'i') rfl rfl) (hne (d := 'i') rfl rfl)

theorem read?_signed {text : List Char} (h : ∃ c s, text = c :: s ∧ c.isDigit = true)
    (negative : Bool) : read? (signed negative text) = readUnsigned? negative text := by
  unfold read?
  rw [takeSign_signed h]
  dsimp only
  rw [readWord?_of_isDigit h, Option.none_or]

/-- A decimal whose value lies in the interval of a number is read as the number, with any
sign. -/
theorem read?_positional {d : Scaled} {x : Binary64} (h : x.Holds d.value)
    (hfinite : x.isFinite = true) (hpos : 0 < x.magnitude) (hdigits : 0 < d.digits)
    (hlow : -330 ≤ d.top) (hhigh : d.top ≤ 320) (negative : Bool) :
    read? (signed negative d.positional) = some (.ofMagnitude negative x.magnitude) := by
  obtain ⟨whole, fraction, hparts⟩ := exists_positional hdigits
  have hdigit : ∃ c s, d.positional = c :: s ∧ c.isDigit = true := by
    obtain ⟨c, s, hcs⟩ := List.exists_cons_of_ne_nil hparts.nonempty
    have hc : c ∈ whole := by
      rw [hcs]
      exact List.mem_cons_self
    refine ⟨c, s ++ if 0 ≤ d.power then [] else '.' :: fraction, ?_, hparts.allDigits.left c hc⟩
    rw [hparts.text, hcs, List.cons_append]
  have hratio : d.value =
      ((d.digits * tenTo d.power.toNat : Nat) : ℚ) / (tenTo (-d.power).toNat : Nat) := by
    rw [Scaled.value, ← tenTo_div_tenTo, Nat.cast_mul, mul_div_assoc]
  rw [hratio] at h
  rw [read?_signed hdigit, readUnsigned?_positional hparts,
    hparts.nearest_eq hdigits negative hlow hhigh,
    h.ofRatio_eq hfinite hpos (tenTo_pos _) negative]

/-! ## The plain form -/

/-- The plain form of a finite number is read as the number. -/
theorem read?_plain {x : Binary64} (h : x.isFinite = true) : read? (plain x).toList = some x := by
  have hnan : x.isNaN = false := by
    have hlt := Binary64.magnitude_lt_of_isFinite h
    exact decide_eq_false (Nat.not_lt.mpr hlt.le)
  unfold plain
  rw [String.toList_ofList, if_neg (by rw [hnan]; exact Bool.false_ne_true),
    if_neg (by rw [h]; exact Bool.false_ne_true)]
  by_cases hzero : x.magnitude = 0
  · rw [if_pos hzero, read?_signed ⟨'0', [], rfl, rfl⟩]
    have hread : readUnsigned? x.isNegative ['0'] = some (.ofMagnitude x.isNegative 0) := rfl
    rw [hread, ← hzero, Binary64.ofMagnitude_magnitude]
  · have hpos : 0 < x.magnitude := Nat.pos_of_ne_zero hzero
    obtain ⟨hlow, hhigh⟩ := shortest_top .up h hpos
    rw [if_neg hzero, read?_positional (shortest_holds .up hpos) h hpos
      (shortest_digits_pos .up hpos) (by omega) hhigh, Binary64.ofMagnitude_magnitude]

/-- A number with the plain form of a finite one is that number. -/
theorem plain_inj {x y : Binary64} (hx : x.isFinite = true) (h : plain y = plain x) : y = x := by
  have hread := read?_plain hx
  cases hy : y.isFinite with
  | true =>
    rw [← h, read?_plain hy] at hread
    exact Option.some.inj hread
  | false =>
    exfalso
    rw [← h] at hread
    unfold plain at hread
    rw [String.toList_ofList] at hread
    split at hread
    · have hword : read? "NaN".toList = some (.nan false) := by decide +kernel
      rw [hword] at hread
      rw [← Option.some.inj hread] at hx
      exact absurd hx (by decide)
    · rw [if_pos (by rw [hy]; rfl)] at hread
      have hword : ∀ negative, read? (signed negative "inf".toList) =
          some (.infinity negative) := by decide +kernel
      rw [hword] at hread
      rw [← Option.some.inj hread] at hx
      have hinfinite : ∀ negative, (Binary64.infinity negative).isFinite = false := by decide
      rw [hinfinite] at hx
      cases hx

end Decimal

end Transcript

-- Numbers of documents. A written number that is not whole has a point or a power in it, and
-- a reader takes all of it and no more, whatever value it gives it; a whole number within 64
-- bits is read as itself.
import Mathlib.Data.List.Basic
import Mathlib.Data.List.TakeWhile
import Transcript.Json.Reader

namespace Transcript

/-! ## Digits -/

namespace Decimal

/-- A text of digits alone. -/
def AllDigits (ds : List Char) : Prop := ∀ c ∈ ds, c.isDigit = true

theorem AllDigits.append {ds es : List Char} (hd : AllDigits ds) (he : AllDigits es) :
    AllDigits (ds ++ es) := by
  intro c hc
  rcases List.mem_append.mp hc with hc | hc
  · exact hd c hc
  · exact he c hc

theorem AllDigits.left {ds es : List Char} (h : AllDigits (ds ++ es)) : AllDigits ds :=
  fun c hc => h c (List.mem_append_left es hc)

theorem AllDigits.right {ds es : List Char} (h : AllDigits (ds ++ es)) : AllDigits es :=
  fun c hc => h c (List.mem_append_right ds hc)

theorem allDigits_toDigits (n : Nat) : AllDigits (Nat.toDigits 10 n) :=
  fun _ hc => Nat.isDigit_of_mem_toDigits (by decide) (by decide) hc

theorem allDigits_replicate_zero (n : Nat) : AllDigits (List.replicate n '0') := by
  intro c hc
  rw [List.eq_of_mem_replicate hc]
  rfl

/-- A character that is no digit ends the digits before it. -/
theorem not_digit_of_cons {c : Char} (hc : c.isDigit = false) (rest : List Char) :
    ∀ d ∈ (c :: rest).head?, d.isDigit = false := by
  intro d hd
  rw [← Option.some.inj hd]
  exact hc

theorem takeDigits_append {ds rest : List Char} (h : AllDigits ds)
    (hrest : ∀ c ∈ rest.head?, c.isDigit = false) : takeDigits (ds ++ rest) = (ds, rest) := by
  have hnone : rest.takeWhile Char.isDigit = [] ∧ rest.dropWhile Char.isDigit = rest := by
    cases rest with
    | nil => exact ⟨rfl, rfl⟩
    | cons c rest => simp [hrest c rfl]
  rw [takeDigits, List.takeWhile_append_of_pos h, List.dropWhile_append_of_pos h, hnone.1, hnone.2,
    List.append_nil]

theorem digitsValue_toDigits (n : Nat) : digitsValue (Nat.toDigits 10 n) = n :=
  Nat.ofDigitChars_toDigits (by decide) (by decide)

theorem le_foldl_digits (ds : List Char) (n : Nat) :
    n ≤ ds.foldl (fun n d => 10 * n + digitValue d) n := by
  induction ds generalizing n with
  | nil => exact Nat.le_refl n
  | cons d ds ih =>
    have := ih (10 * n + digitValue d)
    rw [List.foldl_cons]
    omega

/-- Digits are taken in to the last where their number is within the limit. -/
theorem absorb_eq_of_le {limit n : Nat} {ds : List Char}
    (h : ds.foldl (fun n d => 10 * n + digitValue d) n ≤ limit) :
    absorb limit n ds = (ds.foldl (fun n d => 10 * n + digitValue d) n, []) := by
  induction ds generalizing n with
  | nil => rfl
  | cons d ds ih =>
    rw [List.foldl_cons] at h ⊢
    have hstep : 10 * n + digitValue d ≤ limit := Nat.le_trans (le_foldl_digits ds _) h
    rw [absorb, if_pos hstep, ih h]

/-- A positive number has no zero in front. -/
theorem head?_toDigits_ne_zero {n : Nat} (h : 0 < n) : (Nat.toDigits 10 n).head? ≠ some '0' := by
  induction n using Nat.strongRecOn with
  | ind n ih =>
    by_cases hn : n < 10
    · have hall : ∀ m < 10, 0 < m → (Nat.toDigits 10 m).head? ≠ some '0' := by decide
      exact hall n hn h
    · have hlast : n % 10 < 10 := Nat.mod_lt n (by decide)
      have hsplit := Nat.toDigits_append_toDigits (b := 10) (n := n / 10) (d := n % 10) (by decide)
        (by omega) hlast
      rw [show 10 * (n / 10) + n % 10 = n by omega] at hsplit
      rw [← hsplit, List.head?_append_of_ne_nil (Nat.toDigits 10 (n / 10)) Nat.toDigits_ne_nil]
      exact ih (n / 10) (by omega) (by omega)

end Decimal

namespace Json

open Decimal (AllDigits takeDigits_append)

/-! ## What follows a number -/

/-- What may follow a number: nothing that goes on with it. -/
def EndsNumber (rest : List Char) : Prop :=
  ∀ c ∈ rest.head?, c.isDigit = false ∧ c ≠ '.' ∧ c ≠ 'e' ∧ c ≠ 'E'

theorem endsNumber_nil : EndsNumber [] := by simp [EndsNumber]

theorem EndsNumber.not_digit {rest : List Char} (h : EndsNumber rest) :
    ∀ c ∈ rest.head?, c.isDigit = false := fun c hc => (h c hc).1

/-- A reader's answer where the fault does not matter. -/
def Reading.found? {α : Type} : Reading α → Option (α × List Char)
  | .ok found => some found
  | .error _ => none

/-- The reader takes the text off the front whatever follows, and if it gives it a value, then
always the same one. -/
def Settles {α : Type} (read : List Char → Reading α) (text : List Char)
    (value? : Option α) : Prop :=
  ∀ rest, EndsNumber rest → (read (text ++ rest)).found? = value?.map fun v => (v, rest)

/-- A text that is always read in the same way is read so where nothing follows it. -/
theorem Settles.eq_found {α : Type} {read : List Char → Reading α} {text : List Char}
    {value? : Option α} (h : Settles read text value?) : (read text).found?.map (·.1) = value? := by
  have hread := h [] endsNumber_nil
  rw [List.append_nil] at hread
  rw [hread]
  cases value? <;> rfl

/-! ## Numbers with a point or a power -/

theorem settles_finishDouble (negative : Bool) (digits : Nat) (power : Int) :
    Settles (finishDouble negative digits power) []
      ((Decimal.approximate digits power).map fun x =>
        .double (if negative then x.neg else x)) := by
  intro rest _
  rw [List.nil_append, finishDouble]
  cases Decimal.approximate digits power <;> rfl

/-- The digits of a power. -/
theorem settles_readPower (negative : Bool) (digits : Nat) (power : Int) (down : Bool)
    {ds : List Char} (hds : AllDigits ds) :
    ∃ value?, Settles (readPower negative digits power down) ds value? := by
  cases ds with
  | nil =>
    refine ⟨none, fun rest hrest => ?_⟩
    cases rest with
    | nil => rfl
    | cons c rest =>
      simp only [List.nil_append, readPower, (hrest c rfl).1]
      rfl
  | cons d ds =>
    have hd : d.isDigit = true := hds d List.mem_cons_self
    rcases habsorb : Decimal.absorb largestExponent 0 (d :: ds) with ⟨n, extra⟩
    obtain ⟨value?, hfinish⟩ : ∃ value?, Settles (finishDouble negative digits
        (max (min (if down then power - n else power + n) largestExponent)
          (-largestExponent - 1))) [] value? := ⟨_, settles_finishDouble negative digits _⟩
    refine ⟨if extra.isEmpty then value?
      else if digits ≠ 0 ∧ !down then none else some (.double (.zero negative)), ?_⟩
    intro rest hrest
    rw [List.cons_append, readPower, ← List.cons_append, takeDigits_append hds hrest.not_digit]
    simp only [hd, habsorb]
    cases extra with
    | nil => exact hfinish rest hrest
    | cons e extra =>
      simp only [List.isEmpty_cons, Bool.not_true, Bool.not_false, Bool.false_eq_true, if_true,
        if_false]
      by_cases hover : digits ≠ 0 ∧ (!down) = true
      · rw [if_pos hover, if_pos hover]
        rfl
      · rw [if_neg hover, if_neg hover]
        rfl

/-- A power after its mark: a sign and digits. -/
theorem settles_readExponent (negative : Bool) (digits : Nat) (power : Int) (down : Bool)
    {ds : List Char} (hds : AllDigits ds) :
    ∃ value?, Settles (readExponent negative digits power)
      ((if down then '-' else '+') :: ds) value? := by
  obtain ⟨value?, hvalue⟩ := settles_readPower negative digits power down hds
  refine ⟨value?, fun rest hrest => ?_⟩
  rw [← hvalue rest hrest]
  cases down <;> rfl

/-- A power as documents write it, or none. -/
inductive IsPower : List Char → Prop where
  | absent : IsPower []
  | present (down : Bool) {ds : List Char} : AllDigits ds →
      IsPower ('e' :: (if down then '-' else '+') :: ds)

/-- A number that is not whole, as documents write it without its sign: digits, then a point
with digits behind it, or a power, or both. -/
inductive IsNumeral : List Char → Prop where
  | pointed {whole fraction power : List Char} : whole ≠ [] → AllDigits whole →
      AllDigits fraction → IsPower power → IsNumeral (whole ++ '.' :: (fraction ++ power))
  | scaled {whole ds : List Char} (down : Bool) : whole ≠ [] → AllDigits whole → AllDigits ds →
      IsNumeral (whole ++ 'e' :: (if down then '-' else '+') :: ds)

theorem IsNumeral.exists_digit {text : List Char} (h : IsNumeral text) :
    ∃ c s, text = c :: s ∧ c.isDigit = true := by
  have hfirst : ∀ {whole : List Char} (tail : List Char), whole ≠ [] → AllDigits whole →
      ∃ c s, whole ++ tail = c :: s ∧ c.isDigit = true := by
    intro whole tail hne hwhole
    obtain ⟨c, ds, rfl⟩ := List.exists_cons_of_ne_nil hne
    exact ⟨c, ds ++ tail, rfl, hwhole c List.mem_cons_self⟩
  cases h with
  | pointed hne hwhole _ _ => exact hfirst _ hne hwhole
  | scaled _ hne hwhole _ => exact hfirst _ hne hwhole

theorem IsPower.not_digit {power rest : List Char} (h : IsPower power) (hrest : EndsNumber rest) :
    ∀ c ∈ (power ++ rest).head?, c.isDigit = false := by
  cases h with
  | absent => exact hrest.not_digit
  | present down =>
    intro c hc
    rw [← Option.some.inj hc]
    rfl

theorem settles_readFraction (negative : Bool) (digits : Nat) (scale : Int)
    {fraction power : List Char} (hfraction : AllDigits fraction) (hpower : IsPower power) :
    ∃ value?, Settles (readFraction negative digits scale) (fraction ++ power) value? := by
  rcases habsorb : Decimal.absorb Decimal.largestWord digits fraction with ⟨n, extra⟩
  have hread : ∀ rest, EndsNumber rest →
      Decimal.takeDigits (fraction ++ power ++ rest) = (fraction, power ++ rest) := by
    intro rest hrest
    rw [List.append_assoc]
    exact takeDigits_append hfraction (hpower.not_digit hrest)
  unfold Settles readFraction
  by_cases hempty : fraction = []
  · refine ⟨none, fun rest hrest => ?_⟩
    have hnone : fraction.isEmpty = true := by simpa using hempty
    simp only [hread rest hrest, habsorb, hnone, if_true]
    split <;> rfl
  · have hsome : fraction.isEmpty = false := by simpa using hempty
    cases hpower with
    | absent =>
      obtain ⟨value?, hvalue⟩ : ∃ value?, Settles (finishDouble negative n
          (scale - (fraction.length - extra.length))) [] value? :=
        ⟨_, settles_finishDouble negative n _⟩
      refine ⟨value?, fun rest hrest => ?_⟩
      simp only [hread rest hrest, habsorb, hsome, List.nil_append]
      rw [← hvalue rest hrest]
      cases rest with
      | nil => rfl
      | cons c rest =>
        obtain ⟨-, -, he, hE⟩ := hrest c rfl
        simp [he, hE]
    | present down hds =>
      obtain ⟨value?, hvalue⟩ := settles_readExponent negative n
        (scale - (fraction.length - extra.length)) down hds
      refine ⟨value?, fun rest hrest => ?_⟩
      simp only [hread rest hrest, habsorb, hsome]
      exact hvalue rest hrest

theorem head?_any_isDigit_append {s tail : List Char} (h : ∀ c ∈ tail.head?, c.isDigit = false) :
    (s ++ tail).head?.any Char.isDigit = s.head?.any Char.isDigit := by
  cases s with
  | nil =>
    cases tail with
    | nil => rfl
    | cons c tail => simp [h c rfl]
  | cons c s => rfl

/-- The whole digits of a number, and what becomes of the rest. A zero with digits after it is
no number, whatever follows. -/
theorem settles_readNumber {negative : Bool} {whole tail : List Char} (hne : whole ≠ [])
    (hwhole : AllDigits whole)
    (htail : ∀ rest, EndsNumber rest → ∀ c ∈ (tail ++ rest).head?, c.isDigit = false)
    (h : ∀ digits extra, ∃ value?, Settles (readAfterWhole negative digits extra) tail value?) :
    ∃ value?, Settles (readNumber negative) (whole ++ tail) value? := by
  obtain ⟨c, ds, rfl⟩ := List.exists_cons_of_ne_nil hne
  have hc : c.isDigit = true := hwhole c List.mem_cons_self
  rcases habsorb : Decimal.absorb Decimal.largestWord 0 (c :: ds) with ⟨digits, extra⟩
  obtain ⟨value?, hvalue⟩ := h digits extra
  have hread : ∀ rest, EndsNumber rest → readNumber negative (c :: ds ++ tail ++ rest) =
      if c = '0' ∧ ds.head?.any Char.isDigit then faultOn .invalidNumber (ds ++ (tail ++ rest))
      else readAfterWhole negative digits extra (tail ++ rest) := by
    intro rest hrest
    rw [List.append_assoc, List.cons_append, readNumber, ← List.cons_append,
      takeDigits_append hwhole (htail rest hrest), head?_any_isDigit_append (htail rest hrest)]
    simp only [hc, habsorb]
    rfl
  unfold Settles
  by_cases hzero : c = '0' ∧ ds.head?.any Char.isDigit
  · refine ⟨none, fun rest hrest => ?_⟩
    rw [hread rest hrest, if_pos hzero]
    rfl
  · refine ⟨value?, fun rest hrest => ?_⟩
    rw [hread rest hrest, if_neg hzero]
    exact hvalue rest hrest

/-- A written number that is not whole is taken off the front whatever follows it. -/
theorem IsNumeral.settles {text : List Char} (h : IsNumeral text) (negative : Bool) :
    ∃ value?, Settles (readNumber negative) text value? := by
  cases h with
  | pointed hne hwhole hfraction hpower =>
    refine settles_readNumber hne hwhole (fun rest _ c hc => ?_) fun digits extra => ?_
    · rw [← Option.some.inj hc]
      rfl
    · exact settles_readFraction negative digits extra.length hfraction hpower
  | scaled down hne hwhole hds =>
    refine settles_readNumber hne hwhole (fun rest _ c hc => ?_) fun digits extra => ?_
    · rw [← Option.some.inj hc]
      rfl
    · exact settles_readExponent negative digits extra.length down hds

/-! ## Numbers that documents write -/

theorem allDigits_zero : AllDigits ['0'] := by
  intro c hc
  rw [List.mem_singleton.mp hc]
  rfl

theorem isNumeral_of_point {whole fraction : List Char} (hne : whole ≠ [])
    (hwhole : AllDigits whole) (hfraction : AllDigits fraction) :
    IsNumeral (whole ++ '.' :: fraction) := by
  have h := IsNumeral.pointed hne hwhole hfraction .absent
  rwa [List.append_nil] at h

/-- The positional form, with a point in any case. -/
theorem isNumeral_positional (d : Decimal.Scaled) :
    IsNumeral (d.positional ++ if 0 ≤ d.power then ['.', '0'] else []) := by
  have hdigits := Decimal.allDigits_toDigits d.digits
  unfold Decimal.Scaled.positional
  dsimp only
  by_cases hpower : 0 ≤ d.power
  · rw [if_pos hpower, if_pos hpower]
    exact isNumeral_of_point (List.append_ne_nil_of_left_ne_nil Nat.toDigits_ne_nil _)
      (hdigits.append (Decimal.allDigits_replicate_zero _)) allDigits_zero
  · rw [if_neg hpower, if_neg hpower, List.append_nil]
    split
    · rename_i hwhole
      refine isNumeral_of_point ?_ (fun c hc => hdigits c (List.mem_of_mem_take hc)) fun c hc =>
        hdigits c (List.mem_of_mem_drop hc)
      simp only [ne_eq, List.take_eq_nil_iff, Nat.toDigits_ne_nil, or_false]
      omega
    · exact isNumeral_of_point (List.cons_ne_nil _ _) allDigits_zero
        ((Decimal.allDigits_replicate_zero _).append hdigits)

/-- The form with a power. -/
theorem isNumeral_scientific (d : Decimal.Scaled) : IsNumeral d.scientific := by
  have hdigits := Decimal.allDigits_toDigits d.digits
  have hmark : ∀ p : Int, (if p < 0 then '-' else '+') = if decide (p < 0) then '-' else '+' := by
    intro p
    simp
  unfold Decimal.Scaled.scientific
  dsimp only
  rw [hmark]
  rcases hds : Nat.toDigits 10 d.digits with _ | ⟨c, _ | ⟨e, ds⟩⟩
  · exact absurd hds Nat.toDigits_ne_nil
  · rw [hds] at hdigits
    exact .scaled _ (List.cons_ne_nil _ _) hdigits (Decimal.allDigits_toDigits _)
  · rw [hds] at hdigits
    have hc : AllDigits [c] := fun x hx => hdigits x (List.mem_singleton.mp hx ▸ List.mem_cons_self)
    exact .pointed (List.cons_ne_nil _ _) hc (fun x hx => hdigits x (List.mem_cons_of_mem c hx))
      (.present _ (Decimal.allDigits_toDigits _))

/-- A number that documents write has a point or a power in it. -/
theorem isNumeral_documented (x : Binary64) : ∃ text, IsNumeral text ∧
    (Decimal.documented x).toList = Decimal.signed x.isNegative text := by
  unfold Decimal.documented
  rw [String.toList_ofList]
  by_cases hzero : x.magnitude = 0
  · rw [if_pos hzero]
    exact ⟨_, isNumeral_of_point (List.cons_ne_nil _ _) allDigits_zero allDigits_zero, rfl⟩
  · rw [if_neg hzero]
    dsimp only
    split
    · exact ⟨_, isNumeral_positional _, rfl⟩
    · exact ⟨_, isNumeral_scientific _, rfl⟩

/-! ## Whole numbers -/

theorem readNumber_toDigits (negative : Bool) {n : Nat} (h : n ≤ Decimal.largestWord)
    {rest : List Char} (hrest : EndsNumber rest) :
    readNumber negative (Nat.toDigits 10 n ++ rest) = readAfterWhole negative n [] rest := by
  obtain ⟨c, ds, hds⟩ := List.exists_cons_of_ne_nil (Nat.toDigits_ne_nil (b := 10) (n := n))
  have hdigits := Decimal.allDigits_toDigits n
  have habsorb : Decimal.absorb Decimal.largestWord 0 (Nat.toDigits 10 n) = (n, []) := by
    have hvalue := Decimal.digitsValue_toDigits n
    unfold Decimal.digitsValue at hvalue
    rw [Decimal.absorb_eq_of_le (by rwa [hvalue]), hvalue]
  have hzero : ¬ (c = '0' ∧ ds.head?.any Char.isDigit = true) := by
    rintro ⟨rfl, hany⟩
    rcases Nat.eq_zero_or_pos n with rfl | hpos
    · rw [show Nat.toDigits 10 0 = ['0'] by decide] at hds
      obtain ⟨-, rfl⟩ := List.cons.inj hds
      cases hany
    · exact Decimal.head?_toDigits_ne_zero hpos (by rw [hds]; rfl)
  rw [hds] at hdigits habsorb ⊢
  rw [List.cons_append, readNumber, ← List.cons_append, takeDigits_append hdigits hrest.not_digit,
    head?_any_isDigit_append hrest.not_digit, if_neg hzero]
  simp only [hdigits c List.mem_cons_self, habsorb]
  rfl

theorem readAfterWhole_of_ends {negative : Bool} {digits : Nat} {rest : List Char}
    (h : EndsNumber rest) : readAfterWhole negative digits [] rest =
      if !negative then .ok (.whole digits, rest)
      else if digits = 0 ∨ twoTo 63 < digits then .ok (.double (Binary64.ofNat digits).neg, rest)
      else .ok (.whole (-digits), rest) := by
  unfold readAfterWhole
  split
  · exact absurd rfl (h '.' rfl).2.1
  · exact absurd rfl (h 'e' rfl).2.2.1
  · exact absurd rfl (h 'E' rfl).2.2.2
  · rfl

/-- A whole number within 64 bits is read as itself. -/
theorem readNumber_whole {n : Nat} (h : n ≤ Decimal.largestWord) {rest : List Char}
    (hrest : EndsNumber rest) :
    readNumber false (Nat.toDigits 10 n ++ rest) = .ok (.whole n, rest) := by
  rw [readNumber_toDigits false h hrest, readAfterWhole_of_ends hrest]
  rfl

/-- A negative whole number within 64 bits is read as itself. -/
theorem readNumber_negative {n : Nat} (hpos : 0 < n) (h : n ≤ twoTo 63) {rest : List Char}
    (hrest : EndsNumber rest) :
    readNumber true (Nat.toDigits 10 n ++ rest) = .ok (.whole (-n), rest) := by
  have hword : n ≤ Decimal.largestWord := Nat.le_trans h (by decide)
  rw [readNumber_toDigits true hword hrest, readAfterWhole_of_ends hrest, if_neg (by decide),
    if_neg (by omega)]

end Json

end Transcript

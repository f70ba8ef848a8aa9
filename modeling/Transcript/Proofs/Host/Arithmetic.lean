-- The numbers of the shell. Whatever an expression is and whatever its variables hold, its value
-- is a number of 64 bits, and so is what it gives to variables, which is read back as the same
-- number; what would be out of range is brought back into it or is a fault.
import Transcript.Host.Arithmetic
import Transcript.Proofs.Decimal.ReadBack

namespace Transcript.Host.Arithmetic

/-! ## Numbers of 64 bits -/

def InRange (n : Int) : Prop := least ≤ n ∧ n ≤ most

variable {a b n : Int} {operator : String} {scope : Scope}

theorem inRange_iff : InRange n ↔ -9223372036854775808 ≤ n ∧ n ≤ 9223372036854775807 := by
  unfold InRange
  exact Iff.rfl

theorem inRange_word (n : Int) : InRange (word n) := by
  rw [inRange_iff]
  have hpos : 0 < twoTo 64 := by decide
  have hleast := Int.le_bmod (x := n) hpos
  have hmost := Int.bmod_lt (x := n) hpos
  have htwo : ((twoTo 64 : Nat) : Int) = 18446744073709551616 := rfl
  unfold word
  omega

theorem inRange_truth (b : Bool) : InRange (truth b) := by
  rw [inRange_iff]
  cases b <;> decide

theorem inRange_bitwise (f : UInt64 → UInt64 → UInt64) (a b : Int) : InRange (bitwise f a b) :=
  inRange_word _

/-- A quotient is no larger than what is divided; the only one out of range is a fault. -/
theorem inRange_tdiv (ha : InRange a) (hb : b ≠ 0) (hfits : ¬(a = least ∧ b = -1)) :
    InRange (Int.tdiv a b) := by
  rw [inRange_iff] at ha ⊢
  have hsize := Int.natAbs_tdiv_le_natAbs a b
  have hleast : least = -9223372036854775808 := rfl
  by_cases hone : b = 1
  · rw [hone, Int.tdiv_one]
    exact ha
  · by_cases hlow : a = least
    · have hhalf : (Int.tdiv a b).natAbs ≤ a.natAbs / 2 := by
        rw [Int.natAbs_tdiv]
        exact Nat.div_le_div_left (by omega) (by decide)
      omega
    · omega

theorem inRange_tmod (hb : b ≠ 0) (hrange : InRange b) : InRange (Int.tmod a b) := by
  rw [inRange_iff] at hrange ⊢
  have hmod := Int.natAbs_tmod a b
  have hlt : a.natAbs % b.natAbs < b.natAbs := Nat.mod_lt _ (by omega)
  omega

/-- A number moved to the right gets no larger. -/
theorem inRange_fdiv (ha : InRange a) (k : Nat) : InRange (Int.fdiv a (twoTo k)) := by
  rw [inRange_iff] at ha ⊢
  have hpos : 0 < twoTo k := Nat.two_pow_pos k
  rw [Int.fdiv_eq_ediv_of_nonneg a (by omega)]
  constructor
  · rw [Int.le_ediv_iff_mul_le (by omega)]
    have := Int.mul_le_mul_of_nonneg_left (c := 9223372036854775808)
      (show (1 : Int) ≤ twoTo k by omega) (by decide)
    omega
  · exact Int.le_trans (Int.ediv_le_ediv (by omega) ha.2) (Int.ediv_le_self _ (by decide))

/-- Operators between numbers give numbers. -/
theorem inRange_apply (ha : InRange a) (hb : InRange b) (h : apply operator a b = .ok n) :
    InRange n := by
  unfold apply at h
  split at h
  · split at h
    · cases h
    · split at h
      · cases h
      · cases h
        split
        · exact inRange_tdiv ha ‹_› ‹_›
        · exact inRange_tmod ‹_› hb
  · cases h
    split
    · exact inRange_word _
    · exact inRange_word _
    · exact inRange_word _
    · exact inRange_word _
    · exact inRange_fdiv ha _
    · exact inRange_truth _
    · exact inRange_truth _
    · exact inRange_truth _
    · exact inRange_truth _
    · exact inRange_truth _
    · exact inRange_truth _
    · exact inRange_bitwise _ a b
    · exact inRange_bitwise _ a b
    · exact inRange_bitwise _ a b

theorem inRange_applyUnary (operator : String) (ha : InRange a) :
    InRange (applyUnary operator a) := by
  unfold applyUnary
  split
  · exact inRange_word _
  · exact inRange_truth _
  · rw [inRange_iff] at ha ⊢
    omega
  · exact ha

/-! ## Texts -/

/-- A text that starts with a number is one if the number is in range and only blanks follow. -/
theorem ofText_eq_ok_iff {text : Octets} {w : Numeral.Whole} (h : Numeral.whole? text = some w) :
    ofText text = .ok n ↔ InRange n ∧ w.rest.all Numeral.isSpace ∧
      n = if w.negative then -(w.size : Int) else w.size := by
  unfold ofText
  rw [h]
  dsimp only
  generalize (if w.negative then -(w.size : Int) else w.size) = size
  have hfits : ¬(size < least ∨ most < size ∨ !w.rest.all Numeral.isSpace) ↔
      InRange size ∧ w.rest.all Numeral.isSpace := by
    simp [InRange, not_or, and_assoc]
  split
  · rename_i hfault
    constructor
    · intro h
      cases h
    · rintro ⟨hrange, hrest, rfl⟩
      exact absurd hfault (hfits.2 ⟨hrange, hrest⟩)
  · rename_i hfault
    obtain ⟨hrange, hrest⟩ := hfits.1 hfault
    constructor
    · intro h
      cases h
      exact ⟨hrange, hrest, rfl⟩
    · rintro ⟨-, -, rfl⟩
      rfl

/-- A text is read as a number only if it is one. -/
theorem inRange_ofText {text : Octets} (h : ofText text = .ok n) : InRange n := by
  rcases hw : Numeral.whole? text with _ | w
  · unfold ofText at h
    rw [hw] at h
    dsimp only at h
    split at h
    · cases h
      exact inRange_truth false
    · cases h
  · exact ((ofText_eq_ok_iff hw).1 h).1

theorem digit?_of_isDigit {c : Char} (h : c.isDigit) :
    Numeral.digit? 10 c = some (Decimal.digitValue c) := by
  obtain ⟨hlow, hhigh⟩ : 48 ≤ c.toNat ∧ c.toNat ≤ 57 := by
    simpa [Char.isDigit, UInt32.le_iff_toNat_le] using h
  have hdigit : Json.hexDigit? c = some (c.toNat - 48) := if_pos ⟨hlow, hhigh⟩
  unfold Numeral.digit?
  rw [hdigit, Option.filter_some_pos]
  · rfl
  · exact decide_eq_true (by omega)

theorem takeDigits_of_allDigits {ds : List Char} (h : Decimal.AllDigits ds) :
    Numeral.takeDigits 10 ds = (ds.map Decimal.digitValue, []) := by
  induction ds with
  | nil => rfl
  | cons c ds ih =>
    have hc := digit?_of_isDigit (h c (List.mem_cons_self ..))
    have hds := ih fun d hd => h d (List.mem_cons_of_mem c hd)
    unfold Numeral.takeDigits at hds ⊢
    rw [Prod.mk.injEq] at hds
    simp [hc, hds.1, hds.2]

theorem isSpace_of_isDigit {c : Char} (h : c.isDigit) : Numeral.isSpace c = false := by
  rw [Bool.eq_false_iff]
  intro hspace
  simp only [Numeral.isSpace, Bool.or_eq_true, decide_eq_true_eq, Bool.and_eq_true] at hspace
  rcases hspace with rfl | ⟨-, hhigh⟩
  · cases h
  · have hlow : 48 ≤ c.toNat := by
      simp only [Char.isDigit, Bool.and_eq_true, decide_eq_true_eq, UInt32.le_iff_toNat_le] at h
      exact h.1
    have : c.toNat ≤ 13 := hhigh
    omega

/-- A written number has a second digit only behind a first that is no zero. -/
theorem ofNat_ne_zero_cons (n : Nat) (c : Char) (rest : Octets) :
    Octets.ofNat n ≠ '0' :: c :: rest := by
  intro h
  rcases Nat.eq_zero_or_pos n with rfl | hpos
  · cases h
  · refine Decimal.head?_toDigits_ne_zero hpos ?_
    change (Octets.ofNat n).head? = some '0'
    rw [h]
    rfl

/-- A number that is written is found again, with its sign. -/
theorem whole?_signed (negative : Bool) (n : Nat) :
    Numeral.whole? (Decimal.signed negative (Octets.ofNat n)) = some ⟨negative, n, []⟩ := by
  have hdigits : Decimal.AllDigits (Octets.ofNat n) := Decimal.allDigits_toDigits n
  have hne : Octets.ofNat n ≠ [] := Nat.toDigits_ne_nil
  obtain ⟨c, ds, hds⟩ := List.exists_cons_of_ne_nil hne
  have hc : c.isDigit = true := hdigits c (hds ▸ List.mem_cons_self ..)
  have hspace : (Decimal.signed negative (Octets.ofNat n)).dropWhile Numeral.isSpace =
      Decimal.signed negative (Octets.ofNat n) := by
    cases negative with
    | true => rfl
    | false =>
      rw [Decimal.signed, if_neg Bool.false_ne_true, hds, List.dropWhile_cons_of_neg]
      rw [isSpace_of_isDigit hc]
      exact Bool.false_ne_true
  unfold Numeral.whole?
  rw [hspace, Decimal.takeSign_signed ⟨c, ds, hds, hc⟩]
  dsimp only
  split
  · exact absurd ‹_› (ofNat_ne_zero_cons n _ _)
  · rw [takeDigits_of_allDigits hdigits]
    dsimp only
    rw [if_neg (by simpa using hne), Numeral.valueOf, List.foldl_map]
    exact congrArg (fun k => some (⟨negative, k, []⟩ : Numeral.Whole))
      (Decimal.digitsValue_toDigits n)

/-- A number that is written is read back. -/
theorem ofText_ofInt (h : InRange n) : ofText (Octets.ofInt n) = .ok n := by
  have hofInt : Octets.ofInt n = Decimal.signed (decide (n < 0)) (Octets.ofNat n.natAbs) := by
    unfold Octets.ofInt Decimal.signed
    simp only [decide_eq_true_eq]
  rw [hofInt, ofText_eq_ok_iff (whole?_signed _ _)]
  refine ⟨h, rfl, ?_⟩
  simp only [decide_eq_true_eq]
  split
  · omega
  · omega

/-! ## Expressions -/

/-- The numbers of an expression, and what it gave to variables, are in range. -/
structure Work.Sound (w : Work) : Prop where
  marks : ∀ n, Mark.number n ∈ w.marks → InRange n
  given : ∀ x ∈ w.given, ∃ n, InRange n ∧ x.2 = Octets.ofInt n

/-- What a step of the reading gives, if it gives anything; in any case it keeps what is sound. -/
def Gives {α : Type} (x : Reckoning α) (good : α → Prop) : Prop :=
  ∀ w : Work, w.Sound → (x.run.run w).run.2.Sound ∧ ∀ a, (x.run.run w).run.1 = .ok a → good a

section Steps

variable {α β : Type} {x : Reckoning α} {f : α → Reckoning β} {p : α → Prop} {q : β → Prop}

theorem gives_pure {a : α} (h : p a) : Gives (pure a) p := by
  intro w hw
  refine ⟨hw, ?_⟩
  rintro _ ⟨⟩
  exact h

theorem gives_throw (fault : Fault) : Gives (throw fault) p := by
  intro w hw
  refine ⟨hw, ?_⟩
  rintro _ ⟨⟩

theorem gives_get : Gives get Work.Sound := by
  intro w hw
  refine ⟨hw, ?_⟩
  rintro _ ⟨⟩
  exact hw

theorem gives_modify {g : Work → Work} (h : ∀ w, w.Sound → (g w).Sound) :
    Gives (modify g) fun _ => True :=
  fun w hw => ⟨h w hw, fun _ _ => trivial⟩

theorem gives_lift {e : Except Fault α} (h : ∀ a, e = .ok a → p a) :
    Gives (liftM e : Reckoning α) p := by
  intro w hw
  exact ⟨hw, h⟩

theorem Gives.bind (hx : Gives x p) (hf : ∀ a, p a → Gives (f a) q) : Gives (x >>= f) q := by
  intro w hw
  obtain ⟨hsound, hgood⟩ := hx w hw
  have hrun : ((x >>= f).run.run w).run = match (x.run.run w).run with
      | (.ok a, w) => ((f a).run.run w).run
      | (.error fault, w) => (.error fault, w) := by
    change (ExceptT.bindCont f (x.run.run w).run.1 (x.run.run w).run.2).run = _
    rcases (x.run.run w).run with ⟨_ | _, _⟩
    · rfl
    · rfl
  rw [hrun]
  rcases h : (x.run.run w).run with ⟨_ | a, w'⟩
  · rw [h] at hsound
    refine ⟨hsound, ?_⟩
    rintro _ ⟨⟩
  · rw [h] at hsound hgood
    exact hf a (hgood a rfl) w' hsound

theorem gives_throw_bind (fault : Fault) : Gives (throw fault >>= f) q :=
  (gives_throw (p := fun _ => False) fault).bind fun _ h => h.elim

end Steps

theorem Work.Sound.tail {w : Work} (h : w.Sound) : (⟨w.marks.tail, w.given⟩ : Work).Sound :=
  ⟨fun n hn => h.marks n (List.mem_of_mem_tail hn), h.given⟩

theorem gives_goOn {rest : List Mark} (h : ∀ n, Mark.number n ∈ rest → InRange n) :
    Gives (modify fun w => { w with marks := rest }) fun _ => True :=
  gives_modify fun _ hw => ⟨h, hw.given⟩

theorem gives_takes (s : String) : Gives (takes s) fun _ => True := by
  refine gives_get.bind fun _ _ => ?_
  split
  · exact (gives_modify fun w hw => hw.tail).bind fun _ _ => gives_pure trivial
  · exact gives_pure trivial

/-- A variable holds a number in range, or it is at fault. -/
theorem gives_lookUp (scope : Scope) (name : Octets) : Gives (lookUp scope name) InRange := by
  refine gives_get.bind fun _ _ => ?_
  split
  · exact gives_lift fun _ => inRange_ofText
  · exact gives_pure (inRange_truth false)

theorem gives_give (name : Octets) (h : InRange n) : Gives (give scope name n) fun _ => True := by
  unfold give
  dsimp only
  split
  · exact gives_throw_bind _
  · refine gives_modify fun w hw => ⟨hw.marks, ?_⟩
    rintro x (- | ⟨-, hx⟩)
    · exact ⟨n, h, rfl⟩
    · exact hw.given x hx

/-- With this much fuel, all readers give numbers in range. -/
structure AllGive (scope : Scope) (fuel : Nat) : Prop where
  expression : ∀ isLeftOut, Gives (expression scope fuel isLeftOut) InRange
  choice : ∀ isLeftOut, Gives (choice scope fuel isLeftOut) InRange
  disjunction : ∀ isLeftOut, Gives (disjunction scope fuel isLeftOut) InRange
  conjunction : ∀ isLeftOut, Gives (conjunction scope fuel isLeftOut) InRange
  level : ∀ isLeftOut operators, Gives (level scope fuel isLeftOut operators) InRange
  joined : ∀ isLeftOut operators tighter a, InRange a →
    Gives (joined scope fuel isLeftOut operators tighter a) InRange
  primary : ∀ isLeftOut, Gives (primary scope fuel isLeftOut) InRange

section Readers

variable {fuel : Nat} (h : AllGive scope fuel) (isLeftOut : Bool)
include h

theorem AllGive.expression_succ :
    Gives (Arithmetic.expression scope (fuel + 1) isLeftOut) InRange := by
  rw [Arithmetic.expression]
  refine gives_get.bind fun w hw => ?_
  split
  · rename_i name s rest hmarks
    split
    · exact h.choice isLeftOut
    · have hrest : ∀ n, Mark.number n ∈ rest → InRange n := by
        intro n hn
        refine hw.marks n ?_
        rw [hmarks]
        exact List.mem_cons_of_mem _ (List.mem_cons_of_mem _ hn)
      refine (gives_goOn hrest).bind fun _ _ => ?_
      refine (h.expression isLeftOut).bind fun n hn => ?_
      split
      · exact gives_pure hn
      · dsimp only
        split
        · refine (gives_pure (p := InRange) hn).bind fun n hn => ?_
          exact (gives_give name hn).bind fun _ _ => gives_pure hn
        · refine (gives_lookUp scope name).bind fun a ha => ?_
          refine (gives_lift fun _ => inRange_apply ha hn).bind fun n hn => ?_
          exact (gives_give name hn).bind fun _ _ => gives_pure hn
  · exact h.choice isLeftOut

theorem AllGive.choice_succ : Gives (Arithmetic.choice scope (fuel + 1) isLeftOut) InRange := by
  rw [Arithmetic.choice]
  refine (h.disjunction isLeftOut).bind fun test htest => ?_
  refine (gives_takes "?").bind fun isAsked _ => ?_
  split
  · exact gives_pure htest
  · refine (h.expression _).bind fun yes hyes => ?_
    refine (gives_takes ":").bind fun isParted _ => ?_
    dsimp only
    split
    · exact gives_throw_bind _
    · refine (h.choice _).bind fun no hno => gives_pure ?_
      split
      · exact hyes
      · exact hno

theorem AllGive.disjunction_succ :
    Gives (Arithmetic.disjunction scope (fuel + 1) isLeftOut) InRange := by
  rw [Arithmetic.disjunction]
  refine (h.conjunction isLeftOut).bind fun a ha => ?_
  refine (gives_takes "||").bind fun isJoined _ => ?_
  split
  · exact gives_pure ha
  · exact (h.disjunction _).bind fun b _ => gives_pure (inRange_truth _)

theorem AllGive.conjunction_succ :
    Gives (Arithmetic.conjunction scope (fuel + 1) isLeftOut) InRange := by
  rw [Arithmetic.conjunction]
  refine (h.level isLeftOut levels).bind fun a ha => ?_
  refine (gives_takes "&&").bind fun isJoined _ => ?_
  split
  · exact gives_pure ha
  · exact (h.conjunction _).bind fun b _ => gives_pure (inRange_truth _)

theorem AllGive.level_succ (operators : List (List String)) :
    Gives (Arithmetic.level scope (fuel + 1) isLeftOut operators) InRange := by
  cases operators with
  | nil =>
    rw [Arithmetic.level]
    exact h.primary isLeftOut
  | cons operators tighter =>
    rw [Arithmetic.level]
    exact (h.level isLeftOut tighter).bind (h.joined isLeftOut operators tighter)

theorem AllGive.joined_succ (operators : List String) (tighter : List (List String))
    (ha : InRange a) :
    Gives (Arithmetic.joined scope (fuel + 1) isLeftOut operators tighter a) InRange := by
  rw [Arithmetic.joined]
  refine gives_get.bind fun w hw => ?_
  split
  · rename_i s rest hmarks
    split
    · exact gives_pure ha
    · have hrest : ∀ n, Mark.number n ∈ rest → InRange n := by
        intro n hn
        refine hw.marks n ?_
        rw [hmarks]
        exact List.mem_cons_of_mem _ hn
      refine (gives_goOn hrest).bind fun _ _ => ?_
      refine (h.level isLeftOut tighter).bind fun b hb => ?_
      dsimp only
      split
      · exact (gives_pure (p := InRange) hb).bind (h.joined isLeftOut operators tighter)
      · exact (gives_lift fun _ => inRange_apply ha hb).bind (h.joined isLeftOut operators tighter)
  · exact gives_pure ha

theorem AllGive.primary_succ : Gives (Arithmetic.primary scope (fuel + 1) isLeftOut) InRange := by
  rw [Arithmetic.primary]
  refine gives_get.bind fun w hw => ?_
  refine (gives_modify fun v hv => hv.tail).bind fun _ _ => ?_
  split
  · rename_i n hnumber
    exact gives_pure (hw.marks n (List.mem_of_mem_head? hnumber))
  · split
    · exact gives_pure (inRange_truth false)
    · exact gives_lookUp scope _
  · split
    · refine (h.expression isLeftOut).bind fun n hn => ?_
      refine (gives_takes ")").bind fun isClosed _ => ?_
      dsimp only
      split
      · exact gives_throw_bind _
      · exact gives_pure hn
    · split
      · exact (h.primary isLeftOut).bind fun n hn => gives_pure (inRange_applyUnary _ hn)
      · exact gives_throw _
  · exact gives_throw _

end Readers

theorem allGive (scope : Scope) (fuel : Nat) : AllGive scope fuel := by
  induction fuel with
  | zero =>
    exact {
      expression := fun _ => gives_throw _
      choice := fun _ => gives_throw _
      disjunction := fun _ => gives_throw _
      conjunction := fun _ => gives_throw _
      level := fun _ _ => gives_throw _
      joined := fun _ _ _ _ ha => gives_pure ha
      primary := fun _ => gives_throw _ }
  | succ fuel ih =>
    exact {
      expression := ih.expression_succ
      choice := ih.choice_succ
      disjunction := ih.disjunction_succ
      conjunction := ih.conjunction_succ
      level := ih.level_succ
      joined := fun _ operators tighter _ ha => ih.joined_succ _ operators tighter ha
      primary := ih.primary_succ }

/-- The numbers of a text are brought down to the largest. -/
theorem inRange_of_mem_marks {fuel : Nat} {s : Octets} (h : Mark.number n ∈ marks fuel s) :
    InRange n := by
  induction fuel generalizing s with
  | zero => cases h
  | succ fuel ih =>
    rcases s with _ | ⟨c, rest⟩
    · cases h
    · rw [marks] at h
      split at h
      · exact ih h
      · split at h
        · split at h
          · rename_i w hw
            rcases List.mem_cons.1 h with h | h
            · cases h
              rw [inRange_iff]
              have hmost : most = 9223372036854775807 := rfl
              omega
            · exact ih h
          · rcases List.mem_singleton.1 h with ⟨⟩
        · split at h
          · rcases List.mem_cons.1 h with h | h
            · cases h
            · exact ih h
          · split at h
            · rcases List.mem_cons.1 h with h | h
              · cases h
              · exact ih h
            · rcases List.mem_singleton.1 h with ⟨⟩

/-- The value of an expression is a number of 64 bits, and a variable that it gives a value holds
one afterwards. -/
theorem inRange_evaluate (scope : Scope) (s : Octets) :
    (∀ n, (evaluate scope s).1 = .ok n → InRange n) ∧
      ∀ x ∈ (evaluate scope s).2, ∃ n, InRange n ∧ ofText x.2 = .ok n := by
  have hwhole : Gives (do
      let n ← expression scope (20 * (marks (s.length + 1) s).length + 20) false
      if !(← get).marks.isEmpty then throw (.expecting "EOF")
      return n) InRange := by
    refine ((allGive scope _).expression false).bind fun n hn => ?_
    refine gives_get.bind fun w _ => ?_
    dsimp only
    split
    · exact gives_throw_bind _
    · exact gives_pure hn
  have hstart : (⟨marks (s.length + 1) s, []⟩ : Work).Sound :=
    ⟨fun _ => inRange_of_mem_marks, fun _ h => absurd h List.not_mem_nil⟩
  obtain ⟨hsound, hresult⟩ := hwhole _ hstart
  refine ⟨hresult, fun x hx => ?_⟩
  obtain ⟨n, hn, htext⟩ := hsound.given x (List.mem_reverse.1 hx)
  refine ⟨n, hn, ?_⟩
  rw [htext]
  exact ofText_ofInt hn

/-- The number behind the largest is the least. -/
example :
    evaluate ⟨fun _ => none, fun _ => false⟩ "x = 9223372036854775807 + 1".toList =
      (.ok least, [("x".toList, "-9223372036854775808".toList)]) := by
  decide +kernel

end Transcript.Host.Arithmetic

-- The bytes of a text are read as that text, and no other bytes are read as a text. A newline
-- is the only character whose bytes hold the byte of a newline, so the bytes of lines are cut
-- where the lines were.
import Mathlib.Data.List.Basic
import Mathlib.Tactic.SplitIfs
import Transcript.Text.Utf8
import Transcript.Proofs.Text.Lines

namespace Transcript.Text

/-! ## One character -/

/-- A character is below the surrogates, or above them and below the end of the code space. -/
theorem toNat_range (c : Char) : c.toNat < 0xd800 ∨ 0xdfff < c.toNat ∧ c.toNat < 0x110000 := by
  have h := c.valid
  unfold UInt32.isValidChar Nat.isValidChar at h
  unfold Char.toNat
  omega

theorem toNat_byte {n : Nat} (h : n < 256) : (UInt8.ofNat n).toNat = n :=
  UInt8.toNat_ofNat_of_lt' h

theorem utf8Char_ne_nil (c : Char) : utf8Char c ≠ [] := by
  unfold utf8Char
  dsimp only
  split_ifs <;> exact List.cons_ne_nil _ _

/-- A byte in its range that is the last one owed ends the character. -/
theorem next_last {p : Pending} {n : Nat} (hn : n < 256) (howed : p.owed ≤ 1) (hlow : p.low ≤ n)
    (hhigh : n ≤ p.high) :
    p.next (UInt8.ofNat n) = .char (Char.ofNat (p.bits * 64 + n % 64)) := by
  unfold Pending.next
  rw [toNat_byte hn]
  simp [hlow, hhigh, howed]

/-- A byte in its range that is not the last one owed leads on. -/
theorem next_more {p : Pending} {n : Nat} (hn : n < 256) (howed : 1 < p.owed) (hlow : p.low ≤ n)
    (hhigh : n ≤ p.high) : p.next (UInt8.ofNat n) =
      .more ⟨p.owed - 1, p.bits * 64 + n % 64, 0x80, 0xbf, p.seen + 1⟩ := by
  unfold Pending.next
  rw [toNat_byte hn]
  simp [hlow, hhigh, Nat.not_le.mpr howed]

/-- The first of three bytes narrows the second one only at both ends of its range. -/
theorem start_three {n : Nat} (h : n < 16) : ∃ low high,
    ByteStep.start (UInt8.ofNat (0xe0 + n)) = .more ⟨2, n, low, high, 1⟩ ∧
      low = (if n = 0 then 0xa0 else 0x80) ∧ high = (if n = 13 then 0x9f else 0xbf) := by
  have hbyte : (UInt8.ofNat (0xe0 + n)).toNat = 0xe0 + n := toNat_byte (by omega)
  unfold ByteStep.start
  rw [hbyte]
  by_cases h0 : n = 0
  · subst h0
    exact ⟨_, _, rfl, rfl, rfl⟩
  · by_cases h13 : n = 13
    · subst h13
      exact ⟨_, _, rfl, rfl, rfl⟩
    · refine ⟨0x80, 0xbf, ?_, by rw [if_neg h0], by rw [if_neg h13]⟩
      simp only [Nat.add_sub_cancel_left]
      rw [if_neg (by omega), if_neg (by omega), if_neg (by omega), if_neg (by omega),
        if_neg (by omega), if_pos (by omega)]

/-- The first of four bytes narrows the second one at both ends of the range. -/
theorem start_four {n : Nat} (h : n < 5) : ∃ low high,
    ByteStep.start (UInt8.ofNat (0xf0 + n)) = .more ⟨3, n, low, high, 1⟩ ∧
      low = (if n = 0 then 0x90 else 0x80) ∧ high = (if n = 4 then 0x8f else 0xbf) := by
  have hbyte : (UInt8.ofNat (0xf0 + n)).toNat = 0xf0 + n := toNat_byte (by omega)
  unfold ByteStep.start
  rw [hbyte]
  obtain rfl | rfl | rfl | rfl | rfl : n = 0 ∨ n = 1 ∨ n = 2 ∨ n = 3 ∨ n = 4 := by omega
  all_goals exact ⟨_, _, rfl, rfl, rfl⟩

/-- The bytes of a character are read as that character. -/
theorem decodeFrom_utf8Char (c : Char) (start : Nat) (rest : List UInt8) :
    ∃ next, decodeFrom start none (utf8Char c ++ rest) =
      (decodeFrom next none rest).map (c :: ·) := by
  have hrange := toNat_range c
  have hchar : Char.ofNat c.toNat = c := Char.ofNat_toNat c
  unfold utf8Char
  generalize c.toNat = n at hrange hchar ⊢
  dsimp only
  split_ifs with h1 h2 h3
  · refine ⟨start + 1, ?_⟩
    have hbyte : ByteStep.start (UInt8.ofNat n) = .char c := by
      unfold ByteStep.start
      rw [toNat_byte (by omega)]
      simp [h1, hchar]
    simp [decodeFrom, hbyte]
  · refine ⟨start + 2, ?_⟩
    have hfirst : ByteStep.start (UInt8.ofNat (0xc0 + n / 64)) =
        .more ⟨1, n / 64, 0x80, 0xbf, 1⟩ := by
      unfold ByteStep.start
      rw [toNat_byte (by omega)]
      simp only [Nat.add_sub_cancel_left]
      rw [if_neg (by omega), if_neg (by omega), if_pos (by omega)]
    have hbits : n / 64 * 64 + (0x80 + n % 64) % 64 = n := by omega
    simp only [List.cons_append, List.nil_append, decodeFrom, hfirst]
    rw [next_last (by omega) (by simp) (by simp) (by simp; omega), hbits, hchar]
  · refine ⟨start + 3, ?_⟩
    obtain ⟨low, high, hfirst, hlow, hhigh⟩ := start_three (n := n / 4096) (by omega)
    have hsecond : low ≤ 0x80 + n / 64 % 64 ∧ 0x80 + n / 64 % 64 ≤ high := by
      rw [hlow, hhigh]
      split_ifs <;> omega
    have hbits : (n / 4096 * 64 + (0x80 + n / 64 % 64) % 64) * 64 + (0x80 + n % 64) % 64 = n := by
      omega
    simp only [List.cons_append, List.nil_append, decodeFrom, hfirst]
    rw [next_more (by omega) (by simp) hsecond.1 hsecond.2]
    dsimp only
    rw [next_last (by omega) (by simp) (by simp) (by simp; omega), hbits, hchar]
  · refine ⟨start + 4, ?_⟩
    obtain ⟨low, high, hfirst, hlow, hhigh⟩ := start_four (n := n / 262144) (by omega)
    have hsecond : low ≤ 0x80 + n / 4096 % 64 ∧ 0x80 + n / 4096 % 64 ≤ high := by
      rw [hlow, hhigh]
      split_ifs <;> omega
    have hbits : ((n / 262144 * 64 + (0x80 + n / 4096 % 64) % 64) * 64 +
        (0x80 + n / 64 % 64) % 64) * 64 + (0x80 + n % 64) % 64 = n := by omega
    simp only [List.cons_append, List.nil_append, decodeFrom, hfirst]
    rw [next_more (by omega) (by simp) hsecond.1 hsecond.2]
    dsimp only
    rw [next_more (by omega) (by simp) (by simp) (by simp; omega)]
    dsimp only
    rw [next_last (by omega) (by simp) (by simp) (by simp; omega), hbits, hchar]

/-! ## Texts -/

theorem utf8_append (cs ds : List Char) : utf8 (cs ++ ds) = utf8 cs ++ utf8 ds :=
  List.flatMap_append

theorem decodeFrom_utf8 (s : List Char) (start : Nat) : decodeFrom start none (utf8 s) = .ok s := by
  induction s generalizing start with
  | nil => rfl
  | cons c s ih =>
    obtain ⟨next, hnext⟩ := decodeFrom_utf8Char c start (utf8 s)
    rw [utf8, List.flatMap_cons, ← utf8, hnext, ih]
    rfl

/-- A text is found again in its bytes. -/
theorem decodeUtf8_utf8 (s : List Char) : decodeUtf8 (utf8 s) = .ok s := decodeFrom_utf8 s 0

/-! ## Only texts -/

theorem toNat_ofNat {n : Nat} (h : n < 0xd800 ∨ 0xdfff < n ∧ n < 0x110000) :
    (Char.ofNat n).toNat = n := by
  have hvalid : n.isValidChar := h
  rw [Char.ofNat, dif_pos hvalid]
  rfl

theorem ofNat_eq_byte {n : Nat} {b : UInt8} (h : n = b.toNat) : UInt8.ofNat n = b := by
  rw [h, UInt8.ofNat_toNat]

/-- What the bytes read of a character lead to: with any bytes in their ranges that it still
owes, they are the bytes of the character that is read. -/
inductive Leads : Pending → List UInt8 → Prop where
  | last {p : Pending} {before : List UInt8} : p.owed ≤ 1 →
      (∀ b : UInt8, p.low ≤ b.toNat → b.toNat ≤ p.high →
        utf8Char (Char.ofNat (p.bits * 64 + b.toNat % 64)) = before ++ [b]) →
      Leads p before
  | more {p : Pending} {before : List UInt8} : 1 < p.owed →
      (∀ b : UInt8, p.low ≤ b.toNat → b.toNat ≤ p.high →
        Leads ⟨p.owed - 1, p.bits * 64 + b.toNat % 64, 0x80, 0xbf, p.seen + 1⟩ (before ++ [b])) →
      Leads p before

theorem leads_two {a : UInt8} {bits : Nat} (ha : a.toNat = 0xc0 + bits) (hbits : 2 ≤ bits)
    (hbits' : bits < 32) : Leads ⟨1, bits, 0x80, 0xbf, 1⟩ [a] := by
  refine .last (Nat.le_refl 1) fun b hb hb' => ?_
  dsimp only at hb hb' ⊢
  unfold utf8Char
  rw [toNat_ofNat (by omega)]
  dsimp only
  rw [if_neg (by omega), if_pos (by omega), ofNat_eq_byte (b := a) (by omega),
    ofNat_eq_byte (b := b) (by omega)]
  rfl

/-- The first of three bytes keeps the second away from shorter characters and from the
surrogates. -/
theorem leads_three {a : UInt8} {bits low high : Nat} (ha : a.toNat = 0xe0 + bits)
    (hbits : bits < 16) (hlow : 0x80 ≤ low ∧ (bits = 0 → 0xa0 ≤ low))
    (hhigh : high ≤ 0xbf ∧ (bits = 13 → high ≤ 0x9f)) :
    Leads ⟨2, bits, low, high, 1⟩ [a] := by
  refine .more (Nat.lt_succ_self 1) fun b hb hb' => .last (Nat.le_refl 1) fun c hc hc' => ?_
  dsimp only at hb hb' hc hc' ⊢
  unfold utf8Char
  rw [toNat_ofNat (by omega)]
  dsimp only
  rw [if_neg (by omega), if_neg (by omega), if_pos (by omega), ofNat_eq_byte (b := a) (by omega),
    ofNat_eq_byte (b := b) (by omega), ofNat_eq_byte (b := c) (by omega)]
  rfl

/-- The first of four bytes keeps the second away from shorter characters and from the end
of the code space. -/
theorem leads_four {a : UInt8} {bits low high : Nat} (ha : a.toNat = 0xf0 + bits)
    (hbits : bits < 5) (hlow : 0x80 ≤ low ∧ (bits = 0 → 0x90 ≤ low))
    (hhigh : high ≤ 0xbf ∧ (bits = 4 → high ≤ 0x8f)) :
    Leads ⟨3, bits, low, high, 1⟩ [a] := by
  refine .more (Nat.lt_add_of_pos_left Nat.two_pos) fun b hb hb' =>
    .more (Nat.lt_succ_self 1) fun c hc hc' => .last (Nat.le_refl 1) fun d hd hd' => ?_
  dsimp only at hb hb' hc hc' hd hd' ⊢
  unfold utf8Char
  rw [toNat_ofNat (by omega)]
  dsimp only
  rw [if_neg (by omega), if_neg (by omega), if_neg (by omega), ofNat_eq_byte (b := a) (by omega),
    ofNat_eq_byte (b := b) (by omega), ofNat_eq_byte (b := c) (by omega),
    ofNat_eq_byte (b := d) (by omega)]
  rfl

/-- What a step makes of the bytes up to it: a character with these bytes, a character under
way, or nothing. -/
def ByteStep.Covers (bytes : List UInt8) : ByteStep → Prop
  | .char c => utf8Char c = bytes
  | .more p => Leads p bytes
  | .refused => True

theorem covers_start (b : UInt8) : (ByteStep.start b).Covers [b] := by
  unfold ByteStep.start
  dsimp only
  split_ifs with h1 h2 h3 h4 h5 h6 h7 h8 h9
  · show utf8Char (Char.ofNat b.toNat) = [b]
    unfold utf8Char
    rw [toNat_ofNat (by omega)]
    dsimp only
    rw [if_pos h1, ofNat_eq_byte rfl]
  · trivial
  · exact leads_two (by omega) (by omega) (by omega)
  · exact leads_three (by omega) (by omega) (by omega) (by omega)
  · exact leads_three (by omega) (by omega) (by omega) (by omega)
  · exact leads_three (by omega) (by omega) (by omega) (by omega)
  · exact leads_four (by omega) (by omega) (by omega) (by omega)
  · exact leads_four (by omega) (by omega) (by omega) (by omega)
  · exact leads_four (by omega) (by omega) (by omega) (by omega)
  · trivial

theorem Leads.covers_next {p : Pending} {before : List UInt8} (h : Leads p before) (b : UInt8) :
    (p.next b).Covers (before ++ [b]) := by
  unfold Pending.next
  dsimp only
  split_ifs with hrange howed
  · cases h with
    | last _ hlast => exact hlast b hrange.1 hrange.2
    | more hmore _ => omega
  · cases h with
    | last hlast _ => omega
    | more _ hmore => exact hmore b hrange.1 hrange.2
  · trivial

/-- The bytes of what is read, with those of the character under way. -/
theorem utf8_of_decodeFrom {bytes : List UInt8} {cs : List Char} {start : Nat} :
    (decodeFrom start none bytes = .ok cs → utf8 cs = bytes) ∧
      ∀ {p before}, Leads p before → decodeFrom start (some p) bytes = .ok cs →
        utf8 cs = before ++ bytes := by
  induction bytes generalizing cs start with
  | nil => exact ⟨fun h => by cases h; rfl, fun _ h => by cases h⟩
  | cons b rest ih =>
    have hafter : ∀ {step : ByteStep} {before : List UInt8} {next : Nat} {fault : Utf8Fault},
        step.Covers before →
        (match step with
          | .char c => (decodeFrom next none rest).map (c :: ·)
          | .more p => decodeFrom start (some p) rest
          | .refused => .error fault) = .ok cs →
        utf8 cs = before ++ rest := by
      intro step before next fault hcovers h
      cases step with
      | char c =>
        rcases hread : decodeFrom next none rest with f | cs'
        all_goals
          simp only [hread] at h
          cases h
        rw [utf8, List.flatMap_cons, ← utf8, hcovers, ih.1 hread]
      | more p => exact ih.2 hcovers h
      | refused => cases h
    constructor
    · intro h
      exact hafter (covers_start b) h
    · intro p before hleads h
      rw [List.append_cons]
      exact hafter (hleads.covers_next b) h

/-- Bytes are read as a text where they are the bytes of that text. -/
theorem decodeUtf8_eq_ok_iff {bytes : List UInt8} {cs : List Char} :
    decodeUtf8 bytes = .ok cs ↔ utf8 cs = bytes := by
  constructor
  · exact utf8_of_decodeFrom.1
  · rintro rfl
    exact decodeUtf8_utf8 cs

/-! ## Bytes of strings -/

/-- The bytes of a character are those that the standard library has for it. -/
theorem utf8Char_eq (c : Char) : utf8Char c = String.utf8EncodeChar c := by
  have hrange := toNat_range c
  have hval : c.val.toNat = c.toNat := rfl
  unfold utf8Char String.utf8EncodeChar
  rw [hval]
  generalize c.toNat = n at hrange
  dsimp only
  by_cases h1 : n < 0x80
  · rw [if_pos h1, if_pos (by omega)]
  by_cases h2 : n < 0x800
  · rw [if_neg h1, if_pos h2, if_neg (by omega), if_pos (by omega),
      show n / 64 % 32 + 192 = 0xc0 + n / 64 by omega, Nat.add_comm (n % 64)]
  by_cases h3 : n < 0x10000
  · rw [if_neg h1, if_neg h2, if_pos h3, if_neg (by omega), if_neg (by omega), if_pos (by omega),
      show n / 4096 % 16 + 224 = 0xe0 + n / 4096 by omega, Nat.add_comm (n / 64 % 64),
      Nat.add_comm (n % 64)]
  · rw [if_neg h1, if_neg h2, if_neg h3, if_neg (by omega), if_neg (by omega), if_neg (by omega),
      show n / 262144 % 8 + 240 = 0xf0 + n / 262144 by omega, Nat.add_comm (n / 4096 % 64),
      Nat.add_comm (n / 64 % 64), Nat.add_comm (n % 64)]

theorem utf8_toList (s : String) : utf8 s.toList = s.toUTF8.data.toList := by
  have hchars : utf8Char = String.utf8EncodeChar := funext utf8Char_eq
  rw [String.toUTF8, ← String.utf8Encode_toList, List.utf8Encode, utf8, hchars]
  simp

/-! ## Lines of bytes -/

theorem newline_of_mem_utf8Char {c : Char} (h : 10 ∈ utf8Char c) : c = '\n' := by
  have hrange := toNat_range c
  have hbyte : ∀ n, n < 256 → (10 : UInt8) = UInt8.ofNat n → n = 10 := by
    intro n hn he
    rw [← toNat_byte hn, ← he]
    rfl
  have hten : c.toNat = 10 := by
    unfold utf8Char at h
    dsimp only at h
    split_ifs at h with h1 h2 h3
    all_goals simp only [List.mem_cons, List.not_mem_nil, or_false] at h
    · exact hbyte _ (by omega) h
    · rcases h with h | h
      all_goals
        have := hbyte _ (by omega) h
        omega
    · rcases h with h | h | h
      all_goals
        have := hbyte _ (by omega) h
        omega
    · rcases h with h | h | h | h
      all_goals
        have := hbyte _ (by omega) h
        omega
  exact Char.toNat_inj.mp hten

theorem newline_mem_utf8_iff {cs : List Char} : 10 ∈ utf8 cs ↔ '\n' ∈ cs := by
  constructor
  · intro h
    obtain ⟨c, hc, hbyte⟩ := List.mem_flatMap.mp h
    rwa [newline_of_mem_utf8Char hbyte] at hc
  · exact fun h => List.mem_flatMap.mpr ⟨'\n', h, List.mem_singleton_self 10⟩

/-- Bytes before a newline are those of a text if they are with the newline. -/
theorem exists_utf8_of_newline {bytes : List UInt8} {cs : List Char}
    (h : utf8 cs = bytes ++ [10]) : ∃ ds, utf8 ds = bytes := by
  rcases List.eq_nil_or_concat cs with rfl | ⟨init, c, rfl⟩
  · simp [utf8] at h
  · have hsplit : utf8 init ++ utf8Char c = bytes ++ [10] := by
      rw [← h, List.concat_eq_append, utf8_append]
      simp [utf8]
    have hlast : 10 ∈ (utf8Char c).getLast? := by
      rw [← List.getLast?_append_of_ne_nil (utf8 init) (utf8Char_ne_nil c), hsplit]
      simp
    obtain rfl := newline_of_mem_utf8Char (List.mem_of_getLast? hlast)
    exact ⟨init, List.append_inj_left' hsplit rfl⟩

theorem isEnd_of_not_mem {bytes : List UInt8} (h : 10 ∉ bytes) :
    ∀ b ∈ bytes, (b == 10) = false := by
  intro b hb
  rw [beq_eq_false_iff_ne]
  rintro rfl
  exact h hb

/-- The bytes of a text without newlines, and the byte of a newline, are one piece. -/
theorem piecesAfter_utf8_append {line : List Char} (h : '\n' ∉ line) (rest : List UInt8) :
    piecesAfter (· == 10) (utf8 line ++ 10 :: rest) =
      utf8 (line ++ ['\n']) :: piecesAfter (· == 10) rest := by
  have hbytes := isEnd_of_not_mem (mt newline_mem_utf8_iff.mp h)
  have hend : utf8 (line ++ ['\n']) = utf8 line ++ [10] := utf8_append line ['\n']
  rw [piecesAfter_append_of_isEnd hbytes (by decide), hend]

/-- The bytes of a text are cut after newlines where the text is. -/
theorem piecesAfter_utf8 (s : List Char) :
    piecesAfter (· == 10) (utf8 s) = (pieces s).map utf8 := by
  induction s with
  | nil => rfl
  | cons c s ih =>
    rw [utf8, List.flatMap_cons, ← utf8, pieces]
    by_cases hc : c = '\n'
    · subst hc
      rw [piecesAfter_cons_of_isEnd (by decide), List.map_cons, ← pieces, ← ih]
      rfl
    · have hbytes := isEnd_of_not_mem (mt newline_of_mem_utf8Char hc)
      have hcons : piecesAfter (· == '\n') (c :: s) = prepend [c] (pieces s) :=
        piecesAfter_cons_of_not_isEnd (by simpa using hc) s
      rw [piecesAfter_append_of_forall (utf8Char_ne_nil c) hbytes, ih, hcons]
      cases pieces s with
      | nil => simp [prepend, utf8]
      | cons piece rest => simp [prepend, utf8]

theorem utf8_injective {cs ds : List Char} (h : utf8 cs = utf8 ds) : cs = ds := by
  have hread := decodeUtf8_utf8 cs
  rw [h, decodeUtf8_utf8] at hread
  exact (Except.ok.inj hread).symm

/-- Bytes end in a newline if their text does. -/
theorem getLast?_utf8_eq_newline_iff (cs : List Char) :
    (utf8 cs).getLast? = some 10 ↔ cs.getLast? = some '\n' := by
  rcases List.eq_nil_or_concat cs with rfl | ⟨init, c, rfl⟩
  · simp [utf8]
  · have hlast : (utf8 (init ++ [c])).getLast? = (utf8Char c).getLast? := by
      rw [utf8_append, utf8, utf8, List.flatMap_singleton,
        List.getLast?_append_of_ne_nil _ (utf8Char_ne_nil c)]
    rw [List.concat_eq_append, hlast, List.getLast?_concat, Option.some.injEq]
    constructor
    · exact fun h => newline_of_mem_utf8Char (List.mem_of_getLast? h)
    · rintro rfl
      rfl

end Transcript.Text

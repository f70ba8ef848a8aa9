-- Scores on their way to a client. A client shows the reply that the server holds exactly if
-- every double in it is read back from its digits, since no other double looks like a finite one.
-- The reader of documents is quick rather than exact: it is right where the digits and their power
-- of ten are numbers themselves, and can be a neighbour off where they are not.
import Transcript.Proofs.Decimal.FewDigits
import Transcript.Proofs.SortedSet.Unambiguous
import Transcript.Proofs.SortedSet.Wire

namespace Transcript

/-! ## What is read of a double -/

namespace Binary64

theorem eq_zero_of_magnitude {x : Binary64} (h : x.magnitude = 0) : x = .zero x.isNegative := by
  rw [zero, ← h, ofMagnitude_magnitude]

/-- Both zeros are read back. -/
theorem received?_zero (negative : Bool) :
    (Binary64.zero negative).received? = some (.zero negative) := by
  cases negative <;> decide +kernel

/-- A double is read as the quick reader scales the digits it is written with. -/
theorem received?_eq {x : Binary64} (hfinite : x.isFinite = true) (hpos : 0 < x.magnitude) :
    x.received? = (Decimal.approximate (Decimal.shortest .even x).written.digits
      (Decimal.shortest .even x).written.power).map fun y => if x.isNegative then y.neg else y := by
  obtain ⟨text, htext, hsigned, hread⟩ := Json.readNumber_documented hfinite hpos
  have hnumber := Wire.readNumber_signed "f64" x.isNegative htext []
  rw [List.append_nil, List.append_nil] at hnumber
  rw [received?, Json.doubleText, if_pos hfinite, hsigned, Wire.found?_readDouble, hnumber, hread,
    Json.finishDouble]
  cases Decimal.approximate (Decimal.shortest .even x).written.digits
    (Decimal.shortest .even x).written.power <;> rfl

/-- A number that is short is read back. -/
theorem Short.received? {x : Binary64} (h : x.Short) : x.received? = some x := by
  rcases Nat.eq_zero_or_pos x.magnitude with hzero | hpos
  · rw [eq_zero_of_magnitude hzero]
    exact received?_zero _
  · have hholds := Decimal.shortest_holds .even hpos
    rw [← Decimal.Scaled.value_written] at hholds
    rw [received?_eq h.finite hpos,
      Decimal.approximate_eq hholds h.finite hpos (h.digits hpos) (h.power hpos), Option.map_some,
      neg_ofMagnitude false x.magnitude_lt]
    cases hsign : x.isNegative with
    | true =>
      rw [if_pos rfl, Bool.not_false, ← hsign, ofMagnitude_magnitude]
    | false =>
      rw [if_neg Bool.false_ne_true, ← hsign, ofMagnitude_magnitude]

end Binary64

/-! ## What is shown of a reply -/

namespace Reply

theorem render_ne_empty (r : Reply) : r.render ≠ "" := by
  cases r <;> simp [render]

/-- A double is shown on one line. -/
theorem oneLine_plain (x : Binary64) : OneLine (Decimal.plain x) :=
  oneLine_of_solid (Decimal.solid_plain x)

theorem isFinite_of_received? {x y : Binary64} (h : x.received? = some y) : x.isFinite = true := by
  by_contra hnot
  rw [Wire.received?_of_not_finite (Bool.not_eq_true _ ▸ hnot)] at h
  cases h

theorem receivedAll?_cons {item : Reply} {rest read : List Reply}
    (h : receivedAll? (item :: rest) = some read) : ∃ r rs, item.received? = some r ∧
      receivedAll? rest = some rs ∧ read = r :: rs := by
  rw [receivedAll?] at h
  rcases hitem : item.received? with _ | r
  · rw [hitem] at h
    cases h
  · rcases hrest : receivedAll? rest with _ | rs
    · rw [hitem, hrest] at h
      cases h
    · rw [hitem, hrest] at h
      exact ⟨r, rs, rfl, rfl, (Option.some.inj h).symm⟩

theorem length_of_receivedAll? {items read : List Reply} (h : receivedAll? items = some read) :
    read.length = items.length := by
  induction items generalizing read with
  | nil =>
    rw [← Option.some.inj h]
  | cons item rest ih =>
    obtain ⟨r, rs, -, hrest, rfl⟩ := receivedAll?_cons h
    rw [List.length_cons, List.length_cons, ih hrest]

mutual

/-- What is read of a reply is shown like the reply only if it is the reply. -/
theorem eq_of_render_append : (r : Reply) → {read : Reply} → {s t : List Char} →
    r.received? = some read → read.render.toList ++ s = r.render.toList ++ t → read = r ∧ s = t
  | .nil, _, _, _, hread, h => by
    obtain rfl := Option.some.inj hread
    exact ⟨rfl, List.append_cancel_left h⟩
  | .err _, _, _, _, hread, h => by
    obtain rfl := Option.some.inj hread
    exact ⟨rfl, List.append_cancel_left h⟩
  | .str _, _, _, _, hread, h => by
    obtain rfl := Option.some.inj hread
    exact ⟨rfl, List.append_cancel_left h⟩
  | .int _, _, _, _, hread, h => by
    obtain rfl := Option.some.inj hread
    exact ⟨rfl, List.append_cancel_left h⟩
  | .double x, _, s, t, hread, h => by
    rw [received?, Option.map_eq_some_iff] at hread
    obtain ⟨y, hy, rfl⟩ := hread
    simp only [render, String.toList_append, List.append_assoc, List.append_cancel_left_eq] at h
    obtain ⟨hplain, hrest⟩ := append_newline_inj (oneLine_plain y) (oneLine_plain x) h
    exact ⟨by rw [Decimal.plain_inj (isFinite_of_received? hy) (String.toList_inj.mp hplain)],
      hrest⟩
  | .arr items, _, s, t, hread, h => by
    rw [received?, Option.map_eq_some_iff] at hread
    obtain ⟨read, hitems, rfl⟩ := hread
    simp only [render, length_of_receivedAll? hitems, String.toList_append, List.append_assoc,
      List.append_cancel_left_eq] at h
    obtain ⟨rfl, hrest⟩ := eq_of_renderAll_append items hitems h
    exact ⟨rfl, List.append_cancel_left hrest⟩

theorem eq_of_renderAll_append : (items : List Reply) → {read : List Reply} →
    {s t : List Char} → receivedAll? items = some read →
    (renderAll read).toList ++ s = (renderAll items).toList ++ t → read = items ∧ s = t
  | [], _, _, _, hread, h => by
    obtain rfl := Option.some.inj hread
    exact ⟨rfl, h⟩
  | item :: rest, _, _, _, hread, h => by
    obtain ⟨r, rs, hitem, hrest, rfl⟩ := receivedAll?_cons hread
    simp only [renderAll, String.toList_append, List.append_assoc] at h
    obtain ⟨rfl, hlater⟩ := eq_of_render_append item hitem h
    obtain ⟨rfl, hend⟩ := eq_of_renderAll_append rest hrest hlater
    exact ⟨rfl, hend⟩

end

mutual

/-- A reply that is read as itself holds doubles that are. -/
theorem received?_of_mem_leaves {x : Binary64} : (r : Reply) → r.received? = some r →
    .double x ∈ r.leaves → x.received? = some x
  | .nil, _, h => by simp [leaves] at h
  | .err _, _, h => by simp [leaves] at h
  | .str _, _, h => by simp [leaves] at h
  | .int _, _, h => by simp [leaves] at h
  | .double y, hread, h => by
    obtain rfl : x = y := by simpa [leaves] using h
    rw [received?, Option.map_eq_some_iff] at hread
    obtain ⟨y, hy, heq⟩ := hread
    rw [hy, Reply.double.inj heq]
  | .arr items, hread, h => by
    rw [received?, Option.map_eq_some_iff] at hread
    obtain ⟨read, hitems, heq⟩ := hread
    rw [Reply.arr.inj heq] at hitems
    exact received?_of_mem_leavesAll items hitems h

theorem received?_of_mem_leavesAll {x : Binary64} : (items : List Reply) →
    receivedAll? items = some items → .double x ∈ leavesAll items → x.received? = some x
  | [], _, h => by simp [leavesAll] at h
  | item :: rest, hread, h => by
    obtain ⟨r, rs, hitem, hrest, heq⟩ := receivedAll?_cons hread
    obtain ⟨rfl, rfl⟩ := List.cons.inj heq
    rw [leavesAll, List.mem_append] at h
    exact h.elim (received?_of_mem_leaves item hitem) (received?_of_mem_leavesAll rest hrest)

end

end Reply

namespace SetProgram

/-- A client shows what the server holds exactly if every double in the reply is read back. -/
theorem stdout_exchange_iff (store : Store) (words : List String) :
    (Result.ofReply (exchange store words).1).stdout = (store.handle words).1.render ↔
      ∀ x, .double x ∈ (store.handle words).1.leaves → x.received? = some x := by
  have hexchange := congrArg Prod.fst (Wire.toOption_exchange store words)
  dsimp only at hexchange
  generalize (store.handle words).1 = reply at *
  generalize (exchange store words).1 = shown at *
  constructor
  · intro hshown
    cases shown with
    | error reason => exact absurd hshown.symm (Reply.render_ne_empty reply)
    | ok read =>
      have hread : reply.received? = some read := hexchange.symm
      have htext : read.render.toList ++ [] = reply.render.toList ++ [] :=
        congrArg (fun text : String => text.toList ++ []) hshown
      obtain ⟨rfl, -⟩ := Reply.eq_of_render_append reply hread htext
      exact fun x hx => Reply.received?_of_mem_leaves read hread hx
  · intro hleaves
    rw [Reply.received?_eq_some reply hleaves] at hexchange
    rw [Wire.eq_ok_of_toOption hexchange]
    rfl

/-- A score that was given to a name is the one that the server tells of it. -/
theorem handle_zscore_of_zadd (store : Store) (key name : String) {score : String} {x : Binary64}
    (h : Store.readScore? score = some x) :
    ((store.handle ["zadd", key, score, name]).2.handle ["zscore", key, name]).1 = .double x := by
  have hadd : store.handle ["zadd", key, score, name] = store.answer (.add key x name) := by
    rw [Store.handle, Store.Request.ofWords, h]
  have hfound : (((store.answer (.add key x name)).2.sets.find? key).bind
      fun set => set.score? name) = some x := by
    simp only [Store.answer, Keyed.find?_put, if_true, Option.bind_some, SortedSet.score?_add]
  rw [hadd]
  generalize (store.answer (.add key x name)).2 = added at hfound
  rw [Store.handle, Store.Request.ofWords, Store.answer, hfound]

/-- A client shows the score that it has set exactly if the score is read back. -/
theorem stdout_zscore_of_zadd (store : Store) (key name : String) {score : String} {x : Binary64}
    (h : Store.readScore? score = some x) :
    let added := (exchange store ["zadd", key, score, name]).2
    (added.handle ["zscore", key, name]).1 = .double x ∧
      ((Result.ofReply (exchange added ["zscore", key, name]).1).stdout =
        (Reply.double x).render ↔ x.received? = some x) := by
  have hstore := congrArg Prod.snd (Wire.toOption_exchange store ["zadd", key, score, name])
  dsimp only at hstore ⊢
  rw [hstore]
  have hreply := handle_zscore_of_zadd store key name h
  refine ⟨hreply, ?_⟩
  have hshown := stdout_exchange_iff (store.handle ["zadd", key, score, name]).2
    ["zscore", key, name]
  rw [hreply] at hshown
  rw [hshown]
  simp [Reply.leaves]

/-- A client shows the reply that the server holds exactly if every double in it is read back from
the digits it is written with. So it is with a score that a client has set, and a score of at most
fifteen digits is always shown. The digits are read by the quick reader, and a number whose written
digits and power of ten are numbers themselves is read back. -/
theorem a_client_shows_the_scores_that_are_read_back (store : Store) :
    (∀ words, (Result.ofReply (exchange store words).1).stdout = (store.handle words).1.render ↔
      ∀ x, .double x ∈ (store.handle words).1.leaves → x.received? = some x) ∧
    (∀ key name score x, Store.readScore? score = some x →
      let added := (exchange store ["zadd", key, score, name]).2
      (added.handle ["zscore", key, name]).1 = .double x ∧
      ((Result.ofReply (exchange added ["zscore", key, name]).1).stdout =
        (Reply.double x).render ↔ x.received? = some x)) ∧
    (∀ key name score, Decimal.OfFewDigits score.toList →
      let added := (exchange store ["zadd", key, score, name]).2
      ∃ x, Store.readScore? score = some x ∧ x.isFinite = true ∧
        (added.handle ["zscore", key, name]).1 = .double x ∧
        (Result.ofReply (exchange added ["zscore", key, name]).1).stdout =
          (Reply.double x).render) ∧
    (∀ x : Binary64, x.isFinite = true → 0 < x.magnitude → x.received? =
      (Decimal.approximate (Decimal.shortest .even x).written.digits
        (Decimal.shortest .even x).written.power).map fun y => if x.isNegative then y.neg else y) ∧
    ∀ x : Binary64, x.Short → x.received? = some x := by
  refine ⟨stdout_exchange_iff store, fun key name score x => stdout_zscore_of_zadd store key name,
    fun key name score hfew => ?_, fun x hfinite hpos => Binary64.received?_eq hfinite hpos,
    fun x hshort => hshort.received?⟩
  obtain ⟨x, hread, hshort⟩ := hfew.exists_short
  obtain ⟨hreply, hshown⟩ := stdout_zscore_of_zadd store key name hread
  exact ⟨x, hread, hshort.finite, hreply, hshown.mpr hshort.received?⟩

/-- A score of two digits is shown as it is held. -/
theorem a_score_of_two_digits_is_shown :
    let added := (exchange .empty ["zadd", "z", "1.1", "a"]).2
    Decimal.OfFewDigits "1.1".toList ∧
      (Result.ofReply (exchange added ["zscore", "z", "a"]).1).stdout = "(double) 1.1\n" ∧
      ∃ x, Store.readScore? "1.1" = some x ∧ x.isFinite = true ∧
        (added.handle ["zscore", "z", "a"]).1 = .double x ∧
        (Result.ofReply (exchange added ["zscore", "z", "a"]).1).stdout =
          (Reply.double x).render := by
  have hdigits : Decimal.AllDigits (['1'] ++ ['1']) := Decimal.allDigits_toDigits 11
  have hfew : Decimal.OfFewDigits "1.1".toList :=
    .pointed false (List.cons_ne_nil '1' []) hdigits (by decide)
  refine ⟨hfew, by decide +kernel, ?_⟩
  exact (a_client_shows_the_scores_that_are_read_back .empty).2.2.1 "z" "a" "1.1" hfew

/-- The largest odd score that is a number is held by the server, and a client shows its
neighbour. -/
theorem a_large_odd_score_is_shown_one_off :
    let added := (exchange .empty ["zadd", "z", "9007199254740991", "a"]).2
    (Store.readScore? "9007199254740991").map Binary64.isFinite = some true ∧
      (added.handle ["zscore", "z", "a"]).1.render = "(double) 9007199254740991\n" ∧
      (Result.ofReply (exchange added ["zscore", "z", "a"]).1).stdout =
        "(double) 9007199254740990\n" ∧
      (Result.ofReply (exchange added ["zquery", "z", "0", "", "0", "9"]).1).stdout =
        "(arr) len=2\n(str) a\n(double) 9007199254740990\n(arr) end\n" := by
  decide +kernel

end SetProgram

end Transcript

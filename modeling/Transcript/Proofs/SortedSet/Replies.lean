-- Replies read from their documents. A reader finds the reply that was written, with each
-- double in it as its digits are read, and finds none where a double has no digits.
import Transcript.Proofs.Json.Compact
import Transcript.SortedSet.Wire

namespace Transcript

/-! ## Replies -/

namespace Reply

mutual

/-- The replies in a reply that hold no others, in order. -/
def leaves : Reply → List Reply
  | .arr items => leavesAll items
  | r => [r]

def leavesAll : List Reply → List Reply
  | [] => []
  | item :: rest => leaves item ++ leavesAll rest

end

mutual

/-- The levels of arrays in a reply. -/
def depth : Reply → Nat
  | .arr items => depthAll items + 1
  | _ => 0

def depthAll : List Reply → Nat
  | [] => 0
  | item :: rest => max (depth item) (depthAll rest)

end

theorem mem_leavesAll {leaf : Reply} {items : List Reply} :
    leaf ∈ leavesAll items ↔ ∃ r ∈ items, leaf ∈ r.leaves := by
  induction items with
  | nil => simp [leavesAll]
  | cons item rest ih => simp [leavesAll, ih]

theorem depthAll_le_iff {items : List Reply} {levels : Nat} :
    depthAll items ≤ levels ↔ ∀ r ∈ items, r.depth ≤ levels := by
  induction items with
  | nil => simp [depthAll]
  | cons item rest ih => rw [depthAll, Nat.max_le, ih, List.forall_mem_cons]

end Reply

/-- What the written form of a double is read as. -/
def Binary64.received? (x : Binary64) : Option Binary64 :=
  (Wire.readDouble (Json.doubleText x).toList).found?.map (·.1)

/-- The digits that a double is written with are read as that double. -/
def Binary64.ReadsBack (x : Binary64) : Prop :=
  Wire.readDouble (Json.doubleText x).toList = .ok (x, [])

theorem Binary64.ReadsBack.received? {x : Binary64} (h : x.ReadsBack) : x.received? = some x := by
  rw [Binary64.received?, h]
  rfl

namespace Reply

mutual

/-- A reply with each double in it as it is read, if all of them are. -/
def received? : Reply → Option Reply
  | .double x => x.received?.map .double
  | .arr items => (receivedAll? items).map .arr
  | r => some r

def receivedAll? : List Reply → Option (List Reply)
  | [] => some []
  | item :: rest => do return (← received? item) :: (← receivedAll? rest)

end

mutual

theorem received?_eq_some : (r : Reply) →
    (∀ x, .double x ∈ r.leaves → x.received? = some x) → r.received? = some r
  | .nil, _ => rfl
  | .err _, _ => rfl
  | .str _, _ => rfl
  | .int _, _ => rfl
  | .double x, h => by rw [received?, h x (List.mem_singleton.mpr rfl)]; rfl
  | .arr items, h => by rw [received?, receivedAll?_eq_some items h]; rfl

theorem receivedAll?_eq_some : (items : List Reply) →
    (∀ x, .double x ∈ leavesAll items → x.received? = some x) → receivedAll? items = some items
  | [], _ => rfl
  | item :: rest, h => by
    have hitem := received?_eq_some item fun x hx => h x (List.mem_append_left _ hx)
    have hrest := receivedAll?_eq_some rest fun x hx => h x (List.mem_append_right _ hx)
    rw [receivedAll?, hitem, hrest]
    rfl

end

mutual

theorem received?_eq_none {x : Binary64} (hx : x.received? = none) : (r : Reply) →
    .double x ∈ r.leaves → r.received? = none
  | .nil, h => by simp [leaves] at h
  | .err _, h => by simp [leaves] at h
  | .str _, h => by simp [leaves] at h
  | .int _, h => by simp [leaves] at h
  | .double y, h => by
    obtain rfl : x = y := by simpa [leaves] using h
    rw [received?, hx]
    rfl
  | .arr items, h => by rw [received?, receivedAll?_eq_none hx items h]; rfl

theorem receivedAll?_eq_none {x : Binary64} (hx : x.received? = none) : (items : List Reply) →
    .double x ∈ leavesAll items → receivedAll? items = none
  | [], h => by simp [leavesAll] at h
  | item :: rest, h => by
    rw [receivedAll?]
    rcases List.mem_append.mp h with h | h
    · rw [received?_eq_none hx item h]
      rfl
    · rw [receivedAll?_eq_none hx rest h]
      cases received? item <;> rfl

end

theorem toJsonAll_eq_map (items : List Reply) : toJsonAll items = items.map toJson := by
  induction items with
  | nil => rfl
  | cons item rest ih => rw [toJsonAll, ih, List.map_cons]

/-- A reply is written as an object. -/
theorem compactChars_toJson (r : Reply) :
    ∃ fields, Json.compactChars r.toJson = '\x7b' :: fields := by
  cases r <;> exact ⟨_, rfl⟩

end Reply

namespace Wire

open Json

/-! ## Readings in turn -/

theorem found?_bind {α β : Type} (r : Reading α) (f : α × List Char → Reading β) :
    Reading.found? (r.bind f) = r.found?.bind fun v => (f v).found? := by
  cases r <;> rfl

theorem found?_map {α β : Type} (r : Reading α) (f : α × List Char → β × List Char) :
    Reading.found? (r.map f) = r.found?.map f := by
  cases r <;> rfl

theorem settles_map {α β : Type} {read : List Char → Reading α} {text : List Char}
    {value? : Option α} (h : Settles read text value?) (f : α → β) :
    Settles (fun s => (read s).map fun (v, rest) => (f v, rest)) text (value?.map f) := by
  intro rest hrest
  rw [found?_map, h rest hrest]
  cases value? <;> rfl

/-! ## Strings -/

theorem settles_readStringValue (s : String) :
    Settles readStringValue (stringChars s) (some s) := by
  intro rest _
  rw [readStringValue_stringChars]
  rfl

/-! ## Doubles -/

/-- A number that starts with a digit has no sign. -/
theorem readNumber_of_isDigit (expected : String) {c : Char} (h : c.isDigit = true)
    (s : List Char) : readNumber expected (c :: s) = Json.readNumber false (c :: s) := by
  have hblank : isSpace c = false := by
    by_contra hspace
    simp only [isSpace, Bool.not_eq_false, Bool.or_eq_true, decide_eq_true_eq] at hspace
    rcases hspace with ((rfl | rfl) | rfl) | rfl <;> cases h
  have hminus : c ≠ '-' := by
    rintro rfl
    cases h
  rw [readNumber, skipSpace_cons hblank]
  split
  · contradiction
  · rename_i heq
    exact absurd (List.cons.inj heq).1 hminus
  · rename_i heq
    obtain ⟨rfl, rfl⟩ := List.cons.inj heq
    rw [if_pos h]

/-- A number that is not whole is read with its sign, whatever type is expected. -/
theorem readNumber_signed (expected : String) (negative : Bool) {text : List Char}
    (h : IsNumeral text) (rest : List Char) :
    readNumber expected (Decimal.signed negative text ++ rest) =
      Json.readNumber negative (text ++ rest) := by
  cases negative with
  | true => rfl
  | false =>
    obtain ⟨c, s, rfl, hc⟩ := h.exists_digit
    exact readNumber_of_isDigit expected hc (s ++ rest)

/-- The value of a number as a double. -/
def doubleOf : Number → Binary64
  | .double x => x
  | .whole k => .ofRatio (decide (k < 0)) k.natAbs 1

theorem found?_readDouble (s : List Char) : (readDouble s).found? =
    (readNumber "f64" s).found?.map fun (n, rest) => (doubleOf n, rest) := by
  rw [readDouble]
  rcases readNumber "f64" s with _ | ⟨_ | _, _⟩ <;> rfl

/-- A double is read as it is by itself, whatever follows it. -/
theorem settles_readDouble (x : Binary64) :
    Settles readDouble (doubleText x).toList x.received? := by
  suffices h : ∃ value?, Settles readDouble (doubleText x).toList value? by
    obtain ⟨value?, hvalue⟩ := h
    rwa [Binary64.received?, hvalue.eq_found]
  unfold doubleText
  split
  · obtain ⟨text, htext, heq⟩ := isNumeral_documented x
    obtain ⟨value?, hvalue⟩ := htext.settles x.isNegative
    refine ⟨value?.map doubleOf, fun rest hrest => ?_⟩
    rw [found?_readDouble, heq, readNumber_signed "f64" x.isNegative htext, hvalue rest hrest]
    cases value? <;> rfl
  · exact ⟨none, fun _ _ => rfl⟩

theorem received?_of_not_finite {x : Binary64} (h : x.isFinite = false) : x.received? = none := by
  rw [Binary64.received?, doubleText, if_neg (by rw [h]; decide)]
  rfl

/-! ## Whole numbers -/

theorem readNumber_toString {n : Int} (hlow : -(twoTo 63 : Int) ≤ n) (hhigh : n < twoTo 63)
    (expected : String) {rest : List Char} (hrest : EndsNumber rest) :
    readNumber expected ((toString n).toList ++ rest) = .ok (.whole n, rest) := by
  rw [Int.toString_eq_repr, Int.repr_eq_if]
  split
  · rename_i hnonneg
    have hword : n.toNat ≤ Decimal.largestWord := by
      have hbound : (twoTo 63 : Int) ≤ Decimal.largestWord := by decide
      omega
    obtain ⟨c, s, hcs⟩ := List.exists_cons_of_ne_nil (Nat.toDigits_ne_nil (b := 10) (n := n.toNat))
    have hc : c.isDigit = true :=
      Decimal.allDigits_toDigits n.toNat c (by rw [hcs]; exact List.mem_cons_self)
    have hread := readNumber_whole hword hrest
    rw [Nat.toList_repr]
    rw [hcs, List.cons_append] at hread ⊢
    rw [readNumber_of_isDigit expected hc, hread, Int.toNat_of_nonneg hnonneg]
  · have hread := readNumber_negative (n := (-n).toNat) (by omega) (by omega) hrest
    rw [String.toList_append, Nat.toList_repr]
    change Json.readNumber true (Nat.toDigits 10 (-n).toNat ++ rest) = _
    rw [hread, show -((-n).toNat : Int) = n by omega]

/-- A whole number of 64 bits is read as itself. -/
theorem settles_readInt {n : Int} (hlow : -(twoTo 63 : Int) ≤ n) (hhigh : n < twoTo 63) :
    Settles readInt (toString n).toList (some n) := by
  intro rest hrest
  rw [readInt, readNumber_toString hlow hhigh "i64" hrest]
  dsimp only
  rw [if_pos hhigh]
  rfl

/-! ## Fields -/

theorem expect_self {c : Char} (h : isSpace c = false) (cause : Cause) (rest : List Char) :
    expect c cause (c :: rest) = .ok rest := by
  rw [expect, skipSpace_cons h]
  exact if_pos rfl

theorem readName_stringChars (name : String) (rest : List Char) :
    readName (stringChars name ++ ':' :: rest) = .ok (name, rest) := by
  rw [stringChars_append, readName, skipSpace_cons rfl]
  split
  · contradiction
  · rename_i heq
    obtain ⟨-, rfl⟩ := List.cons.inj heq
    rw [readString_escaped]
    dsimp only
    rw [expect_self rfl]
    rfl
  · rename_i hnot
    exact absurd rfl (hnot _)

/-- The fields of a reply with a value, up to that value. -/
theorem readReplyWith_typed (item? : Option (List Char → Reading Reply)) {kind : String}
    (hkind : kind ≠ "nil") (rest : List Char) :
    readReplyWith item? ('\x7b' :: (stringChars "type" ++ ':' :: (stringChars kind ++
      ',' :: (stringChars "value" ++ ':' :: rest)))) =
        (readValueOf item? kind rest).bind fun (reply, rest) =>
          (expect '\x7d' .expectedObjectEnd rest).map fun rest => (reply, rest) := by
  rw [readReplyWith]
  change Except.bind (.ok _) _ = _
  simp only [Except.bind, bind, readName_stringChars, readStringValue_stringChars, ne_eq,
    not_true_eq_false, if_false, if_neg hkind, expect_self (c := ',') rfl]
  rfl

theorem endsNumber_cons {c : Char} (h : c.isDigit = false ∧ c ≠ '.' ∧ c ≠ 'e' ∧ c ≠ 'E')
    (rest : List Char) : EndsNumber (c :: rest) := by
  intro d hd
  rwa [← Option.some.inj hd]

/-- A reply with a value is read as its value is. -/
theorem settles_readReplyWith (item? : Option (List Char → Reading Reply)) {kind : String}
    (hkind : kind ≠ "nil") {value : Json} {reply? : Option Reply}
    (h : Settles (readValueOf item? kind) (compactChars value) reply?) :
    Settles (readReplyWith item?)
      (compactChars (.obj [("type", .str kind), ("value", value)])) reply? := by
  intro rest _
  have hvalue := h ('\x7d' :: rest) (endsNumber_cons (by decide) rest)
  have htext : compactChars (.obj [("type", .str kind), ("value", value)]) ++ rest =
      '\x7b' :: (stringChars "type" ++ ':' :: (stringChars kind ++ ',' :: (stringChars "value" ++
        ':' :: (compactChars value ++ '\x7d' :: rest)))) := by
    simp [compactChars, compactFields]
  rw [htext, readReplyWith_typed item? hkind, found?_bind, hvalue]
  cases reply? with
  | none => rfl
  | some reply =>
    simp only [Option.map_some, Option.bind_some, expect_self (c := '\x7d') rfl]
    rfl

/-! ## Items -/

/-- The first item of an array. -/
theorem readItems_first (item : List Char → Reading Reply) (fuel : Nat) (t : List Char) :
    readItems item (fuel + 1) true ('\x7b' :: t) =
      (item ('\x7b' :: t)).bind fun found =>
        (readItems item fuel false found.2).map fun more => (found.1 :: more.1, more.2) := by
  rw [readItems, skipSpace_cons rfl]
  split
  · contradiction
  · rename_i heq
    exact absurd (List.cons.inj heq).1 (by decide)
  · rename_i heq
    obtain ⟨rfl, rfl⟩ := List.cons.inj heq
    rw [if_pos rfl]
    dsimp only
    rcases item ('\x7b' :: t) with f | ⟨reply, rest⟩
    · rfl
    · dsimp only [Except.bind]
      cases readItems item fuel false rest <;> rfl

/-- An item behind a comma is read like the first one. -/
theorem readItems_comma (item : List Char → Reading Reply) (fuel : Nat) (t : List Char) :
    readItems item (fuel + 1) false (',' :: '\x7b' :: t) =
      readItems item (fuel + 1) true ('\x7b' :: t) := rfl

theorem found?_readItems_first {item : List Char → Reading Reply} {reply : Reply}
    {reply? : Option Reply} (h : Settles item (compactChars reply.toJson) reply?) {fuel : Nat}
    {tail rest : List Char} (htail : EndsNumber tail) {replies? : Option (List Reply)}
    (hrest : (readItems item fuel false tail).found? = replies?.map fun rs => (rs, rest)) :
    (readItems item (fuel + 1) true (compactChars reply.toJson ++ tail)).found? =
      (do return (← reply?) :: (← replies?)).map fun rs => (rs, rest) := by
  obtain ⟨fields, hfields⟩ := reply.compactChars_toJson
  have hitem := h tail htail
  rw [hfields, List.cons_append] at hitem ⊢
  rw [readItems_first, found?_bind, hitem]
  cases reply? with
  | none => rfl
  | some read =>
    simp only [Option.map_some, Option.bind_some]
    rw [found?_map, hrest]
    cases replies? <;> rfl

theorem endsNumber_later (items : List Reply) (rest : List Char) :
    EndsNumber ((items.flatMap fun r => ',' :: compactChars r.toJson) ++ ']' :: rest) := by
  cases items <;> exact endsNumber_cons (by decide) _

/-- Items behind their commas are read up to the end of the array. -/
theorem found?_readItems_later {item : List Char → Reading Reply} {items : List Reply}
    (h : ∀ r ∈ items, Settles item (compactChars r.toJson) r.received?) {fuel : Nat}
    (hfuel : items.length < fuel) (rest : List Char) :
    (readItems item fuel false
      ((items.flatMap fun r => ',' :: compactChars r.toJson) ++ ']' :: rest)).found? =
        (Reply.receivedAll? items).map fun rs => (rs, rest) := by
  induction items generalizing fuel with
  | nil =>
    obtain ⟨fuel, rfl⟩ : ∃ n, fuel = n + 1 := ⟨fuel - 1, by simp at hfuel; omega⟩
    rfl
  | cons r items ih =>
    rw [List.length_cons] at hfuel
    obtain ⟨fuel, rfl⟩ : ∃ n, fuel = n + 1 := ⟨fuel - 1, by omega⟩
    have hlen : items.length < fuel := by omega
    have hrest := ih (fun s hs => h s (List.mem_cons_of_mem r hs)) hlen
    have hfirst :=
      found?_readItems_first (h r List.mem_cons_self) (endsNumber_later items rest) hrest
    obtain ⟨fields, hfields⟩ := r.compactChars_toJson
    rw [List.flatMap_cons, List.append_assoc, List.cons_append]
    rw [hfields, List.cons_append] at hfirst ⊢
    rw [readItems_comma]
    exact hfirst

/-- An array is read as its items are. -/
theorem found?_readItems {item : List Char → Reading Reply} {items : List Reply}
    (h : ∀ r ∈ items, Settles item (compactChars r.toJson) r.received?) {fuel : Nat}
    (hfuel : items.length < fuel) (rest : List Char) :
    (readItems item fuel true (compactItems (Reply.toJsonAll items) ++ ']' :: rest)).found? =
      (Reply.receivedAll? items).map fun rs => (rs, rest) := by
  obtain ⟨fuel, rfl⟩ : ∃ n, fuel = n + 1 := ⟨fuel - 1, by omega⟩
  cases items with
  | nil => rfl
  | cons r items =>
    rw [List.length_cons] at hfuel
    rw [Reply.toJsonAll_eq_map, List.map_cons, compactItems_cons, List.flatMap_map,
      List.append_assoc]
    exact found?_readItems_first (h r List.mem_cons_self) (endsNumber_later items rest)
      (found?_readItems_later (fun s hs => h s (List.mem_cons_of_mem r hs)) (by omega) rest)

theorem settles_readValueOf_arr {item : List Char → Reading Reply} {items : List Reply}
    (h : ∀ r ∈ items, Settles item (compactChars r.toJson) r.received?) :
    Settles (readValueOf (some item) "arr") (compactChars (.arr (Reply.toJsonAll items)))
      (Reply.arr items).received? := by
  intro rest _
  have hstep : ∀ t, readValueOf (some item) "arr" ('[' :: t) =
      (readItems item (t.length + 1) true t).map fun found => (.arr found.1, found.2) :=
    fun _ => rfl
  have hlen : items.length ≤ (compactItems (Reply.toJsonAll items)).length := by
    rw [Reply.toJsonAll_eq_map, ← List.length_map Reply.toJson]
    refine length_le_length_compactItems fun v hv => ?_
    obtain ⟨r, -, rfl⟩ := List.mem_map.mp hv
    obtain ⟨fields, hfields⟩ := r.compactChars_toJson
    rw [hfields]
    exact List.cons_ne_nil _ _
  have hfuel : items.length <
      (compactItems (Reply.toJsonAll items) ++ ']' :: rest).length + 1 := by
    rw [List.length_append]
    omega
  rw [compactChars, List.cons_append, List.append_assoc, List.singleton_append, hstep, found?_map,
    found?_readItems h hfuel, Reply.received?]
  cases Reply.receivedAll? items <;> rfl

/-! ## Replies in any depth -/

/-- The reader of the items of an array, if there may be this many levels of them. -/
def itemReader? : Nat → Option (List Char → Reading Reply)
  | 0 => none
  | levels + 1 => some (readReply levels)

theorem readReply_eq (levels : Nat) : readReply levels = readReplyWith (itemReader? levels) := by
  cases levels <;> rfl

/-- Every whole number in a reply has 64 bits. -/
def Fits (r : Reply) : Prop :=
  ∀ n, .int n ∈ r.leaves → -(twoTo 63 : Int) ≤ n ∧ n < twoTo 63

mutual

/-- What a client reads from a written reply, whatever follows it. -/
theorem settles_readReply : (r : Reply) → Fits r → (levels : Nat) → r.depth ≤ levels →
    Settles (readReply levels) (compactChars r.toJson) r.received?
  | .nil, _, levels, _ => by
    rw [readReply_eq]
    exact fun _ _ => rfl
  | .err text, _, levels, _ => by
    rw [readReply_eq]
    exact settles_readReplyWith _ (by decide)
      (settles_map (settles_readStringValue text) Reply.err)
  | .str text, _, levels, _ => by
    rw [readReply_eq]
    exact settles_readReplyWith _ (by decide)
      (settles_map (settles_readStringValue text) Reply.str)
  | .int n, hfits, levels, _ => by
    rw [readReply_eq]
    obtain ⟨hlow, hhigh⟩ := hfits n (List.mem_singleton.mpr rfl)
    exact settles_readReplyWith _ (by decide) (settles_map (settles_readInt hlow hhigh) Reply.int)
  | .double x, _, levels, _ => by
    rw [readReply_eq]
    exact settles_readReplyWith _ (by decide) (settles_map (settles_readDouble x) Reply.double)
  | .arr items, hfits, levels, hdepth => by
    rw [Reply.depth] at hdepth
    obtain ⟨levels, rfl⟩ : ∃ n, levels = n + 1 := ⟨levels - 1, by omega⟩
    exact settles_readReplyWith _ (by decide)
      (settles_readValueOf_arr (settles_readReply_items items hfits levels (by omega)))

theorem settles_readReply_items : (items : List Reply) → Fits (.arr items) → (levels : Nat) →
    Reply.depthAll items ≤ levels →
    ∀ r ∈ items, Settles (readReply levels) (compactChars r.toJson) r.received?
  | [], _, _, _ => by simp
  | r :: items, hfits, levels, hdepth => by
    rw [Reply.depthAll, Nat.max_le] at hdepth
    have hitem := settles_readReply r (fun n hn => hfits n (List.mem_append_left _ hn)) levels
      hdepth.1
    have hrest := settles_readReply_items items
      (fun n hn => hfits n (List.mem_append_right _ hn)) levels hdepth.2
    exact List.forall_mem_cons.mpr ⟨hitem, hrest⟩

end

end Wire

end Transcript

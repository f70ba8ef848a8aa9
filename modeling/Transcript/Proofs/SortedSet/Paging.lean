-- Pages of a sorted set. A page is a stretch of the listing of a range, so pages that each take
-- up where the one before ended list the range without gaps and without repeats, whatever their
-- limits are, and whether the next place is told by an offset or by the last member received.
-- A limit counts names and scores, but a page holds whole members: an odd limit is passed by one
-- element as soon as there are members enough.
import Mathlib.Data.List.Infix
import Mathlib.Data.Nat.Find
import Transcript.Proofs.SortedSet.Reference

namespace Transcript

namespace SortedSet

/-! ## Pages by offset -/

section Offsets

variable (s : SortedSet) (place : Member) (offset : Nat) (limits : Nat → Nat)

/-- The offset of each page. The members on a page move it on for the next one. -/
def offsetAt : Nat → Nat
  | 0 => offset
  | i + 1 => offsetAt i + (s.query place (offsetAt i) (limits i)).length

/-- Each page, asked for from the same place, with a limit of its own. -/
def pageAt (i : Nat) : List Member := s.query place (s.offsetAt place offset limits i) (limits i)

/-- The members on the first pages. -/
def received (n : Nat) : List Member := (List.range n).flatMap (s.pageAt place offset limits)

theorem received_succ (n : Nat) : s.received place offset limits (n + 1) =
    s.received place offset limits n ++ s.pageAt place offset limits n := by
  rw [received, List.range_succ, List.flatMap_append, List.flatMap_singleton]
  rfl

theorem offsetAt_eq (n : Nat) :
    s.offsetAt place offset limits n = offset + (s.received place offset limits n).length := by
  induction n with
  | zero => rfl
  | succ n ih =>
    rw [received_succ, List.length_append, ← Nat.add_assoc, ← ih]
    rfl

variable {s place offset limits}

/-- A page starts with what is left of the listing. -/
theorem pageAt_eq {n : Nat} {rest : List Member}
    (h : (s.membersFrom place).drop offset = s.received place offset limits n ++ rest) :
    s.pageAt place offset limits n = rest.take ((limits n + 1) / 2) := by
  rw [pageAt, query_eq, offsetAt_eq, ← List.drop_drop, h, List.drop_left]

theorem received_isPrefix (n : Nat) :
    s.received place offset limits n <+: (s.membersFrom place).drop offset := by
  induction n with
  | zero => exact List.nil_prefix
  | succ n ih =>
    obtain ⟨rest, hrest⟩ := ih
    have hpage : rest.take ((limits n + 1) / 2) <+: rest := List.take_prefix _ rest
    rw [received_succ, pageAt_eq hrest.symm, ← hrest]
    exact (List.prefix_append_right_inj _).mpr hpage

theorem le_length_received {n : Nat} (h : ∀ i < n, s.pageAt place offset limits i ≠ []) :
    n ≤ (s.received place offset limits n).length := by
  induction n with
  | zero => exact Nat.zero_le _
  | succ n ih =>
    have hbefore := ih fun i hi => h i (Nat.lt_succ_of_lt hi)
    have hpage := List.length_pos_iff.mpr (h n n.lt_succ_self)
    rw [received_succ, List.length_append]
    omega

/-- A page that is empty although its limit is not ends the listing. -/
theorem received_of_pageAt_eq_nil {n : Nat} (hlimit : 1 ≤ limits n)
    (h : s.pageAt place offset limits n = []) :
    s.received place offset limits n = (s.membersFrom place).drop offset := by
  have hbefore : s.received place offset limits n <+: (s.membersFrom place).drop offset :=
    received_isPrefix n
  obtain ⟨rest, hrest⟩ := hbefore
  rw [pageAt_eq hrest.symm, List.take_eq_nil_iff] at h
  rcases h with h | rfl
  · omega
  · rw [← hrest, List.append_nil]

/-- Some page is empty, and those before the first such page hold the listing. One page more than
there are members cannot each hold one. -/
theorem exists_last_page (h : ∀ i, 1 ≤ limits i) :
    ∃ n, s.pageAt place offset limits n = [] ∧
      (∀ i < n, s.pageAt place offset limits i ≠ []) ∧
      s.received place offset limits n = (s.membersFrom place).drop offset := by
  have hempty : ∃ n, s.pageAt place offset limits n = [] := by
    by_contra hnone
    rw [not_exists] at hnone
    let n := ((s.membersFrom place).drop offset).length + 1
    have hmany : n ≤ (s.received place offset limits n).length :=
      le_length_received fun i _ => hnone i
    have hfew : (s.received place offset limits n).length < n :=
      Nat.lt_succ_of_le (received_isPrefix n).length_le
    exact absurd hmany (Nat.not_le_of_lt hfew)
  refine ⟨Nat.find hempty, Nat.find_spec hempty, fun i hi => Nat.find_min hempty hi, ?_⟩
  exact received_of_pageAt_eq_nil (h _) (Nat.find_spec hempty)

end Offsets

/-! ## Pages by the last member -/

variable {s : SortedSet}

/-- The range from a member of another range is what that one holds from there on. -/
theorem InStep.membersFrom_of_split (h : s.InStep) {place m : Member} {front rest : List Member}
    (hsplit : s.membersFrom place = front ++ m :: rest) : s.membersFrom m = m :: rest := by
  have hsorted := h.pairwise_membersFrom place
  rw [hsplit, List.pairwise_append] at hsorted
  obtain ⟨-, hbehind, hfront⟩ := hsorted
  have hmem := fun x => h.mem_membersFrom place x
  simp only [hsplit, List.mem_append] at hmem
  have hplace := ((hmem m).mp (.inr List.mem_cons_self)).2
  refine eq_of_pairwise_of_mem_iff (h.pairwise_membersFrom m) hbehind fun x => ?_
  rw [h.mem_membersFrom]
  constructor
  · rintro ⟨hscore, rfl | hx⟩
    · exact List.mem_cons_self
    · have hfrom : place.Precedes x := by
        rcases hplace with rfl | hplace
        · exact hx
        · exact hplace.trans hx
      rcases (hmem x).mpr ⟨hscore, .inr hfrom⟩ with hin | hin
      · exact absurd (hx.trans (hfront x hin m List.mem_cons_self)) (Member.precedes_irrefl m)
      · exact hin
  · intro hx
    refine ⟨((hmem x).mp (.inr hx)).1, ?_⟩
    rcases List.mem_cons.mp hx with rfl | hx
    · exact .inl rfl
    · exact .inr ((List.pairwise_cons.mp hbehind).1 x hx)

/-- To go on from the last member of a page is to go on from the offset behind it. -/
theorem InStep.query_last (h : s.InStep) {place last : Member} {offset limit : Nat}
    (hlast : (s.query place offset limit).getLast? = some last) (next : Nat) :
    s.query last 1 next =
      s.query place (offset + (s.query place offset limit).length) next := by
  obtain ⟨init, hpage⟩ := List.getLast?_eq_some_iff.mp hlast
  have hlisting : (s.membersFrom place).drop offset = s.query place offset limit ++
      ((s.membersFrom place).drop offset).drop ((limit + 1) / 2) := by
    rw [query_eq, List.take_append_drop]
  generalize ((s.membersFrom place).drop offset).drop ((limit + 1) / 2) = rest at hlisting
  have hsplit : s.membersFrom place =
      ((s.membersFrom place).take offset ++ init) ++ last :: rest := by
    conv_lhs => rw [← List.take_append_drop offset (s.membersFrom place), hlisting, hpage]
    simp
  rw [query_eq, query_eq, h.membersFrom_of_split hsplit, ← List.drop_drop, hlisting,
    List.drop_left]
  rfl

end SortedSet

namespace Store

/-- Paging loses nothing and repeats nothing. In any set that requests can leave, pages that are
asked for from one place, each with its own limit and with the offset moved on by the members
just received, come to an empty page, and those before it are the listing behind the first
offset, each member once and in order. And behind any page that is not empty, the same pages
follow from its last member, passed over, as from the offset moved on. -/
theorem paging_loses_and_repeats_nothing (history : List (List String)) (key : String)
    (set : SortedSet) (hset : (after history).sets.find? key = some set) (place : Member)
    (offset : Nat) :
    ∃ members, (after history).scores.Lists key place members ∧ members.Nodup ∧
      (∀ limits : Nat → Nat, (∀ i, 1 ≤ limits i) → ∃ n,
        set.pageAt place offset limits n = [] ∧
        (∀ i < n, set.pageAt place offset limits i ≠ []) ∧
        set.received place offset limits n = members.drop offset) ∧
      ∀ limit last, (set.query place offset limit).getLast? = some last → ∀ next,
        set.query last 1 next =
          set.query place (offset + (set.query place offset limit).length) next := by
  have hstep : set.InStep := inStep_after history key set hset
  refine ⟨set.membersFrom place, (inStep_after history).lists hset place,
    SortedSet.nodup_of_pairwise (hstep.pairwise_membersFrom place), ?_, ?_⟩
  · exact fun limits h => SortedSet.exists_last_page h
  · exact fun limit last hlast next => hstep.query_last hlast next

/-- Two pages of two members each and an empty one, with a limit that is odd, over minus zero and
zero, scores that are the same, and a value that stands for no number; and the second page
again, from the last member of the first. -/
theorem odd_pages_over_all_kinds_of_scores :
    let history := [["zadd", "z", "1", "b"], ["zadd", "z", "1", "a"], ["zadd", "z", "nan", "e"],
      ["zadd", "z", "0", "d"], ["zadd", "z", "-0", "f"]]
    let one := Binary64.ofRatio false 1 1
    let listing : List Member := [⟨.zero true, "f"⟩, ⟨.zero false, "d"⟩, ⟨one, "a"⟩, ⟨one, "b"⟩,
      ⟨.nan false, "e"⟩]
    let set : SortedSet := ⟨[("b", one), ("a", one), ("e", .nan false), ("d", .zero false),
      ("f", .zero true)], listing⟩
    let place : Member := ⟨.infinity true, ""⟩
    (after history).sets.find? "z" = some set ∧
      (∃ n, set.pageAt place 1 (fun _ => 3) n = [] ∧
        (∀ i < n, set.pageAt place 1 (fun _ => 3) i ≠ []) ∧
        set.received place 1 (fun _ => 3) n = listing.drop 1) ∧
      (set.query place 1 3).getLast? = some ⟨one, "a"⟩ ∧
      set.query ⟨one, "a"⟩ 1 3 = set.query place 3 3 := by
  intro history one listing set place
  have hset : (after history).sets.find? "z" = some set := by decide +kernel
  obtain ⟨members, hlists, -, hpages, hcursor⟩ :=
    paging_loses_and_repeats_nothing history "z" set hset place 1
  have hmembers : members = listing := by
    rw [hlists.eq ((inStep_after history).lists hset place)]
    decide +kernel
  have hlast : (set.query place 1 3).getLast? = some ⟨one, "a"⟩ := by decide +kernel
  have hlength : (set.query place 1 3).length = 2 := by decide +kernel
  have hnext := hcursor 3 _ hlast 3
  rw [hlength] at hnext
  rw [hmembers] at hpages
  exact ⟨hset, hpages (fun _ => 3) (fun _ => by decide), hlast, hnext⟩

/-! ## Limits -/

/-- Names and scores in turn, as they are counted by a limit. -/
def elements (members : List Member) : List Reply :=
  members.flatMap fun m => [.str m.name, .double m.score]

theorem length_elements (members : List Member) :
    (elements members).length = 2 * members.length := by
  induction members with
  | nil => rfl
  | cons m rest ih =>
    rw [elements, List.flatMap_cons, ← elements, List.length_append, ih]
    simp only [List.length_cons, List.length_nil]
    omega

/-- A range query lists the first members behind its offset, half as many as its limit says,
rounded up. -/
theorem InStep.handle_query {s : Store} (h : s.InStep) {score offset limit : String}
    {x : Binary64} {o l : Nat} (hscore : readScore? score = some x)
    (hoffset : readCount? offset = some o) (hlimit : readCount? limit = some l)
    (key name : String) :
    ∃ members, s.scores.Lists key ⟨x, name⟩ members ∧
      (s.handle ["zquery", key, score, name, offset, limit]).1 =
        .arr (elements ((members.drop o).take ((l + 1) / 2))) := by
  obtain ⟨members, hlists, hanswer⟩ := answers_query h key ⟨x, name⟩ o l
  refine ⟨members, hlists, ?_⟩
  simp only [handle, Request.ofWords, Request.ofQuery, hscore, hoffset, hlimit, hanswer]
  rfl

/-- A limit counts names and scores, and an answer holds whole members: it keeps to an even limit,
and to an odd one only if the members behind the offset come to an end before it. In either
case any larger limit gets the same answer and what follows it. -/
theorem only_odd_limits_are_passed (history : List (List String)) {score offset limit : String}
    {x : Binary64} {o l : Nat} (hscore : readScore? score = some x)
    (hoffset : readCount? offset = some o) (hlimit : readCount? limit = some l)
    (key name : String) :
    ∃ members items, (after history).scores.Lists key ⟨x, name⟩ members ∧
      ((after history).handle ["zquery", key, score, name, offset, limit]).1 = .arr items ∧
      items.length = 2 * min ((l + 1) / 2) (members.length - o) ∧
      (items.length ≤ l ↔ l % 2 = 0 ∨ members.length - o < (l + 1) / 2) ∧
      ∀ larger l', readCount? larger = some l' → l ≤ l' → ∃ more,
        ((after history).handle ["zquery", key, score, name, offset, larger]).1 =
          .arr (items ++ more) := by
  have hstep := inStep_after history
  obtain ⟨members, hlists, hanswer⟩ := hstep.handle_query hscore hoffset hlimit key name
  have hlength : (elements ((members.drop o).take ((l + 1) / 2))).length =
      2 * min ((l + 1) / 2) (members.length - o) := by
    rw [length_elements, List.length_take, List.length_drop]
  refine ⟨members, _, hlists, hanswer, hlength, ?_, fun larger l' hlarger hle => ?_⟩
  · rw [hlength]
    omega
  · obtain ⟨members', hlists', hanswer'⟩ := hstep.handle_query hscore hoffset hlarger key name
    obtain rfl := hlists'.eq hlists
    have htake : (members'.drop o).take ((l + 1) / 2) <+:
        (members'.drop o).take ((l' + 1) / 2) :=
      List.take_isPrefix_take.mpr (.inl (by omega))
    obtain ⟨more, hmore⟩ := htake.flatMap fun m => [Reply.str m.name, Reply.double m.score]
    exact ⟨more, by rw [hanswer', elements, ← hmore]; rfl⟩

/-- A limit of three gets four elements of three members, and a limit of seven gets them all. -/
theorem a_limit_of_three_is_passed_by_one :
    let history := [["zadd", "z", "1", "a"], ["zadd", "z", "2", "b"], ["zadd", "z", "3", "c"]]
    readScore? "1" = some (.ofRatio false 1 1) ∧ readCount? "0" = some 0 ∧
      readCount? "3" = some 3 ∧ readCount? "7" = some 7 ∧
      ∃ items more, items.length = 4 ∧ ¬ items.length ≤ 3 ∧
        ((after history).handle ["zquery", "z", "1", "", "0", "3"]).1 = .arr items ∧
        ((after history).handle ["zquery", "z", "1", "", "0", "7"]).1 = .arr (items ++ more) := by
  intro history
  have hscore : readScore? "1" = some (.ofRatio false 1 1) := by decide +kernel
  have hoffset : readCount? "0" = some 0 := by decide +kernel
  have hlimit : readCount? "3" = some 3 := by decide +kernel
  have hlarger : readCount? "7" = some 7 := by decide +kernel
  obtain ⟨members, items, hlists, hanswer, hlength, hfits, hmore⟩ :=
    only_odd_limits_are_passed history hscore hoffset hlimit "z" ""
  have hset : (after history).sets.find? "z" = some ⟨[("a", .ofRatio false 1 1),
      ("b", .ofRatio false 2 1), ("c", .ofRatio false 3 1)], [⟨.ofRatio false 1 1, "a"⟩,
      ⟨.ofRatio false 2 1, "b"⟩, ⟨.ofRatio false 3 1, "c"⟩]⟩ := by decide +kernel
  have hmembers : members.length = 3 := by
    rw [hlists.eq ((inStep_after history).lists hset _)]
    decide +kernel
  rw [hmembers] at hlength hfits
  obtain ⟨more, hmore⟩ := hmore "7" 7 hlarger (by decide)
  exact ⟨hscore, hoffset, hlimit, hlarger, items, more, hlength, by rw [hfits]; decide, hanswer,
    hmore⟩

/-- Not every answer keeps to its limit: a limit of one gets a name and its score. -/
theorem a_limit_of_one_gets_two_elements :
    readScore? "0" = some (.zero false) ∧ readCount? "0" = some 0 ∧ readCount? "1" = some 1 ∧
      ∃ items, ((after [["zadd", "z", "1", "a"]]).handle ["zquery", "z", "0", "", "0", "1"]).1 =
        .arr items ∧ ¬ items.length ≤ 1 := by
  refine ⟨by decide +kernel, by decide +kernel, by decide +kernel,
    [.str "a", .double (.ofRatio false 1 1)], ?_, by decide⟩
  rfl

end Store

end Transcript

-- The two indexes of a set describe one set of members. Whatever was asked of a store, the
-- order of a key lists the pairs of its names, each once; so a member that is taken out of
-- the order because its name has a score is always found there, also by a search that knows
-- members only by the order in which they stand.
import Mathlib.Data.List.Nodup
import Transcript.Proofs.SortedSet.Reference

namespace Transcript

namespace SortedSet

/-! ## Searching along the order -/

/-- A member put in its place by comparing alone: one that is neither before nor behind it
is taken for it. -/
def insertCompared (m : Member) : List Member → List Member
  | [] => [m]
  | x :: rest =>
    if m.before x then m :: x :: rest
    else if x.before m then x :: insertCompared m rest
    else x :: rest

/-- A member taken out by comparing alone, and whether it was found. -/
def removeCompared (m : Member) : List Member → Bool × List Member
  | [] => (false, [])
  | x :: rest =>
    if m.before x then (false, x :: rest)
    else if x.before m then
      let (found, others) := removeCompared m rest
      (found, x :: others)
    else (true, rest)

/-- Of two members neither of which is before the other, the scores have the same bits and
the names are the same. -/
theorem eq_of_not_before {a b : Member} (hab : ¬ a.before b = true) (hba : ¬ b.before a = true) :
    a = b := by
  rw [← Member.precedes_iff_before] at hab hba
  rcases Member.precedes_trichotomy a b with h | h | h
  · exact absurd h hab
  · exact h
  · exact absurd h hba

theorem not_before_self (m : Member) : ¬ m.before m = true := by
  rw [← Member.precedes_iff_before]
  exact Member.precedes_irrefl m

theorem insertCompared_eq (m : Member) (ordered : List Member) :
    insertCompared m ordered = insertOrdered m ordered := by
  induction ordered with
  | nil => rfl
  | cons x rest ih =>
    unfold insertCompared insertOrdered
    by_cases hmx : m = x
    · subst hmx
      simp [not_before_self]
    · by_cases hbefore : m.before x = true
      · simp [hmx, hbefore]
      · have hbehind : x.before m = true := by
          by_contra hbehind
          exact hmx (eq_of_not_before hbefore hbehind)
        simp [hmx, hbefore, hbehind, ih]

theorem removeCompared_eq (m : Member) {ordered : List Member}
    (h : ordered.Pairwise Member.Precedes) :
    removeCompared m ordered = removeOrdered m ordered := by
  induction ordered with
  | nil => rfl
  | cons x rest ih =>
    obtain ⟨hx, hrest⟩ := List.pairwise_cons.mp h
    unfold removeCompared
    by_cases hbefore : m.before x = true
    · -- Before the first member stands none, so the member is in no place further on.
      have hnot : m ∉ x :: rest := by
        rw [← Member.precedes_iff_before] at hbefore
        intro hmem
        rcases List.mem_cons.mp hmem with rfl | hmem
        · exact Member.precedes_irrefl _ hbefore
        · exact Member.precedes_irrefl _ (hbefore.trans (hx m hmem))
      rw [if_pos hbefore, removeOrdered, List.erase_of_not_mem hnot]
      simp [hnot]
    · by_cases hbehind : x.before m = true
      · have hne : x ≠ m := by
          rintro rfl
          exact not_before_self _ hbehind
        rw [if_neg hbefore, if_pos hbehind, ih hrest]
        simp [removeOrdered, hne, Ne.symm hne]
      · obtain rfl := eq_of_not_before hbefore hbehind
        simp [removeOrdered, hbefore]

/-! ## The names of a set -/

theorem nodup_names_add {s : SortedSet} (h : s.byName.names.Nodup) (name : String)
    (score : Binary64) : (s.add name score).2.byName.names.Nodup := by
  unfold add
  cases s.score? name <;> exact Keyed.nodup_names_put h name score

theorem nodup_names_remove {s : SortedSet} (h : s.byName.names.Nodup) (name : String) :
    (s.remove name).2.byName.names.Nodup := by
  unfold remove
  cases s.score? name with
  | none => exact h
  | some score => exact Keyed.nodup_names_erase h name

/-! ## One set of members -/

variable {s : SortedSet}

/-- The order lists the pairs of the names. -/
theorem InStep.perm_byName (h : s.InStep) (hnames : s.byName.names.Nodup) :
    s.ordered.Perm (s.byName.map fun (name, score) => ⟨score, name⟩) := by
  have hpairs : (s.byName.map fun (name, score) => (⟨score, name⟩ : Member)).Nodup := by
    refine List.Nodup.map ?_ hnames.of_map
    rintro ⟨n, v⟩ ⟨n', v'⟩ heq
    rw [Member.mk.injEq] at heq
    rw [heq.1, heq.2]
  rw [List.perm_ext_iff_of_nodup (nodup_of_pairwise h.sorted) hpairs]
  rintro ⟨score, name⟩
  rw [h.mem_iff, score?, ← Keyed.mem_iff_find? hnames, List.mem_map]
  constructor
  · intro hmem
    exact ⟨(name, score), hmem, rfl⟩
  · rintro ⟨⟨n, v⟩, hmem, heq⟩
    rw [Member.mk.injEq] at heq
    rw [← heq.1, ← heq.2]
    exact hmem

theorem InStep.perm_names (h : s.InStep) (hnames : s.byName.names.Nodup) :
    (s.ordered.map (·.name)).Perm s.byName.names := by
  have hperm := (h.perm_byName hnames).map (·.name)
  rwa [List.map_map] at hperm

/-- The member of a name is found, and what is left are the members of the other names. -/
theorem InStep.removeOrdered_eq (h : s.InStep) {name : String} {score : Binary64}
    (hs : s.score? name = some score) :
    removeOrdered ⟨score, name⟩ s.ordered = (true, s.ordered.filter fun m => m.name ≠ name) := by
  have hmem : ⟨score, name⟩ ∈ s.ordered := (h.mem_iff _).mpr hs
  have hleft : s.ordered.erase ⟨score, name⟩ = s.ordered.filter fun m => m.name ≠ name := by
    refine eq_of_pairwise_of_mem_iff (h.sorted.erase _) (h.sorted.filter _) fun x => ?_
    rw [h.mem_erase hs, List.mem_filter, decide_eq_true_eq, and_comm]
  rw [removeOrdered, hleft]
  simpa using hmem

/-- Both indexes describe one set of members. -/
structure DescribesOneSet (s : SortedSet) : Prop where
  /-- A pair stands in the order exactly if its name has a score with the same bits. -/
  mem_iff : ∀ score name, ⟨score, name⟩ ∈ s.ordered ↔
    ∃ held, s.byName.find? name = some held ∧ held.bits = score.bits
  /-- A name that has a score stands in the order once, and no other name does. -/
  count_name : ∀ name, (s.ordered.map (·.name)).count name =
    if (s.byName.find? name).isSome then 1 else 0
  /-- No name stands twice among the names, and there are as many pairs as names. -/
  size : s.byName.names.Nodup ∧ s.ordered.length = s.byName.length
  /-- A score that a name gives up is found in the order with that name and leaves it. -/
  found : ∀ name held, s.byName.find? name = some held →
    removeOrdered ⟨held, name⟩ s.ordered = (true, s.ordered.filter fun m => m.name ≠ name)
  /-- To compare members is enough to put them in the order and to find them there. -/
  compared : ∀ m, insertOrdered m s.ordered = insertCompared m s.ordered ∧
    removeOrdered m s.ordered = removeCompared m s.ordered

theorem InStep.describesOneSet (h : s.InStep) (hnames : s.byName.names.Nodup) :
    s.DescribesOneSet where
  mem_iff score name := by
    rw [h.mem_iff, score?]
    constructor
    · intro hscore
      exact ⟨score, hscore, rfl⟩
    · rintro ⟨⟨bits⟩, hheld, rfl⟩
      exact hheld
  count_name name := by
    rw [(h.perm_names hnames).count_eq]
    split
    · rename_i hsome
      exact List.count_eq_one_of_mem hnames ((Keyed.mem_names_iff _ name).mpr hsome)
    · rename_i hnone
      rw [List.count_eq_zero, Keyed.mem_names_iff]
      exact hnone
  size := ⟨hnames, by rw [(h.perm_byName hnames).length_eq, List.length_map]⟩
  found name held hheld := h.removeOrdered_eq hheld
  compared m := ⟨(insertCompared_eq m _).symm, (removeCompared_eq m h.sorted).symm⟩

end SortedSet

/-! ## Stores -/

namespace Store

theorem every_nodup_names (history : List (List String)) :
    (empty.handleAll history).2.Every fun set => set.byName.names.Nodup := by
  refine handleAll_keeps (fun s words hs => ?_) (every_empty _) history
  exact hs.answer List.nodup_nil (fun _ name score h => SortedSet.nodup_names_add h name score)
    (fun _ name h => SortedSet.nodup_names_remove h name) (.ofWords words)

/-- Whatever was asked of a new store, the two indexes of a key describe one set of members,
and to remove a name of that set is answered with one. -/
theorem the_two_indexes_describe_one_set (history : List (List String)) (key : String)
    (set : SortedSet) (hset : (empty.handleAll history).2.sets.find? key = some set) :
    set.DescribesOneSet ∧
      ∀ name, (set.byName.find? name).isSome →
        ((empty.handleAll history).2.handle ["zrem", key, name]).1 = .int 1 := by
  have hstep : (empty.handleAll history).2.InStep := inStep_empty.handleAll history
  have hnames := every_nodup_names history key set hset
  refine ⟨(hstep key set hset).describesOneSet hnames, fun name hname => ?_⟩
  have hscore : (empty.handleAll history).2.scores key name = set.byName.find? name := by
    rw [scores, hset]
    rfl
  have hsome : set.byName.find? name ≠ none := Option.isSome_iff_ne_none.mp hname
  simp only [handle, Request.ofWords]
  rw [(answers_remove hstep key name).1, hscore, if_neg hsome]

/-- Scores that differ in their sign alone replace each other, and values that stand for no
number are members like others. -/
theorem signed_zeros_and_no_numbers_describe_one_set :
    let history := [["zadd", "z", "0", "a"], ["zadd", "z", "-0", "a"], ["zadd", "z", "nan", "b"],
      ["zadd", "z", "-NaN", "b"], ["zadd", "z", "inf", "c"], ["zrem", "z", "c"]]
    let set : SortedSet := ⟨[("a", .zero true), ("b", .nan true)],
      [⟨.nan true, "b"⟩, ⟨.zero true, "a"⟩]⟩
    (empty.handleAll history).2.sets.find? "z" = some set ∧ set.DescribesOneSet ∧
      ((empty.handleAll history).2.handle ["zrem", "z", "b"]).1 = .int 1 := by
  intro history set
  have hset : (empty.handleAll history).2.sets.find? "z" = some set := by decide +kernel
  obtain ⟨hone, hremove⟩ := the_two_indexes_describe_one_set history "z" set hset
  exact ⟨hset, hone, hremove "b" rfl⟩

end Store

end Transcript

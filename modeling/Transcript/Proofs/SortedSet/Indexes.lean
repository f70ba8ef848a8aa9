-- The two indexes of a set and how they are kept in step. A set is in step when its order
-- holds exactly the members that its names have, each once and in its place; every change
-- keeps it so, and then a walk of the order is a listing of the scores.
import Transcript.SortedSet.Store
import Transcript.Proofs.SortedSet.Order

namespace Transcript

namespace SortedSet

/-! ## The ordered index -/

theorem mem_insertOrdered (m x : Member) (ordered : List Member) :
    x ∈ insertOrdered m ordered ↔ x = m ∨ x ∈ ordered := by
  induction ordered with
  | nil => simp [insertOrdered]
  | cons y rest ih =>
    unfold insertOrdered
    split
    · rename_i h
      subst h
      simp
    · split
      · simp
      · simp only [List.mem_cons, ih]
        exact or_left_comm

theorem pairwise_insertOrdered (m : Member) {ordered : List Member}
    (h : ordered.Pairwise Member.Precedes) :
    (insertOrdered m ordered).Pairwise Member.Precedes := by
  induction ordered with
  | nil => simp [insertOrdered]
  | cons y rest ih =>
    obtain ⟨hy, hrest⟩ := List.pairwise_cons.mp h
    unfold insertOrdered
    split
    · exact h
    · rename_i hne
      split
      · rename_i hmy
        rw [← Member.precedes_iff_before] at hmy
        refine List.pairwise_cons.mpr ⟨fun x hx => ?_, h⟩
        rcases List.mem_cons.mp hx with rfl | hx
        · exact hmy
        · exact hmy.trans (hy x hx)
      · rename_i hmy
        rw [← Member.precedes_iff_before] at hmy
        have hym : y.Precedes m := by
          rcases Member.precedes_trichotomy m y with h' | h' | h'
          · exact absurd h' hmy
          · exact absurd h' hne
          · exact h'
        refine List.pairwise_cons.mpr ⟨fun x hx => ?_, ih hrest⟩
        rcases (mem_insertOrdered m x rest).mp hx with rfl | hx
        · exact hym
        · exact hy x hx

theorem nodup_of_pairwise {ordered : List Member} (h : ordered.Pairwise Member.Precedes) :
    ordered.Nodup := by
  refine h.imp ?_
  rintro a _ hab rfl
  exact Member.precedes_irrefl a hab

/-- An order of members is settled by which members there are. -/
theorem eq_of_pairwise_of_mem_iff {as bs : List Member} (ha : as.Pairwise Member.Precedes)
    (hb : bs.Pairwise Member.Precedes) (h : ∀ x, x ∈ as ↔ x ∈ bs) : as = bs := by
  refine ((List.perm_ext_iff_of_nodup (nodup_of_pairwise ha) (nodup_of_pairwise hb)).mpr
    h).eq_of_pairwise (fun x y _ _ hxy hyx => ?_) ha hb
  exact absurd (hxy.trans hyx) (Member.precedes_irrefl x)

/-! ## In step -/

/-- Both indexes hold the same members, and the order is strict. -/
structure InStep (s : SortedSet) : Prop where
  sorted : s.ordered.Pairwise Member.Precedes
  mem_iff : ∀ m : Member, m ∈ s.ordered ↔ s.score? m.name = some m.score

theorem inStep_empty : empty.InStep where
  sorted := .nil
  mem_iff m := by simp [empty, score?]

/-- Taking the member of a name out of the order leaves the members of the other names. -/
theorem InStep.mem_erase {s : SortedSet} (h : s.InStep) {name : String} {score : Binary64}
    (hs : s.score? name = some score) (x : Member) :
    x ∈ s.ordered.erase ⟨score, name⟩ ↔ x.name ≠ name ∧ x ∈ s.ordered := by
  rw [(nodup_of_pairwise h.sorted).mem_erase_iff]
  refine and_congr_left fun hx => not_congr ⟨fun he => by rw [he], fun hn => ?_⟩
  have hscore := (h.mem_iff x).mp hx
  rw [hn, hs, Option.some.injEq] at hscore
  rw [hscore, ← hn]

/-- The order in which a member is put when its name is given a score. -/
theorem InStep.mem_without {s : SortedSet} (h : s.InStep) {name : String}
    (hs : s.score? name = none) (x : Member) :
    x ∈ s.ordered ↔ x.name ≠ name ∧ x ∈ s.ordered := by
  refine ⟨fun hx => ⟨fun hn => ?_, hx⟩, And.right⟩
  have hscore := (h.mem_iff x).mp hx
  rw [hn, hs] at hscore
  cases hscore

theorem inStep_insert {name : String} {score : Binary64} {byName : Keyed Binary64}
    {s : SortedSet} (h : s.InStep) {others : List Member}
    (hsorted : others.Pairwise Member.Precedes)
    (hothers : ∀ x, x ∈ others ↔ x.name ≠ name ∧ x ∈ s.ordered)
    (hname : byName = s.byName.put name score) :
    InStep ⟨byName, insertOrdered ⟨score, name⟩ others⟩ where
  sorted := pairwise_insertOrdered _ hsorted
  mem_iff x := by
    subst hname
    rw [mem_insertOrdered, hothers, h.mem_iff]
    simp only [score?, Keyed.find?_put]
    split
    · rename_i hn
      obtain ⟨xs, xn⟩ := x
      simp_all [eq_comm]
    · rename_i hn
      have hne : x ≠ ⟨score, name⟩ := fun he => hn (by rw [he])
      simp [hn, hne]

/-! ## Changes -/

variable {s : SortedSet}

theorem fst_add (s : SortedSet) (name : String) (score : Binary64) :
    (s.add name score).1 = (s.score? name).isNone := by
  unfold add
  cases s.score? name <;> rfl

theorem score?_add (s : SortedSet) (name : String) (score : Binary64) (other : String) :
    (s.add name score).2.score? other = if other = name then some score else s.score? other := by
  unfold add
  cases s.score? name <;> exact Keyed.find?_put ..

theorem InStep.add (h : s.InStep) (name : String) (score : Binary64) :
    (s.add name score).2.InStep := by
  unfold SortedSet.add
  cases hs : s.score? name with
  | none => exact inStep_insert h h.sorted (h.mem_without hs) rfl
  | some old => exact inStep_insert h (h.sorted.erase _) (h.mem_erase hs) rfl

theorem InStep.fst_remove (h : s.InStep) (name : String) :
    (s.remove name).1 = (s.score? name).isSome := by
  unfold remove
  cases hs : s.score? name with
  | none => rfl
  | some score =>
    have hmem := (h.mem_iff ⟨score, name⟩).mpr hs
    simpa [removeOrdered] using hmem

theorem score?_remove (s : SortedSet) (name other : String) :
    (s.remove name).2.score? other = if other = name then none else s.score? other := by
  unfold remove
  split
  · exact Keyed.find?_erase ..
  · rename_i hs
    split
    · rename_i ho
      rw [ho]
      exact hs
    · rfl

theorem InStep.remove (h : s.InStep) (name : String) : (s.remove name).2.InStep := by
  unfold SortedSet.remove
  cases hs : s.score? name with
  | none => exact h
  | some score =>
    refine ⟨h.sorted.erase _, fun x => ?_⟩
    rw [show x ∈ (removeOrdered ⟨score, name⟩ s.ordered).2 ↔ _ from h.mem_erase hs x, h.mem_iff]
    simp only [score?, Keyed.find?_erase]
    split <;> simp_all

/-! ## Ranges -/

theorem takeElements_eq (limit out : Nat) (members : List Member) :
    takeElements limit out members = members.take ((limit - out + 1) / 2) := by
  induction members generalizing out with
  | nil => simp [takeElements]
  | cons m rest ih =>
    unfold takeElements
    split
    · rename_i h
      rw [show (limit - out + 1) / 2 = 0 by omega, List.take_zero]
    · rename_i h
      rw [ih, show (limit - out + 1) / 2 = (limit - (out + 2) + 1) / 2 + 1 by omega,
        List.take_succ_cons]

theorem query_eq (s : SortedSet) (place : Member) (offset limit : Nat) :
    s.query place offset limit =
      ((s.membersFrom place).drop offset).take ((limit + 1) / 2) := by
  rw [query, takeElements_eq, Nat.sub_zero]

theorem InStep.pairwise_membersFrom (h : s.InStep) (place : Member) :
    (s.membersFrom place).Pairwise Member.Precedes :=
  h.sorted.sublist (List.dropWhile_sublist _)

theorem mem_dropWhile_before {ordered : List Member} (h : ordered.Pairwise Member.Precedes)
    (place x : Member) :
    x ∈ ordered.dropWhile (fun m => m.before place) ↔ x ∈ ordered ∧ ¬ x.Precedes place := by
  induction ordered with
  | nil => simp
  | cons m rest ih =>
    obtain ⟨hm, hrest⟩ := List.pairwise_cons.mp h
    rw [List.dropWhile_cons]
    split
    · rename_i hbefore
      rw [← Member.precedes_iff_before] at hbefore
      rw [ih hrest, List.mem_cons]
      constructor
      · exact fun hx => ⟨.inr hx.1, hx.2⟩
      · rintro ⟨rfl | hx, hplace⟩
        · exact absurd hbefore hplace
        · exact ⟨hx, hplace⟩
    · rename_i hbefore
      rw [← Member.precedes_iff_before] at hbefore
      refine ⟨fun hx => ⟨hx, fun hplace => ?_⟩, And.left⟩
      rcases List.mem_cons.mp hx with rfl | hx
      · exact hbefore hplace
      · exact hbefore ((hm x hx).trans hplace)

/-- A range holds the members at its place or after it. -/
theorem InStep.mem_membersFrom (h : s.InStep) (place x : Member) :
    x ∈ s.membersFrom place ↔
      s.score? x.name = some x.score ∧ (x = place ∨ place.Precedes x) := by
  rw [membersFrom, mem_dropWhile_before h.sorted, h.mem_iff]
  refine and_congr_right fun _ => ⟨fun hx => ?_, ?_⟩
  · rcases Member.precedes_trichotomy x place with h' | h' | h'
    · exact absurd h' hx
    · exact .inl h'
    · exact .inr h'
  · rintro (rfl | hplace) hx
    · exact Member.precedes_irrefl _ hx
    · exact Member.precedes_irrefl _ (hx.trans hplace)

end SortedSet

/-! ## Stores -/

namespace Store

/-- Every set of the store has a property. -/
def Every (P : SortedSet → Prop) (s : Store) : Prop :=
  ∀ key set, s.sets.find? key = some set → P set

theorem every_empty (P : SortedSet → Prop) : empty.Every P := by
  intro key set h
  simp [empty] at h

namespace Every

variable {P : SortedSet → Prop} {s : Store}

theorem getD (h : s.Every P) (hempty : P .empty) (key : String) :
    P ((s.sets.find? key).getD .empty) := by
  cases hset : s.sets.find? key with
  | none => exact hempty
  | some set => exact h key set hset

theorem put (h : s.Every P) (key : String) {set : SortedSet} (hset : P set) :
    Every P ⟨s.sets.put key set⟩ := by
  intro other found hfound
  rw [Keyed.find?_put] at hfound
  split at hfound
  · rw [← Option.some.inj hfound]
    exact hset
  · exact h other found hfound

/-- What the changes of a set keep, the requests to a store keep. -/
theorem answer (h : s.Every P) (hempty : P .empty)
    (hadd : ∀ set name score, P set → P (set.add name score).2)
    (hremove : ∀ set name, P set → P (set.remove name).2) (request : Request) :
    (s.answer request).2.Every P := by
  cases request with
  | add key score name => exact h.put key (hadd _ name score (h.getD hempty key))
  | remove key name =>
    simp only [Store.answer]
    split
    · rename_i set hset
      exact h.put key (hremove set name (h key set hset))
    · exact h
  | lookup key name =>
    simp only [Store.answer]
    split <;> exact h
  | query key place offset limit =>
    simp only [Store.answer]
    split <;> exact h
  | refused reason => exact h

end Every

/-- Every set of the store is in step. -/
def InStep (s : Store) : Prop := ∀ key set, s.sets.find? key = some set → set.InStep

theorem inStep_empty : empty.InStep := every_empty _

theorem InStep.answer {s : Store} (h : s.InStep) (request : Request) :
    (s.answer request).2.InStep :=
  Every.answer h SortedSet.inStep_empty (fun _ name score hset => hset.add name score)
    (fun _ name hset => hset.remove name) request

/-- Answers requests one after the other. -/
def handleAll (s : Store) : List (List String) → List Reply × Store
  | [] => ([], s)
  | words :: rest =>
    let (reply, s) := s.handle words
    let (replies, s) := s.handleAll rest
    (reply :: replies, s)

/-- What one request keeps, any requests keep. -/
theorem handleAll_keeps {Q : Store → Prop}
    (hstep : ∀ s words, Q s → Q (Store.handle s words).2) {s : Store} (h : Q s)
    (history : List (List String)) : Q (s.handleAll history).2 := by
  induction history generalizing s with
  | nil => exact h
  | cons words rest ih => exact ih (hstep s words h)

/-- Whatever is asked of a store, and in whatever order, its sets stay in step. -/
theorem InStep.handleAll {s : Store} (h : s.InStep) (history : List (List String)) :
    (s.handleAll history).2.InStep :=
  handleAll_keeps (fun _ words hs => hs.answer (.ofWords words)) h history

/-- The store that a history leaves. -/
def after (history : List (List String)) : Store := (empty.handleAll history).2

theorem inStep_after (history : List (List String)) : (after history).InStep :=
  inStep_empty.handleAll history

end Store

end Transcript

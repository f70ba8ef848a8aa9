-- What can be told of the past of a store. Two stores in step whose scores agree under some
-- keys answer every request about these keys alike and go on to agree, however their indexes
-- came about; so lookups show all that any further request can show.
import Transcript.Proofs.SortedSet.Clients
import Transcript.Proofs.SortedSet.Reference

namespace Transcript

theorem Scores.Lists.congr {m m' : Scores} {key : String} (h : m key = m' key) {place : Member}
    {members : List Member} (hm : m.Lists key place members) : m'.Lists key place members where
  sorted := hm.sorted
  mem_iff x := by
    rw [hm.mem_iff, h]

namespace Store

/-! ## Lookups -/

/-- A lookup shows the score of a name, to the bit, and whether there is one. -/
theorem lookups_eq_iff (s t : Store) (key name : String) :
    (s.handle ["zscore", key, name]).1 = (t.handle ["zscore", key, name]).1 ↔
      s.scores key name = t.scores key name := by
  simp only [handle, Request.ofWords, answer_lookup]
  cases s.scores key name <;> cases t.scores key name <;> simp

theorem lookup_eq_nil_iff (s : Store) (key name : String) :
    (s.handle ["zscore", key, name]).1 = .nil ↔ s.scores key name = none := by
  simp only [handle, Request.ofWords, answer_lookup]
  cases s.scores key name <;> simp

/-! ## Stores of the same scores -/

/-- Two stores hold the same scores under the keys of a kind. -/
def ScoreAlike (keys : String → Prop) (s t : Store) : Prop :=
  ∀ key, keys key → s.scores key = t.scores key

variable {keys : String → Prop} {s t : Store}

theorem scoreAlike_of_lookups
    (h : ∀ key, keys key → ∀ name,
      (s.handle ["zscore", key, name]).1 = (t.handle ["zscore", key, name]).1) :
    ScoreAlike keys s t := by
  intro key hkey
  funext name
  exact (lookups_eq_iff s t key name).mp (h key hkey name)

theorem AgreeOn.scoreAlike (h : AgreeOn keys s t) : ScoreAlike keys s t := by
  intro key hkey
  funext name
  rw [scores_apply, scores_apply, h key hkey]

theorem scoreAlike_of_set {key name : String} {score : Option Binary64} {s' t' : Store}
    (h : ScoreAlike keys s t) (hs : s'.scores = s.scores.set key name score)
    (ht : t'.scores = t.scores.set key name score) : ScoreAlike keys s' t' := by
  intro other hother
  funext n
  simp only [hs, ht, Scores.set, h other hother]

/-- A request about a key of the kind is answered alike, and the scores still agree. The scores
settle the listing, so both walks are one. -/
theorem ScoreAlike.answer (h : ScoreAlike keys s t) (hs : s.InStep) (ht : t.InStep)
    {request : Request} (hkey : ∀ key, request.key? = some key → keys key) :
    (s.answer request).1 = (t.answer request).1 ∧
      ScoreAlike keys (s.answer request).2 (t.answer request).2 := by
  cases request with
  | add key score name =>
    obtain ⟨hreply, hscores⟩ := answers_add s key name score
    obtain ⟨hreply', hscores'⟩ := answers_add t key name score
    rw [hreply, hreply', h key (hkey key rfl)]
    exact ⟨rfl, scoreAlike_of_set h hscores hscores'⟩
  | remove key name =>
    obtain ⟨hreply, hscores⟩ := answers_remove hs key name
    obtain ⟨hreply', hscores'⟩ := answers_remove ht key name
    rw [hreply, hreply', h key (hkey key rfl)]
    exact ⟨rfl, scoreAlike_of_set h hscores hscores'⟩
  | lookup key name =>
    rw [answer_lookup, answer_lookup, h key (hkey key rfl)]
    exact ⟨rfl, h⟩
  | query key place offset limit =>
    obtain ⟨members, hlists, hanswer⟩ := answers_query hs key place offset limit
    obtain ⟨members', hlists', hanswer'⟩ := answers_query ht key place offset limit
    rw [hanswer, hanswer', (hlists.congr (h key (hkey key rfl))).eq hlists']
    exact ⟨rfl, h⟩
  | refused reason => exact ⟨rfl, h⟩

/-- Requests about keys of the kind are answered alike. -/
theorem ScoreAlike.replies_eq (h : ScoreAlike keys s t) (hs : s.InStep) (ht : t.InStep)
    {further : List (List String)}
    (hkeys : ∀ words ∈ further, ∀ key, keyOf? words = some key → keys key) :
    (s.handleAll further).1 = (t.handleAll further).1 := by
  induction further generalizing s t with
  | nil => rfl
  | cons words rest ih =>
    rw [List.forall_mem_cons] at hkeys
    have hkey : ∀ key, (Request.ofWords words).key? = some key → keys key := fun key hkey =>
      hkeys.1 key (keyOf?_of_key? hkey)
    obtain ⟨hreply, hnext⟩ := h.answer hs ht hkey
    have hreplies := ih hnext (hs.answer _) (ht.answer _) hkeys.2
    exact congrArg₂ List.cons hreply hreplies

/-! ## A key that was never named -/

/-- The requests that do not name a key. -/
def without (key : String) (history : List (List String)) : List (List String) :=
  history.filter fun words => keyOf? words ≠ some key

theorem agreeOn_without (s : Store) (key : String) (history : List (List String)) :
    AgreeOn (· ≠ key) (s.handleAll history).2 (s.handleAll (without key history)).2 := by
  let session := history.map fun words => (decide (keyOf? words = some key), words)
  have hall : session.map (·.2) = history := by simp [session, Function.comp_def]
  have hpart : partOf false session = without key history := by
    simp [session, partOf, without, List.filter_map, Function.comp_def]
  have hself : AgreeOn (· ≠ key) s s := fun _ _ => rfl
  have hown : ∀ x ∈ session, x.1 = false → ∀ other, keyOf? x.2 = some other → other ≠ key := by
    rintro ⟨named, words⟩ hx rfl other hother rfl
    simp [session, hother] at hx
  have hothers : ∀ x ∈ session, x.1 ≠ false → ∀ other, keyOf? x.2 = some other →
      ¬ other ≠ key := by
    rintro ⟨named, words⟩ hx hnamed other hother hne
    simp only [session, List.mem_map, Prod.mk.injEq] at hx
    obtain ⟨_, -, rfl, rfl⟩ := hx
    simp [hother, hne] at hnamed
  have hsession := hself.session hown hothers
  rw [hall, hpart] at hsession
  exact hsession.2

theorem find?_handleAll_of_not_named {key : String} {history : List (List String)}
    (h : ∀ words ∈ history, keyOf? words ≠ some key) :
    (s.handleAll history).2.sets.find? key = s.sets.find? key := by
  induction history generalizing s with
  | nil => rfl
  | cons words rest ih =>
    rw [List.forall_mem_cons] at h
    have hsame : AgreeOn (· = key) (s.handle words).2 s := by
      refine agreeOn_answer fun other hother => ?_
      rintro rfl
      exact h.1 (keyOf?_of_key? hother)
    exact (ih h.2).trans (hsame key rfl)

/-- A key that no request named is not there. -/
theorem find?_after_without (key : String) (history : List (List String)) :
    (after (without key history)).sets.find? key = none :=
  find?_handleAll_of_not_named fun words hwords => by
    simpa using (List.mem_filter.mp hwords).2

theorem scoreAlike_without {key : String} {history : List (List String)}
    (h : ∀ name, (after history).scores key name = none) :
    ScoreAlike (fun _ => True) (after history) (after (without key history)) := by
  intro other _
  by_cases hother : other = key
  · subst hother
    funext name
    rw [h, scores_eq_none (find?_after_without other history)]
  · exact (agreeOn_without empty key history).scoreAlike other hother

/-! ## Observations -/

/-- Only scores are observable. If after two histories every lookup gives the same, to the bit,
then all further requests are answered alike. A key without members cannot be told from one
that was never named. And where the lookups under one key agree, so does every page of it,
whatever came before. -/
theorem only_scores_are_observable (history other : List (List String)) :
    ((∀ key name, ((after history).handle ["zscore", key, name]).1 =
        ((after other).handle ["zscore", key, name]).1) →
      ∀ further, ((after history).handleAll further).1 = ((after other).handleAll further).1) ∧
    (∀ key, (∀ name, ((after history).handle ["zscore", key, name]).1 = .nil) →
      (after (without key history)).sets.find? key = none ∧
        ∀ further, ((after history).handleAll further).1 =
          ((after (without key history)).handleAll further).1) ∧
    (∀ key, (∀ name, ((after history).handle ["zscore", key, name]).1 =
        ((after other).handle ["zscore", key, name]).1) →
      ∀ score name offset limit,
        ((after history).handle ["zquery", key, score, name, offset, limit]).1 =
          ((after other).handle ["zquery", key, score, name, offset, limit]).1) := by
  have hs := inStep_after history
  have ht := inStep_after other
  refine ⟨fun h further => ?_, fun key h => ?_, fun key h score name offset limit => ?_⟩
  · have halike : ScoreAlike (fun _ => True) (after history) (after other) :=
      scoreAlike_of_lookups fun key _ => h key
    exact halike.replies_eq hs ht fun _ _ _ _ => trivial
  · refine ⟨find?_after_without key history, fun further => ?_⟩
    have hnone : ∀ name, (after history).scores key name = none := fun name =>
      (lookup_eq_nil_iff (after history) key name).mp (h name)
    exact (scoreAlike_without hnone).replies_eq hs (inStep_after (without key history))
      fun _ _ _ _ => trivial
  · have halike : ScoreAlike (· = key) (after history) (after other) := by
      refine scoreAlike_of_lookups ?_
      rintro _ rfl
      exact h
    refine (halike.answer hs ht fun named hnamed => ?_).1
    exact (Option.some.inj (keyOf?_of_key? hnamed)).symm

/-- A past of more changes, with a key that was emptied, is not seen: not in what its indexes
hold, in which the stores differ, but in no answer. -/
theorem a_longer_past_is_not_observable :
    let history := [["zadd", "z", "2", "b"], ["zadd", "z", "1", "a"], ["zadd", "z", "-0", "b"],
      ["zadd", "y", "nan", "c"], ["zrem", "y", "c"]]
    let other := [["zadd", "z", "1", "a"], ["zadd", "z", "-0", "b"]]
    let s := after history
    let t := after other
    s ≠ t ∧
      (∀ key name, (s.handle ["zscore", key, name]).1 = (t.handle ["zscore", key, name]).1) ∧
      (∀ further, (s.handleAll further).1 = (t.handleAll further).1) ∧
      (∀ further, (s.handleAll further).1 =
        ((after (without "y" history)).handleAll further).1) ∧
      (s.handle ["zquery", "z", "-inf", "", "0", "4"]).1 =
        (t.handle ["zquery", "z", "-inf", "", "0", "4"]).1 := by
  intro history other s t
  have hs : s = ⟨[("z", ⟨[("b", .zero true), ("a", .ofRatio false 1 1)],
      [⟨.zero true, "b"⟩, ⟨.ofRatio false 1 1, "a"⟩]⟩), ("y", .empty)]⟩ := by decide +kernel
  have ht : t = ⟨[("z", ⟨[("a", .ofRatio false 1 1), ("b", .zero true)],
      [⟨.zero true, "b"⟩, ⟨.ofRatio false 1 1, "a"⟩]⟩)]⟩ := by decide +kernel
  have hscores : ∀ key name, s.scores key name = t.scores key name := by
    intro key name
    by_cases hkey : key = "z"
    · subst hkey
      by_cases ha : name = "a" <;>
        simp [hs, ht, scores, Keyed.find?_cons, SortedSet.score?, ha]
    · by_cases hy : key = "y" <;>
        simp [hs, ht, scores, Keyed.find?_cons, SortedSet.score?, SortedSet.empty, hkey, hy]
  have hlookups : ∀ key name,
      (s.handle ["zscore", key, name]).1 = (t.handle ["zscore", key, name]).1 := fun key name =>
    (lookups_eq_iff s t key name).mpr (hscores key name)
  have hemptied : ∀ name, (s.handle ["zscore", "y", name]).1 = .nil := fun name => by
    rw [lookup_eq_nil_iff, hscores]
    simp [ht, scores, Keyed.find?_cons]
  obtain ⟨hall, hkey, hpages⟩ := only_scores_are_observable history other
  refine ⟨?_, hlookups, hall hlookups, (hkey "y" hemptied).2,
    hpages "z" (hlookups "z") "-inf" "" "0" "4"⟩
  rw [hs, ht]
  decide

end Store

end Transcript

-- Requests that leave no trace. A store in step is the same to the last pair after a request
-- that it refuses, after one that only asks, and after one that finds nothing to remove; so
-- such requests can be left out of any session without a change for the others.
import Transcript.Proofs.SortedSet.Clients
import Transcript.Proofs.SortedSet.Reference

namespace Transcript

theorem SortedSet.remove_of_score? {s : SortedSet} {name : String} (h : s.score? name = none) :
    s.remove name = (false, s) := by
  rw [remove, h]

namespace Store

/-! ## One request -/

/-- A request leaves no trace in a store: it is refused, it only asks, or it finds nothing to
remove. -/
inductive Traceless (s : Store) (words : List String) : Prop where
  | refused (reason : String) : (s.handle words).1 = .err reason → Traceless s words
  | lookup : words.head? = some "zscore" → Traceless s words
  | query : words.head? = some "zquery" → Traceless s words
  | missed : words.head? = some "zrem" → (s.handle words).1 = .int 0 → Traceless s words

/-- The word that asks for a request. -/
def Request.command? : Request → Option String
  | .add .. => some "zadd"
  | .remove .. => some "zrem"
  | .lookup .. => some "zscore"
  | .query .. => some "zquery"
  | .refused _ => none

theorem command?_ofQuery {key score name offset limit command : String}
    (h : (Request.ofQuery key score name offset limit).command? = some command) :
    "zquery" = command := by
  unfold Request.ofQuery at h
  split at h
  · exact Option.some.inj h
  · cases h

/-- A request is asked for by the first of its words. -/
theorem head?_of_command? {words : List String} {command : String}
    (h : (Request.ofWords words).command? = some command) : words.head? = some command := by
  unfold Request.ofWords at h
  split at h
  · split at h
    · exact h
    · cases h
  · exact h
  · exact h
  · rw [← command?_ofQuery h]
    rfl
  · cases h

variable {s : Store}

theorem answer_remove_of_missed (hs : s.InStep) {key name : String}
    (h : (s.answer (.remove key name)).1 = .int 0) : (s.answer (.remove key name)).2 = s := by
  rw [(answers_remove hs key name).1] at h
  have hnone : s.scores key name = none := by
    by_contra hsome
    rw [if_neg hsome] at h
    cases h
  simp only [answer]
  split
  · rename_i set hset
    have hmissing : set.score? name = none := by simpa [scores, hset] using hnone
    rw [SortedSet.remove_of_score? hmissing]
    simp only [Keyed.put_of_find? hset]
  · rfl

/-- A request that adds leaves a trace, and so does one that removes, unless it misses. -/
theorem Traceless.request {words : List String} (h : s.Traceless words) :
    (∀ key score name, Request.ofWords words ≠ .add key score name) ∧
      ∀ key name, Request.ofWords words = .remove key name → (s.handle words).1 = .int 0 := by
  constructor
  · intro key score name hadd
    have hhead : words.head? = some "zadd" := head?_of_command? (by rw [hadd]; rfl)
    cases h with
    | refused reason hreply =>
      rw [handle, hadd, (answers_add s key name score).1] at hreply
      cases hreply
    | lookup hword | query hword | missed hword =>
      rw [hhead] at hword
      simp at hword
  · intro key name hremove
    have hhead : words.head? = some "zrem" := head?_of_command? (by rw [hremove]; rfl)
    cases h with
    | refused reason hreply =>
      rw [handle, hremove, answer] at hreply
      split at hreply <;> cases hreply
    | lookup hword | query hword =>
      rw [hhead] at hword
      simp at hword
    | missed hword hreply => exact hreply

theorem Traceless.handle_eq (hs : s.InStep) {words : List String} (h : s.Traceless words) :
    (s.handle words).2 = s := by
  obtain ⟨hadd, hremove⟩ := h.request
  unfold handle at hremove ⊢
  cases hrequest : Request.ofWords words with
  | add key score name => exact absurd hrequest (hadd key score name)
  | remove key name =>
    rw [hrequest] at hremove
    exact answer_remove_of_missed hs (hremove key name rfl)
  | lookup key name => rw [answer_lookup]
  | query key place offset limit =>
    obtain ⟨members, -, hanswer⟩ := answers_query hs key place offset limit
    rw [hanswer]
  | refused reason => rfl

/-! ## Sessions -/

theorem snd_handleAll_cons (s : Store) (words : List String) (rest : List (List String)) :
    (s.handleAll (words :: rest)).2 = ((s.handle words).2.handleAll rest).2 := rfl

/-- Every request of a session that is not kept leaves no trace where it stands. -/
def OmitsTraceless (s : Store) (session : List (Bool × List String)) : Prop :=
  ∀ i words, session[i]? = some (false, words) →
    (s.handleAll ((session.take i).map (·.2))).2.Traceless words

theorem OmitsTraceless.cons {kept : Bool} {words : List String}
    {rest : List (Bool × List String)} (h : s.OmitsTraceless ((kept, words) :: rest)) :
    (kept = false → s.Traceless words) ∧ (s.handle words).2.OmitsTraceless rest := by
  constructor
  · rintro rfl
    exact h 0 words rfl
  · intro i others hi
    exact h (i + 1) others hi

/-- What is kept of a session is answered as if nothing had been left out. By induction on the
session: a request that is left out takes the store nowhere. -/
theorem OmitsTraceless.session (hs : s.InStep) {session : List (Bool × List String)}
    (h : s.OmitsTraceless session) :
    partOf true (s.repliesOf session) = (s.handleAll (partOf true session)).1 ∧
      (s.handleAll (session.map (·.2))).2 = (s.handleAll (partOf true session)).2 := by
  induction session generalizing s with
  | nil => exact ⟨rfl, rfl⟩
  | cons request rest ih =>
    obtain ⟨kept, words⟩ := request
    obtain ⟨htraceless, hrest⟩ := h.cons
    have hnext : (s.handle words).2.InStep := hs.answer (.ofWords words)
    obtain ⟨hreplies, hfinal⟩ := ih hnext hrest
    have hall : s.repliesOf ((kept, words) :: rest) =
        (kept, (s.handle words).1) :: (s.handle words).2.repliesOf rest := rfl
    cases kept with
    | true =>
      rw [hall, partOf_cons_self, partOf_cons_self, hreplies]
      exact ⟨rfl, hfinal⟩
    | false =>
      have hsame : (s.handle words).2 = s := (htraceless rfl).handle_eq hs
      have hne : false ≠ true := by decide
      rw [hall, partOf_cons_of_ne hne, partOf_cons_of_ne hne, hreplies]
      rw [hsame] at hfinal ⊢
      exact ⟨rfl, by rw [← hfinal, List.map_cons, snd_handleAll_cons, hsame]⟩

/-- Requests that are refused, that only ask or that find nothing to remove leave no trace:
after any history the store is the same after one of them as before, and to leave any of them
out of what follows changes no reply to the others, and not the store in the end. -/
theorem requests_without_effect_leave_no_trace (history : List (List String)) :
    (∀ words, (after history).Traceless words →
      ((after history).handle words).2 = after history) ∧
    ∀ session, (after history).OmitsTraceless session →
      partOf true ((after history).repliesOf session) =
          ((after history).handleAll (partOf true session)).1 ∧
        ((after history).handleAll (session.map (·.2))).2 =
          ((after history).handleAll (partOf true session)).2 := by
  have hs := inStep_after history
  exact ⟨fun words h => h.handle_eq hs, fun session h => h.session hs⟩

/-- A score that cannot be read, a name that is not there, a key that is not there, an unknown
command and a lookup: none of them is missed. -/
theorem refusals_misses_and_lookups_are_not_missed :
    let history := [["zadd", "z", "1", "a"], ["zadd", "y", "2", "b"], ["zrem", "y", "b"]]
    let s := after history
    let session := [(true, ["zadd", "z", "2", "b"]), (false, ["zadd", "z", "x", "c"]),
      (false, ["zrem", "y", "b"]), (true, ["zrem", "z", "a"]), (false, ["zrem", "x", "a"]),
      (false, ["zscan", "z"]), (false, ["zquery", "z", "nan"]), (true, ["zscore", "z", "a"])]
    s.Traceless ["zrem", "y", "b"] ∧ (s.handle ["zrem", "y", "b"]).2 = s ∧
      s.OmitsTraceless session ∧
      (s.handleAll [["zadd", "z", "2", "b"], ["zrem", "z", "a"], ["zscore", "z", "a"]]).1 =
        [.int 1, .int 1, .nil] ∧
      partOf true (s.repliesOf session) = [.int 1, .int 1, .nil] := by
  intro history s session
  obtain ⟨hstep, hsession⟩ := requests_without_effect_leave_no_trace history
  have hmissed : s.Traceless ["zrem", "y", "b"] := .missed rfl rfl
  have homits : s.OmitsTraceless session := by
    intro i words hi
    match i, hi with
    | 1, rfl => exact .refused "expect fp number" rfl
    | 2, rfl => exact .missed rfl rfl
    | 4, rfl => exact .missed rfl rfl
    | 5, rfl => exact .refused "unknown command" rfl
    | 6, rfl => exact .query rfl
    | i + 8, hi => cases hi
  have hreplies : (s.handleAll (partOf true session)).1 = [.int 1, .int 1, .nil] := rfl
  exact ⟨hmissed, hstep _ hmissed, homits, hreplies, (hsession session homits).1.trans hreplies⟩

end Store

end Transcript

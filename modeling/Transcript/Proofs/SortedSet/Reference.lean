-- What a store is for its clients: a map from keys to names to scores, and nothing more.
-- The answers to any requests are settled by that map alone, with a range listed in the
-- order of scores and names; and the store, which keeps two indexes a key, gives just them.
import Transcript.Proofs.SortedSet.Indexes

namespace Transcript

/-! ## The plain map -/

/-- The scores of names by key. -/
abbrev Scores := String → String → Option Binary64

namespace Scores

def none : Scores := fun _ _ => .none

/-- The map with another score for one name of one key, or with none for it. -/
def set (m : Scores) (key name : String) (score : Option Binary64) : Scores := fun k n =>
  if k = key ∧ n = name then score else m k n

/-- The members are those of the key at a place or after it, in strict order. -/
structure Lists (m : Scores) (key : String) (place : Member) (members : List Member) : Prop where
  sorted : members.Pairwise Member.Precedes
  mem_iff : ∀ x, x ∈ members ↔ m key x.name = some x.score ∧ (x = place ∨ place.Precedes x)

/-- What the map answers to the words of a request, and the map after it. -/
def Answers (m : Scores) (words : List String) (reply : Reply) (after : Scores) : Prop :=
  match words with
  | ["zadd", key, score, name] =>
    match Store.readScore? score with
    | some x =>
      reply = .int (if m key name = .none then 1 else 0) ∧ after = m.set key name (some x)
    | .none => reply = .err "expect fp number" ∧ after = m
  | ["zrem", key, name] =>
    reply = .int (if m key name = .none then 0 else 1) ∧ after = m.set key name .none
  | ["zscore", key, name] =>
    reply = (match m key name with
      | some x => .double x
      | .none => .nil) ∧ after = m
  | ["zquery", key, score, name, offset, limit] =>
    match Store.readScore? score, Store.readCount? offset, Store.readCount? limit with
    | some x, some offset, some limit =>
      ∃ members, m.Lists key ⟨x, name⟩ members ∧ after = m ∧
        reply = .arr (((members.drop offset).take ((limit + 1) / 2)).flatMap fun member =>
          [.str member.name, .double member.score])
    | _, _, _ => reply = .err "expect numeric arguments" ∧ after = m
  | _ => reply = .err "unknown command" ∧ after = m

/-- What the map answers to requests one after the other, and the map after them. -/
inductive Replies : Scores → List (List String) → List Reply → Scores → Prop where
  | nil {m : Scores} : Replies m [] [] m
  | cons {m after final : Scores} {words : List String} {rest : List (List String)}
      {reply : Reply} {replies : List Reply} : m.Answers words reply after →
      Replies after rest replies final → Replies m (words :: rest) (reply :: replies) final

theorem set_eq_self {m : Scores} {key name : String} (h : m key name = .none) :
    m.set key name .none = m := by
  funext k n
  unfold Scores.set
  split
  · rename_i hkn
    rw [hkn.1, hkn.2, h]
  · rfl

theorem Lists.eq {m : Scores} {key : String} {place : Member} {xs ys : List Member}
    (hx : m.Lists key place xs) (hy : m.Lists key place ys) : xs = ys :=
  SortedSet.eq_of_pairwise_of_mem_iff hx.sorted hy.sorted fun x =>
    (hx.mem_iff x).trans (hy.mem_iff x).symm

end Scores

/-! ## The map of a store -/

namespace Store

/-- The map that the store stands for. -/
def scores (s : Store) : Scores := fun key name =>
  (s.sets.find? key).bind fun set => set.score? name

theorem scores_empty : empty.scores = Scores.none := rfl

theorem scores_apply (s : Store) (key name : String) :
    s.scores key name = ((s.sets.find? key).getD .empty).score? name := by
  unfold scores
  cases s.sets.find? key <;> rfl

theorem scores_eq_none {s : Store} {key : String} (h : s.sets.find? key = none) (name : String) :
    s.scores key name = none := by
  simp [scores, h]

/-- A set put under a key in which one name has another score. -/
theorem scores_put {s : Store} {key name : String} {set : SortedSet} {score : Option Binary64}
    (h : ∀ n, set.score? n = if n = name then score else s.scores key n) :
    scores ⟨s.sets.put key set⟩ = s.scores.set key name score := by
  funext k n
  simp only [scores, Keyed.find?_put, Scores.set]
  by_cases hk : k = key
  · simp only [hk, if_true, Option.bind_some, true_and, h]
    rfl
  · simp [hk]

/-- A walk of the order lists the scores. -/
theorem InStep.lists {s : Store} (h : s.InStep) {key : String} {set : SortedSet}
    (hset : s.sets.find? key = some set) (place : Member) :
    s.scores.Lists key place (set.membersFrom place) where
  sorted := (h key set hset).pairwise_membersFrom place
  mem_iff x := by
    rw [(h key set hset).mem_membersFrom]
    simp [scores, hset]

theorem lists_nil {s : Store} {key : String} (h : s.sets.find? key = none) (place : Member) :
    s.scores.Lists key place [] where
  sorted := .nil
  mem_iff x := by simp [scores_eq_none h]

/-! ## One request -/

theorem answers_add (s : Store) (key name : String) (score : Binary64) :
    (s.answer (.add key score name)).1 = .int (if s.scores key name = none then 1 else 0) ∧
      (s.answer (.add key score name)).2.scores = s.scores.set key name (some score) := by
  constructor
  · simp only [answer, SortedSet.fst_add, ← scores_apply, flag]
    simp only [Option.isNone_iff_eq_none]
  · let added := (((s.sets.find? key).getD .empty).add name score).2
    have hadded : ∀ n, added.score? n = if n = name then some score else s.scores key n := by
      intro n
      rw [SortedSet.score?_add, scores_apply]
    exact scores_put hadded

theorem answers_remove {s : Store} (h : s.InStep) (key name : String) :
    (s.answer (.remove key name)).1 = .int (if s.scores key name = none then 0 else 1) ∧
      (s.answer (.remove key name)).2.scores = s.scores.set key name none := by
  simp only [answer]
  split
  · rename_i set hset
    have hscore : ∀ n, s.scores key n = set.score? n := fun n => by simp [scores, hset]
    constructor
    · simp only [(h key set hset).fst_remove, hscore, flag]
      cases set.score? name <;> rfl
    · refine scores_put fun n => ?_
      rw [SortedSet.score?_remove, hscore]
  · rename_i hset
    have hnone := scores_eq_none hset name
    exact ⟨by rw [hnone]; rfl, (Scores.set_eq_self hnone).symm⟩

theorem answer_lookup (s : Store) (key name : String) :
    s.answer (.lookup key name) =
      ((match s.scores key name with
        | some x => .double x
        | none => .nil), s) := by
  simp only [answer, scores]
  cases (s.sets.find? key).bind fun set => set.score? name <;> rfl

theorem answers_query {s : Store} (h : s.InStep) (key : String) (place : Member)
    (offset limit : Nat) : ∃ members, s.scores.Lists key place members ∧
      s.answer (.query key place offset limit) =
        (page ((members.drop offset).take ((limit + 1) / 2)), s) := by
  simp only [answer]
  split
  · rename_i set hset
    exact ⟨_, h.lists hset place, by rw [SortedSet.query_eq]⟩
  · rename_i hset
    exact ⟨[], lists_nil hset place, by rw [List.drop_nil, List.take_nil]⟩

theorem ofQuery_of_refused {key score name offset limit : String}
    (h : ∀ x o l, readScore? score = some x → readCount? offset = some o →
      readCount? limit = some l → False) :
    Request.ofQuery key score name offset limit = .refused "expect numeric arguments" := by
  unfold Request.ofQuery
  split
  · rename_i hx ho hl
    exact (h _ _ _ hx ho hl).elim
  · rfl

theorem ofWords_of_unknown {words : List String}
    (hadd : ∀ key score name, words = ["zadd", key, score, name] → False)
    (hremove : ∀ key name, words = ["zrem", key, name] → False)
    (hlookup : ∀ key name, words = ["zscore", key, name] → False)
    (hquery : ∀ key score name offset limit,
      words = ["zquery", key, score, name, offset, limit] → False) :
    Request.ofWords words = .refused "unknown command" := by
  unfold Request.ofWords
  split
  · exact (hadd _ _ _ rfl).elim
  · exact (hremove _ _ rfl).elim
  · exact (hlookup _ _ rfl).elim
  · exact (hquery _ _ _ _ _ rfl).elim
  · rfl

/-- One request: a store in step answers as its map does, and only so. The listing of a range is
settled by the map, so no other one answers. -/
theorem InStep.answers_iff {s : Store} (h : s.InStep) (words : List String) (reply : Reply)
    (after : Scores) :
    s.scores.Answers words reply after ↔
      reply = (s.handle words).1 ∧ after = (s.handle words).2.scores := by
  unfold Scores.Answers
  split
  · rename_i key score name
    simp only [handle, Request.ofWords]
    cases readScore? score with
    | some x => rw [(answers_add s key name x).1, (answers_add s key name x).2]
    | none => rfl
  · rename_i key name
    simp only [handle, Request.ofWords]
    rw [(answers_remove h key name).1, (answers_remove h key name).2]
  · rename_i key name
    simp only [handle, Request.ofWords, answer_lookup]
  · rename_i key score name offset limit
    simp only [handle, Request.ofWords]
    split
    · rename_i x offset limit hx ho hl
      obtain ⟨members, hlists, hanswer⟩ := answers_query h key ⟨x, name⟩ offset limit
      simp only [Request.ofQuery, hx, ho, hl, hanswer]
      constructor
      · rintro ⟨others, hothers, rfl, rfl⟩
        rw [hothers.eq hlists]
        exact ⟨rfl, rfl⟩
      · rintro ⟨rfl, rfl⟩
        exact ⟨members, hlists, rfl, rfl⟩
    · rename_i hrefused
      rw [ofQuery_of_refused hrefused]
      rfl
  · rename_i hadd hremove hlookup hquery
    rw [handle, ofWords_of_unknown hadd hremove hlookup hquery]
    rfl

/-! ## Any requests -/

theorem InStep.replies_iff {s : Store} (h : s.InStep) (history : List (List String))
    (replies : List Reply) (final : Scores) :
    s.scores.Replies history replies final ↔
      replies = (s.handleAll history).1 ∧ final = (s.handleAll history).2.scores := by
  induction history generalizing s replies with
  | nil =>
    constructor
    · rintro ⟨⟩
      exact ⟨rfl, rfl⟩
    · rintro ⟨rfl, rfl⟩
      exact .nil
  | cons words rest ih =>
    have hnext : (s.handle words).2.InStep := h.answer (.ofWords words)
    constructor
    · rintro ⟨⟩
      rename_i after reply replies hanswer hreplies
      obtain ⟨rfl, rfl⟩ := (h.answers_iff words reply after).mp hanswer
      obtain ⟨rfl, rfl⟩ := (ih hnext replies).mp hreplies
      exact ⟨rfl, rfl⟩
    · rintro ⟨rfl, rfl⟩
      exact .cons ((h.answers_iff words _ _).mpr ⟨rfl, rfl⟩) ((ih hnext _).mpr ⟨rfl, rfl⟩)

/-- Whatever is asked of a new store, its replies are those of the plain map, and of no
other; and the map that it stands for in the end is the one that the plain map has become. -/
theorem the_store_answers_as_a_plain_map (history : List (List String)) (replies : List Reply)
    (final : Scores) :
    Scores.none.Replies history replies final ↔
      replies = (empty.handleAll history).1 ∧ final = (empty.handleAll history).2.scores := by
  rw [← scores_empty]
  exact inStep_empty.replies_iff history replies final

end Store

end Transcript

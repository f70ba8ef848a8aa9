-- Clients of one store that keep to keys of their own. A request reads and changes the set
-- of the key that it names and no other one, so what a client is told, and what becomes of
-- its keys, does not depend on how the requests of the others fall between its own.
import Transcript.Proofs.SortedSet.Indexes

namespace Transcript.Store

/-! ## The key of a request -/

/-- The key that the words of a request name: the second of them. -/
def keyOf? (words : List String) : Option String := words[1]?

/-- The key whose set a request is about. -/
def Request.key? : Request → Option String
  | .add key .. | .remove key _ | .lookup key _ | .query key .. => some key
  | .refused _ => none

theorem key?_ofQuery {key score name offset limit other : String}
    (h : (Request.ofQuery key score name offset limit).key? = some other) : key = other := by
  unfold Request.ofQuery at h
  split at h
  · exact Option.some.inj h
  · cases h

/-- A request is about the key that its words name, or about none. -/
theorem keyOf?_of_key? {words : List String} {key : String}
    (h : (Request.ofWords words).key? = some key) : keyOf? words = some key := by
  unfold Request.ofWords at h
  split at h
  · split at h
    · exact h
    · cases h
  · exact h
  · exact h
  · rw [← key?_ofQuery h]
    rfl
  · cases h

/-! ## One request -/

/-- Two stores hold the same sets under the keys of a kind. -/
def AgreeOn (keys : String → Prop) (s t : Store) : Prop :=
  ∀ key, keys key → s.sets.find? key = t.sets.find? key

variable {keys : String → Prop} {s t : Store}

theorem agreeOn_put {key : String} (h : AgreeOn keys s t) (set : SortedSet) :
    AgreeOn keys ⟨s.sets.put key set⟩ ⟨t.sets.put key set⟩ := by
  intro other hother
  simp only [Keyed.find?_put, h other hother]

/-- A request about a key of the kind is answered alike, and the stores still agree. -/
theorem AgreeOn.answer (h : AgreeOn keys s t) {request : Request}
    (hkey : ∀ key, request.key? = some key → keys key) :
    (s.answer request).1 = (t.answer request).1 ∧
      AgreeOn keys (s.answer request).2 (t.answer request).2 := by
  cases request with
  | add key score name =>
    simp only [Store.answer, h key (hkey key rfl), true_and]
    exact agreeOn_put h _
  | remove key name =>
    simp only [Store.answer, h key (hkey key rfl)]
    cases t.sets.find? key with
    | some set => exact ⟨rfl, agreeOn_put h _⟩
    | none => exact ⟨rfl, h⟩
  | lookup key name =>
    simp only [Store.answer, h key (hkey key rfl)]
    cases (t.sets.find? key).bind fun set => set.score? name <;> exact ⟨rfl, h⟩
  | query key place offset limit =>
    simp only [Store.answer, h key (hkey key rfl)]
    cases t.sets.find? key <;> exact ⟨rfl, h⟩
  | refused reason => exact ⟨rfl, h⟩

theorem agreeOn_put_self {key : String} (hkey : ¬ keys key) (set : SortedSet) :
    AgreeOn keys ⟨s.sets.put key set⟩ s := by
  intro other hother
  rw [Keyed.find?_put, if_neg]
  rintro rfl
  exact hkey hother

/-- A request about a key of another kind changes no set of the kind. -/
theorem agreeOn_answer {request : Request} (hkey : ∀ key, request.key? = some key → ¬ keys key) :
    AgreeOn keys (s.answer request).2 s := by
  have hself : AgreeOn keys s s := fun _ _ => rfl
  cases request with
  | add key score name => exact agreeOn_put_self (hkey key rfl) _
  | remove key name =>
    simp only [Store.answer]
    split
    · exact agreeOn_put_self (hkey key rfl) _
    · exact hself
  | lookup key name =>
    simp only [Store.answer]
    split <;> exact hself
  | query key place offset limit =>
    simp only [Store.answer]
    split <;> exact hself
  | refused reason => exact hself

theorem AgreeOn.trans {u : Store} (hst : AgreeOn keys s t) (htu : AgreeOn keys t u) :
    AgreeOn keys s u := fun key hkey => (hst key hkey).trans (htu key hkey)

/-! ## Sessions of several clients -/

variable {Client α : Type} [DecidableEq Client]

/-- What belongs to one client, in order. -/
def partOf (client : Client) (all : List (Client × α)) : List α :=
  (all.filter (·.1 = client)).map (·.2)

/-- The replies to a session, each with the client that sent the request. -/
def repliesOf (s : Store) (session : List (Client × List String)) : List (Client × Reply) :=
  (session.map (·.1)).zip (s.handleAll (session.map (·.2))).1

/-- Clients name different keys: no key in a request of one is in a request of another. -/
def OnDifferentKeys (session : List (Client × List String)) : Prop :=
  ∀ x ∈ session, ∀ y ∈ session, x.1 ≠ y.1 → ∀ key, keyOf? x.2 = some key → keyOf? y.2 ≠ some key

theorem partOf_cons_self (client : Client) (a : α) (rest : List (Client × α)) :
    partOf client ((client, a) :: rest) = a :: partOf client rest := by
  simp [partOf]

theorem partOf_cons_of_ne {client other : Client} (h : other ≠ client) (a : α)
    (rest : List (Client × α)) : partOf client ((other, a) :: rest) = partOf client rest := by
  simp [partOf, h]

/-- A client is answered in a session as it is alone, from a store that agrees on its keys. By
induction on the session: a request of the client goes to both stores, any other to the first
alone. -/
theorem AgreeOn.session {client : Client} {session : List (Client × List String)}
    (h : AgreeOn keys s t)
    (hown : ∀ x ∈ session, x.1 = client → ∀ key, keyOf? x.2 = some key → keys key)
    (hothers : ∀ x ∈ session, x.1 ≠ client → ∀ key, keyOf? x.2 = some key → ¬ keys key) :
    partOf client (s.repliesOf session) = (t.handleAll (partOf client session)).1 ∧
      AgreeOn keys (s.handleAll (session.map (·.2))).2 (t.handleAll (partOf client session)).2 := by
  induction session generalizing s t with
  | nil => exact ⟨rfl, h⟩
  | cons x rest ih =>
    obtain ⟨sender, words⟩ := x
    rw [List.forall_mem_cons] at hown hothers
    by_cases hsender : sender = client
    · subst hsender
      obtain ⟨hreply, hnext⟩ : (s.handle words).1 = (t.handle words).1 ∧
          AgreeOn keys (s.handle words).2 (t.handle words).2 :=
        h.answer fun key hkey => hown.1 rfl key (keyOf?_of_key? hkey)
      obtain ⟨hreplies, hfinal⟩ := ih hnext hown.2 hothers.2
      rw [partOf_cons_self]
      refine ⟨?_, hfinal⟩
      change partOf sender ((sender, (s.handle words).1) :: (s.handle words).2.repliesOf rest) = _
      rw [partOf_cons_self, hreplies, hreply]
      rfl
    · have hsame : AgreeOn keys (s.handle words).2 s :=
        agreeOn_answer fun key hkey => hothers.1 hsender key (keyOf?_of_key? hkey)
      obtain ⟨hreplies, hfinal⟩ := ih (hsame.trans h) hown.2 hothers.2
      rw [partOf_cons_of_ne hsender]
      refine ⟨?_, hfinal⟩
      change partOf client ((sender, (s.handle words).1) :: (s.handle words).2.repliesOf rest) = _
      rw [partOf_cons_of_ne hsender, hreplies]

/-- Clients on different keys do not interfere. However the requests of the clients of a
session fall between each other, each client gets the replies that it would get alone, and
the set of every key that it names is the one that its requests alone would leave. -/
theorem clients_on_different_keys_do_not_interfere (s : Store)
    (session : List (Client × List String)) (h : OnDifferentKeys session) (client : Client) :
    let alone := s.handleAll (partOf client session)
    partOf client (s.repliesOf session) = alone.1 ∧
      ∀ words ∈ partOf client session, ∀ key, keyOf? words = some key →
        (s.handleAll (session.map (·.2))).2.sets.find? key = alone.2.sets.find? key := by
  intro alone
  let own (key : String) : Prop := ∃ words ∈ partOf client session, keyOf? words = some key
  have hmem : ∀ words, words ∈ partOf client session ↔ (client, words) ∈ session := by
    intro words
    simp [partOf]
  have hown : ∀ x ∈ session, x.1 = client → ∀ key, keyOf? x.2 = some key → own key := by
    rintro ⟨_, words⟩ hx rfl key hkey
    exact ⟨words, (hmem words).mpr hx, hkey⟩
  have hothers : ∀ x ∈ session, x.1 ≠ client → ∀ key, keyOf? x.2 = some key → ¬ own key := by
    rintro x hx hne key hkey ⟨words, hwords, hnamed⟩
    exact h x hx (client, words) ((hmem words).mp hwords) hne key hkey hnamed
  have hself : AgreeOn own s s := fun _ _ => rfl
  obtain ⟨hreplies, hfinal⟩ := hself.session hown hothers
  exact ⟨hreplies, fun words hwords key hkey => hfinal key ⟨words, hwords, hkey⟩⟩

/-- One client empties its key while another one, whose requests are refused in part, adds to
the key that it keeps to itself. -/
theorem two_clients_do_not_interfere :
    let session := [("ann", ["zadd", "a", "1", "n"]), ("bob", ["zadd", "b", "x", "n"]),
      ("bob", ["zadd", "b", "2", "n"]), ("ann", ["zrem", "a", "n"]), ("bob", ["list"]),
      ("ann", ["zscore", "a", "n"]), ("bob", ["zscore", "b", "n"])]
    OnDifferentKeys session ∧
      partOf "ann" (empty.repliesOf session) = [.int 1, .int 1, .nil] ∧
      (empty.handleAll (session.map (·.2))).2.sets.find? "b" =
        some ⟨[("n", .ofRatio false 2 1)], [⟨.ofRatio false 2 1, "n"⟩]⟩ := by
  intro session
  have hkeys : OnDifferentKeys session := by
    intro x hx y hy
    simp only [session, List.mem_cons, List.not_mem_nil, or_false] at hx hy
    rcases hx with rfl | rfl | rfl | rfl | rfl | rfl | rfl <;>
      rcases hy with rfl | rfl | rfl | rfl | rfl | rfl | rfl <;> simp [keyOf?]
  obtain ⟨hann, -⟩ := clients_on_different_keys_do_not_interfere empty session hkeys "ann"
  obtain ⟨-, hbob⟩ := clients_on_different_keys_do_not_interfere empty session hkeys "bob"
  refine ⟨hkeys, hann.trans ?_, ?_⟩
  · rfl
  · rw [hbob ["zadd", "b", "2", "n"] (by decide) "b" rfl]
    decide +kernel

end Transcript.Store

-- Values by name: a list of pairs in which a name stands once. Putting a value in
-- keeps the place of a name that is there already.

namespace Transcript

/-- Pairs of a name and a value. -/
abbrev Keyed (α : Type) := List (String × α)

namespace Keyed

variable {α : Type}

/-- The value of a name. -/
def find? (m : Keyed α) (name : String) : Option α := List.lookup name m

/-- Gives a name its value. -/
def put (name : String) (value : α) : Keyed α → Keyed α
  | [] => [(name, value)]
  | (n, v) :: rest => if n = name then (name, value) :: rest else (n, v) :: put name value rest

/-- Takes a name out. -/
def erase (name : String) (m : Keyed α) : Keyed α := m.filter fun pair => pair.1 ≠ name

/-- The names in their order. -/
def names (m : Keyed α) : List String := m.map (·.1)

@[simp]
theorem find?_nil (name : String) : find? ([] : Keyed α) name = none := rfl

theorem find?_cons (n : String) (v : α) (m : Keyed α) (name : String) :
    find? ((n, v) :: m) name = if name = n then some v else find? m name := by
  simp only [find?, List.lookup_cons]
  by_cases h : name = n
  · simp [h]
  · simp [h, beq_eq_false_iff_ne.2 h]

theorem find?_put (m : Keyed α) (name other : String) (value : α) :
    find? (put name value m) other = if other = name then some value else find? m other := by
  induction m with
  | nil => simp [put, find?_cons]
  | cons pair rest ih =>
    obtain ⟨n, v⟩ := pair
    by_cases hn : n = name
    · subst hn
      by_cases ho : other = n <;> simp [put, find?_cons, ho]
    · by_cases ho : other = n
      · subst ho
        simp [put, hn, find?_cons]
      · simp [put, hn, find?_cons, ho, ih]

/-- A value that a name has already changes nothing. -/
theorem put_of_find? {m : Keyed α} {name : String} {value : α}
    (h : m.find? name = some value) : m.put name value = m := by
  induction m with
  | nil => simp at h
  | cons pair rest ih =>
    obtain ⟨n, v⟩ := pair
    rw [find?_cons] at h
    unfold put
    by_cases hn : n = name
    · rw [if_pos hn.symm, Option.some.injEq] at h
      rw [if_pos hn, ← hn, h]
    · rw [if_neg (Ne.symm hn)] at h
      rw [if_neg hn, ih h]

theorem find?_erase (m : Keyed α) (name other : String) :
    find? (erase name m) other = if other = name then none else find? m other := by
  induction m with
  | nil => simp [erase]
  | cons pair rest ih =>
    obtain ⟨n, v⟩ := pair
    have hcons : erase name ((n, v) :: rest) =
        if n = name then erase name rest else (n, v) :: erase name rest := by
      by_cases hn : n = name <;> simp [erase, hn]
    rw [hcons]
    by_cases hn : n = name
    · subst hn
      rw [if_pos rfl, ih, find?_cons]
      split <;> rfl
    · by_cases ho : other = n
      · subst ho
        simp [hn, find?_cons]
      · simp [hn, find?_cons, ho, ih]

theorem mem_of_find? {m : Keyed α} {name : String} {value : α} (h : m.find? name = some value) :
    (name, value) ∈ m := by
  induction m with
  | nil => cases h
  | cons pair rest ih =>
    obtain ⟨n, v⟩ := pair
    rw [find?_cons] at h
    split at h
    · rename_i hn
      cases h
      exact hn ▸ List.mem_cons_self
    · exact List.mem_cons_of_mem _ (ih h)

/-- What is there after a value was put in is that value, or it was there before. -/
theorem eq_or_mem_of_mem_put {m : Keyed α} {name : String} {value : α} {pair : String × α}
    (h : pair ∈ m.put name value) : pair = (name, value) ∨ pair ∈ m := by
  induction m with
  | nil => exact .inl (List.mem_singleton.mp h)
  | cons first rest ih =>
    obtain ⟨n, v⟩ := first
    unfold put at h
    split at h
    · exact (List.mem_cons.mp h).imp id (List.mem_cons_of_mem _)
    · rcases List.mem_cons.mp h with rfl | h
      · exact .inr List.mem_cons_self
      · exact (ih h).imp id (List.mem_cons_of_mem _)

/-! ## Names -/

theorem mem_names_iff (m : Keyed α) (name : String) : name ∈ m.names ↔ (m.find? name).isSome := by
  induction m with
  | nil => simp [names]
  | cons pair rest ih =>
    obtain ⟨n, v⟩ := pair
    rw [find?_cons]
    by_cases hn : name = n
    · simp [names, hn]
    · rw [if_neg hn, ← ih]
      simp [names, hn]

/-- Where a name stands once, its value is the one it stands with. -/
theorem mem_iff_find? {m : Keyed α} (h : m.names.Nodup) (name : String) (value : α) :
    (name, value) ∈ m ↔ m.find? name = some value := by
  induction m with
  | nil => simp
  | cons pair rest ih =>
    obtain ⟨n, v⟩ := pair
    obtain ⟨hn, hrest⟩ := List.nodup_cons.mp h
    rw [find?_cons, List.mem_cons, ih hrest, Prod.mk.injEq]
    by_cases hname : name = n
    · subst hname
      have hnone : find? rest name ≠ some value := by
        intro hsome
        exact hn ((mem_names_iff rest name).mpr (by rw [hsome]; rfl))
      simp [hnone, eq_comm]
    · simp [hname]

theorem nodup_names_put {m : Keyed α} (h : m.names.Nodup) (name : String) (value : α) :
    (put name value m).names.Nodup := by
  induction m with
  | nil => simp [put, names]
  | cons pair rest ih =>
    obtain ⟨n, v⟩ := pair
    obtain ⟨hn, hrest⟩ := List.nodup_cons.mp h
    unfold put
    split
    · rename_i heq
      subst heq
      exact h
    · rename_i hne
      refine List.nodup_cons.mpr ⟨fun hmem => ?_, ih hrest⟩
      change n ∈ names (put name value rest) at hmem
      rw [mem_names_iff, find?_put, if_neg hne, ← mem_names_iff] at hmem
      exact hn hmem

theorem nodup_names_erase {m : Keyed α} (h : m.names.Nodup) (name : String) :
    (erase name m).names.Nodup :=
  h.sublist (List.filter_sublist.map _)

end Keyed

end Transcript

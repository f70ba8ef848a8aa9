-- The fields of a table, taken in one after the other. Where no key stands twice, the order of
-- the entries is of no account: the table is taken in exactly if each field takes the value
-- that stands under its name, and then a part that one field alone sets is what that field
-- makes of its value, or as it was where its name is missing.
import Mathlib.Data.List.Nodup
import Transcript.Settings.File

namespace Transcript

theorem bind_eq_ok_iff {ε α β : Type} {x : Except ε α} {f : α → Except ε β} {b : β} :
    x >>= f = .ok b ↔ ∃ a, x = .ok a ∧ f a = .ok b := by
  constructor
  · intro h
    rcases x with fault | a
    · cases h
    · exact ⟨a, rfl, h⟩
  · rintro ⟨a, rfl, h⟩
    exact h

namespace Settings

variable {σ α : Type}

/-! ## One field -/

namespace Field

/-- A field takes a value, whatever it is put into. -/
def Takes (f : Field σ) (v : Toml.Value) : Prop := ∀ s, ∃ next, f.set v s = .ok next

/-- Whether a value is taken does not depend on what it is put into. -/
def Steady (f : Field σ) : Prop := ∀ {v s next}, f.set v s = .ok next → f.Takes v

/-- A field makes this of its value, in one part. -/
def Makes (f : Field σ) (means : Toml.Value → α → Prop) (part : σ → α) : Prop :=
  ∀ {v s next}, f.set v s = .ok next → means v (part next)

/-- A field leaves a part as it was. -/
def Keeps (f : Field σ) (part : σ → α) : Prop :=
  ∀ {v s next}, f.set v s = .ok next → part next = part s

variable {name : String} {read : Toml.Value → Except FileFault α} {put : α → σ → σ}

theorem set_of_eq_ok_iff {v : Toml.Value} {s next : σ} :
    (Field.of name read put).set v s = .ok next ↔ ∃ a, read v = .ok a ∧ put a s = next := by
  simp only [Field.of]
  rcases read v with fault | a
  · simp [Except.map]
  · simp [Except.map]

theorem steady_of : (Field.of name read put).Steady := by
  intro v s next h t
  obtain ⟨a, ha, -⟩ := set_of_eq_ok_iff.mp h
  exact ⟨_, set_of_eq_ok_iff.mpr ⟨a, ha, rfl⟩⟩

theorem takes_of_iff (s : σ) {v : Toml.Value} :
    (Field.of name read put).Takes v ↔ ∃ a, read v = .ok a := by
  constructor
  · intro h
    obtain ⟨next, hnext⟩ := h s
    obtain ⟨a, ha, -⟩ := set_of_eq_ok_iff.mp hnext
    exact ⟨a, ha⟩
  · rintro ⟨a, ha⟩ t
    exact ⟨_, set_of_eq_ok_iff.mpr ⟨a, ha, rfl⟩⟩

theorem makes_of {means : Toml.Value → α → Prop} {part : σ → α}
    (hread : ∀ {v a}, read v = .ok a → means v a) (hput : ∀ a s, part (put a s) = a) :
    (Field.of name read put).Makes means part := by
  intro v s next h
  obtain ⟨a, ha, rfl⟩ := set_of_eq_ok_iff.mp h
  exact (hput a s).symm ▸ hread ha

theorem keeps_of {β : Type} {part : σ → β} (hput : ∀ a s, part (put a s) = part s) :
    (Field.of name read put).Keeps part := by
  intro v s next h
  obtain ⟨a, -, rfl⟩ := set_of_eq_ok_iff.mp h
  exact hput a s

end Field

/-- Fields that can be told apart by their names, each of which takes a value or refuses it,
whatever it is put into. -/
structure Apart (fields : List (Field σ)) : Prop where
  names : (fields.map (·.name)).Nodup
  steady : ∀ f ∈ fields, f.Steady

theorem Apart.eq_of_name {fields : List (Field σ)} (h : Apart fields) {f g : Field σ}
    (hf : f ∈ fields) (hg : g ∈ fields) (hname : f.name = g.name) : f = g :=
  List.inj_on_of_nodup_map h.names hf hg hname

/-! ## The entries of a table -/

variable {fields : List (Field σ)} {entries : Toml.Table} {s next : σ}

theorem setEntries_cons_eq_ok_iff {e : String × Toml.Value} :
    setEntries fields s (e :: entries) = .ok next ↔
      ∃ reached, setEntry fields s e = .ok reached ∧
        setEntries fields reached entries = .ok next := by
  rw [setEntries, List.foldlM_cons, bind_eq_ok_iff]
  rfl

/-- An entry is taken in exactly if the field of its name takes its value. -/
theorem exists_setEntry_iff (hfields : Apart fields) {e : String × Toml.Value} :
    (∃ next, setEntry fields s e = .ok next) ↔ ∀ f ∈ fields, f.name = e.1 → f.Takes e.2 := by
  unfold setEntry
  split
  · rename_i g hfind
    have hname : g.name = e.1 := by simpa using List.find?_some hfind
    have hmem := List.mem_of_find?_eq_some hfind
    constructor
    · rintro ⟨next, h⟩ f hf hfname
      obtain rfl := hfields.eq_of_name hf hmem (hfname.trans hname.symm)
      exact hfields.steady f hf h
    · exact fun h => h g hmem hname s
  · rename_i hfind
    constructor
    · rintro - f hf hfname
      exact absurd hfname (by simpa using List.find?_eq_none.mp hfind f hf)
    · exact fun _ => ⟨s, rfl⟩

/-- A table is taken in exactly if each field takes the value that stands under its name. -/
theorem exists_setEntries_iff (hfields : Apart fields)
    (hentries : (Keyed.names entries).Nodup) (s : σ) :
    (∃ next, setEntries fields s entries = .ok next) ↔
      ∀ f ∈ fields, ∀ v, Keyed.find? entries f.name = some v → f.Takes v := by
  have hall : (∃ next, setEntries fields s entries = .ok next) ↔
      ∀ e ∈ entries, ∀ f ∈ fields, f.name = e.1 → f.Takes e.2 := by
    clear hentries
    induction entries generalizing s with
    | nil => exact ⟨fun _ => List.forall_mem_nil _, fun _ => ⟨s, rfl⟩⟩
    | cons e rest ih =>
      simp only [setEntries_cons_eq_ok_iff, List.forall_mem_cons]
      constructor
      · rintro ⟨next, reached, hfirst, hrest⟩
        exact ⟨(exists_setEntry_iff hfields).mp ⟨reached, hfirst⟩,
          (ih reached).mp ⟨next, hrest⟩⟩
      · rintro ⟨hfirst, hrest⟩
        obtain ⟨reached, hreached⟩ := (exists_setEntry_iff hfields).mpr hfirst
        obtain ⟨next, hnext⟩ := (ih reached).mpr hrest
        exact ⟨next, reached, hreached, hnext⟩
  rw [hall]
  constructor
  · intro h f hf v hv
    exact h (f.name, v) ((Keyed.mem_iff_find? hentries f.name v).mpr hv) f hf rfl
  · rintro h ⟨name, v⟩ he f hf rfl
    exact h f hf v ((Keyed.mem_iff_find? hentries f.name v).mp he)

/-! ## Parts -/

/-- What a part is with a value given for it, or with none. -/
def Layered (means : Toml.Value → α → Prop) (given : Option Toml.Value) (default a : α) : Prop :=
  match given with
  | some v => means v a
  | none => a = default

/-- One field alone sets a part. -/
structure Sets (fields : List (Field σ)) (name : String) (means : Toml.Value → α → Prop)
    (part : σ → α) : Prop where
  known : ∃ f ∈ fields, f.name = name
  makes : ∀ f ∈ fields, f.name = name → f.Makes means part
  keeps : ∀ f ∈ fields, f.name ≠ name → f.Keeps part

variable {name : String} {means : Toml.Value → α → Prop} {part : σ → α}

/-- An entry of another name leaves the part as it was. -/
theorem Sets.setEntry_of_ne (h : Sets fields name means part) {e : String × Toml.Value}
    (hne : e.1 ≠ name) (hnext : setEntry fields s e = .ok next) : part next = part s := by
  unfold setEntry at hnext
  split at hnext
  · rename_i f hfind
    have hname : f.name = e.1 := by simpa using List.find?_some hfind
    exact h.keeps f (List.mem_of_find?_eq_some hfind) (hname ▸ hne) hnext
  · cases hnext
    rfl

theorem Sets.setEntry_self (h : Sets fields name means part) {v : Toml.Value}
    (hnext : setEntry fields s (name, v) = .ok next) : means v (part next) := by
  unfold setEntry at hnext
  split at hnext
  · rename_i f hfind
    have hname : f.name = name := by simpa using List.find?_some hfind
    exact h.makes f (List.mem_of_find?_eq_some hfind) hname hnext
  · rename_i hfind
    obtain ⟨f, hf, hname⟩ := h.known
    exact absurd hname (by simpa using List.find?_eq_none.mp hfind f hf)

/-- Once a table is taken in, the part is what its field makes of the value under its name; or it
is as it was, where the name is missing. No name comes twice, so the part stays as its entry sets
it. -/
theorem Sets.setEntries (h : Sets fields name means part) (hentries : (Keyed.names entries).Nodup)
    (hnext : setEntries fields s entries = .ok next) :
    Layered means (Keyed.find? entries name) (part s) (part next) := by
  induction entries generalizing s with
  | nil =>
    cases hnext
    rfl
  | cons e rest ih =>
    obtain ⟨reached, hreached, hrest⟩ := setEntries_cons_eq_ok_iff.mp hnext
    obtain ⟨key, v⟩ := e
    obtain ⟨hkey, hrestnames⟩ := List.nodup_cons.mp hentries
    have hlater := ih hrestnames hrest
    rw [Keyed.find?_cons]
    by_cases heq : name = key
    · subst heq
      have hnone : Keyed.find? rest name = none := by
        rw [← Option.not_isSome_iff_eq_none, ← Keyed.mem_names_iff]
        exact hkey
      rw [hnone] at hlater
      rw [if_pos rfl]
      exact (show part next = part reached from hlater) ▸ h.setEntry_self hreached
    · rw [if_neg heq, ← h.setEntry_of_ne (Ne.symm heq) hreached]
      exact hlater

end Settings

end Transcript

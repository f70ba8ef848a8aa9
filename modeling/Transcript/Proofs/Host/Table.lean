-- The table of processes. Whatever processes ask of the machine, its table changes in five ways
-- only: numbers are used up, a process is struck by a signal, one ends, one that has ended is
-- waited for by its parent, and one is started. So a process that was started from outside stays
-- in the table, and once it has ended it has ended for good.
import Mathlib.Data.List.Nodup
import Mathlib.Logic.Relation
import Transcript.Host.Processes

namespace Transcript.Host

open Machine (outside)

/-! ## Rows -/

/-- What the table tells of a process. -/
structure Row where
  id : Nat
  parent : Nat
  isStruck : Bool
  finished : Option ExitStatus

/-- The rows of the processes, and the next number for one. -/
structure Table where
  rows : List Row
  next : Nat

namespace Row

/-- The process has ended or is about to. -/
def isEnding (r : Row) : Bool := r.isStruck || r.finished.isSome

/-- A later row of the same process: a signal that has struck it is not taken back, and neither
is its end. It has the parent that it had, or none. -/
structure Becomes (r later : Row) : Prop where
  id_eq : later.id = r.id
  parent : later.parent = r.parent ∨ later.parent = 1
  struck : r.isStruck = true → later.isStruck = true
  finished : ∀ status, r.finished = some status → later.finished = some status

theorem Becomes.refl (r : Row) : r.Becomes r := ⟨rfl, .inl rfl, fun h => h, fun _ h => h⟩

theorem Becomes.parent_eq {r later : Row} (h : r.Becomes later) (hlater : later.parent = outside) :
    r.parent = outside := by
  rcases h.parent with hsame | hroot
  · exact hsame.symm.trans hlater
  · rw [hroot] at hlater
    cases hlater

theorem Becomes.trans {r s t : Row} (h : r.Becomes s) (h' : s.Becomes t) : r.Becomes t where
  id_eq := h'.id_eq.trans h.id_eq
  parent := by
    rcases h'.parent with hsame | hroot
    · rw [hsame]
      exact h.parent
    · exact .inr hroot
  struck hstruck := h'.struck (h.struck hstruck)
  finished status hfinished := h'.finished status (h.finished status hfinished)

theorem Becomes.isEnding {r later : Row} (h : r.Becomes later) (hr : r.isEnding = true) :
    later.isEnding = true := by
  unfold Row.isEnding at hr ⊢
  rcases Bool.or_eq_true_iff.mp hr with hstruck | hfinished
  · simp [h.struck hstruck]
  · obtain ⟨status, hstatus⟩ := Option.isSome_iff_exists.mp hfinished
    simp [h.finished status hstatus]

/-- A row when a signal strikes a process. -/
def afterStrike (id : Nat) (r : Row) : Option Row :=
  if r.id = id then some { r with isStruck := true } else some r

/-- A row when a process ends. Its parent may learn how it has ended, if it has one; its children
belong to nobody, and those that have ended are forgotten. -/
def afterEnd (id : Nat) (status : ExitStatus) (r : Row) : Option Row :=
  if r.id = id then if r.parent = 1 then none else some { r with finished := some status }
  else if r.parent = id then if r.finished.isSome then none else some { r with parent := 1 }
  else some r

/-- A row when a process is forgotten. -/
def afterDrop (id : Nat) (r : Row) : Option Row := if r.id = id then none else some r

variable {r later : Row} {id : Nat} {status : ExitStatus}

theorem becomes_of_afterStrike (h : r.afterStrike id = some later) : r.Becomes later := by
  unfold afterStrike at h
  split at h
  · cases h
    exact ⟨rfl, .inl rfl, fun _ => rfl, fun _ h => h⟩
  · cases h
    exact .refl r

theorem becomes_of_afterEnd (hgoing : r.id = id → r.finished = none)
    (h : r.afterEnd id status = some later) : r.Becomes later := by
  unfold afterEnd at h
  split at h
  · rename_i hid
    split at h
    · cases h
    · cases h
      refine ⟨rfl, .inl rfl, fun h => h, fun _ hfinished => ?_⟩
      rw [hgoing hid] at hfinished
      cases hfinished
  · split at h
    · split at h
      · cases h
      · cases h
        exact ⟨rfl, .inr rfl, fun h => h, fun _ h => h⟩
    · cases h
      exact .refl r

theorem becomes_of_afterDrop (h : r.afterDrop id = some later) : r.Becomes later := by
  unfold afterDrop at h
  split at h
  · cases h
  · cases h
    exact .refl r

end Row

namespace Table

/-! ## Changes -/

/-- A table after something that concerns each row by itself. -/
def each (t : Table) (change : Row → Option Row) : Table :=
  { t with rows := t.rows.filterMap change }

/-- What one process can do to the table. It strikes others only and not itself, and it waits for
children of its own. -/
inductive Change (actor : Nat) : Table → Table → Prop where
  | use (t : Table) (count : Nat) : Change actor t { t with next := t.next + count }
  | strike {t : Table} {r : Row} :
      r ∈ t.rows → r.isEnding = false → r.id ≠ actor →
      Change actor t (t.each (Row.afterStrike r.id))
  | finish {t : Table} {r : Row} (status : ExitStatus) :
      r ∈ t.rows → r.finished = none → Change actor t (t.each (Row.afterEnd r.id status))
  | reap {t : Table} {child : Row} :
      child ∈ t.rows → child.parent = actor → child.finished.isSome = true →
      Change actor t (t.each (Row.afterDrop child.id))
  | start (t : Table) : Change actor t ⟨t.rows ++ [⟨t.next, actor, false, none⟩], t.next + 1⟩

/-- What one process does to the table, one change after the other. -/
abbrev Changes (actor : Nat) : Table → Table → Prop := Relation.ReflTransGen (Change actor)

/-- What processes of the machine do to the table, one after the other. -/
inductive Passes (t : Table) : Table → Prop where
  | refl : Passes t t
  | tail {u v : Table} {actor : Nat} :
      Passes t u → outside < actor → Change actor u v → Passes t v

theorem Passes.changes {t u v : Table} {actor : Nat} (h : Passes t u) (hactor : outside < actor)
    (h' : Changes actor u v) : Passes t v := by
  induction h' with
  | refl => exact h
  | tail _ hchange ih => exact ih.tail hactor hchange

theorem Passes.trans {t u v : Table} (h : Passes t u) (h' : Passes u v) : Passes t v := by
  induction h' with
  | refl => exact h
  | tail _ hactor hchanges ih => exact ih.tail hactor hchanges

/-! ## Sound tables -/

/-- Every process has a number of its own, which was given out and is none of those that stand
for what is outside of the table. -/
structure Sound (t : Table) : Prop where
  nodup : (t.rows.map (·.id)).Nodup
  above : ∀ r ∈ t.rows, outside < r.id
  below : ∀ r ∈ t.rows, r.id < t.next
  room : outside < t.next

variable {t u : Table} {r later : Row} {actor : Nat} {change : Row → Option Row}

theorem Sound.eq_of_id (h : t.Sound) (hr : r ∈ t.rows) (hlater : later ∈ t.rows)
    (hid : later.id = r.id) : later = r :=
  List.inj_on_of_nodup_map h.nodup hlater hr hid

theorem mem_each : later ∈ (t.each change).rows ↔ ∃ r ∈ t.rows, change r = some later := by
  unfold each
  exact List.mem_filterMap

/-- The rows that are left keep their numbers, in order. -/
theorem map_id_each (h : ∀ r ∈ t.rows, ∀ later, change r = some later → r.Becomes later) :
    ((t.each change).rows.map (·.id)).Sublist (t.rows.map (·.id)) := by
  unfold each
  generalize t.rows = rows at h
  induction rows with
  | nil => exact .slnil
  | cons r rest ih =>
    have hrest := ih fun s hs => h s (List.mem_cons_of_mem r hs)
    rcases hr : change r with _ | later
    · rw [List.filterMap_cons_none hr, List.map_cons]
      exact hrest.cons _
    · rw [List.filterMap_cons_some hr, List.map_cons, List.map_cons,
        (h r List.mem_cons_self later hr).id_eq]
      exact hrest.cons_cons _

/-- A change of every row by itself after which each row that is left is one of the same process,
and that loses no process that was started from outside. -/
structure Gentle (t : Table) (change : Row → Option Row) : Prop where
  becomes : ∀ r ∈ t.rows, ∀ later, change r = some later → r.Becomes later
  stays : ∀ r ∈ t.rows, r.parent = outside →
    ∃ later, change r = some later ∧ later.parent = outside

theorem Sound.each (ht : t.Sound)
    (h : ∀ r ∈ t.rows, ∀ later, change r = some later → r.Becomes later) :
    (t.each change).Sound := by
  refine ⟨ht.nodup.sublist (map_id_each h), ?_, ?_, ht.room⟩
  · intro later hlater
    obtain ⟨r, hr, hchange⟩ := mem_each.mp hlater
    rw [(h r hr later hchange).id_eq]
    exact ht.above r hr
  · intro later hlater
    obtain ⟨r, hr, hchange⟩ := mem_each.mp hlater
    rw [(h r hr later hchange).id_eq]
    exact ht.below r hr

theorem Sound.use (ht : t.Sound) (count : Nat) : Sound { t with next := t.next + count } :=
  ⟨ht.nodup, ht.above, fun r hr => Nat.lt_of_lt_of_le (ht.below r hr) (Nat.le_add_right _ _),
    Nat.lt_of_lt_of_le ht.room (Nat.le_add_right _ _)⟩

/-- A new row with the next number leaves the table sound. -/
theorem Sound.start (ht : t.Sound) (parent : Nat) :
    Sound ⟨t.rows ++ [⟨t.next, parent, false, none⟩], t.next + 1⟩ := by
  refine ⟨?_, ?_, ?_, Nat.lt_succ_of_lt ht.room⟩
  · rw [List.map_append, List.nodup_append]
    refine ⟨ht.nodup, List.nodup_singleton _, ?_⟩
    intro a ha b hb
    obtain ⟨r, hr, rfl⟩ := List.mem_map.mp ha
    rw [List.mem_singleton.mp hb]
    exact Nat.ne_of_lt (ht.below r hr)
  · intro r hr
    rcases List.mem_append.mp hr with hr | hr
    · exact ht.above r hr
    · rw [List.mem_singleton.mp hr]
      exact ht.room
  · intro r hr
    rcases List.mem_append.mp hr with hr | hr
    · exact Nat.lt_succ_of_lt (ht.below r hr)
    · rw [List.mem_singleton.mp hr]
      exact Nat.lt_succ_self _

/-! ## One change -/

theorem gentle_afterStrike (id : Nat) : Gentle t (Row.afterStrike id) where
  becomes r _ later := Row.becomes_of_afterStrike
  stays r _ hparent := by
    unfold Row.afterStrike
    split
    · exact ⟨_, rfl, hparent⟩
    · exact ⟨_, rfl, hparent⟩

theorem gentle_afterEnd (ht : t.Sound) (hr : r ∈ t.rows) (hgoing : r.finished = none)
    (status : ExitStatus) : Gentle t (Row.afterEnd r.id status) where
  becomes s hs later := by
    apply Row.becomes_of_afterEnd
    intro hid
    rw [ht.eq_of_id hr hs hid]
    exact hgoing
  stays s hs hparent := by
    have hroot : s.parent ≠ 1 := by rw [hparent]; decide
    have hother : s.parent ≠ r.id := by
      rw [hparent]
      exact Nat.ne_of_lt (ht.above r hr)
    unfold Row.afterEnd
    rw [if_neg hroot, if_neg hother]
    split
    · exact ⟨_, rfl, hparent⟩
    · exact ⟨_, rfl, hparent⟩

theorem gentle_afterDrop (ht : t.Sound) (hr : r ∈ t.rows) (hinside : r.parent ≠ outside) :
    Gentle t (Row.afterDrop r.id) where
  becomes s _ later := Row.becomes_of_afterDrop
  stays s hs hparent := by
    have hother : s.id ≠ r.id := by
      intro hid
      rw [ht.eq_of_id hr hs hid] at hparent
      exact hinside hparent
    unfold Row.afterDrop
    rw [if_neg hother]
    exact ⟨_, rfl, hparent⟩

/-- All that one change can be: numbers are used up, a row is added, or all rows change gently. -/
theorem Change.cases (h : Change actor t u) (ht : t.Sound) (hactor : outside < actor) :
    (∃ count, u = { t with next := t.next + count }) ∨
      u = ⟨t.rows ++ [⟨t.next, actor, false, none⟩], t.next + 1⟩ ∨
      ∃ change, u = t.each change ∧ Gentle t change := by
  cases h with
  | use count => exact .inl ⟨count, rfl⟩
  | start => exact .inr (.inl rfl)
  | strike hmem hgoing hother => exact .inr (.inr ⟨_, rfl, gentle_afterStrike _⟩)
  | finish status hmem hgoing => exact .inr (.inr ⟨_, rfl, gentle_afterEnd ht hmem hgoing status⟩)
  | reap hmem hparent hended =>
    refine .inr (.inr ⟨_, rfl, gentle_afterDrop ht hmem ?_⟩)
    rw [hparent]
    exact Nat.ne_of_gt hactor

/-- Every change leaves the table sound. -/
theorem Change.sound (h : Change actor t u) (ht : t.Sound) (hactor : outside < actor) :
    u.Sound := by
  rcases h.cases ht hactor with ⟨count, rfl⟩ | rfl | ⟨change, rfl, hgentle⟩
  · exact ht.use count
  · exact ht.start actor
  · exact ht.each hgentle.becomes

/-- A process that was started from outside was there before. -/
theorem Change.came (h : Change actor t u) (ht : t.Sound) (hactor : outside < actor)
    (hlater : later ∈ u.rows) (hparent : later.parent = outside) :
    ∃ r ∈ t.rows, r.Becomes later ∧ r.parent = outside := by
  rcases h.cases ht hactor with ⟨count, rfl⟩ | rfl | ⟨change, rfl, hgentle⟩
  · exact ⟨later, hlater, .refl later, hparent⟩
  · rcases List.mem_append.mp hlater with hlater | hlater
    · exact ⟨later, hlater, .refl later, hparent⟩
    · rw [List.mem_singleton.mp hlater] at hparent
      exact absurd hparent (Nat.ne_of_gt hactor)
  · obtain ⟨r, hr, hchange⟩ := mem_each.mp hlater
    have hbecomes := hgentle.becomes r hr later hchange
    exact ⟨r, hr, hbecomes, hbecomes.parent_eq hparent⟩

/-- A process that was started from outside is not lost. -/
theorem Change.stays (h : Change actor t u) (ht : t.Sound) (hactor : outside < actor)
    (hr : r ∈ t.rows) (hparent : r.parent = outside) :
    ∃ later ∈ u.rows, r.Becomes later ∧ later.parent = outside := by
  rcases h.cases ht hactor with ⟨count, rfl⟩ | rfl | ⟨change, rfl, hgentle⟩
  · exact ⟨r, hr, .refl r, hparent⟩
  · exact ⟨r, List.mem_append_left _ hr, .refl r, hparent⟩
  · obtain ⟨later, hchange, hlater⟩ := hgentle.stays r hr hparent
    exact ⟨later, mem_each.mpr ⟨r, hr, hchange⟩, hgentle.becomes r hr later hchange, hlater⟩

/-- A process that no signal is about to end. -/
def Going (t : Table) (id : Nat) : Prop :=
  ∀ r ∈ t.rows, r.id = id → r.isStruck = true → r.finished.isSome = true

/-- A process is not struck by what it does itself. -/
theorem Change.going (h : Change actor t u) (ht : t.Going actor) : u.Going actor := by
  intro later hlater hid hstruck
  cases h with
  | use count => exact ht later hlater hid hstruck
  | start =>
    rcases List.mem_append.mp hlater with hlater | hlater
    · exact ht later hlater hid hstruck
    · rw [List.mem_singleton.mp hlater] at hstruck
      cases hstruck
  | strike hmem hgoing hother =>
    obtain ⟨r, hr, hchange⟩ := mem_each.mp hlater
    unfold Row.afterStrike at hchange
    split at hchange
    · rename_i hid'
      cases hchange
      exact absurd (hid'.symm.trans hid) hother
    · cases hchange
      exact ht _ hr hid hstruck
  | finish status hmem hgoing =>
    obtain ⟨r, hr, hchange⟩ := mem_each.mp hlater
    unfold Row.afterEnd at hchange
    split at hchange
    · split at hchange
      · cases hchange
      · cases hchange
        rfl
    · split at hchange
      · split at hchange
        · cases hchange
        · cases hchange
          exact ht r hr hid hstruck
      · cases hchange
        exact ht _ hr hid hstruck
  | reap hmem hparent hended =>
    obtain ⟨r, hr, hchange⟩ := mem_each.mp hlater
    unfold Row.afterDrop at hchange
    split at hchange
    · cases hchange
    · cases hchange
      exact ht _ hr hid hstruck

theorem Changes.going (h : Changes actor t u) (ht : t.Going actor) : u.Going actor := by
  induction h with
  | refl => exact ht
  | tail _ hchange ih => exact hchange.going ih

/-! ## Many changes -/

theorem Passes.sound (h : Passes t u) (ht : t.Sound) : u.Sound := by
  induction h with
  | refl => exact ht
  | tail _ hactor hchange ih => exact hchange.sound ih hactor

theorem Passes.stays (h : Passes t u) (ht : t.Sound) (hr : r ∈ t.rows)
    (hparent : r.parent = outside) :
    ∃ later ∈ u.rows, r.Becomes later ∧ later.parent = outside := by
  induction h with
  | refl => exact ⟨r, hr, .refl r, hparent⟩
  | tail hpasses hactor hchange ih =>
    obtain ⟨middle, hmiddle, hbecomes, hmiddleParent⟩ := ih
    obtain ⟨later, hlater, hnext, hlaterParent⟩ :=
      hchange.stays (hpasses.sound ht) hactor hmiddle hmiddleParent
    exact ⟨later, hlater, hbecomes.trans hnext, hlaterParent⟩

theorem Passes.came (h : Passes t u) (ht : t.Sound) (hlater : later ∈ u.rows)
    (hparent : later.parent = outside) : ∃ r ∈ t.rows, r.Becomes later ∧ r.parent = outside := by
  induction h generalizing later with
  | refl => exact ⟨later, hlater, .refl later, hparent⟩
  | tail hpasses hactor hchange ih =>
    obtain ⟨middle, hmiddle, hnext, hmiddleParent⟩ :=
      hchange.came (hpasses.sound ht) hactor hlater hparent
    obtain ⟨r, hr, hbecomes, hrParent⟩ := ih hmiddle hmiddleParent
    exact ⟨r, hr, hbecomes.trans hnext, hrParent⟩

end Table

end Transcript.Host

-- Trees of files that only grow. What a path leads to in a tree, it leads to in every tree that
-- has all the nodes of the first one; so to open a log, which may be a new file, takes nothing
-- away from what the tool reads.
import Transcript.Application
import Transcript.Host.System

namespace Transcript.Host

/-! ## Values at keys -/

theorem lookup_entry {κ α : Type} [BEq κ] [LawfulBEq κ] [DecidableEq κ] (key other : κ) (value : α)
    (entries : List (κ × α)) :
    List.lookup other ((key, value) :: entries) =
      if other = key then some value else List.lookup other entries := by
  rw [List.lookup_cons]
  by_cases h : other = key
  · simp [h]
  · simp [h, beq_eq_false_iff_ne.2 h]

theorem lookup_putAt {κ α : Type} [BEq κ] [LawfulBEq κ] [DecidableEq κ] (key other : κ) (value : α)
    (entries : List (κ × α)) :
    List.lookup other (putAt key value entries) =
      if other = key then some value else List.lookup other entries := by
  induction entries with
  | nil => rw [putAt, lookup_entry]
  | cons entry rest ih =>
    obtain ⟨k, v⟩ := entry
    unfold putAt
    split
    · rename_i hk
      subst hk
      rw [lookup_entry, lookup_entry]
      split <;> rfl
    · rename_i hk
      rw [lookup_entry, lookup_entry, ih]
      by_cases h : other = k
      · subst h
        rw [if_pos rfl, if_neg hk, if_pos rfl]
      · rw [if_neg h, if_neg h]

namespace Files

variable {files later : Files} {place p directory : Place} {node : Node} {path : Octets}

/-! ## Nodes -/

/-- Every node of the one tree is at the same place in the other one. -/
def Extends (files later : Files) : Prop :=
  ∀ place node, files.node? place = some node → later.node? place = some node

theorem Extends.refl (files : Files) : Extends files files := fun _ _ h => h

/-- A node at a place where there was none takes nothing away. -/
theorem extends_put (hnew : files.node? place = none) (node : Node) :
    Extends files (files.put place node) := by
  intro other found hfound
  have hother : other ≠ place := by
    rintro rfl
    rw [hnew] at hfound
    cases hfound
  unfold node? at hfound ⊢
  unfold put
  rw [lookup_putAt, if_neg hother]
  exact hfound

theorem Extends.isDirectory (h : Extends files later) (hplace : files.isDirectory place = true) :
    later.isDirectory place = true := by
  unfold Files.isDirectory at hplace ⊢
  split at hplace
  · rename_i hnode
    rw [h place _ hnode]
  · cases hplace

/-! ## Paths -/

/-- A walk tells what stands at the place that it leads to. -/
theorem node_of_walk {follow : Bool} {fuel links : Nat} {names : List Octets} {found : Option Node}
    (h : files.walk follow fuel links place names = .ok (p, found)) : found = files.node? p := by
  fun_induction Files.walk with
  | case1 | case3 | case4 | case8 | case10 => cases h
  | case2 =>
    cases h
    rfl
  | case7 _ _ _ _ _ _ _ _ _ next hnext =>
    obtain ⟨hp, hfound⟩ := Prod.mk.inj (Except.ok.inj h)
    rw [← hp, ← hfound, hnext]
  | case9 _ _ _ _ _ _ _ _ _ next node hnext =>
    obtain ⟨hp, hfound⟩ := Prod.mk.inj (Except.ok.inj h)
    rw [← hp, ← hfound, hnext]
  | case5 _ _ _ _ _ _ ih | case6 _ _ _ _ _ _ _ ih => exact ih h
  | case11 _ _ _ _ _ _ _ _ _ _ _ _ _ _ _ _ _ ih => exact ih h
  | case12 _ _ _ _ _ _ _ _ _ _ _ _ _ ih => exact ih h

theorem Extends.goes_on (h : Extends files later) (hplace : ¬(!files.isDirectory place) = true) :
    ¬(!later.isDirectory place) = true := by
  simp only [Bool.not_eq_true', Bool.not_eq_false] at hplace ⊢
  exact h.isDirectory hplace

/-- A walk that leads to something leads to it in a larger tree. -/
theorem Extends.walk (h : Extends files later) {follow : Bool} {fuel links : Nat}
    {names : List Octets} (hwalk : files.walk follow fuel links place names = .ok (p, some node)) :
    later.walk follow fuel links place names = .ok (p, some node) := by
  fun_induction Files.walk files follow fuel links place names with
  | case1 | case3 | case4 | case8 | case10 => cases hwalk
  | case7 =>
    obtain ⟨-, hnone⟩ := Prod.mk.inj (Except.ok.inj hwalk)
    cases hnone
  | case2 fuel links place hfuel =>
    obtain ⟨rfl, hnode⟩ := Prod.mk.inj (Except.ok.inj hwalk)
    rcases fuel with _ | fuel
    · exact absurd rfl hfuel
    · unfold Files.walk
      rw [h place node hnode]
  | case5 fuel links place rest hdirectory hlength ih =>
    unfold Files.walk
    rw [if_neg (h.goes_on hdirectory), if_neg hlength, if_pos rfl]
    exact ih hwalk
  | case6 fuel links place rest hdirectory hlength hdot ih =>
    unfold Files.walk
    rw [if_neg (h.goes_on hdirectory), if_neg hlength, if_neg hdot, if_pos rfl]
    exact ih hwalk
  | case9 fuel links place name rest hdirectory hlength hdot hup next found hnext target hentry
      hlast =>
    unfold Files.walk
    rw [if_neg (h.goes_on hdirectory), if_neg hlength, if_neg hdot, if_neg hup]
    dsimp only
    rw [h next found hnext]
    dsimp only
    rw [hentry]
    dsimp only
    rw [if_pos hlast]
    exact hwalk
  | case11 fuel links place name rest hdirectory hlength hdot hup next found hnext target hentry
      hlast hlinks start ih =>
    unfold Files.walk
    rw [if_neg (h.goes_on hdirectory), if_neg hlength, if_neg hdot, if_neg hup]
    dsimp only
    rw [h next found hnext]
    dsimp only
    rw [hentry]
    dsimp only
    rw [if_neg hlast, if_neg hlinks]
    exact ih hwalk
  | case12 fuel links place name rest hdirectory hlength hdot hup next found hnext hentry ih =>
    unfold Files.walk
    rw [if_neg (h.goes_on hdirectory), if_neg hlength, if_neg hdot, if_neg hup]
    dsimp only
    rw [h next found hnext]
    dsimp only
    split
    · rename_i target hlink
      exact absurd hlink (hentry target)
    · exact ih hwalk

theorem node_of_walkPath {follow : Bool} {names : List Octets} {found : Option Node}
    (h : files.walkPath directory follow path names = .ok (p, found)) : found = files.node? p := by
  unfold Files.walkPath at h
  split at h
  · cases h
  · split at h
    · cases h
    · exact node_of_walk h

theorem Extends.walkPath (h : Extends files later) {follow : Bool} {names : List Octets}
    (hwalk : files.walkPath directory follow path names = .ok (p, some node)) :
    later.walkPath directory follow path names = .ok (p, some node) := by
  unfold Files.walkPath at hwalk ⊢
  split at hwalk
  · cases hwalk
  · rename_i hpath
    rw [if_neg hpath]
    split at hwalk
    · cases hwalk
    · rename_i hlength
      rw [if_neg hlength]
      exact h.walk hwalk

/-- A path leads to what its names lead to, which is a directory if the path ends in a slash. -/
theorem locate_eq_some_iff {follow : Bool} :
    files.locate directory follow path = .ok (p, some node) ↔
      files.walkPath directory (follow || endsInSlash path) path (names path) =
        .ok (p, some node) ∧
      (endsInSlash path = true → files.isDirectory p = true) := by
  unfold Files.locate
  simp only [bind, Except.bind, pure, Except.pure, throw, throwThe, MonadExceptOf.throw]
  rcases files.walkPath directory (follow || endsInSlash path) path (names path) with
    e | ⟨q, _ | found⟩
  · simp
  · cases endsInSlash path <;> simp
  · cases endsInSlash path
    · simp
    · by_cases hplace : q = p
      · subst hplace
        by_cases hdirectory : files.isDirectory q = true <;> simp [hdirectory]
      · by_cases hdirectory : files.isDirectory q = true <;> simp [hdirectory, hplace]

/-- A path that leads to nothing leads to a place where there is nothing. -/
theorem node_of_locate {follow : Bool}
    (h : files.locate directory follow path = .ok (p, none)) : files.node? p = none := by
  unfold Files.locate at h
  simp only [bind, Except.bind, pure, Except.pure, throw, throwThe, MonadExceptOf.throw] at h
  rcases hwalk : files.walkPath directory (follow || endsInSlash path) path (names path) with
    e | ⟨q, found⟩
  · rw [hwalk] at h
    cases h
  · have hfound := node_of_walkPath hwalk
    rw [hwalk] at h
    dsimp only at h
    rcases found with _ | found
    · split at h
      · cases h
      · cases h
        exact hfound.symm
    · split at h
      · dsimp only at h
        split at h
        · cases h
        · cases h
      · cases h

theorem find_eq_ok_iff {follow : Bool} :
    files.find directory follow path = .ok (p, node) ↔
      files.locate directory follow path = .ok (p, some node) := by
  unfold Files.find
  simp only [bind, Except.bind, pure, Except.pure, throw, throwThe, MonadExceptOf.throw]
  rcases files.locate directory follow path with e | ⟨q, _ | found⟩ <;> simp

/-- What is found in a tree is found in a larger one. -/
theorem Extends.find (h : Extends files later) {follow : Bool}
    (hfind : files.find directory follow path = .ok (p, node)) :
    later.find directory follow path = .ok (p, node) := by
  rw [find_eq_ok_iff, locate_eq_some_iff] at hfind ⊢
  exact ⟨h.walkPath hfind.1, fun hslash => h.isDirectory (hfind.2 hslash)⟩

/-- What is read in a tree is read in a larger one. -/
theorem Extends.read (h : Extends files later) {bytes : List UInt8}
    (hread : files.read directory path = .ok bytes) : later.read directory path = .ok bytes := by
  unfold Files.read at hread ⊢
  dsimp only [bind, Except.bind] at hread ⊢
  rcases hfind : files.find directory true path with e | ⟨q, found⟩
  · rw [hfind] at hread
    cases hread
  · rw [hfind] at hread
    rw [h.find hfind]
    exact hread

/-- A file is made only at a place where there is nothing. -/
theorem node_of_locateNew (h : files.locateNew directory path = .ok (p, none)) :
    files.node? p = none := by
  unfold Files.locateNew at h
  simp only [bind, Except.bind, throw, throwThe, MonadExceptOf.throw] at h
  split at h
  · split at h
    · cases h
    · split at h
      · cases h
      · split at h
        · cases h
        · cases h
  · exact node_of_locate h

end Files

namespace Machine

variable {m m' : Machine} {log path : String}

/-! ## The log -/

/-- To open a log makes a new file, if it changes anything. -/
theorem openLog_eq_ok (h : m.openLog log = .ok m') :
    m' = m ∨ ∃ place, m.files.node? place = none ∧ m' = m.setContent place [] := by
  unfold openLog at h
  simp only [bind, Except.bind, pure, Except.pure, throw, throwThe, MonadExceptOf.throw] at h
  rcases hpath : checkedPath log with e | octets
  · rw [hpath] at h
    cases h
  · rw [hpath] at h
    dsimp only at h
    rcases hplace : m.files.locateNew m.directory octets with e | ⟨place, found⟩
    · rw [hplace] at h
      cases h
    · rw [hplace] at h
      dsimp only at h
      split at h
      · cases h
        exact .inr ⟨place, Files.node_of_locateNew hplace, rfl⟩
      · cases h
      · cases h
      · cases h
        exact .inl rfl

/-- To open a log makes the tree of files larger, if it changes it at all. -/
theorem extends_of_openLog (h : m.openLog log = .ok m') :
    m.files.Extends m'.files ∧ m'.directory = m.directory := by
  rcases openLog_eq_ok h with rfl | ⟨place, hnew, rfl⟩
  · exact ⟨.refl _, rfl⟩
  · exact ⟨Files.extends_put hnew _, rfl⟩

/-- The log takes nothing away from what the tool reads. -/
theorem readText_openLog (h : m.openLog log = .ok m') {text : String}
    (hread : m.readText path = .ok text) : m'.readText path = .ok text := by
  obtain ⟨hextends, hdirectory⟩ := extends_of_openLog h
  unfold readText at hread ⊢
  simp only [bind, Except.bind] at hread ⊢
  rcases hpath : checkedPath path with e | octets
  · rw [hpath] at hread
    cases hread
  · rw [hpath] at hread
    dsimp only at hread ⊢
    rcases hbytes : m.files.read m.directory octets with e | bytes
    · rw [hbytes] at hread
      cases hread
    · rw [hbytes] at hread
      rw [hdirectory, hextends.read hbytes]
      exact hread

/-- The log takes nothing away from the corpus that the tool loads. -/
theorem loadCorpus_openLog (h : m.openLog log = .ok m') {settings : CorpusSettings}
    {corpus : Corpus} (hload : Application.loadCorpus system m settings = .ok corpus) :
    Application.loadCorpus system m' settings = .ok corpus := by
  unfold Application.loadCorpus Application.readFile at hload ⊢
  simp only [bind, Except.bind] at hload ⊢
  split at hload
  · rename_i file hfile
    dsimp only [system] at hload ⊢
    rcases hread : m.readText file with e | text
    · rw [hread] at hload
      cases hload
    · rw [hread] at hload
      rw [readText_openLog h hread]
      exact hload
  · exact hload

end Machine

end Transcript.Host

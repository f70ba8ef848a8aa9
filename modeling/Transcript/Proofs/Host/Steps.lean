-- What one step of the machine does to its processes. Every request that is answered, and every
-- step, changes the table of processes in the ways that are open to the process that makes it,
-- and a process that a signal has struck is left as it is until it goes.
import Transcript.Proofs.Host.Table

namespace Transcript.Host

/-! ## Processes and their rows -/

namespace Process

def row (p : Process) : Row := ⟨p.id, p.parent, p.isStruck, p.finished⟩

@[simp]
theorem row_id (p : Process) : p.row.id = p.id := rfl

@[simp]
theorem row_parent (p : Process) : p.row.parent = p.parent := rfl

@[simp]
theorem row_finished (p : Process) : p.row.finished = p.finished := rfl

@[simp]
theorem row_isEnding (p : Process) : p.row.isEnding = p.isEnding := rfl

/-- A process that a signal has struck does nothing any more but end, and nothing holds it up. -/
def Settled (p : Process) : Prop :=
  p.isStruck = true → p.finished = none →
    (∃ status, p.activity = .ended status) ∧ p.stopped = false ∧ p.isAsleep = false

theorem settled_of_not_struck {p : Process} (h : p.isStruck = false) : p.Settled := by
  intro hstruck
  rw [h] at hstruck
  cases hstruck

theorem settled_of_finished {p : Process} (h : p.finished.isSome = true) : p.Settled := by
  intro _ hgoing
  rw [hgoing] at h
  cases h

/-- What keeps a process settled: it may be woken, but not be put to sleep. -/
theorem Settled.congr {p q : Process} (h : p.Settled) (hstruck : q.isStruck = p.isStruck)
    (hfinished : q.finished = p.finished) (hactivity : q.activity = p.activity)
    (hstopped : q.stopped = p.stopped) (hasleep : q.isAsleep = true → p.isAsleep = true) :
    q.Settled := by
  intro hq hgoing
  rw [hstruck] at hq
  rw [hfinished] at hgoing
  obtain ⟨hended, hgoes, hawake⟩ := h hq hgoing
  refine ⟨by rw [hactivity]; exact hended, by rw [hstopped]; exact hgoes, ?_⟩
  rw [Bool.eq_false_iff]
  intro hsleeps
  rw [hasleep hsleeps] at hawake
  cases hawake

/-- A process that still asks for something was not struck. -/
theorem Settled.not_struck {p : Process} (h : p.Settled) (hgoing : p.finished = none)
    (hactive : ∀ status, p.activity ≠ .ended status) : p.isStruck = false := by
  rw [Bool.eq_false_iff]
  intro hstruck
  obtain ⟨⟨status, hended⟩, -⟩ := h hstruck hgoing
  exact hactive status hended

end Process

namespace Machine

variable {m m' : Machine} {p q : Process} {actor id number : Nat}

def table (m : Machine) : Table := ⟨m.processes.map Process.row, m.nextId⟩

/-- What no process can change: the network, the variables, the directory, the account and which
process is the server. -/
def setting (m : Machine) : Network × Keyed String × Place × Option String × Option Nat :=
  (m.network, m.environment, m.directory, m.accountHome, m.server)

/-- A machine whose table is sound, and whose processes are settled. -/
structure Orderly (m : Machine) : Prop where
  table : m.table.Sound
  settled : ∀ p ∈ m.processes, p.Settled

/-- What a process makes of an orderly machine. -/
structure Leads (actor : Nat) (m m' : Machine) : Prop where
  changes : Table.Changes actor m.table m'.table
  settled : ∀ p ∈ m'.processes, p.Settled
  setting : m'.setting = m.setting

theorem mem_rows (hp : p ∈ m.processes) : p.row ∈ m.table.rows := List.mem_map_of_mem hp

theorem Orderly.eq_of_id (hm : m.Orderly) (hp : p ∈ m.processes) (hq : q ∈ m.processes)
    (hid : q.id = p.id) : q = p := by
  have hnodup := hm.table.nodup
  unfold Machine.table at hnodup
  rw [List.map_map] at hnodup
  exact List.inj_on_of_nodup_map hnodup hq hp hid

theorem Orderly.outside_lt (hm : m.Orderly) (hp : p ∈ m.processes) : outside < p.id :=
  hm.table.above _ (mem_rows hp)

theorem Leads.refl (hm : m.Orderly) : m.Leads actor m := ⟨.refl, hm.settled, rfl⟩

theorem Leads.trans {m₁ m₂ m₃ : Machine} (h : Leads actor m₁ m₂) (h' : Leads actor m₂ m₃) :
    Leads actor m₁ m₃ :=
  ⟨h.changes.trans h'.changes, h'.settled, h'.setting.trans h.setting⟩

theorem Leads.orderly (h : Leads actor m m') (hm : m.Orderly) (hactor : outside < actor) :
    m'.Orderly :=
  ⟨((Table.Passes.refl).changes hactor h.changes).sound hm.table, h.settled⟩

/-- The same processes, as far as the table is concerned. -/
structure Keeps (m m' : Machine) : Prop where
  processes : ∃ change : Process → Process, m'.processes = m.processes.map change ∧
    ∀ p ∈ m.processes, (change p).row = p.row ∧ (p.Settled → (change p).Settled)
  nextId : m'.nextId = m.nextId
  setting : m'.setting = m.setting

theorem Keeps.of_same (hprocesses : m'.processes = m.processes) (hnext : m'.nextId = m.nextId)
    (hsetting : m'.setting = m.setting) : m.Keeps m' :=
  ⟨⟨id, by rw [hprocesses, List.map_id], fun _ _ => ⟨rfl, id⟩⟩, hnext, hsetting⟩

theorem Keeps.refl (m : Machine) : m.Keeps m := .of_same rfl rfl rfl

theorem Keeps.trans {m₁ m₂ m₃ : Machine} (h : m₁.Keeps m₂) (h' : m₂.Keeps m₃) : m₁.Keeps m₃ := by
  obtain ⟨change, hprocesses, hchange⟩ := h.processes
  obtain ⟨change', hprocesses', hchange'⟩ := h'.processes
  refine ⟨⟨change' ∘ change, ?_, ?_⟩, h'.nextId.trans h.nextId, h'.setting.trans h.setting⟩
  · rw [hprocesses', hprocesses, List.map_map]
  · intro p hp
    have hmem : change p ∈ m₂.processes := by
      rw [hprocesses]
      exact List.mem_map_of_mem hp
    obtain ⟨hrow, hsettled⟩ := hchange p hp
    obtain ⟨hrow', hsettled'⟩ := hchange' _ hmem
    exact ⟨hrow'.trans hrow, fun h => hsettled' (hsettled h)⟩

theorem Keeps.table (h : m.Keeps m') : m'.table = m.table := by
  obtain ⟨change, hprocesses, hchange⟩ := h.processes
  unfold Machine.table
  rw [hprocesses, h.nextId, List.map_map]
  congr 1
  apply List.map_congr_left
  intro p hp
  exact (hchange p hp).1

theorem Keeps.settled (h : m.Keeps m') (hm : ∀ p ∈ m.processes, p.Settled) :
    ∀ p ∈ m'.processes, p.Settled := by
  obtain ⟨change, hprocesses, hchange⟩ := h.processes
  intro q hq
  rw [hprocesses] at hq
  obtain ⟨p, hp, rfl⟩ := List.mem_map.mp hq
  exact (hchange p hp).2 (hm p hp)

theorem Keeps.leads (h : m.Keeps m') (hm : m.Orderly) : m.Leads actor m' :=
  ⟨by rw [h.table], h.settled hm.settled, h.setting⟩

/-- A change of one process that does not concern its row. -/
theorem keeps_update {f : Process → Process} (hrow : ∀ p, (f p).row = p.row)
    (hsettled : ∀ p ∈ m.processes, p.id = id → p.Settled → (f p).Settled) :
    m.Keeps (m.update id f) := by
  refine ⟨⟨fun p => if p.id = id then f p else p, rfl, ?_⟩, rfl, rfl⟩
  intro p hp
  dsimp only
  split
  · rename_i hid
    exact ⟨hrow p, hsettled p hp hid⟩
  · exact ⟨rfl, fun h => h⟩

/-- What a process goes on with does not concern its row, if no signal has struck it. -/
theorem keeps_update_going {f : Process → Process} (hrow : ∀ p, (f p).row = p.row)
    (hgoing : m.table.Going id) : m.Keeps (m.update id f) := by
  refine keeps_update hrow fun p hp hid _ hstruck hunfinished => ?_
  have hrowStruck : p.row.isStruck = true := by
    rw [← hrow]
    exact hstruck
  have hended := hgoing p.row (mem_rows hp) hid hrowStruck
  rw [← hrow, Process.row_finished, hunfinished] at hended
  cases hended

/-- A process that is not struck is the only one with its number. -/
theorem Orderly.going (hm : m.Orderly) (hp : p ∈ m.processes) (hstruck : p.isStruck = false) :
    m.table.Going p.id := by
  intro r hr hid hrowStruck
  rw [hm.table.eq_of_id (mem_rows hp) hr hid] at hrowStruck
  exact absurd hrowStruck (Bool.eq_false_iff.mp hstruck)

/-! ## Pipes and descriptors -/

/-- To let processes try to go on does not concern their rows. -/
theorem Keeps.wakeReaders (h : m.Keeps m') : m.Keeps m'.wakeReaders := by
  apply h.trans
  refine ⟨⟨fun p => if p.isAsleep ∧ p.usesPipe then { p with isAsleep := false } else p, rfl, ?_⟩,
    rfl, rfl⟩
  intro p _
  dsimp only
  split
  · exact ⟨rfl, fun h => h.congr rfl rfl rfl rfl nofun⟩
  · exact ⟨rfl, fun h => h⟩

theorem keeps_setPipe (m : Machine) (id : Nat) (pipe : Pipe) : m.Keeps (m.setPipe id pipe) := by
  unfold setPipe
  apply Keeps.wakeReaders
  exact .of_same rfl rfl rfl

theorem keeps_dropPipe (m : Machine) (id : Nat) : m.Keeps (m.dropPipe id) := by
  unfold dropPipe
  split
  · exact .refl m
  · exact .of_same rfl rfl rfl

theorem Keeps.foldl {α : Type} {step : Machine → α → Machine} (h : m.Keeps m')
    (hstep : ∀ m a, Keeps m (step m a)) (as : List α) : m.Keeps (as.foldl step m') := by
  induction as generalizing m' with
  | nil => exact h
  | cons a rest ih => exact ih (h.trans (hstep m' a))

theorem keeps_release (m : Machine) (handles : List Nat) : m.Keeps (m.release handles) := by
  unfold release
  dsimp only
  split
  · exact .refl m
  · apply Keeps.wakeReaders
    apply Keeps.foldl
    · exact .of_same rfl rfl rfl
    · intro m target
      split
      · exact keeps_dropPipe m _
      · exact keeps_dropPipe m _
      · exact .refl m

/-! ## The end of a process -/

/-- The processes that are left when one ends have the rows that are left then. -/
theorem map_row_finish (processes : List Process) (id parent : Nat) (status : ExitStatus)
    {ended told : Process → Process}
    (hended : ∀ p, (ended p).row = { p.row with finished := some status })
    (htold : ∀ p, (told p).row = p.row) :
    ((processes.filterMap fun p =>
        if p.id = id then some (ended p)
        else if p.parent = id then if p.finished.isSome then none else some { p with parent := 1 }
        else if p.id = parent then some (told p)
        else some p).filter fun p => p.id ≠ id || p.parent ≠ 1).map Process.row =
      (processes.map Process.row).filterMap (Row.afterEnd id status) := by
  rw [List.filter_filterMap, List.map_filterMap, List.filterMap_map]
  congr 1
  funext p
  have hendedId : (ended p).id = p.id := congrArg Row.id (hended p)
  have hendedParent : (ended p).parent = p.parent := congrArg Row.parent (hended p)
  have htoldId : (told p).id = p.id := congrArg Row.id (htold p)
  unfold Row.afterEnd
  simp only [Function.comp_apply, Process.row_id, Process.row_parent, Process.row_finished]
  by_cases hid : p.id = id
  · by_cases hroot : p.parent = 1 <;> simp [hid, hroot, hendedId, hendedParent, hended]
  · by_cases hchild : p.parent = id
    · by_cases hgone : p.finished.isSome = true
      · simp [hid, hchild, hgone]
      · simp [hid, hchild, hgone]
        rfl
    · by_cases hparent : p.id = parent
      · subst hparent
        simp [hid, hchild, htoldId, htold]
      · simp [hid, hchild, hparent]

/-- An end of a process changes the table just so. -/
theorem table_finish (m : Machine) (id : Nat) (status : ExitStatus) :
    (m.finish id status).table = m.table.each (Row.afterEnd id status) := by
  unfold finish
  dsimp only
  rw [(keeps_release _ _).table]
  unfold Machine.table Table.each
  congr 1
  apply map_row_finish
  · exact fun p => rfl
  · intro p
    split <;> rfl

theorem settled_finish (hm : ∀ p ∈ m.processes, p.Settled) (id : Nat) (status : ExitStatus) :
    ∀ p ∈ (m.finish id status).processes, p.Settled := by
  unfold finish
  dsimp only
  apply (keeps_release _ _).settled
  intro p hp
  obtain ⟨q, hq, hafter⟩ := List.mem_filterMap.mp (List.mem_of_mem_filter hp)
  split at hafter
  · cases hafter
    exact Process.settled_of_finished rfl
  · split at hafter
    · split at hafter
      · cases hafter
      · cases hafter
        exact hm q hq
    · split at hafter
      · cases hafter
        split <;> exact (hm q hq).congr rfl rfl rfl rfl nofun
      · cases hafter
        exact hm _ hq

/-- A process that has not ended ends. -/
theorem leads_finish (hm : m.Orderly) (hp : p ∈ m.processes) (hgoing : p.finished = none)
    (status : ExitStatus) : m.Leads actor (m.finish p.id status) := by
  refine ⟨.single ?_, settled_finish hm.settled p.id status, (keeps_release _ _).setting⟩
  rw [table_finish]
  exact .finish status (mem_rows hp) hgoing

/-! ## Signals -/

theorem table_update_strike (m : Machine) (id : Nat) {f : Process → Process}
    (hrow : ∀ p, (f p).row = { p.row with isStruck := true }) :
    (m.update id f).table = m.table.each (Row.afterStrike id) := by
  unfold update Machine.table Table.each
  dsimp only
  congr 1
  rw [List.map_map, List.filterMap_map, ← List.filterMap_eq_map]
  congr 1
  funext p
  unfold Row.afterStrike
  by_cases hid : p.id = id <;> simp [hid, hrow]

/-- A signal ends a process that is not about to end. Only its own signals end it at once. -/
theorem leads_strike (hm : m.Orderly) (hp : p ∈ m.processes) (hgoing : p.isEnding = false)
    {isOwn : Bool} (hother : isOwn = false → p.id ≠ actor) (number : Nat) :
    m.Leads actor (m.strike p.id number isOwn) := by
  unfold strike
  split
  · apply leads_finish hm hp
    unfold Process.isEnding at hgoing
    simpa using (Bool.or_eq_false_iff.mp hgoing).2
  · rename_i hown
    refine ⟨.single ?_, ?_, rfl⟩
    · rw [table_update_strike]
      · exact .strike (mem_rows hp) hgoing (hother ((Bool.not_eq_true _).mp hown))
      · exact fun q => rfl
    · intro q hq
      obtain ⟨r, hr, rfl⟩ := List.mem_map.mp hq
      dsimp only
      split
      · exact fun _ _ => ⟨⟨_, rfl⟩, rfl, rfl⟩
      · exact hm.settled r hr

theorem leads_deliver (hm : m.Orderly) (hp : p ∈ m.processes) (hgoing : p.isEnding = false)
    {isOwn : Bool} (hother : isOwn = false → p.id ≠ actor) (number : Nat) :
    m.Leads actor (m.deliver p number isOwn) := by
  have hstruck : p.isStruck = false := by
    unfold Process.isEnding at hgoing
    exact (Bool.or_eq_false_iff.mp hgoing).1
  unfold deliver
  split
  · exact leads_strike hm hp hgoing hother 9
  · split
    · apply Keeps.leads _ hm
      exact keeps_update (fun _ => rfl) fun q _ _ h => h.congr rfl rfl rfl rfl fun h => h
    · split
      · exact .refl hm
      · apply Keeps.leads _ hm
        apply keeps_update
        · intro q
          dsimp only
          split <;> rfl
        · intro q _ _ h
          dsimp only
          split
          · exact h.congr rfl rfl rfl rfl nofun
          · exact h.congr rfl rfl rfl rfl nofun
      · split
        · exact leads_strike hm hp hgoing hother number
        · apply Keeps.leads _ hm
          exact keeps_update_going (fun _ => rfl) (hm.going hp hstruck)
        · exact .refl hm

theorem process?_eq_some (h : m.process? id = some p) : p ∈ m.processes ∧ p.id = id := by
  unfold process? at h
  exact ⟨List.mem_of_find?_eq_some h, by simpa using List.find?_some h⟩

/-- The signals that came to a process while it was stopped arrive one after the other. -/
theorem leads_foldl_deliver (hactor : outside < actor) {isOwn : Bool}
    (hother : isOwn = false → id ≠ actor) (numbers : List Nat) (hm : m.Orderly) :
    m.Leads actor (numbers.foldl (fun m n =>
      match m.process? id with
      | some p => if p.isEnding then m else m.deliver p n isOwn
      | none => m) m) := by
  induction numbers generalizing m with
  | nil => exact .refl hm
  | cons n rest ih =>
    rw [List.foldl_cons]
    rcases hprocess : m.process? id with _ | p
    · exact ih hm
    · dsimp only
      obtain ⟨hp, hid⟩ := process?_eq_some hprocess
      split
      · exact ih hm
      · rename_i hending
        have hdeliver : m.Leads actor (m.deliver p n isOwn) := by
          apply leads_deliver hm hp ((Bool.not_eq_true _).mp hending)
          rw [hid]
          exact hother
        exact hdeliver.trans (ih (hdeliver.orderly hm hactor))

/-- A signal to a process. -/
theorem leads_signal (hm : m.Orderly) (hactor : outside < actor) {isOwn : Bool}
    (hother : isOwn = false → id ≠ actor) (number : Nat) :
    m.Leads actor (m.signal id number isOwn) := by
  unfold signal
  rcases hprocess : m.process? id with _ | p
  · exact .refl hm
  · dsimp only
    obtain ⟨hp, hid⟩ := process?_eq_some hprocess
    split
    · exact .refl hm
    · rename_i hending
      have hgoing : p.isEnding = false := by
        rw [Bool.eq_false_iff]
        exact fun h => hending (.inl h)
      split
      · have hstruck : p.isStruck = false := by
          unfold Process.isEnding at hgoing
          exact (Bool.or_eq_false_iff.mp hgoing).1
        have hgoes :
            m.Leads actor (m.update id fun p => { p with stopped := false, held := [] }) := by
          apply Keeps.leads _ hm
          rw [← hid]
          exact keeps_update_going (fun _ => rfl) (hm.going hp hstruck)
        exact hgoes.trans (leads_foldl_deliver hactor hother _ (hgoes.orderly hm hactor))
      · apply leads_deliver hm hp hgoing
        rw [hid]
        exact hother

/-! ## Answers -/

/-- What an answered request makes of an orderly machine, or one after which the process does not
go on from there. -/
def Response.Leads {α : Type} (actor : Nat) (m : Machine) : Response α → Prop
  | .answer _ m' => m.Leads actor m'
  | .blocked => True
  | .gone m' => m.Leads actor m'

theorem leads_setContent (hm : m.Orderly) (place : Place) (bytes : List UInt8) :
    m.Leads actor (m.setContent place bytes) :=
  Keeps.leads (.of_same rfl rfl rfl) hm

theorem leads_read (hm : m.Orderly) (p : Process) (descriptor count : Nat) :
    Response.Leads actor m (m.read p descriptor count) := by
  unfold read
  split
  · exact .refl hm
  · split
    · exact .refl hm
    · split
      · exact Keeps.leads (.of_same rfl rfl rfl) hm
      · exact .refl hm
      · exact .refl hm
      · exact .refl hm
      · exact .refl hm
      · exact .refl hm
      · dsimp only
        split
        · exact (keeps_setPipe _ _ _).leads hm
        · split
          · split
            · exact .refl hm
            · trivial
          · exact .refl hm

theorem leads_write (hm : m.Orderly) (hp : outside < p.id) (descriptor : Nat) (bytes : Octets) :
    Response.Leads p.id m (m.write p descriptor bytes) := by
  unfold write
  split
  · exact .refl hm
  · split
    · exact .refl hm
    · split
      · exact Keeps.leads (.of_same rfl rfl rfl) hm
      · exact .refl hm
      · exact .refl hm
      · exact .refl hm
      · exact .refl hm
      · split
        · have hsignal : m.Leads p.id (m.signal p.id 13 true) :=
            leads_signal hm hp (fun h => absurd h (by decide)) 13
          dsimp only
          split
          · exact hsignal
          · exact hsignal
        · dsimp only
          generalize (if m.drained.contains _ = true then _ else _) = room
          split
          · exact (keeps_setPipe _ _ _).leads hm
          · trivial

/-- Numbers that are used up change nothing else. -/
theorem leads_of_use (hm : m.Orderly) (count : Nat) (hprocesses : m'.processes = m.processes)
    (hnext : m'.nextId = m.nextId + count) (hsetting : m'.setting = m.setting) :
    m.Leads actor m' := by
  refine ⟨?_, by rw [hprocesses]; exact hm.settled, hsetting⟩
  have htable : m'.table = { m.table with next := m.table.next + count } := by
    unfold Machine.table
    rw [hprocesses, hnext]
  rw [htable]
  exact .single (.use _ _)

/-- A machine that keeps the rows of one to which the same process has led. -/
theorem Leads.keeps (h : m.Leads actor m') (hm : m.Orderly) (hactor : outside < actor)
    {after : Machine} (h' : m'.Keeps after) : m.Leads actor after :=
  h.trans (h'.leads (h.orderly hm hactor))

theorem keeps_update_same {f : Process → Process} (m : Machine) (id : Nat)
    (hrow : ∀ p, (f p).row = p.row) (hactivity : ∀ p, (f p).activity = p.activity)
    (hstopped : ∀ p, (f p).stopped = p.stopped) (hasleep : ∀ p, (f p).isAsleep = p.isAsleep) :
    m.Keeps (m.update id f) := by
  refine keeps_update hrow fun p _ _ h => h.congr ?_ ?_ (hactivity p) (hstopped p) ?_
  · exact congrArg Row.isStruck (hrow p)
  · exact congrArg Row.finished (hrow p)
  · rw [hasleep p]
    exact fun h => h

theorem leads_openTarget (hm : m.Orderly) (hactor : outside < actor) (p : Process)
    (target : Target) (use : OpenUse) :
    Response.Leads actor m (m.openTarget p target use) := by
  unfold openTarget fresh
  have hopened : m.Leads actor { m with
      nextId := m.nextId + 1
      openFiles := (m.nextId, ⟨target, use.reads, use.writes, use.appends, 0⟩) :: m.openFiles } :=
    leads_of_use hm 1 rfl rfl rfl
  exact hopened.keeps hm hactor
    (keeps_update_same _ _ (fun _ => rfl) (fun _ => rfl) (fun _ => rfl) fun _ => rfl)

theorem Leads.after {α : Type} (h : m.Leads actor m') {response : Response α}
    (h' : Response.Leads actor m' response) : Response.Leads actor m response := by
  cases response with
  | answer a after => exact h.trans h'
  | blocked => trivial
  | gone after => exact h.trans h'

/-- A file is opened, and may be made or lose its content before. -/
theorem leads_openCut (hm : m.Orderly) (hactor : outside < actor) (p : Process) (place : Place)
    (isCut : Bool) (target : Target) (use : OpenUse) :
    Response.Leads actor m
      ((if isCut then m.setContent place [] else m).openTarget p target use) := by
  split
  · have hcut : m.Leads actor (m.setContent place []) := leads_setContent hm place []
    exact hcut.after (leads_openTarget (hcut.orderly hm hactor) hactor p target use)
  · exact leads_openTarget hm hactor p target use

theorem leads_reopen (hm : m.Orderly) (hactor : outside < actor) (p : Process)
    (descriptor : Nat) (use : OpenUse) :
    Response.Leads actor m (m.reopen p descriptor use) := by
  unfold reopen
  split
  · exact .refl hm
  · split
    · exact leads_openCut hm hactor p _ use.truncates _ use
    · split
      · exact .refl hm
      · exact leads_openTarget hm hactor p _ use
    · exact leads_openTarget hm hactor p _ use
    · exact leads_openTarget hm hactor p _ use
    · exact leads_openTarget hm hactor p _ use

theorem leads_openAt (hm : m.Orderly) (hactor : outside < actor) (p : Process) (path : Octets)
    (use : OpenUse) : Response.Leads actor m (m.openAt p path use) := by
  unfold openAt
  dsimp only
  split
  · exact .refl hm
  · split
    · exact leads_openCut hm hactor p _ true _ use
    · exact .refl hm
  · split
    · exact .refl hm
    · split
      · split
        · exact .refl hm
        · exact leads_openTarget hm hactor p _ use
      · exact leads_openCut hm hactor p _ use.truncates _ use
      · split
        · exact .refl hm
        · exact leads_openTarget hm hactor p _ use
      · exact .refl hm
      · exact leads_reopen hm hactor p _ use
      · exact .refl hm
      · exact leads_openTarget hm hactor p _ use

theorem leads_setTime (hm : m.Orderly) (p : Process) (path : Octets) (time : FileTime) :
    m.Leads actor (m.setTime p path time).2 := by
  unfold setTime
  split
  · exact .refl hm
  · dsimp only
    split
    · exact .refl hm
    · exact Keeps.leads (.of_same rfl rfl rfl) hm

theorem leads_reach (hm : m.Orderly) (port : Nat) (words : List String) :
    m.Leads actor (m.reach port words).2 := by
  unfold reach
  split
  · exact .refl hm
  · exact .refl hm
  · exact Keeps.leads (.of_same rfl rfl rfl) hm

theorem table_filter (m : Machine) (id : Nat) :
    Machine.table { m with processes := m.processes.filter fun p => p.id ≠ id } =
      m.table.each (Row.afterDrop id) := by
  unfold Machine.table Table.each
  congr 1
  rw [List.filterMap_map, ← List.filterMap_eq_map, List.filterMap_filter]
  congr 1
  funext p
  unfold Row.afterDrop
  by_cases hid : p.id = id <;> simp [hid]

/-- The process that is waited for has ended, and is a child of the one that waits. -/
theorem leads_wait (hm : m.Orderly) (p : Process) (patience : Patience) :
    Response.Leads p.id m (m.wait p patience) := by
  unfold wait
  dsimp only
  split
  · rename_i id status hended
    obtain ⟨child, hchild, hstatus⟩ := List.exists_of_findSome?_eq_some hended
    obtain ⟨hmem, hparent⟩ := List.mem_filter.mp hchild
    obtain ⟨_, hfinished, hpair⟩ := Option.map_eq_some_iff.mp hstatus
    cases hpair
    refine ⟨.single ?_, fun q hq => hm.settled q (List.mem_of_mem_filter hq), rfl⟩
    rw [table_filter]
    refine .reap (mem_rows hmem) (of_decide_eq_true hparent) ?_
    rw [Process.row_finished, hfinished]
    rfl
  · split
    · exact .refl hm
    · split
      · exact .refl hm
      · trivial
      · split
        · exact .refl hm
        · trivial

/-- A program in the place of what a process did. -/
theorem leads_execute (hm : m.Orderly) (hgoing : m.table.Going p.id) (load : Call → Activity)
    (path : Octets) (arguments : List Octets) (environment : List (Octets × Octets)) :
    Response.Leads p.id m (m.execute load p path arguments environment) := by
  unfold execute
  split
  · exact .refl hm
  · split
    · exact .refl hm
    · dsimp only
      refine Keeps.leads (Keeps.trans ?_ (keeps_release _ _)) hm
      exact keeps_update_going (fun _ => rfl) hgoing

/-- A signal that a process asks for is its own where it sends it to itself. -/
theorem leads_respond_signal (hm : m.Orderly) (hactor : outside < p.id) (id number : Nat) :
    m.Leads p.id (m.signal id number (id = p.id)) := by
  apply leads_signal hm hactor
  intro hother
  exact of_decide_eq_false hother

/-- A pipe takes three numbers. -/
theorem leads_respond_pipe (hm : m.Orderly) (hactor : outside < p.id) (load : Call → Activity) :
    Response.Leads p.id m (m.respond load p .pipe) := by
  unfold respond fresh
  dsimp only
  have hmade : m.Leads p.id { m with
      nextId := m.nextId + 1 + 1 + 1
      pipes := (m.nextId, .empty) :: m.pipes
      openFiles := (m.nextId + 1, ⟨.pipeOut m.nextId, true, false, false, 0⟩) ::
        (m.nextId + 1 + 1, ⟨.pipeIn m.nextId, false, true, false, 0⟩) :: m.openFiles } :=
    leads_of_use hm 3 rfl rfl rfl
  refine hmade.keeps hm hactor ?_
  exact keeps_update_same _ _ (fun _ => rfl) (fun _ => rfl) (fun _ => rfl) fun _ => rfl

/-- What a process changes of itself, its row and what it does next left aside. -/
theorem leads_update_same {f : Process → Process} (hm : m.Orderly)
    (hrow : ∀ p, (f p).row = p.row) (hactivity : ∀ p, (f p).activity = p.activity)
    (hstopped : ∀ p, (f p).stopped = p.stopped) (hasleep : ∀ p, (f p).isAsleep = p.isAsleep) :
    m.Leads actor (m.update id f) :=
  (keeps_update_same m id hrow hactivity hstopped hasleep).leads hm

/-- Every request that is answered changes the machine as the process that makes it may. -/
theorem leads_respond (hm : m.Orderly) (hp : p ∈ m.processes) (hgoing : m.table.Going p.id)
    (load : Call → Activity) (request : Request) :
    Response.Leads p.id m (m.respond load p request) := by
  have hactor : outside < p.id := hm.outside_lt hp
  cases request with
  | read descriptor count => exact leads_read hm p descriptor count
  | write descriptor bytes => exact leads_write hm hactor descriptor bytes
  | openFile path use => exact leads_openAt hm hactor p path use
  | close descriptor =>
    unfold respond
    refine Keeps.leads (Keeps.trans ?_ (keeps_release _ _)) hm
    exact keeps_update_same _ _ (fun _ => rfl) (fun _ => rfl) (fun _ => rfl) fun _ => rfl
  | duplicate descriptor least =>
    unfold respond
    dsimp only
    split
    · exact .refl hm
    · apply leads_update_same hm <;> exact fun _ => rfl
  | duplicateTo descriptor number =>
    unfold respond
    dsimp only
    split
    · exact .refl hm
    · split
      · exact .refl hm
      · refine Keeps.leads (Keeps.trans ?_ (keeps_release _ _)) hm
        exact keeps_update_same _ _ (fun _ => rfl) (fun _ => rfl) (fun _ => rfl) fun _ => rfl
  | pipe => exact leads_respond_pipe hm hactor load
  | status path follow => exact .refl hm
  | openStatus descriptor => exact .refl hm
  | list path => exact .refl hm
  | enter path =>
    unfold respond
    dsimp only
    split
    · exact .refl hm
    · apply leads_update_same hm <;> exact fun _ => rfl
  | directory => exact .refl hm
  | setTime path time => exact leads_setTime hm p path time
  | signal id number =>
    unfold respond
    dsimp only
    split
    · exact .refl hm
    · exact leads_respond_signal hm hactor id number
  | handle number disposition =>
    unfold respond
    apply leads_update_same hm <;> exact fun _ => rfl
  | caught =>
    unfold respond
    dsimp only
    split
    · exact .refl hm
    · apply leads_update_same hm <;> exact fun _ => rfl
  | wait patience => exact leads_wait hm p patience
  | pause time => trivial
  | execute path arguments environment =>
    exact leads_execute hm hgoing load path arguments environment
  | identity => exact .refl hm
  | mask new =>
    unfold respond
    apply leads_update_same hm <;> exact fun _ => rfl
  | time => exact .refl hm
  | serve port =>
    unfold respond
    dsimp only
    split
    · exact .refl hm
    · exact Keeps.leads (.of_same rfl rfl rfl) hm
  | reach port words => exact leads_reach hm port words

/-! ## One step -/

/-- A machine whose time has moved on is one that keeps the rows. -/
theorem keeps_clock (m : Machine) (clock : Nat) : m.Keeps { m with clock := clock } :=
  .of_same rfl rfl rfl

theorem Orderly.clock (hm : m.Orderly) (clock : Nat) : Orderly { m with clock := clock } :=
  ⟨hm.table, hm.settled⟩

/-- A process is copied, and goes on beside its child. -/
theorem leads_fork {f : Process → Process} {child : Process} (hm : m.Orderly)
    (hgoing : m.table.Going p.id) (hrow : ∀ p, (f p).row = p.row)
    (hchild : child.row = ⟨m.nextId, p.id, false, none⟩) :
    m.Leads p.id { m.fresh.2.update p.id f with
      processes := (m.fresh.2.update p.id f).processes ++ [child] } := by
  have hkeeps : m.Keeps (m.update p.id f) := keeps_update_going hrow hgoing
  refine ⟨.single ?_, ?_, rfl⟩
  · have htable : Machine.table { m.fresh.2.update p.id f with
          processes := (m.fresh.2.update p.id f).processes ++ [child] } =
        ⟨m.table.rows ++ [⟨m.table.next, p.id, false, none⟩], m.table.next + 1⟩ := by
      rw [← hkeeps.table]
      unfold Machine.table
      rw [List.map_append, List.map_singleton, hchild]
      rfl
    rw [htable]
    exact .start _
  · intro q hq
    rcases List.mem_append.mp hq with hq | hq
    · exact hkeeps.settled hm.settled q hq
    · rw [List.mem_singleton.mp hq]
      exact Process.settled_of_not_struck (congrArg Row.isStruck hchild)

/-- One step of a process that has not ended. -/
theorem step_leads (hm : m.Orderly) (hp : p ∈ m.processes) (hgoing : p.finished = none)
    (load : Call → Activity) : m.Leads p.id (m.step load p) := by
  have hactor : outside < p.id := hm.outside_lt hp
  have hclock := hm.clock (max m.clock p.ready)
  have hpassed : m.Leads p.id { m with clock := max m.clock p.ready } :=
    (keeps_clock m _).leads hm
  have hasking (h : ∀ status, p.activity ≠ .ended status) : p.isStruck = false :=
    (hm.settled p hp).not_struck hgoing h
  unfold step
  dsimp only
  split
  · exact hpassed.trans (leads_finish hclock hp hgoing _)
  · rename_i activity next hactivity
    have hstruck := hasking (by rw [hactivity]; exact nofun)
    apply hpassed.trans
    refine leads_fork hclock (hclock.going hp hstruck) ?_ ?_
    · exact fun _ => rfl
    · unfold Process.row child
      dsimp only
      rw [hstruck, hgoing]
      rfl
  · rename_i time next hactivity
    have hstruck := hasking (by rw [hactivity]; exact nofun)
    apply hpassed.keeps hm hactor
    exact keeps_update_going (fun _ => rfl) (hclock.going hp hstruck)
  · rename_i request next _ hactivity
    have hstruck := hasking (by rw [hactivity]; exact nofun)
    have htable := hclock.going hp hstruck
    have hresponse := leads_respond hclock hp htable load request
    split
    · rename_i a after hanswer
      rw [hanswer] at hresponse
      apply hpassed.trans
      apply Leads.keeps hresponse hclock hactor
      exact keeps_update_going (fun _ => rfl) (hresponse.changes.going htable)
    · apply Keeps.leads _ hm
      exact keeps_update_going (fun _ => rfl) (hm.going hp hstruck)
    · rename_i after hgone
      rw [hgone] at hresponse
      exact hpassed.trans hresponse

/-! ## Many steps -/

/-- The process that goes on next is one of the machine that has not ended. -/
theorem next?_eq_some {limit : Option Nat} (h : m.next? limit = some p) :
    p ∈ m.processes ∧ p.finished = none := by
  have hfirst : ∀ q ∈ m.next? limit, q ∈ m.processes ∧ q.finished = none := by
    unfold next?
    refine List.foldlRecOn (motive := fun first => ∀ q ∈ first, q ∈ m.processes ∧ q.finished = none)
      m.processes _ nofun ?_
    intro first hfirst q hq r hr
    split at hr
    · exact hfirst r hr
    · rename_i hdue
      have hgoing : q ∈ m.processes ∧ q.finished = none := by
        refine ⟨hq, ?_⟩
        simp at hdue
        exact hdue.1.1.1
      cases first with
      | none =>
        cases hr
        exact hgoing
      | some s =>
        cases hr
        simp only [Option.map_some, Option.getD_some]
        unfold earlier
        split
        · exact hgoing
        · exact hfirst s rfl
  exact hfirst p h

/-- What the processes of a machine make of it, one after the other. -/
structure Runs (m m' : Machine) : Prop where
  passes : m.table.Passes m'.table
  orderly : m'.Orderly
  setting : m'.setting = m.setting

theorem Runs.refl (hm : m.Orderly) : m.Runs m := ⟨.refl, hm, rfl⟩

theorem Runs.leads (h : m.Runs m') {after : Machine} (hactor : outside < actor)
    (h' : Leads actor m' after) : m.Runs after :=
  ⟨h.passes.changes hactor h'.changes, h'.orderly h.orderly hactor, h'.setting.trans h.setting⟩

theorem Runs.trans {m₁ m₂ m₃ : Machine} (h : m₁.Runs m₂) (h' : m₂.Runs m₃) : m₁.Runs m₃ :=
  ⟨h.passes.trans h'.passes, h'.orderly, h'.setting.trans h.setting⟩

/-- However long processes go on, they do to the machine what they may. -/
theorem runs_runWhile (load : Call → Activity) (limit : Option Nat) (goesOn : Machine → Bool)
    (fuel : Nat) (hm : m.Orderly) : m.Runs (m.runWhile load limit goesOn fuel) := by
  induction fuel generalizing m with
  | zero => exact .refl hm
  | succ fuel ih =>
    unfold runWhile
    split
    · exact .refl hm
    · split
      · rename_i p hnext
        obtain ⟨hp, hgoing⟩ := next?_eq_some hnext
        have hstep := (Runs.refl hm).leads (hm.outside_lt hp) (step_leads hm hp hgoing load)
        exact hstep.trans (ih hstep.orderly)
      · exact ⟨.refl, hm.clock _, rfl⟩

end Machine

end Transcript.Host

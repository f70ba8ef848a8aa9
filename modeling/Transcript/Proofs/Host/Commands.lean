-- What comes of a command on a machine. A program that does no more than write and end is followed
-- from its start to its end on a machine at rest: what came of it are its bytes and its status,
-- and the machine is at rest again, with the files that it had. So a run of such commands passes
-- exactly if each writes just what is expected of it.
import Transcript.Proofs.Host.Lifecycle

namespace Transcript.Host

/-! ## Pipes -/

namespace Pipe

theorem bytes_put (p : Pipe) (bytes : Octets) : (p.put bytes).bytes = p.bytes ++ bytes := by
  simp [put, Pipe.bytes]

end Pipe

namespace Machine

theorem pipe_setPipe (m : Machine) (id other : Nat) (pipe : Pipe) :
    (m.setPipe id pipe).pipe other = if other = id then pipe else m.pipe other := by
  unfold setPipe wakeReaders Machine.pipe
  dsimp only
  rw [lookup_putAt]
  split <;> rfl

end Machine

/-! ## Programs that write and end -/

namespace Activity

/-- What an activity does that writes to its output and its error output and ends: how often it
writes at the most, what it writes to each, and how it ends. -/
inductive Prints : Activity → Nat → Octets → Octets → ExitStatus → Prop where
  | ended (status : ExitStatus) (limit : Nat) : Prints (.ended status) limit [] [] status
  | out {bytes : Octets} {next : Except HostError Nat → Activity} {limit : Nat} {out err : Octets}
      {status : ExitStatus} : Prints (next (.ok bytes.length)) limit out err status →
      Prints (.ask (.write 1 bytes) next) (limit + 1) (bytes ++ out) err status
  | err {bytes : Octets} {next : Except HostError Nat → Activity} {limit : Nat} {out err : Octets}
      {status : ExitStatus} : Prints (next (.ok bytes.length)) limit out err status →
      Prints (.ask (.write 2 bytes) next) (limit + 1) out (bytes ++ err) status

theorem Prints.mono {activity : Activity} {limit : Nat} {out err : Octets} {status : ExitStatus}
    (h : activity.Prints limit out err status) :
    ∀ {more : Nat}, limit ≤ more → activity.Prints more out err status := by
  induction h with
  | ended status limit => exact fun _ => .ended status _
  | out hprints ih =>
    intro more hmore
    obtain ⟨more, rfl⟩ : ∃ rest, more = rest + 1 := ⟨more - 1, by omega⟩
    exact .out (ih (by omega))
  | err hprints ih =>
    intro more hmore
    obtain ⟨more, rfl⟩ : ∃ rest, more = rest + 1 := ⟨more - 1, by omega⟩
    exact .err (ih (by omega))

end Activity

namespace Machine

variable {m m' : Machine} {p : Process} {n : Nat} {out err : Octets}

/-! ## A process by itself -/

/-- The descriptors of a process that was started from outside, by its number. -/
def channels (n : Nat) : List (Nat × Descriptor) :=
  [(0, ⟨n + 3, false⟩), (1, ⟨n + 4, false⟩), (2, ⟨n + 5, false⟩)]

/-- The open files behind them. -/
def channelFiles (n : Nat) : List (Nat × OpenFile) :=
  [(n + 3, ⟨.device ["dev".toList, "null".toList] .void, true, false, false, 0⟩),
    (n + 4, ⟨.pipeIn (n + 1), false, true, false, 0⟩),
    (n + 5, ⟨.pipeIn (n + 2), false, true, false, 0⟩)]

/-- A process that is the only one that goes on, with what it has written so far. -/
structure Solo (n : Nat) (p : Process) (out err : Octets) (m : Machine) : Prop where
  orderly : m.Orderly
  mem : p ∈ m.processes
  id_eq : p.id = n
  parent : p.parent = outside
  going : p.finished = none
  awake : p.stopped = false ∧ p.isAsleep = false
  descriptors : p.descriptors = channels n
  others : ∀ q ∈ m.processes, q.id ≠ n → q.finished.isSome = true ∧ q.descriptors = []
  openFiles : m.openFiles = channelFiles n
  out : (m.pipe (n + 1)).bytes = out
  err : (m.pipe (n + 2)).bytes = err
  drained : n + 1 ∈ m.drained ∧ n + 2 ∈ m.drained

/-- A machine at rest: every process on it has ended, and nothing is open. -/
structure Resting (m : Machine) : Prop where
  orderly : m.Orderly
  ended : ∀ p ∈ m.processes, p.finished.isSome = true ∧ p.descriptors = []
  openFiles : m.openFiles = []

/-- A process that is started on a machine at rest is by itself. -/
theorem solo_begin (hm : m.Resting) (start : Start) :
    ∃ p, Solo m.nextId p [] [] (m.begin start).2 ∧
      p.activity = load ⟨start.program, start.arguments, start.environment⟩ := by
  obtain ⟨-, hbegun, -, p, hprocesses, hrow⟩ := begin_spec hm.orderly start
  have hlast : p ∈ (m.begin start).2.processes := by
    rw [hprocesses]
    exact List.mem_append_right _ (List.mem_singleton.mpr rfl)
  have hsame : ∃ q, (m.begin start).2.processes = m.processes ++ [q] ∧
      q.descriptors = channels m.nextId ∧ q.stopped = false ∧ q.isAsleep = false ∧
      q.activity = load ⟨start.program, start.arguments, start.environment⟩ :=
    ⟨_, rfl, rfl, rfl, rfl, rfl⟩
  obtain ⟨q, hq, hdescriptors, hstopped, hasleep, hactivity⟩ := hsame
  rw [hprocesses] at hq
  obtain rfl : p = q := by simpa using hq
  refine ⟨p, ?_, hactivity⟩
  constructor
  case orderly => exact hbegun
  case mem => exact hlast
  case id_eq => exact congrArg Row.id hrow
  case parent => exact congrArg Row.parent hrow
  case going => exact congrArg Row.finished hrow
  case awake => exact ⟨hstopped, hasleep⟩
  case descriptors => exact hdescriptors
  case others =>
    intro r hr hother
    rw [hprocesses] at hr
    rcases List.mem_append.mp hr with hr | hr
    · exact hm.ended r hr
    · rw [List.mem_singleton.mp hr] at hother
      exact absurd (congrArg Row.id hrow) hother
  case openFiles =>
    have hopened : (m.begin start).2.openFiles = channelFiles m.nextId ++ m.openFiles := rfl
    rw [hopened, hm.openFiles, List.append_nil]
  case out =>
    have hpipes : (m.begin start).2.pipes =
        (m.nextId + 1, .empty) :: (m.nextId + 2, .empty) :: m.pipes := rfl
    unfold Machine.pipe
    rw [hpipes, lookup_entry, if_pos rfl]
    rfl
  case err =>
    have hpipes : (m.begin start).2.pipes =
        (m.nextId + 1, .empty) :: (m.nextId + 2, .empty) :: m.pipes := rfl
    unfold Machine.pipe
    rw [hpipes, lookup_entry, if_neg (by omega), lookup_entry, if_pos rfl]
    rfl
  case drained =>
    have hdrained : (m.begin start).2.drained = (m.nextId + 1) :: (m.nextId + 2) :: m.drained := rfl
    rw [hdrained]
    exact ⟨List.mem_cons_self, List.mem_cons_of_mem _ List.mem_cons_self⟩

/-- The only process that is due is the first of those that are. -/
theorem foldl_earlier {isDue : Process → Bool} (hdue : isDue p = true) (processes : List Process)
    (honly : ∀ q ∈ processes, isDue q = true → q = p) {first : Option Process}
    (hfirst : first = some p ∨ first = none ∧ p ∈ processes) :
    processes.foldl (fun first q =>
      if !isDue q then first else some ((first.map fun r => earlier r q).getD q)) first =
        some p := by
  induction processes generalizing first with
  | nil =>
    rcases hfirst with rfl | ⟨-, hmem⟩
    · rfl
    · cases hmem
  | cons q rest ih =>
    rw [List.foldl_cons]
    apply ih fun r hr => honly r (List.mem_cons_of_mem q hr)
    by_cases hq : isDue q = true
    · have hsame := honly q List.mem_cons_self hq
      subst hsame
      left
      rw [if_neg (by simp [hq])]
      rcases hfirst with rfl | ⟨rfl, -⟩
      · simp [earlier]
      · rfl
    · rw [if_pos (by simp [hq])]
      rcases hfirst with rfl | ⟨rfl, hmem⟩
      · exact .inl rfl
      · rcases List.mem_cons.mp hmem with rfl | hmem
        · exact absurd hdue hq
        · exact .inr ⟨rfl, hmem⟩

/-- A process by itself is the one that goes on next. -/
theorem next?_eq_of_solo (hm : Solo n p out err m) : m.next? none = some p := by
  unfold next?
  apply foldl_earlier
  · simp [hm.going, hm.awake.1, hm.awake.2]
  · intro q hq hdue
    by_contra hother
    have hid : q.id ≠ n := by
      rintro rfl
      exact hother (hm.orderly.eq_of_id hm.mem hq hm.id_eq.symm)
    have hended := (hm.others q hq hid).1
    rw [Option.isSome_iff_ne_none] at hended
    simp at hdue
    exact hended hdue.1.1
  · exact .inr ⟨rfl, hm.mem⟩

/-! ## Writing -/

theorem Solo.clock (hm : Solo n p out err m) (clock : Nat) :
    Solo n p out err { m with clock := clock } :=
  { hm with orderly := hm.orderly.clock clock }

/-- What a process by itself writes to its output or its error output is taken at once. -/
theorem write_of_solo (hm : Solo n p out err m) {d : Nat} (hd : d = 1 ∨ d = 2) (bytes : Octets) :
    m.write p d bytes =
      .answer (.ok bytes.length) (m.setPipe (n + d) ((m.pipe (n + d)).put bytes)) := by
  have hopen : m.openFile? p d = some (n + 3 + d, ⟨.pipeIn (n + d), false, true, false, 0⟩) := by
    unfold openFile? Process.handle?
    rw [hm.descriptors, hm.openFiles]
    rcases hd with rfl | rfl <;> simp [channels, channelFiles, lookup_entry]
  have hdrained : n + d ∈ m.drained := by
    rcases hd with rfl | rfl
    · exact hm.drained.1
    · exact hm.drained.2
  unfold write hasReader
  rw [hopen]
  simp [hdrained]

theorem mem_processes_setPipe {pipe : Pipe} {id : Nat} (hp : p ∈ m.processes)
    (hawake : p.isAsleep = false) : p ∈ (m.setPipe id pipe).processes := by
  refine List.mem_map.mpr ⟨p, hp, if_neg ?_⟩
  simp [hawake]

theorem exists_of_mem_setPipe {pipe : Pipe} {id : Nat} {q : Process}
    (h : q ∈ (m.setPipe id pipe).processes) :
    ∃ r ∈ m.processes, q.id = r.id ∧ q.finished = r.finished ∧ q.descriptors = r.descriptors := by
  obtain ⟨r, hr, rfl⟩ := List.mem_map.mp h
  refine ⟨r, hr, ?_⟩
  split
  · exact ⟨rfl, rfl, rfl⟩
  · exact ⟨rfl, rfl, rfl⟩

theorem mem_processes_update {f : Process → Process} (hp : p ∈ m.processes) :
    f p ∈ (m.update p.id f).processes :=
  List.mem_map.mpr ⟨p, hp, if_pos rfl⟩

theorem mem_of_mem_update {f : Process → Process} {id : Nat} {q : Process}
    (h : q ∈ (m.update id f).processes) (hf : ∀ p, (f p).id = p.id) (hid : q.id ≠ id) :
    q ∈ m.processes := by
  obtain ⟨r, hr, rfl⟩ := List.mem_map.mp h
  split at hid
  · rename_i hsame
    exact absurd ((hf r).trans hsame) hid
  · rename_i hother
    rw [if_neg hother]
    exact hr

/-- The machine after a step in which a process by itself has written. -/
theorem exists_step_eq_of_write (hm : Solo n p out err m) (load : Call → Activity) {d : Nat}
    (hd : d = 1 ∨ d = 2) {bytes : Octets} {next : Except HostError Nat → Activity}
    (hactivity : p.activity = .ask (.write d bytes) next) :
    ∃ clock ready, m.step load p =
      (Machine.setPipe { m with clock := clock } (n + d) ((m.pipe (n + d)).put bytes)).update p.id
        fun p => { p with activity := next (.ok bytes.length), ready := ready } := by
  have hwrite := write_of_solo (hm.clock (max m.clock p.ready)) hd bytes
  refine ⟨max m.clock p.ready, max m.clock p.ready + duration (.write d bytes), ?_⟩
  unfold Machine.step
  rw [hactivity]
  dsimp only [respond]
  rw [hwrite]
  rfl

/-- A process by itself writes all of some bytes in one step. -/
theorem step_write (hm : Solo n p out err m) (load : Call → Activity) {d : Nat}
    (hd : d = 1 ∨ d = 2) {bytes : Octets} {next : Except HostError Nat → Activity}
    (hactivity : p.activity = .ask (.write d bytes) next) :
    ∃ q, Solo n q (if d = 1 then out ++ bytes else out) (if d = 2 then err ++ bytes else err)
        (m.step load p) ∧
      q.activity = next (.ok bytes.length) ∧ (m.step load p).files = m.files := by
  have horderly : (m.step load p).Orderly :=
    (step_leads hm.orderly hm.mem hm.going load).orderly hm.orderly (hm.orderly.outside_lt hm.mem)
  obtain ⟨clock, ready, hstep⟩ := exists_step_eq_of_write hm load hd hactivity
  rw [hstep] at horderly ⊢
  refine ⟨{ p with activity := next (.ok bytes.length), ready := ready }, ?_, rfl, rfl⟩
  have hpipe (other : Nat) : Machine.pipe ((Machine.setPipe { m with clock := clock } (n + d)
      ((m.pipe (n + d)).put bytes)).update p.id
        fun p => { p with activity := next (.ok bytes.length), ready := ready }) other =
      if other = n + d then (m.pipe (n + d)).put bytes else m.pipe other :=
    pipe_setPipe { m with clock := clock } (n + d) other _
  constructor
  case orderly => exact horderly
  case mem =>
    exact mem_processes_update (mem_processes_setPipe hm.mem hm.awake.2)
  case id_eq => exact hm.id_eq
  case parent => exact hm.parent
  case going => exact hm.going
  case awake => exact hm.awake
  case descriptors => exact hm.descriptors
  case others =>
    intro q hq hother
    rw [hm.id_eq] at hq
    have hwritten := mem_of_mem_update hq (fun _ => rfl) hother
    obtain ⟨r, hr, hid, hfinished, hdescriptors⟩ := exists_of_mem_setPipe hwritten
    rw [hid] at hother
    rw [hfinished, hdescriptors]
    exact hm.others r hr hother
  case openFiles => exact hm.openFiles
  case out =>
    rw [hpipe]
    rcases hd with rfl | rfl
    · rw [if_pos rfl, Pipe.bytes_put, hm.out]
      rfl
    · rw [if_neg (by omega), hm.out]
      rfl
  case err =>
    rw [hpipe]
    rcases hd with rfl | rfl
    · rw [if_neg (by omega), hm.err]
      rfl
    · rw [if_pos rfl, Pipe.bytes_put, hm.err]
      rfl
  case drained => exact hm.drained

/-! ## Ending -/

/-- What is left when a process that was by itself has ended. -/
structure Over (n : Nat) (status : ExitStatus) (out err : Octets) (m : Machine) : Prop where
  orderly : m.Orderly
  status : m.ended? n = some status
  all : ∀ q ∈ m.processes, q.finished.isSome = true ∧ q.descriptors = []
  openFiles : m.openFiles = []
  out : (m.pipe (n + 1)).bytes = out
  err : (m.pipe (n + 2)).bytes = err

/-- When nobody has the channels of a process any more, nothing is open, but what was written to
them is kept. -/
theorem release_channels (hfree : ∀ q ∈ m.processes, q.descriptors = [])
    (hopen : m.openFiles = channelFiles n) (hdrained : n + 1 ∈ m.drained ∧ n + 2 ∈ m.drained) :
    m.release ((channels n).map (·.2.handle)) = wakeReaders { m with openFiles := [] } := by
  have hunused (handle : Nat) :
      (m.processes.any fun p => p.descriptors.any fun d => d.2.handle = handle) = false := by
    rw [List.any_eq_false]
    intro q hq
    rw [hfree q hq]
    simp
  have hkept (id : Nat) (hid : id ∈ m.drained) :
      Machine.dropPipe { m with openFiles := [] } id = { m with openFiles := [] } := by
    unfold dropPipe hasReader
    rw [if_pos]
    simp [hid]
  unfold release
  simp only [hunused, hopen]
  simp [channels, channelFiles, lookup_entry, hkept _ hdrained.1, hkept _ hdrained.2]

/-- When the last process that goes on has ended, all have, and nothing is open any more. -/
theorem finish_of_solo (hm : Solo n p out err m) (status : ExitStatus) :
    (∀ q ∈ (m.finish p.id status).processes, q.finished.isSome = true ∧ q.descriptors = []) ∧
      (m.finish p.id status).openFiles = [] ∧ (m.finish p.id status).pipes = m.pipes ∧
      (m.finish p.id status).files = m.files := by
  have hbefore := hm.orderly.process?_eq hm.mem
  unfold finish
  simp only [hbefore, Option.map_some, Option.getD_some]
  rw [hm.descriptors]
  generalize hleft : List.filter _ (List.filterMap _ _) = left
  have hall : ∀ q ∈ left, q.finished.isSome = true ∧ q.descriptors = [] := by
    rw [← hleft]
    intro q hq
    obtain ⟨r, hr, hafter⟩ := List.mem_filterMap.mp (List.mem_of_mem_filter hq)
    split at hafter
    · cases hafter
      exact ⟨rfl, rfl⟩
    · rename_i hother
      rw [hm.id_eq] at hother
      obtain ⟨hended, hfree⟩ := hm.others r hr hother
      split at hafter
      · cases hafter
      · split at hafter
        · cases hafter
          split
          · exact ⟨hended, hfree⟩
          · exact ⟨hended, hfree⟩
        · cases hafter
          exact ⟨hended, hfree⟩
  rw [release_channels]
  · refine ⟨fun q hq => ?_, rfl, rfl, rfl⟩
    obtain ⟨r, hr, rfl⟩ := List.mem_map.mp hq
    split
    · exact hall r hr
    · exact hall r hr
  · exact fun q hq => (hall q hq).2
  · exact hm.openFiles
  · exact hm.drained

/-- A process that ended is found with its status by whoever has started it from outside. -/
theorem ended?_finish (hm : m.Orderly) (hp : p ∈ m.processes) (hgoing : p.finished = none)
    (hparent : p.parent = outside) (status : ExitStatus) :
    (m.finish p.id status).ended? p.id = some status := by
  have hactor := hm.outside_lt hp
  have horderly : (m.finish p.id status).Orderly :=
    (leads_finish hm hp hgoing status).orderly hm hactor
  have hrow : { p.row with finished := some status } ∈ (m.finish p.id status).table.rows := by
    rw [table_finish, Table.mem_each]
    have hroot : p.row.parent ≠ 1 := by
      rw [Process.row_parent, hparent]
      decide
    refine ⟨p.row, mem_rows hp, ?_⟩
    unfold Row.afterEnd
    rw [if_pos p.row_id, if_neg hroot]
  obtain ⟨q, hq, hsame⟩ := List.mem_map.mp hrow
  have hid : q.id = p.id := congrArg Row.id hsame
  have hfound := horderly.process?_eq hq
  rw [hid] at hfound
  unfold ended?
  rw [hfound]
  exact congrArg Row.finished hsame

theorem step_ended (hm : Solo n p out err m) (load : Call → Activity) {status : ExitStatus}
    (hactivity : p.activity = .ended status) :
    Over n status out err (m.step load p) ∧ (m.step load p).files = m.files := by
  have horderly : (m.step load p).Orderly :=
    (step_leads hm.orderly hm.mem hm.going load).orderly hm.orderly (hm.orderly.outside_lt hm.mem)
  have hstep : m.step load p = finish { m with clock := max m.clock p.ready } p.id status := by
    unfold Machine.step
    rw [hactivity]
  have hclock := hm.clock (max m.clock p.ready)
  obtain ⟨hall, hopen, hpipes, hfiles⟩ := finish_of_solo hclock status
  have hstatus := ended?_finish hclock.orderly hclock.mem hm.going hm.parent status
  rw [hm.id_eq] at hstatus
  rw [hstep] at horderly ⊢
  rw [hm.id_eq] at horderly hall hopen hpipes hfiles ⊢
  refine ⟨⟨horderly, hstatus, hall, hopen, ?_, ?_⟩, hfiles⟩
  · unfold Machine.pipe
    rw [hpipes]
    exact hm.out
  · unfold Machine.pipe
    rw [hpipes]
    exact hm.err

/-! ## A whole program -/

theorem isOccupied_of_solo (hm : Solo n p out err m) :
    isOccupied ⟨n, n + 1, n + 2⟩ m = true := by
  have hfound := hm.orderly.process?_eq hm.mem
  rw [hm.id_eq] at hfound
  unfold isOccupied isRunning
  simp [hfound, hm.going]

theorem isOccupied_of_over {status : ExitStatus} (hm : Over n status out err m) :
    isOccupied ⟨n, n + 1, n + 2⟩ m = false := by
  obtain ⟨q, hfound, hfinished⟩ := Option.bind_eq_some_iff.mp hm.status
  unfold isOccupied isRunning hasWriter isOpen
  simp [hfound, hfinished, hm.openFiles]

theorem runWhile_of_over {status : ExitStatus} (hm : Over n status out err m)
    (load : Call → Activity) (fuel : Nat) :
    m.runWhile load none (isOccupied ⟨n, n + 1, n + 2⟩) fuel = m := by
  cases fuel with
  | zero => rfl
  | succ fuel =>
    unfold runWhile
    rw [isOccupied_of_over hm]
    rfl

theorem runWhile_of_solo (hm : Solo n p out err m) (load : Call → Activity) (fuel : Nat) :
    m.runWhile load none (isOccupied ⟨n, n + 1, n + 2⟩) (fuel + 1) =
      (m.step load p).runWhile load none (isOccupied ⟨n, n + 1, n + 2⟩) fuel := by
  conv_lhs => unfold runWhile
  rw [isOccupied_of_solo hm, next?_eq_of_solo hm]
  rfl

/-- A program that writes and ends comes to its end, and has written just that. -/
theorem runWhile_prints {activity : Activity} {limit : Nat} {written told : Octets}
    {status : ExitStatus} (h : activity.Prints limit written told status) (load : Call → Activity)
    {fuel : Nat} (hm : Solo n p out err m) (hactivity : p.activity = activity)
    (hfuel : limit < fuel) :
    let after := m.runWhile load none (isOccupied ⟨n, n + 1, n + 2⟩) fuel
    Over n status (out ++ written) (err ++ told) after ∧ after.files = m.files := by
  obtain ⟨fuel, rfl⟩ : ∃ rest, fuel = rest + 1 := ⟨fuel - 1, by omega⟩
  rw [runWhile_of_solo hm]
  induction h generalizing m p out err fuel with
  | ended status limit =>
    obtain ⟨hover, hfiles⟩ := step_ended hm load hactivity
    rw [runWhile_of_over hover, List.append_nil, List.append_nil]
    exact ⟨hover, hfiles⟩
  | out hprints ih =>
    obtain ⟨q, hq, hnext, hfiles⟩ := step_write hm load (.inl rfl) hactivity
    obtain ⟨fuel, rfl⟩ : ∃ rest, fuel = rest + 1 := ⟨fuel - 1, by omega⟩
    rw [runWhile_of_solo hq, ← hfiles, ← List.append_assoc]
    exact ih hq hnext fuel (by omega)
  | err hprints ih =>
    obtain ⟨q, hq, hnext, hfiles⟩ := step_write hm load (.inr rfl) hactivity
    obtain ⟨fuel, rfl⟩ : ∃ rest, fuel = rest + 1 := ⟨fuel - 1, by omega⟩
    rw [runWhile_of_solo hq, ← hfiles, ← List.append_assoc]
    exact ih hq hnext fuel (by omega)

theorem launch_eq {settings : ClientSettings} {name : String} {arguments : List String}
    {start : Start}
    (hprepare : m.prepare settings.directory settings.environment name arguments = .ok start) :
    let s : Started := ⟨m.nextId, m.nextId + 1, m.nextId + 2⟩
    let after := (m.begin start).2.runWhile load none (isOccupied s) patience
    launch settings name arguments m =
      (.ended ((after.ended? s.id).getD (.signal 9 false)) (after.pipe s.out).bytes.toBytes
        (after.pipe s.err).bytes.toBytes, after.dismiss s) := by
  intro s after
  unfold launch
  rw [hprepare]
  rfl

/-- What comes of a program that writes and ends, on a machine at rest: it is what the program has
written, and how it has ended, and the machine is at rest again with the same files. -/
theorem launch_prints {settings : ClientSettings} {name : String} {arguments : List String}
    {start : Start} {limit : Nat} {status : ExitStatus} (hm : m.Resting)
    (hprepare : m.prepare settings.directory settings.environment name arguments = .ok start)
    (hprints :
      (load ⟨start.program, start.arguments, start.environment⟩).Prints limit out err status)
    (hlimit : limit < patience) :
    let launched := launch settings name arguments m
    launched.1 = .ended status out.toBytes err.toBytes ∧ launched.2.Resting ∧
      launched.2.files = m.files := by
  intro launched
  have horderly : launched.2.Orderly := (later_launch hm.orderly settings name arguments).orderly
  obtain ⟨p, hsolo, hactivity⟩ := solo_begin hm start
  obtain ⟨hover, hfiles⟩ := runWhile_prints hprints load hsolo hactivity hlimit
  unfold launched at horderly ⊢
  rw [launch_eq hprepare] at horderly ⊢
  dsimp only at horderly ⊢
  rw [hover.status, hover.out, hover.err]
  refine ⟨rfl, ⟨horderly, ?_, hover.openFiles⟩, hfiles⟩
  exact fun q hq => hover.all q (List.mem_of_mem_filter hq)

/-! ## What a command is found as -/

theorem firstProgram_congr (hfiles : m'.files = m.files) (directory : Place) (paths : List Octets)
    (e : HostError) : m'.firstProgram directory e paths = m.firstProgram directory e paths := by
  induction paths generalizing e with
  | nil => rfl
  | cons path rest ih =>
    have hprogram : m'.programAt directory path = m.programAt directory path := by
      unfold programAt
      rw [hfiles]
    unfold firstProgram
    simp only [hprogram, ih]

/-- The files, the variables and the directory settle what a command is found as. -/
theorem prepare_congr (hfiles : m'.files = m.files) (hsetting : m'.setting = m.setting)
    (directory : Option String) (vars : Keyed String) (name : String) (arguments : List String) :
    m'.prepare directory vars name arguments = m.prepare directory vars name arguments := by
  have henvironment : m'.environment = m.environment := congrArg (·.2.1) hsetting
  have hdirectory : m'.directory = m.directory := congrArg (·.2.2.1) hsetting
  have hnamed (place : Place) (path name : Octets) :
      m'.programNamed place path name = m.programNamed place path name := by
    unfold programNamed programAt
    simp only [hfiles, firstProgram_congr hfiles]
  unfold prepare
  simp only [hfiles, henvironment, hdirectory, hnamed]

/-! ## Runs of such commands -/

/-- A command whose words are a program that writes and ends, and what comes of it. -/
inductive CommandPrints (m : Machine) (settings : ClientSettings) (command : String) :
    ProcessOutcome → Prop where
  | intro {program : String} {arguments : List String} {start : Start} {limit : Nat}
      {out err : Octets} {status : ExitStatus} :
      Words.ofCommand command = .ok (program :: arguments) →
      m.prepare settings.directory settings.environment program arguments = .ok start →
      (load ⟨start.program, start.arguments, start.environment⟩).Prints limit out err status →
      limit < patience →
      CommandPrints m settings command (.ended status out.toBytes err.toBytes)

variable {settings : ClientSettings} {command : String} {outcome : ProcessOutcome}

theorem CommandPrints.congr (h : m.CommandPrints settings command outcome)
    (hfiles : m'.files = m.files) (hsetting : m'.setting = m.setting) :
    m'.CommandPrints settings command outcome := by
  cases h with
  | intro hwords hprepare hprints hlimit =>
    refine .intro hwords ?_ hprints hlimit
    rw [prepare_congr hfiles hsetting]
    exact hprepare

/-- What comes of such a command is what its program has written, and the next one finds the same
files. -/
theorem CommandPrints.launched (h : m.CommandPrints settings command outcome) (hm : m.Resting) :
    ∃ program arguments, Words.ofCommand command = .ok (program :: arguments) ∧
      (launch settings program arguments m).1 = outcome ∧
      (launch settings program arguments m).2.Resting ∧
      (launch settings program arguments m).2.files = m.files := by
  cases h with
  | intro hwords hprepare hprints hlimit =>
    exact ⟨_, _, hwords, launch_prints hm hprepare hprints hlimit⟩

theorem CommandPrints.unique {other : ProcessOutcome} (h : m.CommandPrints settings command outcome)
    (h' : m.CommandPrints settings command other) (hm : m.Resting) : outcome = other := by
  obtain ⟨program, arguments, hwords, rfl, -⟩ := h.launched hm
  obtain ⟨program', arguments', hwords', rfl, -⟩ := h'.launched hm
  rw [hwords] at hwords'
  cases hwords'
  rfl

/-- A case with such a command passes exactly if its program ends well and writes just what is
expected. -/
theorem failureOf?_of_prints (hm : m.Resting) (case : Case)
    (h : m.CommandPrints settings case.command outcome) :
    case.failureOf? (launch.executor settings case.command m).1 = none ↔
      ∃ stderr, m.CommandPrints settings case.command
        (.ended (.code 0) (Text.utf8 case.expected.toList) stderr) := by
  obtain ⟨program, arguments, hwords, houtcome, -⟩ := h.launched hm
  have hanswer : (launch.executor settings case.command m).1 =
      (outcome.answer program).mapError (.execution case.command) := by
    unfold Launcher.executor
    rw [hwords, ← houtcome]
  rw [Case.failureOf?_eq_none_iff, hanswer, mapError_eq_ok_iff, ProcessOutcome.answer_eq_ok_iff]
  constructor
  · rintro ⟨stderr, rfl⟩
    exact ⟨stderr, h⟩
  · rintro ⟨stderr, h'⟩
    exact ⟨stderr, h.unique h' hm⟩

/-- The next command finds all as this one did. -/
theorem executor_of_prints (hm : m.Resting) (h : m.CommandPrints settings command outcome) :
    let after := (launch.executor settings command m).2
    after.Resting ∧ after.files = m.files ∧ after.setting = m.setting := by
  intro after
  obtain ⟨program, arguments, hwords, -, hresting, hfiles⟩ := h.launched hm
  have hafter : after = (launch settings program arguments m).2 := by
    unfold after Launcher.executor
    rw [hwords]
  rw [hafter]
  exact ⟨hresting, hfiles, (later_launch hm.orderly settings program arguments).setting⟩

/-- A run of commands whose programs write and end passes exactly if each ends well and writes just
what is expected. -/
theorem passed_run_of_prints (hm : m.Resting) (corpus : Corpus)
    (h : ∀ case ∈ corpus.cases, ∃ outcome, m.CommandPrints settings case.command outcome) :
    ((corpus.run (launch.executor settings) m).summary corpus).passed = true ↔
      ∀ case ∈ corpus.cases, ∃ stderr, m.CommandPrints settings case.command
        (.ended (.code 0) (Text.utf8 case.expected.toList) stderr) := by
  rw [Corpus.passed_run_iff]
  obtain ⟨cases⟩ := corpus
  induction cases generalizing m with
  | nil => simp [Corpus.failureAt?]
  | cons case rest ih =>
    obtain ⟨outcome, hprints⟩ := h case List.mem_cons_self
    obtain ⟨hresting, hfiles, hsetting⟩ := executor_of_prints hm hprints
    have hsame (other : Case) (outcome : ProcessOutcome) :
        (launch.executor settings case.command m).2.CommandPrints settings other.command outcome ↔
          m.CommandPrints settings other.command outcome :=
      ⟨fun h => h.congr hfiles.symm hsetting.symm, fun h => h.congr hfiles hsetting⟩
    have hrest := ih hresting fun other hother => by
      simp only [hsame]
      exact h other (List.mem_cons_of_mem case hother)
    simp only [hsame] at hrest
    rw [Corpus.all_pass_cons_iff, failureOf?_of_prints hm case hprints, hrest, List.forall_mem_cons]

end Machine

end Transcript.Host

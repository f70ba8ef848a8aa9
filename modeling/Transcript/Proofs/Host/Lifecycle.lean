-- What a replay needs of the machine that it runs on. Processes that are started from outside are
-- added and forgotten from outside only, and nothing that commands do takes back the end of one.
-- So what the machine tells of the server can be believed, and once the tool is done, the server
-- has ended or is about to, and no other process that the tool has started is left.
import Transcript.Proofs.Application.Processes
import Transcript.Proofs.Host.Files
import Transcript.Proofs.Host.Steps
import Transcript.Proofs.Run.Lifecycle

namespace Transcript

/-! ## What a whole replay keeps -/

namespace ServerHost

variable {σ : Type} {host : ServerHost σ} {execute : Executor σ} {P : σ → Prop} {s : σ}

/-- Whatever a host does for a process that was spawned keeps a property of its state. -/
structure Maintains (host : ServerHost σ) (P : σ → Prop) : Prop where
  pause : ∀ ms s, P s → P (host.pause ms s)
  poll : ∀ s, P s → P (host.poll s).2
  requestStop : ∀ s, P s → P (host.requestStop s)
  await : ∀ ms s, P s → P (host.await ms s).2
  kill : ∀ s, P s → P (host.kill s).2
  killAtOnce : ∀ s, P s → P (host.killAtOnce s)

theorem Maintains.release (h : host.Maintains P) (hs : P s) : P (host.release s) := by
  have hpoll := h.poll s hs
  unfold ServerHost.release
  generalize host.poll s = answer at hpoll ⊢
  rcases answer with ⟨reason | _ | status, after⟩
  · exact hpoll
  · exact h.killAtOnce after hpoll
  · exact hpoll

theorem Maintains.warmUp (h : host.Maintains P) (settings : ServerSettings) (hs : P s) :
    P (host.warmUp settings s).2 := by
  have hpoll := h.poll _ (h.pause settings.warmup s hs)
  unfold ServerHost.warmUp
  generalize host.poll (host.pause settings.warmup s) = answer at hpoll ⊢
  rcases answer with ⟨reason | _ | status, after⟩
  · exact h.release hpoll
  · exact hpoll
  · dsimp only
    split
    · exact hpoll
    · exact h.release hpoll

theorem Maintains.shutDown (h : host.Maintains P) (grace : Nat) (hs : P s) :
    P (host.shutDown grace s).2 := by
  have hawait := h.await grace _ (h.requestStop s hs)
  unfold ServerHost.shutDown
  generalize host.await grace (host.requestStop s) = answer at hawait ⊢
  rcases answer with ⟨status | reason | _, after⟩
  · exact hawait
  · exact hawait
  · exact h.kill after hawait

theorem Maintains.stop (h : host.Maintains P) (settings : ServerSettings) (hs : P s) :
    P (host.stop settings s).2 := by
  have hpoll := h.poll s hs
  unfold ServerHost.stop
  apply h.release
  unfold ServerHost.terminate
  generalize host.poll s = answer at hpoll ⊢
  rcases answer with ⟨reason | _ | status, after⟩
  · exact hpoll
  · exact h.shutDown settings.grace hpoll
  · exact hpoll

theorem Maintains.start (h : host.Maintains P) (settings : ServerSettings) (hs : P s)
    (hspawn : ∀ program arguments directory, P (host.spawn program arguments directory s).2) :
    P (host.start settings s).2 := by
  unfold ServerHost.start
  rcases Words.ofCommand settings.command with fault | words
  · exact hs
  · dsimp only
    have hup := hspawn (words.headD "") words.tail settings.directory
    generalize host.spawn (words.headD "") words.tail settings.directory s = answer at hup ⊢
    rcases answer with ⟨reason | ⟨⟩, up⟩
    · exact hup
    · exact h.warmUp settings hup

/-- What the start of a server and each thing that is done for it and each command keep, a whole
replay keeps. -/
theorem Maintains.replay (h : host.Maintains P) (corpus : Corpus) (settings : ServerSettings)
    (hs : P s) (hspawn : ∀ program arguments directory,
      P (host.spawn program arguments directory s).2)
    (hexecute : ∀ command s, P s → P (execute command s).2) :
    P (corpus.replay host settings execute s).state := by
  have hrun : ∀ (cases : List Case) (s : σ), P s → P (execute.after cases s) := by
    intro cases
    induction cases with
    | nil => exact fun s hs => hs
    | cons case rest ih => exact fun s hs => ih _ (hexecute case.command s hs)
  have hstart := h.start settings hs hspawn
  unfold Corpus.replay
  generalize host.start settings s = answer at hstart ⊢
  rcases answer with ⟨failure | ⟨⟩, up⟩
  · exact hstart
  · apply h.stop
    rw [Corpus.state_run]
    exact hrun _ up hstart

end ServerHost

namespace Host.Machine

variable {m m' : Machine} {p q : Process}

/-! ## Machines later on -/

/-- A machine later on: the processes that were started from outside are the same ones, each
perhaps further than it was. -/
structure Later (m m' : Machine) : Prop where
  orderly : m'.Orderly
  setting : m'.setting = m.setting
  stays : ∀ p ∈ m.processes, p.parent = outside →
    ∃ q ∈ m'.processes, p.row.Becomes q.row ∧ q.parent = outside
  came : ∀ q ∈ m'.processes, q.parent = outside →
    ∃ p ∈ m.processes, p.row.Becomes q.row ∧ p.parent = outside

theorem Later.refl (hm : m.Orderly) : m.Later m where
  orderly := hm
  setting := rfl
  stays p hp hparent := ⟨p, hp, .refl _, hparent⟩
  came q hq hparent := ⟨q, hq, .refl _, hparent⟩

theorem Runs.later (h : m.Runs m') (hm : m.Orderly) : m.Later m' where
  orderly := h.orderly
  setting := h.setting
  stays p hp hparent := by
    obtain ⟨later, hlater, hbecomes, hoff⟩ := h.passes.stays hm.table (mem_rows hp) hparent
    obtain ⟨q, hq, rfl⟩ := List.mem_map.mp hlater
    exact ⟨q, hq, hbecomes, hoff⟩
  came q hq hparent := by
    obtain ⟨r, hr, hbecomes, hoff⟩ := h.passes.came hm.table (mem_rows hq) hparent
    obtain ⟨p, hp, rfl⟩ := List.mem_map.mp hr
    exact ⟨p, hp, hbecomes, hoff⟩

theorem Leads.later {actor : Nat} (h : m.Leads actor m') (hm : m.Orderly)
    (hactor : outside < actor) : m.Later m' :=
  ((Runs.refl hm).leads hactor h).later hm

/-- Time passes on a machine. -/
theorem later_passWhile (hm : m.Orderly) (milliseconds : Nat) (goesOn : Machine → Bool) :
    m.Later (m.passWhile milliseconds goesOn) := by
  unfold passWhile
  exact (runs_runWhile load _ goesOn patience hm).later hm

theorem later_signalServer (hm : m.Orderly) (number : Nat) : m.Later (m.signalServer number) := by
  unfold signalServer
  split
  · rename_i id hserver
    have hactor : outside < id + 3 := by
      unfold outside
      omega
    have hother : id ≠ id + 3 := by omega
    exact (leads_signal hm hactor (fun _ => hother) number).later hm hactor
  · exact .refl hm

/-! ## Processes from outside -/

/-- A process that is started from outside has a number that no other one has. -/
theorem begin_spec (hm : m.Orderly) (start : Start) :
    (m.begin start).1.id = m.nextId ∧ (m.begin start).2.Orderly ∧
      (m.begin start).2.setting = m.setting ∧
      ∃ p : Process, (m.begin start).2.processes = m.processes ++ [p] ∧
        p.row = ⟨m.nextId, outside, false, none⟩ := by
  refine ⟨rfl, ⟨?_, ?_⟩, rfl, ⟨_, rfl, rfl⟩⟩
  · have hstart := (hm.table.start outside).use 5
    have htable : (m.begin start).2.table = ⟨m.table.rows ++ [⟨m.nextId, outside, false, none⟩],
        m.nextId + 1 + 5⟩ := by
      unfold begin fresh Machine.table
      rw [List.map_append, List.map_singleton]
      rfl
    rw [htable]
    exact hstart
  · intro p hp
    rcases List.mem_append.mp hp with hp | hp
    · exact hm.settled p hp
    · rw [List.mem_singleton.mp hp]
      exact Process.settled_of_not_struck rfl

/-- A command leaves nothing behind that was started from outside, and takes nothing away. -/
theorem later_launch (hm : m.Orderly) (settings : ClientSettings) (name : String)
    (arguments : List String) : m.Later (launch settings name arguments m).2 := by
  unfold launch
  split
  · exact .refl hm
  · rename_i start hprepare
    obtain ⟨hid, hbegun, hsetting, p, hprocesses, hrow⟩ := begin_spec hm start
    generalize m.begin start = started at hid hbegun hsetting hprocesses ⊢
    obtain ⟨s, begun⟩ := started
    dsimp only at hid hbegun hsetting hprocesses ⊢
    have hpid : p.id = s.id := by
      rw [hid]
      exact congrArg Row.id hrow
    have hlater : begun.Later (begun.runWhile load none (isOccupied s) patience) :=
      (runs_runWhile load none _ patience hbegun).later hbegun
    generalize begun.runWhile load none (isOccupied s) patience = after at hlater
    constructor
    case orderly =>
      refine ⟨?_, fun q hq => hlater.orderly.settled q (List.mem_of_mem_filter hq)⟩
      have htable : (after.dismiss s).table = after.table.each (Row.afterDrop s.id) :=
        table_filter after s.id
      rw [htable]
      exact hlater.orderly.table.each fun r _ later => Row.becomes_of_afterDrop
    case setting => exact hlater.setting.trans hsetting
    case stays =>
      intro q hq hparent
      have hmem : q ∈ begun.processes := by
        rw [hprocesses]
        exact List.mem_append_left _ hq
      obtain ⟨later, hmemLater, hbecomes, hoff⟩ := hlater.stays q hmem hparent
      refine ⟨later, List.mem_filter.mpr ⟨hmemLater, ?_⟩, hbecomes, hoff⟩
      have hbelow : q.id < m.nextId := hm.table.below _ (mem_rows hq)
      have hsame : later.id = q.id := hbecomes.id_eq
      simp [hsame, hid, Nat.ne_of_lt hbelow]
    case came =>
      intro later hmemLater hoff
      obtain ⟨hmemAfter, hother⟩ := List.mem_filter.mp hmemLater
      obtain ⟨q, hq, hbecomes, hparent⟩ := hlater.came later hmemAfter hoff
      rw [hprocesses] at hq
      rcases List.mem_append.mp hq with hq | hq
      · exact ⟨q, hq, hbecomes, hparent⟩
      · rw [List.mem_singleton.mp hq] at hbecomes
        have hsame : later.id = s.id := hbecomes.id_eq.trans hpid
        simp [hsame] at hother

theorem later_executor (hm : m.Orderly) (settings : ClientSettings) (command : String) :
    m.Later (launch.executor settings command m).2 := by
  unfold Launcher.executor
  split
  · exact .refl hm
  · exact .refl hm
  · exact later_launch hm settings _ _

/-! ## The server -/

/-- What was started from outside is the server, if there is one. -/
def ServerAlone (m : Machine) : Prop :=
  ∀ id, m.server = some id ↔ ∃ p ∈ m.processes, p.parent = outside ∧ p.id = id

theorem Orderly.process?_eq (hm : m.Orderly) (hp : p ∈ m.processes) :
    m.process? p.id = some p := by
  unfold process?
  rcases hfound : m.processes.find? _ with _ | q
  · have hnone := List.find?_eq_none.mp hfound p hp
    simp at hnone
  · have hid : q.id = p.id := by simpa using List.find?_some hfound
    rw [hm.eq_of_id hp (List.mem_of_find?_eq_some hfound) hid]

theorem serverStatus_eq (hm : m.Orderly) (halone : m.ServerAlone) (hp : p ∈ m.processes)
    (hparent : p.parent = outside) : m.serverStatus = p.finished := by
  unfold serverStatus ended?
  rw [(halone p.id).mpr ⟨p, hp, hparent, rfl⟩, Option.bind_some, hm.process?_eq hp,
    Option.bind_some]

theorem exists_of_serverStatus_eq {status : ExitStatus} (hm : m.Orderly) (halone : m.ServerAlone)
    (h : m.serverStatus = some status) :
    ∃ p ∈ m.processes, p.parent = outside ∧ p.finished = some status := by
  rcases hserver : m.server with _ | id
  · unfold serverStatus at h
    rw [hserver] at h
    cases h
  · obtain ⟨p, hp, hparent, -⟩ := (halone id).mp hserver
    rw [serverStatus_eq hm halone hp hparent] at h
    exact ⟨p, hp, hparent, h⟩

theorem Later.server_eq (h : m.Later m') : m'.server = m.server :=
  congrArg (fun setting => setting.2.2.2.2) h.setting

theorem Later.serverAlone (h : m.Later m') (halone : m.ServerAlone) : m'.ServerAlone := by
  intro id
  rw [h.server_eq, halone id]
  constructor
  · rintro ⟨p, hp, hparent, rfl⟩
    obtain ⟨q, hq, hbecomes, hoff⟩ := h.stays p hp hparent
    exact ⟨q, hq, hoff, hbecomes.id_eq⟩
  · rintro ⟨q, hq, hoff, rfl⟩
    obtain ⟨p, hp, hbecomes, hparent⟩ := h.came q hq hoff
    exact ⟨p, hp, hparent, hbecomes.id_eq.symm⟩

/-- Once the server has ended, it has ended so for good. -/
theorem Later.serverStatus {status : ExitStatus} (h : m.Later m') (hm : m.Orderly)
    (halone : m.ServerAlone) (hstatus : m.serverStatus = some status) :
    m'.serverStatus = some status := by
  obtain ⟨p, hp, hparent, hfinished⟩ := exists_of_serverStatus_eq hm halone hstatus
  obtain ⟨q, hq, hbecomes, hoff⟩ := h.stays p hp hparent
  rw [serverStatus_eq h.orderly (h.serverAlone halone) hq hoff]
  exact hbecomes.finished status hfinished

/-- A kill ends the server, soon if not at once. -/
theorem isEnding_of_killed (hm : m.Orderly) (halone : m.ServerAlone)
    (hp : p ∈ (m.signalServer 9).processes) (hparent : p.parent = outside) :
    p.isEnding = true := by
  obtain ⟨q, hq, hbecomes, hoff⟩ := (later_signalServer hm 9).came p hp hparent
  have hid : p.id = q.id := hbecomes.id_eq
  have hserver : m.server = some q.id := (halone q.id).mpr ⟨q, hq, hoff, rfl⟩
  by_cases hending : q.isEnding = true
  · exact hbecomes.isEnding hending
  · unfold signalServer signal deliver strike update at hp
    simp only [hserver, hm.process?_eq hq, hending] at hp
    obtain ⟨r, -, hr⟩ := List.mem_map.mp hp
    have hrid : r.id = p.id := by
      rw [← hr]
      split <;> rfl
    rw [if_pos (hrid.trans hid)] at hr
    rw [← hr]
    rfl

/-! ## What the machine tells -/

/-- What passed fits the machine as it was just after it. -/
structure Fits (m : Machine) (c : Contact) : Prop where
  told : ∀ reason, c ≠ .poll (.error reason)
  exit : c.reportsExit = true → m.serverStatus.isSome = true
  query : c.isQuery = true → m.serverStatus.isSome = true → c.reportsExit = true
  kill : c.isKill = true → ∀ p ∈ m.processes, p.parent = outside → p.isEnding = true

/-- A machine, and what has passed between it and a replay. -/
structure Told (s : Machine × List Contact) : Prop where
  orderly : s.1.Orderly
  alone : s.1.ServerAlone
  credible : Credible s.2
  exited : s.2.any Contact.reportsExit = true → s.1.serverStatus.isSome = true
  killed : s.2.any Contact.isKill = true →
    ∀ p ∈ s.1.processes, p.parent = outside → p.isEnding = true
  spawned : (∃ p ∈ s.1.processes, p.parent = outside) → .spawn (.ok ()) ∈ s.2

variable {log : List Contact} {c : Contact}

/-- What happens later and fits in leaves the log credible. -/
theorem Told.later (h : Told (m, log)) (hlater : m.Later m') (hc : m'.Fits c) :
    Told (m', log ++ [c]) := by
  have hexited : log.any Contact.reportsExit = true → m'.serverStatus.isSome = true := by
    intro hlog
    obtain ⟨status, hstatus⟩ := Option.isSome_iff_exists.mp (h.exited hlog)
    rw [hlater.serverStatus h.orderly h.alone hstatus]
    rfl
  constructor
  case orderly => exact hlater.orderly
  case alone => exact hlater.serverAlone h.alone
  case credible =>
    constructor
    · intro reason hmem
      rcases List.mem_append.mp hmem with hmem | hmem
      · exact h.credible.told reason hmem
      · exact hc.told reason (List.mem_singleton.mp hmem).symm
    · refine List.pairwise_append.mpr ⟨h.credible.lasting, List.pairwise_singleton _ _, ?_⟩
      intro a ha b hb hexit hquery
      rw [List.mem_singleton.mp hb] at hquery ⊢
      exact hc.query hquery (hexited (List.any_eq_true.mpr ⟨a, ha, hexit⟩))
  case exited =>
    intro hany
    rw [List.any_append, Bool.or_eq_true] at hany
    rcases hany with hany | hany
    · exact hexited hany
    · exact hc.exit (by simpa using hany)
  case killed =>
    intro hany q hq hoff
    rw [List.any_append, Bool.or_eq_true] at hany
    rcases hany with hany | hany
    · obtain ⟨p, hp, hbecomes, hparent⟩ := hlater.came q hq hoff
      exact hbecomes.isEnding (h.killed hany p hp hparent)
    · exact hc.kill (by simpa using hany) q hq hoff
  case spawned =>
    rintro ⟨q, hq, hoff⟩
    obtain ⟨p, hp, -, hparent⟩ := hlater.came q hq hoff
    exact List.mem_append_left _ (h.spawned ⟨p, hp, hparent⟩)

/-- What tells nothing of the server fits in. -/
theorem fits_of_silent (hquery : c.isQuery = false) (hkill : c.isKill = false) : m.Fits c := by
  cases c with
  | poll answer => cases hquery
  | await milliseconds answer => cases hquery
  | kill answer => cases hkill
  | killAtOnce => cases hkill
  | _ => exact ⟨nofun, nofun, nofun, nofun⟩

theorem fits_poll (m : Machine) : m.Fits (.poll (.ok m.serverStatus)) := by
  rcases hstatus : m.serverStatus with _ | status
  · exact ⟨nofun, nofun, fun _ h => by rw [hstatus] at h; exact h, nofun⟩
  · exact ⟨nofun, fun _ => by rw [hstatus]; rfl, fun _ _ => rfl, nofun⟩

theorem fits_await (m : Machine) (milliseconds grace : Nat) :
    (m.awaitServer milliseconds).2.Fits (.await grace (m.awaitServer milliseconds).1) := by
  unfold awaitServer
  dsimp only
  generalize m.passWhile milliseconds _ = after
  rcases hstatus : after.serverStatus with _ | status
  · exact ⟨nofun, nofun, fun _ h => by rw [hstatus] at h; exact h, nofun⟩
  · exact ⟨nofun, fun _ => by rw [hstatus]; rfl, fun _ _ => rfl, nofun⟩

theorem fits_kill (hm : m.Orderly) (halone : m.ServerAlone) (hquery : c.isQuery = false) :
    (m.signalServer 9).Fits c := by
  refine ⟨?_, ?_, ?_, fun _ p hp => isEnding_of_killed hm halone hp⟩
  · rintro reason rfl
    cases hquery
  · intro hexit
    cases c with
    | poll answer => cases hquery
    | await milliseconds answer => cases hquery
    | _ => cases hexit
  · rw [hquery]
    exact nofun

theorem later_awaitServer (hm : m.Orderly) (milliseconds : Nat) :
    m.Later (m.awaitServer milliseconds).2 := by
  have hpass := later_passWhile hm milliseconds fun m => m.serverStatus.isNone
  unfold awaitServer
  dsimp only
  generalize m.passWhile milliseconds _ = after at hpass ⊢
  split
  · exact hpass
  · exact hpass

/-- Whatever is done for the server, what was told of it fits in. -/
theorem maintains_told : serverHost.logged.Maintains Told where
  pause ms _ hs :=
    hs.later (later_passWhile hs.orderly ms fun _ => true) (fits_of_silent rfl rfl)
  poll s hs := hs.later (.refl hs.orderly) (fits_poll s.1)
  requestStop _ hs := hs.later (later_signalServer hs.orderly 15) (fits_of_silent rfl rfl)
  await ms s hs := hs.later (later_awaitServer hs.orderly ms) (fits_await s.1 ms ms)
  kill _ hs := hs.later (later_signalServer hs.orderly 9) (fits_kill hs.orderly hs.alone rfl)
  killAtOnce _ hs := hs.later (later_signalServer hs.orderly 9) (fits_kill hs.orderly hs.alone rfl)

/-! ## Replays on a machine -/

/-- A machine on which nothing was started from outside. -/
structure Untouched (m : Machine) : Prop where
  orderly : m.Orderly
  server : m.server = none
  inside : ∀ p ∈ m.processes, p.parent ≠ outside

/-- A machine without processes, such as the standard one, is untouched. -/
theorem untouched_of_no_processes (hprocesses : m.processes = []) (hserver : m.server = none)
    (hroom : outside < m.nextId) : m.Untouched := by
  refine ⟨⟨⟨?_, ?_, ?_, hroom⟩, ?_⟩, hserver, ?_⟩
  all_goals simp [Machine.table, hprocesses]

theorem untouched_standard : standard.Untouched := untouched_of_no_processes rfl rfl (by decide)

theorem Untouched.withEntry (hm : m.Untouched) (place : Place) (entry : Entry) :
    (m.withEntry place entry).Untouched :=
  ⟨⟨hm.orderly.table, hm.orderly.settled⟩, hm.server, hm.inside⟩

theorem Untouched.told (hm : m.Untouched) : Told (m, []) where
  orderly := hm.orderly
  alone id := by
    rw [hm.server]
    constructor
    · exact nofun
    · rintro ⟨p, hp, hparent, -⟩
      exact absurd hparent (hm.inside p hp)
  credible := ⟨nofun, .nil⟩
  exited := nofun
  killed := nofun
  spawned := by
    rintro ⟨p, hp, hparent⟩
    exact absurd hparent (hm.inside p hp)

theorem Untouched.told_spawn (hm : m.Untouched) (program : String) (arguments : List String)
    (directory : Option String) :
    Told (serverHost.logged.spawn program arguments directory (m, [])).2 := by
  rw [ServerHost.logged_spawn, List.nil_append]
  change Told ((startServer program arguments directory m).2,
    [.spawn (startServer program arguments directory m).1])
  unfold startServer
  split
  · exact hm.told.later (.refl hm.orderly) (fits_of_silent rfl rfl)
  · rename_i start hprepare
    obtain ⟨hid, hbegun, -, p, hprocesses, hrow⟩ := begin_spec hm.orderly start
    generalize m.begin start = started at hid hbegun hprocesses ⊢
    obtain ⟨s, begun⟩ := started
    dsimp only at hid hbegun hprocesses ⊢
    constructor
    case orderly => exact ⟨hbegun.table, hbegun.settled⟩
    case alone =>
      intro id
      dsimp only
      rw [hprocesses, Option.some_inj, hid]
      constructor
      · rintro rfl
        exact ⟨p, by simp, congrArg Row.parent hrow, congrArg Row.id hrow⟩
      · rintro ⟨q, hq, hparent, rfl⟩
        rcases List.mem_append.mp hq with hq | hq
        · exact absurd hparent (hm.inside q hq)
        · rw [List.mem_singleton.mp hq]
          exact (congrArg Row.id hrow).symm
    case credible => exact ⟨by simp, List.pairwise_singleton _ _⟩
    case exited => exact nofun
    case killed => exact nofun
    case spawned => exact fun _ => List.mem_singleton.mpr rfl

/-- A machine on which everything that was started from outside has ended or is about to. -/
structure Quiet (m : Machine) : Prop where
  orderly : m.Orderly
  ending : ∀ p ∈ m.processes, p.parent = outside → p.isEnding = true

theorem Untouched.quiet (hm : m.Untouched) : m.Quiet :=
  ⟨hm.orderly, fun p hp hparent => absurd hparent (hm.inside p hp)⟩

/-- A replay on a machine is told the truth about its server, which is attended to as promised, and
has ended or is about to when the replay is done. -/
theorem replay_attended (hm : m.Untouched) (corpus : Corpus) (settings : ServerSettings)
    (client : ClientSettings) :
    let replay := corpus.replay serverHost.logged settings (launch.executor client).logged (m, [])
    Credible replay.state.2 ∧ Attended settings replay.state.2 ∧ replay.state.1.Quiet := by
  intro replay
  have htold : Told replay.state := by
    apply maintains_told.replay corpus settings hm.told (hm.told_spawn · · ·)
    intro command _ hs
    exact hs.later (later_executor hs.orderly client command) (fits_of_silent rfl rfl)
  have hlogged := (corpus.replay_logged serverHost settings (launch.executor client) m).2
  have hattended : Attended settings replay.state.2 := (hlogged.life htold.credible).attended
  refine ⟨htold.credible, hattended, htold.orderly, fun p hp hparent => ?_⟩
  rcases hattended.gone (htold.spawned ⟨p, hp, hparent⟩) with hexit | hkill
  · have hfinished := htold.exited hexit
    rw [serverStatus_eq htold.orderly htold.alone hp hparent] at hfinished
    unfold Process.isEnding
    rw [hfinished, Bool.or_true]
  · exact htold.killed hkill p hp hparent

/-- What is about to end does so in its next step. -/
theorem Quiet.step (hm : m.Quiet) (hp : p ∈ m.processes) (hparent : p.parent = outside)
    (hgoing : p.finished = none) (load : Call → Activity) :
    (p.stopped = false ∧ p.isAsleep = false) ∧
      ∃ status, m.step load p = finish { m with clock := max m.clock p.ready } p.id status := by
  have hending := hm.ending p hp hparent
  unfold Process.isEnding at hending
  rw [hgoing, Option.isSome_none, Bool.or_false] at hending
  obtain ⟨⟨status, hactivity⟩, hstopped, hasleep⟩ := hm.orderly.settled p hp hending hgoing
  refine ⟨⟨hstopped, hasleep⟩, status, ?_⟩
  unfold Machine.step
  rw [hactivity]

/-! ## The tool on a machine -/

theorem Untouched.openLog {path : String} (hm : m.Untouched) (h : m.openLog path = .ok m') :
    m'.Untouched := by
  rcases openLog_eq_ok h with rfl | ⟨place, -, rfl⟩
  · exact hm
  · exact ⟨⟨hm.orderly.table, hm.orderly.settled⟩, hm.server, hm.inside⟩

theorem Untouched.withLog {path : Option String} (hm : m.Untouched)
    (h : Application.withLog system m path = .ok m') : m'.Untouched := by
  cases path with
  | none =>
    cases h
    exact hm
  | some path =>
    unfold Application.withLog at h
    dsimp only [system] at h
    rcases hopened : m.openLog path with e | opened
    · rw [hopened] at h
      cases h
    · rw [hopened] at h
      cases h
      exact hm.openLog hopened

theorem quiet_replay (hm : m.Untouched) (settings : Settings) (corpus : Corpus)
    (asDocument : Bool) : (Application.replay system m settings corpus asDocument).state.Quiet := by
  have hquiet := (replay_attended hm corpus settings.server settings.client).2.2
  have hsame := (corpus.replay_logged serverHost settings.server
    (launch.executor settings.client) m).1
  unfold Application.replay
  dsimp only [system]
  rw [hsame]
  split
  · exact hquiet
  · exact hquiet

/-- Whatever the tool is asked for, when it is done nothing that it has started goes on. -/
theorem quiet_run (hm : m.Untouched) (words : List String) :
    (Application.run system m words).state.Quiet := by
  unfold Application.run
  split
  · rename_i invocation hread
    unfold Application.invoke
    split
    · exact hm.quiet
    · rename_i opened hopened
      have hopen : opened.Untouched := hm.withLog hopened
      split
      · exact hopen.quiet
      · unfold Application.perform
        dsimp only
        split
        · exact hopen.quiet
        · exact quiet_replay hopen _ _ _
        · exact hopen.quiet
  · exact hm.quiet
  · exact hm.quiet
  · exact hm.quiet

end Host.Machine

end Transcript

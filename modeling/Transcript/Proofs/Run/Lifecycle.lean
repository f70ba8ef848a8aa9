-- The life of the server of a replay, read off its log. When the answers of the system can be
-- believed, few logs are left, and they show what is promised: the server is asked to end
-- once, after the last command, and killed only when that was in vain; it is never left
-- behind; and neither its end nor its answers change the result.
import Transcript.Proofs.Run.Log

namespace Transcript

variable {σ : Type}

/-! ## Kinds of contacts -/

namespace Contact

/-- The system tells that the process has ended. -/
def reportsExit : Contact → Bool
  | .poll (.ok (some _)) | .await _ (.ended _) => true
  | _ => false

/-- The system is asked whether the process has ended. -/
def isQuery : Contact → Bool
  | .poll _ | .await .. => true
  | _ => false

def isStopRequest : Contact → Bool
  | .requestStop => true
  | _ => false

def isKill : Contact → Bool
  | .kill _ | .killAtOnce => true
  | _ => false

/-- An execution is nothing else. -/
theorem of_isExecution {c : Contact} (h : c.isExecution = true) :
    c.reportsExit = false ∧ c.isStopRequest = false ∧ c.isKill = false := by
  cases c with
  | execute command answer => exact ⟨rfl, rfl, rfl⟩
  | _ => cases h

theorem answer?_eq_none {c : Contact} (h : c.isExecution = false) : c.answer? = none := by
  cases c with
  | execute command answer => cases h
  | _ => rfl

end Contact

/-! ## Credible answers -/

/-- A system whose answers can be believed: it can always tell whether the process has ended, and
an end that it has told once, it tells whenever it is asked again. -/
structure Credible (log : List Contact) : Prop where
  told : ∀ reason, .poll (.error reason) ∉ log
  lasting : log.Pairwise fun a b =>
    a.reportsExit = true → b.isQuery = true → b.reportsExit = true

theorem Credible.of_append {xs ys : List Contact} (h : Credible (xs ++ ys)) :
    Credible xs ∧ Credible ys := by
  obtain ⟨hxs, hys, -⟩ := List.pairwise_append.mp h.lasting
  exact ⟨⟨fun reason hmem => h.told reason (List.mem_append_left ys hmem), hxs⟩,
    ⟨fun reason hmem => h.told reason (List.mem_append_right xs hmem), hys⟩⟩

/-- What is asked before an end was told is asked in vain after it. -/
theorem Credible.later {xs ys : List Contact} (h : Credible (xs ++ ys)) {a b : Contact}
    (ha : a ∈ xs) (hb : b ∈ ys) (hexit : a.reportsExit = true) (hquery : b.isQuery = true) :
    b.reportsExit = true :=
  (List.pairwise_append.mp h.lasting).2.2 a ha b hb hexit hquery

/-- Letting go, when the answers are credible. -/
inductive Freed : List Contact → Prop where
  | killed : Freed [.poll (.ok none), .killAtOnce]
  | ended (status : ExitStatus) : Freed [.poll (.ok (some status))]

/-- The end of the server, when the answers are credible: it has ended before, or it ends when
it is asked to, or waiting for that fails, or is in vain. -/
inductive Parted (grace : Nat) : List Contact → Prop where
  | ended (status last : ExitStatus) :
      Parted grace [.poll (.ok (some status)), .poll (.ok (some last))]
  | stopped (status last : ExitStatus) :
      Parted grace [.poll (.ok none), .requestStop, .await grace (.ended status),
        .poll (.ok (some last))]
  | failed (reason : String) {release : List Contact} : Freed release →
      Parted grace (.poll (.ok none) :: .requestStop :: .await grace (.failed reason) :: release)
  | killed (answer : Except String Unit) {release : List Contact} : Freed release →
      Parted grace
        (.poll (.ok none) :: .requestStop :: .await grace .tooLate :: .kill answer :: release)

theorem LetGo.freed {release : List Contact} (h : LetGo release) (hc : Credible release) :
    Freed release := by
  cases h with
  | killed => exact .killed
  | ended status => exact .ended status
  | unknown reason => exact absurd List.mem_cons_self (hc.told reason)

/-- A process that was told to have ended is found so when it is let go. -/
theorem LetGo.ended_of_reportsExit {before release : List Contact} (h : LetGo release)
    (hc : Credible (before ++ release)) (hexit : ∃ c ∈ before, c.reportsExit = true) :
    ∃ status, release = [.poll (.ok (some status))] := by
  obtain ⟨c, hc', hexit⟩ := hexit
  cases h with
  | killed =>
    have hpoll := hc.later hc' (b := .poll (.ok none)) List.mem_cons_self hexit rfl
    cases hpoll
  | ended status => exact ⟨status, rfl⟩
  | unknown reason => exact absurd List.mem_cons_self (hc.of_append.2.told reason)

theorem Terminated.parted {grace : Nat} {ending release : List Contact}
    (h : Terminated grace ending) (hrelease : LetGo release) (hc : Credible (ending ++ release)) :
    Parted grace (ending ++ release) := by
  have hfreed := hrelease.freed hc.of_append.2
  cases h with
  | unknown reason => exact absurd List.mem_cons_self (hc.of_append.1.told reason)
  | ended status =>
    obtain ⟨last, rfl⟩ := hrelease.ended_of_reportsExit hc ⟨_, List.mem_cons_self, rfl⟩
    exact .ended status last
  | stopped status =>
    obtain ⟨last, rfl⟩ :=
      hrelease.ended_of_reportsExit hc ⟨.await grace (.ended status), by simp, rfl⟩
    exact .stopped status last
  | failed reason => exact .failed reason hfreed
  | killed answer => exact .killed answer hfreed

/-- A process that was told to have ended is not asked to end. -/
theorem Parted.ended_of_reportsExit {grace : Nat} {before parting : List Contact}
    (h : Parted grace parting) (hc : Credible (before ++ parting))
    (hexit : ∃ c ∈ before, c.reportsExit = true) :
    ∃ status last, parting = [.poll (.ok (some status)), .poll (.ok (some last))] := by
  obtain ⟨c, hc', hexit⟩ := hexit
  cases h with
  | ended status last => exact ⟨status, last, rfl⟩
  | stopped | failed | killed =>
    have hpoll := hc.later hc' (b := .poll (.ok none)) List.mem_cons_self hexit rfl
    cases hpoll

/-- What a replay logs when the answers are credible, with its result. -/
inductive Life (corpus : Corpus) (settings : ServerSettings) :
    Except Failure Summary → List Contact → Prop where
  | noWords {fault : WordsFault} {failure : Failure} :
      Words.ofCommand settings.command = .error fault → Life corpus settings (.error failure) []
  | notSpawned {words : List String} (reason : String) {failure : Failure} :
      Words.ofCommand settings.command = .ok words →
      Life corpus settings (.error failure) [.spawn (.error reason)]
  | endedEarly {words : List String} {status : ExitStatus} (last : ExitStatus) {failure : Failure} :
      Words.ofCommand settings.command = .ok words → status.succeeded = false →
      Life corpus settings (.error failure)
        [.spawn (.ok ()), .pause settings.warmup, .poll (.ok (some status)),
          .poll (.ok (some last))]
  | replayed {words : List String} {answer : Except String (Option ExitStatus)}
      {executions parting : List Contact} :
      Words.ofCommand settings.command = .ok words → StaysUp answer →
      (∀ c ∈ executions, c.isExecution = true) → Parted settings.grace parting →
      (∀ status, answer = .ok (some status) →
        ∃ status last, parting = [.poll (.ok (some status)), .poll (.ok (some last))]) →
      Life corpus settings
        (.ok ((corpus.run .scripted (executions.filterMap Contact.answer?)).summary corpus))
        ([.spawn (.ok ()), .pause settings.warmup, .poll answer] ++ executions ++ parting)

theorem Logged.life {corpus : Corpus} {settings : ServerSettings}
    {result : Except Failure Summary} {log : List Contact} (h : Logged corpus settings result log)
    (hc : Credible log) : Life corpus settings result log := by
  cases h with
  | notStarted hstart =>
    cases hstart with
    | noWords hwords => exact .noWords hwords
    | notSpawned reason hwords => exact .notSpawned reason hwords
    | spawned hwords hwarmUp =>
      cases hwarmUp with
      | @ended status failure release hstatus hrelease =>
        have hsplit : Credible
            ([.spawn (.ok ()), .pause settings.warmup, .poll (.ok (some status))] ++ release) := hc
        obtain ⟨last, rfl⟩ := hrelease.ended_of_reportsExit hsplit
          ⟨.poll (.ok (some status)), by simp, rfl⟩
        exact .endedEarly last hwords hstatus
      | unknown reason hrelease => exact absurd (by simp) (hc.told reason)
  | replayed hstart hexecutions hending hrelease =>
    cases hstart with
    | spawned hwords hwarmUp =>
      cases hwarmUp with
      | up hup =>
        have hparted := hending.parted hrelease hc.of_append.2
        refine .replayed hwords hup hexecutions hparted ?_
        rintro status rfl
        exact hparted.ended_of_reportsExit hc ⟨.poll (.ok (some status)), by simp, rfl⟩

/-! ## Promises -/

/-- The grace period passed without an end of the process, or waiting for it failed. -/
inductive VainWait (grace : Nat) : Contact → Prop where
  | tooLate : VainWait grace (.await grace .tooLate)
  | failed (reason : String) : VainWait grace (.await grace (.failed reason))

/-- What is promised of the server of a replay. -/
structure Attended (settings : ServerSettings) (log : List Contact) : Prop where
  /-- A process that was spawned was told to have ended, or it was killed. -/
  gone : .spawn (.ok ()) ∈ log →
    log.any Contact.reportsExit = true ∨ log.any Contact.isKill = true
  /-- It is asked to end at most once, -/
  once : log.countP Contact.isStopRequest ≤ 1
  /-- only while it was not told to have ended, -/
  alive : log.Pairwise fun a b => a.reportsExit = true → b.isStopRequest = false
  /-- and after the last command. -/
  last : log.Pairwise fun a b => a.isStopRequest = true → b.isExecution = false
  /-- It is killed only after the grace period, or after waiting for it failed. -/
  killed : ∀ before c after, log = before ++ c :: after → c.isKill = true →
    ∃ d ∈ before, VainWait settings.grace d
  /-- Commands are executed only after the check at the end of the warm-up. -/
  warm : log.any Contact.isExecution = true → ∃ answer, StaysUp answer ∧
    [.spawn (.ok ()), .pause settings.warmup, .poll answer] <+: log

/-- Executions in the middle of a log do not matter to what holds of any two of its contacts. -/
theorem pairwise_around {R : Contact → Contact → Prop} {first executions last : List Contact}
    (hall : ∀ c ∈ executions, c.isExecution = true) (hends : (first ++ last).Pairwise R)
    (hbefore : ∀ a ∈ first, ∀ b, b.isExecution = true → R a b)
    (hafter : ∀ a b, a.isExecution = true → R a b) :
    (first ++ executions ++ last).Pairwise R := by
  obtain ⟨hfirst, hlast, hcross⟩ := List.pairwise_append.mp hends
  refine List.pairwise_append.mpr ⟨List.pairwise_append.mpr ⟨hfirst, ?_, ?_⟩, hlast, ?_⟩
  · exact List.pairwise_of_forall_mem_list fun a ha b _ => hafter a b (hall a ha)
  · exact fun a ha b hb => hbefore a ha b (hall b hb)
  · intro a ha b hb
    rcases List.mem_append.mp ha with ha | ha
    · exact hcross a ha b hb
    · exact hafter a b (hall a ha)

/-- In the log every contact of the one kind stands behind one of the other. -/
def Preceded (P Q : Contact → Prop) (log : List Contact) : Prop :=
  ∀ before c after, log = before ++ c :: after → Q c → ∃ d ∈ before, P d

theorem preceded_append {P Q : Contact → Prop} {xs ys : List Contact} (hxs : ∀ c ∈ xs, ¬ Q c)
    (hys : (∃ d ∈ xs, P d) ∨ Preceded P Q ys) : Preceded P Q (xs ++ ys) := by
  intro before c after heq hc
  rcases List.append_eq_append_iff.mp heq with ⟨inner, rfl, hinner⟩ | ⟨inner, rfl, hinner⟩
  · rcases hys with ⟨d, hd, hP⟩ | hys
    · exact ⟨d, List.mem_append_left inner hd, hP⟩
    · obtain ⟨d, hd, hP⟩ := hys inner c after hinner hc
      exact ⟨d, List.mem_append_right xs hd, hP⟩
  · cases inner with
    | nil =>
      rw [List.append_nil] at hxs hys
      rcases hys with h | hys
      · exact h
      · obtain ⟨d, hd, -⟩ := hys [] c after hinner.symm hc
        cases hd
    | cons first inner =>
      obtain ⟨rfl, -⟩ := List.cons.inj hinner
      exact absurd hc (hxs c (by simp))

theorem preceded_of_forall {P Q : Contact → Prop} {log : List Contact} (h : ∀ c ∈ log, ¬ Q c) :
    Preceded P Q log := by
  rintro before c after rfl hc
  exact absurd hc (h c (by simp))

theorem Parted.preceded {grace : Nat} {parting : List Contact} (h : Parted grace parting) :
    Preceded (VainWait grace) (fun c => c.isKill = true) parting := by
  cases h with
  | ended | stopped => exact preceded_of_forall (by simp [Contact.isKill])
  | @failed reason release hrelease =>
    change Preceded _ _ ([.poll (.ok none), .requestStop, .await grace (.failed reason)] ++ release)
    exact preceded_append (by simp [Contact.isKill]) (.inl ⟨_, by simp, .failed reason⟩)
  | @killed answer release hrelease =>
    change Preceded _ _
      ([.poll (.ok none), .requestStop, .await grace .tooLate] ++ .kill answer :: release)
    exact preceded_append (by simp [Contact.isKill]) (.inl ⟨_, by simp, .tooLate⟩)

theorem Parted.gone {grace : Nat} {parting : List Contact} (h : Parted grace parting) :
    parting.any Contact.reportsExit = true ∨ parting.any Contact.isKill = true := by
  cases h with
  | ended | stopped => exact .inl rfl
  | failed reason hrelease => cases hrelease <;> simp [Contact.reportsExit, Contact.isKill]
  | killed answer hrelease => exact .inr rfl

variable {corpus : Corpus} {settings : ServerSettings} {result : Except Failure Summary}
  {log : List Contact}

theorem Parted.once {grace : Nat} {parting : List Contact} (h : Parted grace parting) :
    parting.countP Contact.isStopRequest ≤ 1 := by
  cases h with
  | ended | stopped => simp [List.countP_cons, Contact.isStopRequest]
  | failed reason hrelease => cases hrelease <;> simp [List.countP_cons, Contact.isStopRequest]
  | killed answer hrelease => cases hrelease <;> simp [List.countP_cons, Contact.isStopRequest]

theorem Parted.not_isExecution {grace : Nat} {parting : List Contact} (h : Parted grace parting) :
    ∀ c ∈ parting, c.isExecution = false := by
  cases h with
  | ended | stopped => simp [Contact.isExecution]
  | failed reason hrelease => cases hrelease <;> simp [Contact.isExecution]
  | killed answer hrelease => cases hrelease <;> simp [Contact.isExecution]

theorem Parted.spawn_not_mem {grace : Nat} {parting : List Contact} (h : Parted grace parting)
    (answer : Except String Unit) : .spawn answer ∉ parting := by
  cases h with
  | ended | stopped => simp
  | failed reason hrelease => cases hrelease <;> simp
  | killed answer hrelease => cases hrelease <;> simp

/-- Once an end was told, the process is not asked to end any more. -/
theorem Parted.alive {grace : Nat} {parting : List Contact} (h : Parted grace parting) :
    parting.Pairwise fun a b => a.reportsExit = true → b.isStopRequest = false := by
  cases h with
  | ended | stopped => simp [Contact.reportsExit, Contact.isStopRequest]
  | failed reason hrelease => cases hrelease <;> simp [Contact.reportsExit, Contact.isStopRequest]
  | killed answer hrelease => cases hrelease <;> simp [Contact.reportsExit, Contact.isStopRequest]

/-- A run with its server up, in which commands may be executed. -/
theorem Parted.attended {parting : List Contact} (h : Parted settings.grace parting)
    {answer : Except String (Option ExitStatus)} {executions : List Contact} (hup : StaysUp answer)
    (hall : ∀ c ∈ executions, c.isExecution = true)
    (hended : ∀ status, answer = .ok (some status) →
      ∃ status last, parting = [.poll (.ok (some status)), .poll (.ok (some last))]) :
    Attended settings
      ([.spawn (.ok ()), .pause settings.warmup, .poll answer] ++ executions ++ parting) := by
  constructor
  case gone =>
    intro _
    rcases h.gone with hgone | hgone <;> simp [hgone]
  case once =>
    have hexecutions : executions.countP Contact.isStopRequest = 0 := by
      rw [List.countP_eq_zero]
      intro c hc hstop
      rw [(Contact.of_isExecution (hall c hc)).2.1] at hstop
      cases hstop
    rw [List.countP_append, List.countP_append, hexecutions]
    simpa [Contact.isStopRequest] using h.once
  case alive =>
    refine pairwise_around hall ?_ (fun a _ b hb _ => (Contact.of_isExecution hb).2.1) ?_
    · cases hup with
      | running => simpa [Contact.reportsExit, Contact.isStopRequest] using h.alive
      | launcher hstatus =>
        obtain ⟨status, last, rfl⟩ := hended _ rfl
        simp [Contact.reportsExit, Contact.isStopRequest]
    · intro a b ha hexit
      rw [(Contact.of_isExecution ha).1] at hexit
      cases hexit
  case last =>
    refine pairwise_around hall ?_ ?_ ?_
    · refine List.pairwise_of_forall_mem_list fun a _ b hb _ => ?_
      rcases List.mem_append.mp hb with hb | hb
      · simp only [List.mem_cons, List.not_mem_nil, or_false] at hb
        rcases hb with rfl | rfl | rfl <;> rfl
      · exact h.not_isExecution b hb
    · intro a ha b _ hstop
      simp only [List.mem_cons, List.not_mem_nil, or_false] at ha
      rcases ha with rfl | rfl | rfl <;> cases hstop
    · intro a b ha hstop
      rw [(Contact.of_isExecution ha).2.1] at hstop
      cases hstop
  case killed =>
    refine preceded_append (fun c hc => ?_) (.inr h.preceded)
    rcases List.mem_append.mp hc with hc | hc
    · simp only [List.mem_cons, List.not_mem_nil, or_false] at hc
      rcases hc with rfl | rfl | rfl <;> simp [Contact.isKill]
    · simp [(Contact.of_isExecution (hall c hc)).2.2]
  case warm => exact fun _ => ⟨answer, hup, by simp⟩

theorem Life.attended (h : Life corpus settings result log) : Attended settings log := by
  cases h with
  | replayed hwords hup hall hparted hended => exact hparted.attended hup hall hended
  | noWords hwords =>
    constructor
    case killed => exact preceded_of_forall (by simp)
    all_goals simp
  | notSpawned reason hwords =>
    constructor
    case killed => exact preceded_of_forall (by simp [Contact.isKill])
    all_goals simp [Contact.isStopRequest, Contact.isExecution]
  | endedEarly last hwords hstatus =>
    constructor
    case killed => exact preceded_of_forall (by simp [Contact.isKill])
    all_goals simp [Contact.isStopRequest, Contact.isExecution, Contact.reportsExit]

/-- A replay fails exactly if there is no command for the server, if the server is not spawned,
or if it ends badly in the warm-up. -/
theorem Life.failed_iff (h : Life corpus settings result log) :
    (∃ failure, result = .error failure) ↔
      (∃ fault, Words.ofCommand settings.command = .error fault) ∨
      (∃ reason, .spawn (.error reason) ∈ log) ∨
      ∃ status, status.succeeded = false ∧
        [.spawn (.ok ()), .pause settings.warmup, .poll (.ok (some status))] <+: log := by
  cases h with
  | noWords hwords => exact iff_of_true ⟨_, rfl⟩ (.inl ⟨_, hwords⟩)
  | notSpawned reason hwords => exact iff_of_true ⟨_, rfl⟩ (.inr (.inl ⟨reason, by simp⟩))
  | endedEarly last hwords hstatus =>
    exact iff_of_true ⟨_, rfl⟩ (.inr (.inr ⟨_, hstatus, by simp⟩))
  | @replayed words answer executions parting hwords hup hall hparted hended =>
    refine iff_of_false (by simp) ?_
    rintro (⟨fault, hfault⟩ | ⟨reason, hspawn⟩ | ⟨status, hstatus, hprefix⟩)
    · rw [hwords] at hfault
      cases hfault
    · rcases List.mem_append.mp hspawn with hspawn | hspawn
      · rcases List.mem_append.mp hspawn with hspawn | hspawn
        · simp at hspawn
        · cases hall _ hspawn
      · exact hparted.spawn_not_mem _ hspawn
    · have hanswer : answer = .ok (some status) := by
        simpa [List.cons_prefix_cons, eq_comm] using hprefix
      subst hanswer
      cases hup with
      | launcher hup =>
        rw [hstatus] at hup
        cases hup

/-- The answers in the log are those of the run. -/
theorem Life.summary_eq (h : Life corpus settings result log) {summary : Summary}
    (hresult : result = .ok summary) :
    summary = (corpus.run .scripted (log.filterMap Contact.answer?)).summary corpus := by
  cases h with
  | noWords | notSpawned | endedEarly => cases hresult
  | @replayed words answer executions parting hwords hup hall hparted hended =>
    have hparting : parting.filterMap Contact.answer? = [] := by
      rw [List.filterMap_eq_nil_iff]
      exact fun c hc => Contact.answer?_eq_none (hparted.not_isExecution c hc)
    rw [List.filterMap_append, List.filterMap_append, hparting, List.append_nil]
    exact (Except.ok.inj hresult).symm

/-- No server outlives its replay, and its end never changes the result. Whatever a system
answers that can be believed, the server is attended to as promised; the replay fails exactly if
the server is not started; and otherwise its summary is that of the run in which its commands
are given the same answers. -/
theorem no_server_outlives_its_replay (corpus : Corpus) (host : ServerHost σ)
    (settings : ServerSettings) (execute : Executor σ) (s : σ) :
    let replay := corpus.replay host.logged settings execute.logged (s, [])
    let log := replay.state.2
    corpus.replay host settings execute s = ⟨replay.result, replay.events, replay.state.1⟩ ∧
    (Credible log →
      Attended settings log ∧
      ((∃ failure, replay.result = .error failure) ↔
        (∃ fault, Words.ofCommand settings.command = .error fault) ∨
        (∃ reason, .spawn (.error reason) ∈ log) ∨
        ∃ status, status.succeeded = false ∧
          [.spawn (.ok ()), .pause settings.warmup, .poll (.ok (some status))] <+: log) ∧
      ∀ summary, replay.result = .ok summary →
        summary = (corpus.run .scripted (log.filterMap Contact.answer?)).summary corpus) := by
  intro replay log
  obtain ⟨hsame, hlogged⟩ := corpus.replay_logged host settings execute s
  refine ⟨hsame, fun hcredible => ?_⟩
  have hlife := hlogged.life hcredible
  exact ⟨hlife.attended, hlife.failed_iff, fun summary hresult => hlife.summary_eq hresult⟩

/-- A host whose process does not end until it is killed; its state tells whether it was. -/
def ServerHost.stubborn : ServerHost Bool where
  spawn _ _ _ killed := (.ok (), killed)
  pause _ killed := killed
  poll killed := (.ok (if killed then some (.signal 9 false) else none), killed)
  requestStop killed := killed
  await _ killed := (.tooLate, killed)
  kill _ := (.ok (), true)
  killAtOnce _ := true

/-- A server that does not end when it is asked to is killed, after a run that failed. -/
theorem a_stubborn_server_is_killed :
    let settings : ServerSettings := ⟨"sleep 30", 20, 500, none⟩
    let execute : Executor Bool := fun _ killed => (.ok "PONG\n", killed)
    let corpus : Corpus := ⟨[⟨"ping", "PONG\n"⟩, ⟨"get n", "1\n"⟩, ⟨"ping", "PONG\n"⟩]⟩
    let log : List Contact := [.spawn (.ok ()), .pause 20, .poll (.ok none),
      .execute "ping" (.ok "PONG\n"), .execute "get n" (.ok "PONG\n"), .poll (.ok none),
      .requestStop, .await 500 .tooLate, .kill (.ok ()), .poll (.ok (some (.signal 9 false)))]
    (corpus.replay ServerHost.stubborn.logged settings execute.logged (false, [])).state.2 = log ∧
      Credible log ∧ Attended settings log := by
  intro settings execute corpus log
  have hlog : (corpus.replay ServerHost.stubborn.logged settings execute.logged
      (false, [])).state.2 = log := by
    simp only [settings, execute, corpus, log]
    rfl
  have hcredible : Credible log := by
    constructor
    · simp [log]
    · simp [log, Contact.reportsExit]
  have h := (no_server_outlives_its_replay corpus .stubborn settings execute false).2
  rw [hlog] at h
  exact ⟨hlog, hcredible, (h hcredible).1⟩

end Transcript

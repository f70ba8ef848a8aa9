-- Programs that write and end. A line of words, a filled format and the two programs that only give
-- a status are such programs, whatever they are called with; and the standard machine is at rest
-- and finds them.
import Transcript.Proofs.Host.Commands

namespace Transcript.Host

/-! ## Steps that write -/

namespace Steps

variable {σ ε α β : Type} {s : σ} {limit : Nat} {out err : Octets} {status : ExitStatus}

/-- What follows some steps that are followed by others. -/
def before (f : α → Steps σ ε β) (next : Except ε β → σ → Activity) : Except ε α → σ → Activity :=
  fun result s =>
    match result with
    | .ok a => f a s next
    | .error e => next (.error e) s

theorem bind_apply (x : Steps σ ε α) (f : α → Steps σ ε β) (s : σ)
    (next : Except ε β → σ → Activity) : (x >>= f) s next = x s (before f next) := rfl

/-- Steps can be put together in any order. -/
instance : LawfulMonad (Steps σ ε) := LawfulMonad.mk' (Steps σ ε)
  (by
    intro α x
    funext s next
    change x s (before pure next) = x s next
    congr 1
    funext result s
    cases result <;> rfl)
  (by
    intro α β a f
    rfl)
  (by
    intro α β γ x f g
    rfl)

/-- Bytes are written with one request, unless there are none. -/
theorem writeAll_eq (descriptor : Nat) {bytes : Octets} (h : bytes ≠ []) (s : σ)
    (next : Except ε (Except HostError Unit) → σ → Activity) :
    ∃ answered, writeAll descriptor bytes s next = .ask (.write descriptor bytes) answered ∧
      answered (.ok bytes.length) = next (.ok (.ok ())) s := by
  obtain ⟨byte, rest, rfl⟩ := List.exists_cons_of_ne_nil h
  refine ⟨_, rfl, ?_⟩
  change writeAllWith descriptor (rest.length + 1) ((byte :: rest).drop (byte :: rest).length) s
    next = _
  rw [List.drop_length]
  rfl

/-- Steps that write to the output before others. -/
theorem prints_writeAll {f : Except HostError Unit → Steps σ ε β}
    {next : Except ε β → σ → Activity} {bytes all : Octets} (hall : bytes ++ out = all)
    (h : (f (.ok ()) s next).Prints limit out err status) :
    ((writeAll 1 bytes >>= f) s next).Prints (limit + 1) all err status := by
  rw [bind_apply, ← hall]
  by_cases hbytes : bytes = []
  · subst hbytes
    exact h.mono (Nat.le_succ limit)
  · obtain ⟨answered, heq, hanswered⟩ := writeAll_eq 1 hbytes s (before f next)
    rw [heq]
    apply Activity.Prints.out
    rw [hanswered]
    exact h

/-- Steps that write to the error output before others. -/
theorem prints_tell {f : Unit → Steps σ ε β} {next : Except ε β → σ → Activity} (bytes : Octets)
    (h : (f () s next).Prints limit out err status) :
    ((tell 2 bytes >>= f) s next).Prints (limit + 1) out (bytes ++ err) status := by
  have htell : (tell 2 bytes >>= f) s next =
      writeAll 2 bytes s (before (fun _ => pure ()) (before f next)) := rfl
  rw [htell]
  by_cases hbytes : bytes = []
  · subst hbytes
    exact h.mono (Nat.le_succ limit)
  · obtain ⟨answered, heq, hanswered⟩ :=
      writeAll_eq 2 hbytes s (before (fun _ => pure ()) (before f next))
    rw [heq]
    apply Activity.Prints.err
    rw [hanswered]
    exact h

end Steps

namespace Call

variable (call : Call)

/-- What a warning writes. -/
def warning (message : Octets) : Octets := call.name ++ ": ".toList ++ message ++ ['\n']

/-- A program that has written all of its output ends with its code. -/
theorem prints_finish (output : Octets) (code : Nat) :
    (Task.activity (call.finish output code)).Prints 1 output [] (.code code) := by
  unfold Task.activity finish
  exact Steps.prints_writeAll (List.append_nil output) (.ended (.code code) 0)

/-- The warnings of a program come before its output. -/
theorem prints_warnings (messages : List Octets) (output : Octets) (code : Nat) :
    (Task.activity (do
      for message in messages do
        call.warn message
      call.finish output code)).Prints (messages.length + 1) output
        (messages.flatMap call.warning) (.code code) := by
  induction messages with
  | nil => exact call.prints_finish output code
  | cons message rest ih =>
    have hfirst : (do
        for message in message :: rest do
          call.warn message
        call.finish output code : Task Nat) =
        (do
          Steps.tell 2 (call.warning message)
          for message in rest do
            call.warn message
          call.finish output code) := by
      simp [Call.warn, Call.warning]
    rw [hfirst]
    exact Steps.prints_tell _ ih

end Call

/-! ## Programs by themselves -/

theorem load_yes_prints (arguments : List Octets) (environment : List (Octets × Octets)) :
    (load ⟨.yes, arguments, environment⟩).Prints 0 [] [] (.code 0) :=
  .ended (.code 0) 0

theorem load_no_prints (arguments : List Octets) (environment : List (Octets × Octets)) :
    (load ⟨.no, arguments, environment⟩).Prints 0 [] [] (.code 1) :=
  .ended (.code 1) 0

/-- Words that are no options are written with blanks between them. -/
theorem Echo.line_of_plain {words : List Octets}
    (hplain : ∀ word ∈ words.head?, word.head? ≠ some '-') :
    Echo.line false words = Octets.join [' '] words ++ ['\n'] := by
  have hfirst : ∀ word ∈ words.head?, isOption word = false := by
    intro word hword
    have hhead := hplain word hword
    unfold isOption
    split
    · exact absurd rfl hhead
    · rfl
  have htake : words.takeWhile isOption = [] := by
    rcases words with _ | ⟨word, rest⟩
    · rfl
    · exact List.takeWhile_cons_of_neg (by simp [hfirst word rfl])
  have hdrop : words.dropWhile isOption = words := by
    rcases words with _ | ⟨word, rest⟩
    · rfl
    · exact List.dropWhile_cons_of_neg (by simp [hfirst word rfl])
  unfold Echo.line
  simp [htake, hdrop]

/-- Words on a line are written as one. -/
theorem load_echo_prints (name : Octets) (words : List Octets)
    (environment : List (Octets × Octets))
    (hplain : words ≠ ["--help".toList] ∧ words ≠ ["--version".toList]) :
    let call : Call := ⟨.echo, name :: words, environment⟩
    (load call).Prints 1 (Echo.line (call.setting? "POSIXLY_CORRECT").isSome words) []
      (.code 0) := by
  intro call
  have hload : load call = Task.activity
      (call.finish (Echo.line (call.setting? "POSIXLY_CORRECT").isSome words) 0) := by
    change Task.activity (Echo.run call) = _
    unfold Echo.run
    dsimp only
    rw [if_neg]
    · rfl
    · rintro ⟨-, hhelp | hversion⟩
      · exact hplain.1 hhelp
      · exact hplain.2 hversion
  rw [hload]
  exact call.prints_finish _ 0

/-- A format is filled with what follows it, and what is wrong with that is told before. -/
theorem load_printf_prints (name format : Octets) (arguments : List Octets)
    (environment : List (Octets × Octets)) (hplain : format.head? ≠ some '-') :
    let call : Call := ⟨.printf, name :: format :: arguments, environment⟩
    let isStrict := (call.setting? "POSIXLY_CORRECT").isSome
    let work :=
      match (Printf.fill format (arguments.length + 1)).run ⟨[], [], arguments, 0, isStrict⟩ with
      | .ok (_, work) => work
      | .error work => work
    (load call).Prints (work.told.length + 1) work.out.reverse.flatten
      (work.told.flatMap call.warning) (.code work.code) := by
  intro call isStrict work
  have hload : load call = Task.activity (do
      for message in work.told do
        call.warn message
      call.finish work.out.reverse.flatten work.code) := by
    have hhelp : ¬(call.arguments.tail = ["--help".toList] ∨
        call.arguments.tail = ["--version".toList]) := by
      rintro (h | h)
      · cases h
        exact hplain rfl
      · cases h
        exact hplain rfl
    have hdashes : ¬call.arguments.tail.head? = some ['-', '-'] := by
      intro h
      cases h
      exact hplain rfl
    change Task.activity (Printf.run call) = _
    unfold Printf.run
    rw [if_neg hhelp, if_neg hdashes]
    exact rfl
  rw [hload]
  exact call.prints_warnings _ _ _

/-! ## Texts -/

namespace Octets

/-- Bytes are passed on as they are. -/
theorem toBytes_ofBytes (bytes : List UInt8) : toBytes (ofBytes bytes) = bytes := by
  unfold toBytes ofBytes
  rw [List.map_map]
  refine List.map_id'' (fun b => ?_) bytes
  have hb := b.toNat_lt
  rw [Function.comp_apply, Text.toNat_ofNat (by omega)]
  exact UInt8.ofNat_toNat

@[simp]
theorem toBytes_ofText (s : String) : (ofText s).toBytes = Text.utf8 s.toList :=
  toBytes_ofBytes _

theorem ofText_append (s t : String) : ofText (s ++ t) = ofText s ++ ofText t := by
  unfold ofText ofBytes
  rw [String.toList_append, Text.utf8_append, List.map_append]

/-- Words with blanks between them. -/
theorem join_ofText (words : List String) :
    join [' '] (words.map ofText) = ofText (" ".intercalate words) := by
  unfold join
  induction words with
  | nil => rfl
  | cons word rest ih =>
    rcases rest with _ | ⟨next, rest⟩
    · simp
    · have hcons : " ".intercalate (word :: next :: rest) =
          word ++ " " ++ " ".intercalate (next :: rest) :=
        String.intercalate_cons_of_ne_nil (List.cons_ne_nil next rest)
      rw [List.map_cons, List.map_cons, List.intercalate_cons_cons, ← List.map_cons, ih, hcons,
        ofText_append, ofText_append]
      rfl

end Octets

/-! ## On a machine -/

namespace Machine

variable {m : Machine} {settings : ClientSettings} {command name : String} {words : List String}
  {start : Start}

/-- A program is given the words of its command. -/
theorem prepare_arguments {directory : Option String} {vars : Keyed String}
    (h : m.prepare directory vars name words = .ok start) :
    start.arguments = (name :: words).map Octets.ofText := by
  unfold prepare at h
  simp only [bind, Except.bind, pure, Except.pure, throw, throwThe, MonadExceptOf.throw] at h
  split at h
  · cases h
  · rcases directory with _ | d
    · dsimp only at h
      split at h
      · cases h
      · split at h
        · cases h
        · cases h
          rfl
    · dsimp only at h
      split at h
      · cases h
      · split at h
        · cases h
        · split at h
          · cases h
          · cases h
            rfl

/-- A command that is a line of words writes them, if they are no options. -/
theorem echo_prints (hwords : Words.ofCommand command = .ok (name :: words))
    (hprepare : m.prepare settings.directory settings.environment name words = .ok start)
    (hecho : start.program = .echo)
    (hlax : List.lookup (Octets.ofText "POSIXLY_CORRECT") start.environment = none)
    (hplain : ∀ word ∈ words.head?, (Octets.ofText word).head? ≠ some '-') :
    m.CommandPrints settings command
      (.ended (.code 0) (Text.utf8 (" ".intercalate words ++ "\n").toList) []) := by
  have hfirst : ∀ word ∈ (words.map Octets.ofText).head?, word.head? ≠ some '-' := by
    intro word hword
    rw [List.head?_map] at hword
    obtain ⟨text, htext, rfl⟩ := Option.map_eq_some_iff.mp hword
    exact hplain text htext
  have hprints := load_echo_prints (Octets.ofText name) (words.map Octets.ofText) start.environment
    ⟨fun h => by rw [h] at hfirst; exact hfirst _ rfl rfl,
      fun h => by rw [h] at hfirst; exact hfirst _ rfl rfl⟩
  have hline : Octets.join [' '] (words.map Octets.ofText) ++ ['\n'] =
      Octets.ofText (" ".intercalate words ++ "\n") := by
    rw [Octets.join_ofText, Octets.ofText_append]
    rfl
  unfold Call.setting? at hprints
  dsimp only at hprints
  rw [hlax, Option.isSome_none, Echo.line_of_plain hfirst, hline] at hprints
  rw [← List.map_cons, ← prepare_arguments hprepare, ← hecho] at hprints
  have h := CommandPrints.intro hwords hprepare hprints (by decide : 1 < patience)
  rw [Octets.toBytes_ofText] at h
  exact h

theorem resting_standard : standard.Resting := ⟨untouched_standard.orderly, nofun, rfl⟩

/-- On the standard machine the programs are found, and a run of them passes. -/
example :
    let corpus : Corpus := ⟨[⟨"echo one two", "one two\n"⟩, ⟨"printf '%s-%d' a 7", "a-7"⟩]⟩
    let run := corpus.run (launch.executor ⟨none, []⟩) standard
    (run.summary corpus).passed = true := by
  decide +kernel

end Machine

end Transcript.Host

-- Words without comments. The guard of hashes and the splitter read a command line side by
-- side, each with its own notion of where a word starts. They disagree only right after a line
-- continuation between words; everywhere else a `#` reaches the splitter either where it is
-- like any other character or behind a backslash. So the words of a command line are those of
-- a splitter that knows no comments.
import Transcript.Proofs.Corpus.Range
import Transcript.Words

namespace Transcript.Words

/-! ## Where the splitter stands -/

/-- The state of the splitter after a text, when it knows no comments. -/
def State.after (state : State) (text : List Char) : State :=
  text.foldl (fun state c => (step false state [] c).1) state

/-- The guard after a text. -/
def Guard.after (g : Guard) (text : List Char) : Guard := text.foldl Guard.next g

/-- The word so far does not matter to where the splitter goes. -/
theorem fst_step (comments : Bool) (state : State) (word : List Char) (c : Char) :
    (step comments state word c).1 = (step comments state [] c).1 := by
  cases state <;> simp only [step] <;> split_ifs <;> rfl

theorem State.after_cons (state : State) (word : List Char) (c : Char) (text : List Char) :
    state.after (c :: text) = (step false state word c).1.after text := by
  rw [fst_step]
  rfl

theorem State.after_concat (state : State) (text word : List Char) (c : Char) :
    state.after (text ++ [c]) = (step false (state.after text) word c).1 := by
  rw [fst_step, State.after, List.foldl_append]
  rfl

theorem Guard.after_concat (g : Guard) (text : List Char) (c : Char) :
    g.after (text ++ [c]) = (g.after text).next c := by
  rw [Guard.after, List.foldl_append]
  rfl

/-- A `#` stands directly after a line continuation between words: a backslash, outside of
quotes and while no word is under way, and a newline. -/
def HashAfterContinuation (command : List Char) : Prop :=
  ∃ before after, command = before ++ '\\' :: '\n' :: '#' :: after ∧
    State.between.after before = .between

/-! ## The guard beside the splitter -/

theorem isBlank_of_isSeparator {c : Char} (h : isSeparator c = true) : Text.isBlank c = true := by
  simp only [isSeparator, Bool.or_eq_true, decide_eq_true_eq] at h
  rcases h with (rfl | rfl) | rfl <;> decide

/-- Where the guard can stand while the splitter stands in a state. After a blank that parts no
words it takes the rest of a word for a new one, and after a line continuation between words
it takes a new one for a rest. -/
inductive Beside : Guard → State → Prop where
  | between : Beside .fresh .between
  | continued : Beside .inside .between
  | word : Beside .inside .word
  | blank : Beside .fresh .word
  | betweenEscape : Beside .escaped .betweenEscape
  | wordEscape : Beside .escaped .wordEscape
  | single : Beside .single .single
  | double : Beside .double .double
  | doubleEscape : Beside .doubleEscaped .doubleEscape

theorem Beside.ne_comment {g : Guard} {state : State} (h : Beside g state) : state ≠ .comment := by
  rintro rfl
  cases h

/-- Guard and splitter are outside of quotes and escapes together. -/
theorem Beside.outside_iff {g : Guard} {state : State} (h : Beside g state) :
    g = .fresh ∨ g = .inside ↔ state = .between ∨ state = .word := by
  cases h <;> simp

/-- Outside of quotes and escapes: whichever of its two states the guard is in, and whether a
word is under way or not, a character takes both to states beside each other. -/
theorem beside_outside {g : Guard} {state : State} (hg : g = .fresh ∨ g = .inside)
    (hstate : state = .between ∨ state = .word) (c : Char) :
    Beside (g.next c) (step false state [] c).1 := by
  have hquote : Text.isBlank '\'' = false := by decide
  have hdouble : Text.isBlank '"' = false := by decide
  have hbackslash : Text.isBlank '\\' = false := by decide
  have hnext : g.next c = Guard.fresh.next c := by
    rcases hg with rfl | rfl <;> rfl
  rw [hnext]
  by_cases h1 : c = '\''
  · subst h1
    rcases hstate with rfl | rfl <;> simpa [Guard.next, step, hquote] using Beside.single
  by_cases h2 : c = '"'
  · subst h2
    rcases hstate with rfl | rfl <;> simpa [Guard.next, step, hdouble] using Beside.double
  by_cases h3 : c = '\\'
  · subst h3
    rcases hstate with rfl | rfl
    · simpa [Guard.next, step, hbackslash] using Beside.betweenEscape
    · simpa [Guard.next, step, hbackslash] using Beside.wordEscape
  by_cases hblank : Text.isBlank c = true
  · by_cases hsep : isSeparator c = true
    · rcases hstate with rfl | rfl <;>
        simpa [Guard.next, step, h1, h2, h3, hblank, hsep] using Beside.between
    · rcases hstate with rfl | rfl <;>
        simpa [Guard.next, step, h1, h2, h3, hblank, hsep] using Beside.blank
  · have hsep : ¬ isSeparator c = true := fun h => hblank (isBlank_of_isSeparator h)
    rcases hstate with rfl | rfl <;>
      simpa [Guard.next, step, h1, h2, h3, hblank, hsep] using Beside.word

theorem Beside.next {g : Guard} {state : State} (h : Beside g state) (c : Char) :
    Beside (g.next c) (step false state [] c).1 := by
  cases h with
  | between => exact beside_outside (.inl rfl) (.inl rfl) c
  | continued => exact beside_outside (.inr rfl) (.inl rfl) c
  | word => exact beside_outside (.inr rfl) (.inr rfl) c
  | blank => exact beside_outside (.inl rfl) (.inr rfl) c
  | betweenEscape =>
    simp only [Guard.next, step]
    split
    · exact .continued
    · exact .word
  | wordEscape =>
    simp only [Guard.next, step]
    split <;> exact .word
  | single =>
    simp only [Guard.next, step]
    split
    · exact .word
    · exact .single
  | double =>
    simp only [Guard.next, step]
    by_cases h1 : c = '\\'
    · subst h1
      simpa using Beside.doubleEscape
    · by_cases h2 : c = '"'
      · subst h2
        simpa using Beside.word
      · simpa [h1, h2] using Beside.double
  | doubleEscape =>
    simp only [Guard.next, step]
    split_ifs <;> exact .double

/-- The guard and the splitter stand beside each other after any text. -/
theorem beside_after {g : Guard} {state : State} (h : Beside g state) (text : List Char) :
    Beside (g.after text) (state.after text) := by
  induction text generalizing g state with
  | nil => exact h
  | cons c rest ih => exact ih (h.next c)

/-! ## Line continuations -/

/-- Only a backslash between words leads behind one. -/
theorem exists_of_after_betweenEscape {text : List Char}
    (h : State.between.after text = .betweenEscape) :
    ∃ before, text = before ++ ['\\'] ∧ State.between.after before = .between := by
  rcases List.eq_nil_or_concat text with rfl | ⟨before, c, rfl⟩
  · cases h
  rw [List.concat_eq_append, State.after_concat _ _ []] at h
  rw [List.concat_eq_append]
  rcases hstate : State.between.after before <;> rw [hstate] at h <;> simp only [step] at h
  case between =>
    split_ifs at h with h1 h2 h3
    subst h3
    exact ⟨before, rfl, hstate⟩
  all_goals split_ifs at h

/-- The guard takes the start of a word for the rest of one only after a line continuation. -/
theorem exists_of_continued {text : List Char} (hg : Guard.fresh.after text = .inside)
    (h : State.between.after text = .between) :
    ∃ before, text = before ++ ['\\', '\n'] ∧ State.between.after before = .between := by
  rcases List.eq_nil_or_concat text with rfl | ⟨front, c, rfl⟩
  · cases hg
  rw [List.concat_eq_append] at *
  have hbeside : Beside (Guard.fresh.after front) (State.between.after front) :=
    beside_after .between front
  rw [Guard.after_concat] at hg
  rw [State.after_concat _ _ []] at h
  rcases hstate : State.between.after front <;> rw [hstate] at h hbeside <;> simp only [step] at h
  case between | word =>
    split_ifs at h with h1 h2 h3 hsep
    have hblank := isBlank_of_isSeparator hsep
    generalize Guard.fresh.after front = g at hbeside hg
    cases hbeside <;> simp [Guard.next, hblank] at hg
  case betweenEscape =>
    split_ifs at h with hnewline
    obtain ⟨before, rfl, hbefore⟩ := exists_of_after_betweenEscape hstate
    exact ⟨before, by simp [hnewline], hbefore⟩
  case comment => exact absurd rfl hbeside.ne_comment
  all_goals split_ifs at h

/-! ## Splitting -/

/-- Comments matter to the splitter only where one can start. -/
theorem step_true_eq {state : State} {c : Char} (hstate : state ≠ .comment)
    (h : ¬ (state = .between ∧ c = '#')) (word : List Char) :
    step true state word c = step false state word c := by
  cases state with
  | between =>
    have hc : c ≠ '#' := fun hc => h ⟨rfl, hc⟩
    simp [step, hc]
  | _ => rfl

/-- A guarded `#` is like any other character. -/
theorem splitFrom_guarded {state : State} (h : state = .between ∨ state = .word)
    (word rest : List Char) :
    splitFrom true state word ('\\' :: '#' :: rest) = splitFrom true .word ('#' :: word) rest := by
  rcases h with rfl | rfl <;> simp [splitFrom, step]

theorem step_false_hash {state : State} (h : state = .between ∨ state = .word)
    (word : List Char) : step false state word '#' = (.word, '#' :: word, none) := by
  rcases h with rfl | rfl <;> simp [step, isSeparator]

theorem splitFrom_cons {comments : Bool} {state : State} {word : List Char} {c : Char}
    (rest : List Char) :
    splitFrom comments state word (c :: rest) =
      match (step comments state word c).2.2 with
      | none => splitFrom comments (step comments state word c).1
          (step comments state word c).2.1 rest
      | some done => (splitFrom comments (step comments state word c).1
          (step comments state word c).2.1 rest).map (done :: ·) := by
  rw [splitFrom]
  rcases step comments state word c with ⟨next, word', _ | done⟩ <;> rfl

theorem map_append_map (first second : List (List Char))
    (result : Except WordsFault (List (List Char))) :
    (result.map (second ++ ·)).map (first ++ ·) = result.map (first ++ second ++ ·) := by
  cases result <;> simp [Except.map]

/-- What the splitter has of a text, when it knows no comments: the words that end in it, and
the word that is under way after it. -/
def State.reads (state : State) (word : List Char) : List Char → List (List Char) × List Char
  | [] => ([], word)
  | c :: rest =>
    let (next, word', done) := step false state word c
    let (words, last) := next.reads word' rest
    (done.toList ++ words, last)

theorem State.reads_cons (state : State) (word : List Char) (c : Char) (rest : List Char) :
    state.reads word (c :: rest) =
      let read := (step false state word c).1.reads (step false state word c).2.1 rest
      ((step false state word c).2.2.toList ++ read.1, read.2) := rfl

/-- The words of a text are those that end in it, and what its end leaves. -/
theorem splitFrom_eq_reads (state : State) (word text : List Char) :
    splitFrom false state word text =
      (finish (state.after text) (state.reads word text).2).map
        ((state.reads word text).1 ++ ·) := by
  induction text generalizing state word with
  | nil =>
    change finish state word = (finish state word).map ([] ++ ·)
    cases finish state word <;> rfl
  | cons c rest ih =>
    rw [splitFrom_cons, State.after_cons _ word, State.reads_cons]
    split
    · rename_i hdone
      rw [ih, hdone]
      rfl
    · rename_i done hdone
      rw [ih, hdone]
      exact map_append_map [done] _ _

/-- From any place on, what is guarded is read as it is read without comments, whatever follows
it. By induction on what is left, as the text before it tells where guard and splitter stand. -/
theorem splitFrom_guardHashesFrom_append {front rest : List Char}
    (h : ¬ HashAfterContinuation (front ++ rest)) (word tail : List Char) :
    splitFrom true (State.between.after front) word
        (guardHashesFrom (Guard.fresh.after front) rest ++ tail) =
      (splitFrom true (State.between.after (front ++ rest))
        ((State.between.after front).reads word rest).2 tail).map
          (((State.between.after front).reads word rest).1 ++ ·) := by
  induction rest generalizing front word with
  | nil =>
    rw [List.append_nil]
    change splitFrom true _ word tail = (splitFrom true _ word tail).map ([] ++ ·)
    cases splitFrom true (State.between.after front) word tail <;> rfl
  | cons c rest ih =>
    have hbeside : Beside (Guard.fresh.after front) (State.between.after front) :=
      beside_after .between front
    have hne := hbeside.ne_comment
    have hfront : front ++ c :: rest = (front ++ [c]) ++ rest := List.append_cons front c rest
    rw [hfront] at h ⊢
    have hnext := fun word' => ih h word'
    rw [Guard.after_concat] at hnext
    simp only [State.after_concat .between front word] at hnext
    rw [State.reads_cons]
    unfold guardHashesFrom
    by_cases hguarded : Guard.fresh.after front = .fresh ∧ c = '#'
    · obtain ⟨hfresh, rfl⟩ := hguarded
      have houtside := hbeside.outside_iff.mp (.inl hfresh)
      have hsplit := hnext ('#' :: word)
      rw [step_false_hash houtside] at hsplit
      rw [if_pos ⟨hfresh, rfl⟩, List.cons_append, List.cons_append,
        splitFrom_guarded houtside, hsplit, step_false_hash houtside]
      rfl
    · have hplain : ¬ (State.between.after front = .between ∧ c = '#') := by
        rintro ⟨hbetween, rfl⟩
        rw [hbetween] at hbeside
        generalize hg : Guard.fresh.after front = g at hbeside hguarded
        cases hbeside with
        | between => exact hguarded ⟨rfl, rfl⟩
        | continued =>
          obtain ⟨before, rfl, hbefore⟩ := exists_of_continued hg hbetween
          exact h ⟨before, rest, by simp, hbefore⟩
      rw [if_neg hguarded, List.cons_append, splitFrom_cons, step_true_eq hne hplain, hnext]
      split
      · rename_i hdone
        rw [hdone]
        rfl
      · rename_i done hdone
        rw [hdone]
        exact map_append_map [done] _ _

/-- From any place on, what is guarded is split as it is split without comments. -/
theorem splitFrom_guardHashesFrom {front rest : List Char}
    (h : ¬ HashAfterContinuation (front ++ rest)) (word : List Char) :
    splitFrom true (State.between.after front) word
        (guardHashesFrom (Guard.fresh.after front) rest) =
      splitFrom false (State.between.after front) word rest := by
  have hafter : State.between.after (front ++ rest) = (State.between.after front).after rest :=
    List.foldl_append
  have hread := splitFrom_guardHashesFrom_append h word []
  rw [List.append_nil, hafter] at hread
  rw [hread, splitFrom_eq_reads]
  rfl

theorem split_guardHashes {command : List Char} (h : ¬ HashAfterContinuation command) :
    split true (guardHashes command) = split false command := by
  have hfront : ¬ HashAfterContinuation ([] ++ command) := h
  exact splitFrom_guardHashesFrom hfront []

/-- A quote that was opened is not closed. -/
def State.isQuoted : State → Bool
  | .single | .double | .doubleEscape => true
  | _ => false

/-- Splitting fails exactly if it ends between quotes. -/
theorem splitFrom_eq_error_iff (state : State) (word text : List Char) (fault : WordsFault) :
    splitFrom false state word text = .error fault ↔
      fault = .openQuote ∧ (state.after text).isQuoted = true := by
  induction text generalizing state word with
  | nil => cases state <;> simp [splitFrom, finish, State.after, State.isQuoted, eq_comm]
  | cons c rest ih =>
    rw [splitFrom_cons, State.after_cons _ word, ← ih]
    split
    · rfl
    · cases splitFrom false (step false state word c).1 (step false state word c).2.1 rest <;>
        simp [Except.map]

/-! ## The words of a command -/

/-- A command line is split as by a splitter that knows no comments. -/
structure SplitPlainly (command : String) : Prop where
  /-- It has words exactly if this splitter finds any, and they are those. -/
  words : ∀ words, ofCommand command = .ok words ↔
    words ≠ [] ∧ split false command.toList = .ok (words.map String.toList)
  /-- A quote is open exactly if this splitter ends between quotes. -/
  openQuote : ofCommand command = .error .openQuote ↔
    (State.between.after command.toList).isQuoted = true
  /-- It is empty exactly if this splitter finds no word. -/
  empty : ofCommand command = .error .empty ↔ split false command.toList = .ok []

theorem map_ofList_eq_iff (found : List (List Char)) (words : List String) :
    found.map String.ofList = words ↔ found = words.map String.toList := by
  constructor
  · rintro rfl
    simp [Function.comp_def]
  · rintro rfl
    simp [Function.comp_def]

theorem splitPlainly_of_not_hashAfterContinuation {command : String}
    (h : ¬ HashAfterContinuation command.toList) : SplitPlainly command := by
  have hopen : ∀ fault, split false command.toList = .error fault ↔ fault = .openQuote ∧
      (State.between.after command.toList).isQuoted = true :=
    splitFrom_eq_error_iff .between [] command.toList
  rcases hsplit : split false command.toList with fault | _ | ⟨word, rest⟩ <;>
    rw [hsplit] at hopen
  · have hcommand : ofCommand command = .error fault := by
      rw [ofCommand, ofChars, split_guardHashes h, hsplit]
      rfl
    obtain ⟨rfl, hquoted⟩ := (hopen fault).mp rfl
    constructor <;> simp [hcommand, hsplit, hquoted]
  · have hcommand : ofCommand command = .error .empty := by
      rw [ofCommand, ofChars, split_guardHashes h, hsplit]
      rfl
    have hclosed : (State.between.after command.toList).isQuoted = false := by
      simpa using hopen .openQuote
    constructor
    · intro words
      rw [hcommand, hsplit]
      refine iff_of_false (by simp) ?_
      rintro ⟨hne, hnone⟩
      exact hne (by simpa using hnone)
    · simp [hcommand, hclosed]
    · simp [hcommand, hsplit]
  · have hcommand : ofCommand command = .ok ((word :: rest).map String.ofList) := by
      rw [ofCommand, ofChars, split_guardHashes h, hsplit]
      rfl
    have hclosed : (State.between.after command.toList).isQuoted = false := by
      simpa using hopen .openQuote
    constructor
    · intro words
      rw [hcommand, hsplit, Except.ok.injEq, Except.ok.injEq, map_ofList_eq_iff]
      refine ⟨fun hwords => ⟨?_, hwords⟩, And.right⟩
      rintro rfl
      cases hwords
    · simp [hcommand, hclosed]
    · simp [hcommand, hsplit]

theorem not_hashAfterContinuation_of_not_mem {command : List Char} (h : '\n' ∉ command) :
    ¬ HashAfterContinuation command := by
  rintro ⟨before, after, rfl, -⟩
  exact h (by simp)

/-- There are no comments. Unless a `#` stands directly after a line continuation between words,
the words of a command line are those of a splitter for which `#` is like any other character,
and it fails exactly where this splitter ends between quotes or finds no word. The commands of a
corpus are on one line, so this holds of each of them. -/
theorem words_are_split_without_comments :
    (∀ command : String, ¬ HashAfterContinuation command.toList → SplitPlainly command) ∧
      ∀ prompt text corpus, Corpus.parse prompt text = .ok corpus →
        ∀ case ∈ corpus.cases, SplitPlainly case.command := by
  refine ⟨fun command h => splitPlainly_of_not_hashAfterContinuation h, ?_⟩
  intro prompt text corpus hparse case hcase
  have hline := (Corpus.wellFormed_of_parse hparse case hcase).command.oneLine
  exact splitPlainly_of_not_hashAfterContinuation (not_hashAfterContinuation_of_not_mem hline)

/-- Hashes after a continuation in a word, after one between quotes, after a blank that parts no
words and at the start of a word; and a corpus with one in a command. -/
theorem hashes_of_all_kinds_are_kept :
    let command := "a\\\n#b '\\\n#c' x\u00a0#d #e"
    let text := "$ echo # 1\n# 1\n"
    let corpus : Corpus := ⟨[⟨"echo # 1", "# 1\n"⟩]⟩
    ¬ HashAfterContinuation command.toList ∧
      ofCommand command = .ok ["a#b", "\\\n#c", "x\u00a0#d", "#e"] ∧
      Corpus.parse "$" text = .ok corpus ∧ ofCommand "echo # 1" = .ok ["echo", "#", "1"] := by
  intro command text corpus
  have hplaces : ∀ n ≤ command.toList.length,
      (command.toList.drop n).take 3 = ['\\', '\n', '#'] →
        State.between.after (command.toList.take n) ≠ .between := by decide +kernel
  have hcommand : ¬ HashAfterContinuation command.toList := by
    rintro ⟨before, after, heq, hbefore⟩
    refine hplaces before.length ?_ ?_ ?_
    · simp [heq]
    · simp [heq]
    · rw [heq, List.take_left']
      · exact hbefore
      · rfl
  have hparse : Corpus.parse "$" text = .ok corpus := by decide +kernel
  obtain ⟨hplain, hcorpus⟩ := words_are_split_without_comments
  refine ⟨hcommand, ?_, hparse, ?_⟩
  · exact ((hplain command hcommand).words _).mpr ⟨by simp, by decide +kernel⟩
  · exact ((hcorpus "$" text corpus hparse _ List.mem_cons_self).words _).mpr
      ⟨by simp, by decide +kernel⟩

end Transcript.Words

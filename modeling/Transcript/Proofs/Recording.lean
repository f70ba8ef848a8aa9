-- Sessions with a store as corpora. A session is recorded as cases: each request as a
-- command line of quoted words, and the reply to it in rows as its output. The record is
-- written as a text, read again and replayed against a new store, and it passes.
import Transcript.Proofs.Corpus.Writing
import Transcript.Proofs.Run.Course
import Transcript.Proofs.SortedSet.Reference
import Transcript.Proofs.SortedSet.Rows
import Transcript.Proofs.Words.Quoting

namespace Transcript

/-! ## Tidy replies -/

/-- A request that gives scores only to names that can end a row. -/
def AddsTidyNames (words : List String) : Prop :=
  ∀ key score name, words = ["zadd", key, score, name] → EndsRow name.toList

namespace Scores

/-- Every name that has a score can end a row. -/
def TidyNames (m : Scores) : Prop :=
  ∀ key name score, m key name = some score → EndsRow name.toList

theorem tidyNames_none : none.TidyNames := by
  intro key name score h
  cases h

theorem TidyNames.set {m : Scores} (h : m.TidyNames) {name : String} {score : Option Binary64}
    (hname : score ≠ .none → EndsRow name.toList) (key : String) :
    (m.set key name score).TidyNames := by
  intro k n x hx
  unfold Scores.set at hx
  split at hx
  · rename_i hkn
    rw [hkn.2]
    exact hname (by rw [hx]; exact Option.some_ne_none x)
  · exact h k n x hx

theorem Lists.tidy {m : Scores} (h : m.TidyNames) {key : String} {place : Member}
    {members : List Member} (hmembers : m.Lists key place members) (offset limit : Nat) :
    (Reply.arr (((members.drop offset).take limit).flatMap fun member =>
      [.str member.name, .double member.score])).Tidy := by
  refine .arr fun item hitem => ?_
  obtain ⟨x, hx, hitem⟩ := List.mem_flatMap.mp hitem
  have hmem := (hmembers.mem_iff x).mp (List.mem_of_mem_drop (List.mem_of_mem_take hx))
  rcases List.mem_cons.mp hitem with rfl | hitem
  · exact .str (h key x.name x.score hmem.1)
  · rw [List.mem_singleton.mp hitem]
    exact .double

/-- One request keeps the names tidy, and so is its reply. -/
theorem Answers.tidy {m after : Scores} {words : List String} {reply : Reply}
    (h : m.Answers words reply after) (hm : m.TidyNames) (hwords : AddsTidyNames words) :
    after.TidyNames ∧ reply.Tidy := by
  unfold Answers at h
  split at h
  · rename_i key score name
    split at h
    · obtain ⟨rfl, rfl⟩ := h
      exact ⟨hm.set (fun _ => hwords key score name rfl) key, .int⟩
    · obtain ⟨rfl, rfl⟩ := h
      exact ⟨hm, .err ⟨by decide, 'r', by decide, by decide⟩⟩
  · obtain ⟨rfl, rfl⟩ := h
    exact ⟨hm.set (fun h => absurd rfl h) _, .int⟩
  · obtain ⟨rfl, rfl⟩ := h
    refine ⟨hm, ?_⟩
    split
    · exact .double
    · exact .nil
  · split at h
    · obtain ⟨members, hmembers, rfl, rfl⟩ := h
      exact ⟨hm, hmembers.tidy hm _ _⟩
    · obtain ⟨rfl, rfl⟩ := h
      exact ⟨hm, .err ⟨by decide, 's', by decide, by decide⟩⟩
  · obtain ⟨rfl, rfl⟩ := h
    exact ⟨hm, .err ⟨by decide, 'd', by decide, by decide⟩⟩

end Scores

/-! ## Recording -/

namespace Store

/-- The cases of a session: each request as a command line, with the reply in rows. -/
def recorded (s : Store) (history : List (List String)) : List Case :=
  List.zipWith (fun words reply => ⟨Words.quoteAll words, reply.render⟩) history
    (s.handleAll history).1

theorem recorded_cons (s : Store) (words : List String) (rest : List (List String)) :
    s.recorded (words :: rest) =
      ⟨Words.quoteAll words, (s.handle words).1.render⟩ :: (s.handle words).2.recorded rest :=
  rfl

theorem length_recorded (s : Store) (history : List (List String)) :
    (s.recorded history).length = history.length := by
  induction history generalizing s with
  | nil => rfl
  | cons words rest ih => rw [recorded_cons, List.length_cons, ih, List.length_cons]

theorem isCommand_quoteAll (marker : List Char) {words : List String} (hne : words ≠ [])
    (hline : ∀ w ∈ words, '\n' ∉ w.toList) :
    Corpus.IsCommand marker (Words.quoteAll words).toList where
  oneLine := Words.not_mem_quoteAll (by decide) (by decide) (by decide) hline
  trimmed := by
    obtain ⟨hhead, hlast⟩ := Words.quoteAll_ends hne
    exact Text.trim_eq_self_of_ends hhead hlast (by decide) (by decide)
  ne_nil _ hnil := by
    have := (Words.quoteAll_ends hne).1
    rw [hnil] at this
    cases this

/-- The cases of a session can be written as a corpus. A reply names only what has a score, so the
map of scores tells that it is tidy. -/
theorem InStep.wellFormed_recorded {s : Store} (h : s.InStep) (hs : s.scores.TidyNames)
    {marker : List Char} (hmarker : ∃ c ∈ marker.head?, c ≠ '(') {history : List (List String)}
    (hne : ∀ words ∈ history, words ≠ [])
    (hline : ∀ words ∈ history, ∀ w ∈ words, '\n' ∉ w.toList)
    (hnames : ∀ words ∈ history, AddsTidyNames words) :
    ∀ case ∈ s.recorded history, Corpus.WellFormed marker case := by
  induction history generalizing s with
  | nil => simp [recorded]
  | cons words rest ih =>
    obtain ⟨hwords, hrest⟩ := List.forall_mem_cons.mp hne
    obtain ⟨hlwords, hlrest⟩ := List.forall_mem_cons.mp hline
    obtain ⟨hnwords, hnrest⟩ := List.forall_mem_cons.mp hnames
    have hanswers := (h.answers_iff words _ _).mpr ⟨rfl, rfl⟩
    obtain ⟨hafter, htidy⟩ := hanswers.tidy hs hnwords
    rw [recorded_cons, List.forall_mem_cons]
    exact ⟨⟨isCommand_quoteAll marker hwords hlwords, htidy.isOutput_render hmarker _⟩,
      ih (h.answer (.ofWords words)) hafter hrest hlrest hnrest⟩

/-! ## Replaying -/

/-- Answers a command line with the reply to its words, in rows. All words make the request,
a `--` among them too. -/
def commandLine : Executor Store := fun command store =>
  match Words.ofCommand command with
  | .error fault => (.error (.execution command fault.toFailure), store)
  | .ok words =>
    let (reply, store) := store.handle words
    (.ok reply.render, store)

theorem commandLine_quoteAll {words : List String} (h : words ≠ []) (s : Store) :
    commandLine (Words.quoteAll words) s =
      (.ok (s.handle words).1.render, (s.handle words).2) := by
  simp only [commandLine, Words.ofCommand_quoteAll h]

/-- No case of a session fails against a store that stands as the recorded one stood. -/
theorem failureAt?_recorded (s : Store) {history : List (List String)}
    (hne : ∀ words ∈ history, words ≠ []) (i : Nat) :
    Corpus.failureAt? ⟨s.recorded history⟩ commandLine s i = none := by
  induction history generalizing s i with
  | nil => rfl
  | cons words rest ih =>
    obtain ⟨hwords, hrest⟩ := List.forall_mem_cons.mp hne
    rw [recorded_cons]
    cases i with
    | zero =>
      rw [Corpus.failureAt?_cons_zero, commandLine_quoteAll hwords]
      exact if_pos rfl
    | succ i =>
      rw [Corpus.failureAt?_cons_succ, commandLine_quoteAll hwords]
      exact ih _ hrest i

/-- A session that was recorded is replayed with success. The requests must not be empty
and must not have a newline in them, and a name that is given a score must not be empty or
end in a blank; then the record is read as one case for each request, and all cases pass. -/
theorem a_recorded_session_passes (history : List (List String))
    (hne : ∀ words ∈ history, words ≠ [])
    (hline : ∀ words ∈ history, ∀ w ∈ words, '\n' ∉ w.toList)
    (hnames : ∀ key score name, ["zadd", key, score, name] ∈ history →
      name ≠ "" ∧ ∀ c ∈ name.toList.getLast?, Text.isBlank c = false) :
    let corpus : Corpus := ⟨empty.recorded history⟩
    Corpus.parse Corpus.defaultPrompt (Corpus.write Corpus.defaultPrompt corpus.cases) =
        .ok corpus ∧
      corpus.size = history.length ∧
      (corpus.run commandLine empty).summary corpus =
        { passed := true, phase := .passed, casesRun := history.length,
          casesTotal := history.length, failure := none } := by
  intro corpus
  have hsize : corpus.size = history.length := length_recorded empty history
  have htidy : ∀ words ∈ history, AddsTidyNames words := by
    rintro _ hwords key score name rfl
    obtain ⟨hempty, hlast⟩ := hnames key score name hwords
    have hchars : name.toList ≠ [] := by rwa [Ne, String.toList_eq_nil_iff]
    exact ⟨hline _ hwords name (by simp), _, List.getLast?_eq_some_getLast hchars,
      hlast _ (List.getLast?_eq_some_getLast hchars)⟩
  have hcases : ∀ case ∈ corpus.cases, Corpus.WellFormed Corpus.defaultPrompt.toList case :=
    inStep_empty.wellFormed_recorded Scores.tidyNames_none ⟨'$', by decide, by decide⟩ hne hline
      htidy
  have hsummary := Corpus.summary_of_passes (failureAt?_recorded empty hne)
  rw [show Corpus.size ⟨empty.recorded history⟩ = history.length from hsize] at hsummary
  exact ⟨Corpus.parse_write (by decide) (by decide) (by decide) hcases, hsize, hsummary⟩

/-- A session with quotes, hashes, blanks and an empty word, the last of it refused. -/
theorem a_session_of_unusual_words_passes :
    let history := [["zadd", "it's", "1e3", " # 1"], ["zquery", "it's", "-0", "", "0", "9"], ["#"]]
    let corpus : Corpus := ⟨empty.recorded history⟩
    Corpus.parse Corpus.defaultPrompt (Corpus.write Corpus.defaultPrompt corpus.cases) =
        .ok corpus ∧
      corpus.size = 3 ∧
      (corpus.run commandLine empty).summary corpus = ⟨true, .passed, 3, 3, none⟩ := by
  intro history corpus
  refine a_recorded_session_passes history (by decide) (by decide) ?_
  intro key score name h
  obtain ⟨rfl, rfl, rfl⟩ : key = "it's" ∧ score = "1e3" ∧ name = " # 1" := by
    simpa [history] using h
  refine ⟨by decide, fun c hc => ?_⟩
  rw [show " # 1".toList.getLast? = some '1' by decide, Option.mem_some] at hc
  subst hc
  decide

end Store

end Transcript

-- Arguments written behind a command. Wherever the words of a command line end, a space and an
-- argument between single quotes start a new word, if the command is on one line and no
-- backslash at its end takes the space; so the words of the longer command line are those of
-- the command, and then the arguments.
import Transcript.Proofs.Words.Comments
import Transcript.Proofs.Words.Quoting

namespace Transcript.Words

/-! ## Behind a command -/

theorem guardHashesFrom_append (g : Guard) (text tail : List Char) :
    guardHashesFrom g (text ++ tail) =
      guardHashesFrom g text ++ guardHashesFrom (g.after text) tail := by
  induction text generalizing g with
  | nil => rfl
  | cons c rest ih =>
    simp only [List.cons_append, guardHashesFrom, ih]
    split <;> rfl

/-- A backslash that takes the next character is the last character so far. -/
theorem after_ne_escape {text : List Char} (h : text.getLast? ≠ some '\\') :
    State.between.after text ≠ .betweenEscape ∧ State.between.after text ≠ .wordEscape := by
  rcases List.eq_nil_or_concat text with rfl | ⟨front, c, rfl⟩
  · exact ⟨by rintro ⟨⟩, by rintro ⟨⟩⟩
  rw [List.concat_eq_append] at h ⊢
  have hc : c ≠ '\\' := fun hc => h (by rw [hc, List.getLast?_concat])
  rw [State.after_concat _ _ []]
  cases State.between.after front <;> simp only [step, hc, if_false] <;> split_ifs <;> simp

/-- Outside of words no word is under way. -/
def Idle (state : State) (word : List Char) : Prop :=
  state = .between ∨ state = .betweenEscape ∨ state = .comment → word = []

theorem Idle.step {state : State} {word : List Char} (h : Idle state word) (c : Char) :
    Idle (step false state word c).1 (step false state word c).2.1 := by
  unfold Idle at h ⊢
  cases state <;> simp only [Words.step] <;> split_ifs <;> simp_all

theorem Idle.reads {state : State} {word : List Char} (h : Idle state word) (text : List Char) :
    Idle (state.after text) (state.reads word text).2 := by
  induction text generalizing state word with
  | nil => exact h
  | cons c rest ih =>
    rw [State.after_cons _ word, State.reads_cons]
    exact ih (h.step c)

/-! ## Arguments -/

/-- Nothing is guarded in quoted arguments, whether the guard expects a new word or not. -/
theorem guardHashesFrom_spaced_of_outside {g : Guard} (hg : g = .fresh ∨ g = .inside)
    (arguments : List (List Char)) : guardHashesFrom g (spaced arguments) = spaced arguments := by
  rcases hg with rfl | rfl
  · have hsame : guardHashesFrom .fresh (spaced arguments) =
        guardHashesFrom .inside (spaced arguments) := by
      cases arguments <;> rfl
    rw [hsame, guardHashesFrom_spaced]
  · exact guardHashesFrom_spaced arguments

theorem splitFrom_between_spaced (comments : Bool) (arguments : List (List Char)) :
    splitFrom comments .between [] (spaced arguments) = .ok arguments := by
  cases arguments with
  | nil => rfl
  | cons argument rest =>
    have hspace : splitFrom comments .between [] (spaced (argument :: rest)) =
        splitFrom comments .between [] (quoteWord argument ++ spaced rest) := by
      rw [spaced_cons]
      rfl
    rw [hspace, splitFrom_quoteWord, splitFrom_spaced, List.reverse_reverse]

/-- Where a text could end, the words that its end leaves are followed by the arguments. -/
theorem splitFrom_spaced_of_finish {state : State} {word : List Char}
    {left : List (List Char)} (hstate : state = .between ∨ state = .word)
    (hidle : Idle state word) (h : finish state word = .ok left) (comments : Bool)
    (arguments : List (List Char)) :
    splitFrom comments state word (spaced arguments) = .ok (left ++ arguments) := by
  rcases hstate with rfl | rfl
  · obtain rfl : word = [] := hidle (.inl rfl)
    cases h
    exact splitFrom_between_spaced comments arguments
  · cases h
    exact splitFrom_spaced comments word arguments

/-- A command line that has words ends between words or in one, unless it ends in a backslash. -/
theorem after_outside {text : List Char} {left : List (List Char)} {word : List Char}
    (hend : text.getLast? ≠ some '\\')
    (h : finish (State.between.after text) word = .ok left) :
    State.between.after text = .between ∨ State.between.after text = .word := by
  obtain ⟨hbetween, hword⟩ := after_ne_escape hend
  have hcomment : State.between.after text ≠ .comment :=
    (beside_after .between text).ne_comment
  cases hstate : State.between.after text <;> simp_all [finish]

/-- Behind a text on one line the arguments follow its words. -/
theorem split_guardHashes_append {text : List Char} {words : List (List Char)}
    (hline : '\n' ∉ text) (hend : text.getLast? ≠ some '\\')
    (h : split true (guardHashes text) = .ok words) (arguments : List (List Char)) :
    split true (guardHashes (text ++ spaced arguments)) = .ok (words ++ arguments) := by
  have hplain : ¬ HashAfterContinuation ([] ++ text) :=
    not_hashAfterContinuation_of_not_mem hline
  have hread : ∀ tail, split true (guardHashes text ++ tail) =
      (splitFrom true (State.between.after text) (State.between.reads [] text).2 tail).map
        ((State.between.reads [] text).1 ++ ·) := fun tail =>
    splitFrom_guardHashesFrom_append hplain [] tail
  obtain ⟨left, hleft, rfl⟩ : ∃ left,
      finish (State.between.after text) (State.between.reads [] text).2 = .ok left ∧
        (State.between.reads [] text).1 ++ left = words := by
    have hend := hread []
    rw [List.append_nil, h] at hend
    cases hfinish : finish (State.between.after text) (State.between.reads [] text).2 with
    | error fault => simp [splitFrom, hfinish, Except.map] at hend
    | ok left => exact ⟨left, rfl, by simpa [splitFrom, hfinish, Except.map] using hend.symm⟩
  have hstate := after_outside hend hleft
  have hidle : Idle (State.between.after text) (State.between.reads [] text).2 :=
    Idle.reads (fun _ => rfl) text
  have hguard := (beside_after .between text).outside_iff.mpr hstate
  rw [guardHashes, guardHashesFrom_append, guardHashesFrom_spaced_of_outside hguard]
  rw [← guardHashes, hread, splitFrom_spaced_of_finish hstate hidle hleft]
  simp [Except.map]

/-! ## Command lines -/

/-- Arguments as they are written behind a command: a space before each, and the argument between
single quotes. -/
def written (arguments : List String) : String :=
  String.ofList (spaced (arguments.map String.toList))

theorem ofCommand_eq_ok_iff (command : String) (words : List String) :
    ofCommand command = .ok words ↔
      words ≠ [] ∧ split true (guardHashes command.toList) = .ok (words.map String.toList) := by
  unfold ofCommand ofChars
  split
  · rename_i hnone
    rw [hnone]
    refine iff_of_false (by rintro ⟨⟩) ?_
    rintro ⟨hne, hwords⟩
    exact hne (List.map_eq_nil_iff.mp (Except.ok.inj hwords).symm)
  · rename_i hsome
    cases hsplit : split true (guardHashes command.toList) with
    | error fault => simp [Except.map]
    | ok found =>
      simp only [Except.map, Except.ok.injEq, map_ofList_eq_iff]
      refine ⟨fun hfound => ⟨?_, hfound⟩, And.right⟩
      rintro rfl
      exact hsome (by rw [hsplit, hfound, List.map_nil])

/-- Every list of arguments can be written behind a command and comes back intact. The words of
a command on one line that does not end in a backslash, with arguments written behind it, are
its own words and then these arguments, whatever characters they are made of. And arguments
without a command, if there are any, are the words of what is written, with the space before
the first of them or without it. -/
theorem arguments_come_back_intact :
    (∀ (command : String) (words : List String), '\n' ∉ command.toList →
      command.toList.getLast? ≠ some '\\' → ofCommand command = .ok words →
      ∀ arguments, ofCommand (command ++ written arguments) = .ok (words ++ arguments)) ∧
    ∀ arguments : List String, arguments ≠ [] →
      ofCommand (written arguments) = .ok arguments ∧
        ofCommand (quoteAll arguments) = .ok arguments := by
  refine ⟨fun command words hline hend h arguments => ?_, fun arguments hne => ⟨?_, ?_⟩⟩
  · obtain ⟨hwords, hsplit⟩ := (ofCommand_eq_ok_iff command words).mp h
    rw [ofCommand_eq_ok_iff, String.toList_append, written, String.toList_ofList]
    refine ⟨fun hnil => hwords (List.append_eq_nil_iff.mp hnil).1, ?_⟩
    rw [split_guardHashes_append hline hend hsplit, List.map_append]
  · rw [ofCommand_eq_ok_iff, written, String.toList_ofList, guardHashes,
      guardHashesFrom_spaced_of_outside (.inl rfl)]
    exact ⟨hne, splitFrom_between_spaced true _⟩
  · exact ofCommand_quoteAll hne

/-- A command with an open end, a `#` of each kind and a blank that parts no words, and arguments
of quotes, backslashes, hashes and newlines, one of them empty. -/
theorem arguments_of_all_kinds_come_back :
    let command := "run -- #a 'b c'\"d\"\\\\\u00a0#"
    let arguments := ["", "'", "it''s\\", "#", "\\\n#", " \x00\t", "\u00e9\""]
    '\n' ∉ command.toList ∧ command.toList.getLast? ≠ some '\\' ∧
      ofCommand command = .ok ["run", "--", "#a", "b cd\\\u00a0#"] ∧
      ofCommand (command ++ written arguments) =
        .ok (["run", "--", "#a", "b cd\\\u00a0#"] ++ arguments) ∧
      ofCommand (written arguments) = .ok arguments := by
  intro command arguments
  have hline : '\n' ∉ command.toList := by decide +kernel
  have hend : command.toList.getLast? ≠ some '\\' := by decide +kernel
  have hwords : ofCommand command = .ok ["run", "--", "#a", "b cd\\\u00a0#"] := by
    decide +kernel
  obtain ⟨hbehind, halone⟩ := arguments_come_back_intact
  exact ⟨hline, hend, hwords, hbehind command _ hline hend hwords arguments,
    (halone arguments (by simp [arguments])).1⟩

end Transcript.Words

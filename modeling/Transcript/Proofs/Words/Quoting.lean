-- Words written between single quotes. Whatever stands in a word, a splitter that enters
-- its quotes leaves them with just this word, and the guard of hashes adds nothing to it;
-- so a command line of such words is split into them again.
import Transcript.Words

namespace Transcript.Words

/-! ## One word -/

/-- A word as it stands between its quotes: each single quote of its own is closed off,
written after a backslash, and followed by a new opening one. -/
def escaped (word : List Char) : List Char :=
  word.flatMap fun c => if c = '\'' then ['\'', '\\', '\'', '\''] else [c]

/-- A word between single quotes, with each single quote in it outside them. -/
def quoteWord (word : List Char) : List Char :=
  '\'' :: (word.flatMap fun c => if c = '\'' then ['\'', '\\', '\'', '\''] else [c]) ++ ['\'']

theorem quoteWord_append (word rest : List Char) :
    quoteWord word ++ rest = '\'' :: (escaped word ++ '\'' :: rest) := by
  simp [quoteWord, escaped]

theorem escaped_cons_quote (word : List Char) :
    escaped ('\'' :: word) = '\'' :: '\\' :: '\'' :: '\'' :: escaped word := rfl

theorem escaped_cons {c : Char} (h : c ≠ '\'') (word : List Char) :
    escaped (c :: word) = c :: escaped word := by
  simp [escaped, h]

/-- Nothing between the quotes is guarded, and behind them a word goes on. -/
theorem guardHashesFrom_escaped (word rest : List Char) :
    guardHashesFrom .single (escaped word ++ '\'' :: rest) =
      escaped word ++ '\'' :: guardHashesFrom .inside rest := by
  induction word with
  | nil => simp [escaped, guardHashesFrom, Guard.next]
  | cons c word ih =>
    by_cases h : c = '\''
    · subst h
      have hquote : Text.isBlank '\'' = false := by decide
      have hbackslash : Text.isBlank '\\' = false := by decide
      rw [escaped_cons_quote]
      simp [guardHashesFrom, Guard.next, hquote, hbackslash, ih]
    · rw [escaped_cons h]
      simp [guardHashesFrom, Guard.next, h, ih]

theorem guardHashesFrom_quoteWord (word rest : List Char) :
    guardHashesFrom .fresh (quoteWord word ++ rest) =
      quoteWord word ++ guardHashesFrom .inside rest := by
  have hquote : Text.isBlank '\'' = false := by decide
  rw [quoteWord_append, quoteWord_append, ← guardHashesFrom_escaped]
  simp [guardHashesFrom, Guard.next, hquote]

/-- Between the quotes the word is taken in as it was, and behind them it goes on. -/
theorem splitFrom_escaped (comments : Bool) (before word rest : List Char) :
    splitFrom comments .single before (escaped word ++ '\'' :: rest) =
      splitFrom comments .word (word.reverse ++ before) rest := by
  induction word generalizing before with
  | nil => simp [escaped, splitFrom, step]
  | cons c word ih =>
    rw [List.reverse_cons, List.append_assoc, List.singleton_append, ← ih]
    by_cases h : c = '\''
    · subst h
      rw [escaped_cons_quote]
      simp [splitFrom, step]
    · rw [escaped_cons h]
      simp [splitFrom, step, h]

theorem splitFrom_quoteWord (comments : Bool) (word rest : List Char) :
    splitFrom comments .between [] (quoteWord word ++ rest) =
      splitFrom comments .word word.reverse rest := by
  have h := splitFrom_escaped comments [] word rest
  rw [List.append_nil] at h
  rw [quoteWord_append, ← h]
  simp [splitFrom, step]

/-! ## Many words -/

/-- Words as one command line. -/
def quoteAll (words : List String) : String :=
  String.ofList (List.intercalate [' '] (words.map fun w => quoteWord w.toList))

/-- Words that follow another one, each with a space before its quotes. -/
def spaced (words : List (List Char)) : List Char := words.flatMap fun w => ' ' :: quoteWord w

theorem spaced_cons (word : List Char) (rest : List (List Char)) :
    spaced (word :: rest) = ' ' :: (quoteWord word ++ spaced rest) := rfl

theorem toList_quoteAll_cons (word : String) (rest : List String) :
    (quoteAll (word :: rest)).toList =
      quoteWord word.toList ++ spaced (rest.map String.toList) := by
  rw [quoteAll, String.toList_ofList]
  induction rest generalizing word with
  | nil => simp [spaced]
  | cons next rest ih =>
    have hnext := ih next
    rw [List.map_cons] at hnext
    rw [List.map_cons, List.map_cons, List.intercalate_cons_cons, hnext, List.map_cons,
      spaced_cons, List.append_assoc]
    rfl

theorem guardHashesFrom_spaced (words : List (List Char)) :
    guardHashesFrom .inside (spaced words) = spaced words := by
  have hspace : Text.isBlank ' ' = true := by decide
  induction words with
  | nil => rfl
  | cons word rest ih =>
    rw [spaced_cons]
    simp [guardHashesFrom, Guard.next, hspace, guardHashesFrom_quoteWord, ih]

/-- The word under way ends at the first space, and each word after it at the next. -/
theorem splitFrom_spaced (comments : Bool) (before : List Char) (words : List (List Char)) :
    splitFrom comments .word before (spaced words) = .ok (before.reverse :: words) := by
  induction words generalizing before with
  | nil => rfl
  | cons word rest ih =>
    rw [spaced_cons]
    have hword := splitFrom_quoteWord comments word (spaced rest)
    rw [ih, List.reverse_reverse] at hword
    simp [splitFrom, step, isSeparator, hword, Except.map]

/-! ## Command lines -/

/-- A command line of quoted words is split into these words. -/
theorem ofCommand_quoteAll {words : List String} (h : words ≠ []) :
    ofCommand (quoteAll words) = .ok words := by
  cases words with
  | nil => exact absurd rfl h
  | cons word rest =>
    have hguard : guardHashes (quoteAll (word :: rest)).toList =
        (quoteAll (word :: rest)).toList := by
      rw [toList_quoteAll_cons, guardHashes, guardHashesFrom_quoteWord, guardHashesFrom_spaced]
    have hsplit : split true (quoteAll (word :: rest)).toList =
        .ok (word.toList :: rest.map String.toList) := by
      rw [toList_quoteAll_cons, split, splitFrom_quoteWord, splitFrom_spaced,
        List.reverse_reverse]
    simp [ofCommand, ofChars, hguard, hsplit, Except.map]

theorem getLast?_append_quoteWord (before word : List Char) :
    (before ++ quoteWord word).getLast? = some '\'' := by
  rw [quoteWord, ← List.append_assoc, List.getLast?_concat]

/-- A command line of quoted words starts and ends with a quote. -/
theorem quoteAll_ends {words : List String} (h : words ≠ []) :
    (quoteAll words).toList.head? = some '\'' ∧ (quoteAll words).toList.getLast? = some '\'' := by
  cases words with
  | nil => exact absurd rfl h
  | cons word rest =>
    rw [toList_quoteAll_cons]
    refine ⟨rfl, ?_⟩
    generalize rest.map String.toList = others
    rcases List.eq_nil_or_concat others with rfl | ⟨init, last, rfl⟩
    · rw [spaced, List.flatMap_nil, List.append_nil]
      exact getLast?_append_quoteWord [] _
    · rw [List.concat_eq_append, spaced, List.flatMap_append, List.flatMap_singleton,
        ← List.append_assoc, List.append_cons]
      exact getLast?_append_quoteWord _ _

theorem not_mem_quoteAll {c : Char} (hq : c ≠ '\'') (hb : c ≠ '\\') (hs : c ≠ ' ')
    {words : List String} (h : ∀ w ∈ words, c ∉ w.toList) : c ∉ (quoteAll words).toList := by
  cases words with
  | nil => simp [quoteAll]
  | cons word rest =>
    have hword : ∀ w : List Char, c ∉ w → c ∉ quoteWord w := by
      intro w hw hc
      simp only [quoteWord, List.cons_append, List.mem_cons, List.mem_append, List.mem_flatMap,
        List.not_mem_nil, or_false, hq, false_or] at hc
      obtain ⟨d, hd, hcd⟩ := hc
      split at hcd
      · simp [hq, hb] at hcd
      · rw [List.mem_singleton] at hcd
        exact hw (hcd ▸ hd)
    intro hc
    rw [toList_quoteAll_cons, List.mem_append] at hc
    rcases hc with hc | hc
    · exact hword _ (h word List.mem_cons_self) hc
    · obtain ⟨w, hw, hcw⟩ := List.mem_flatMap.mp hc
      obtain ⟨v, hv, rfl⟩ := List.mem_map.mp hw
      rcases List.mem_cons.mp hcw with rfl | hcw
      · exact hs rfl
      · exact hword _ (h v (List.mem_cons_of_mem _ hv)) hcw

end Transcript.Words

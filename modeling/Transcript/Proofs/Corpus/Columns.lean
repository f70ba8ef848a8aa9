-- The columns of a corpus. A line that opens a case goes to both of them and any other line
-- to neither, so they are level after every line, and a text that is read never comes to
-- uneven columns. Columns given as they are make a corpus exactly if they are even, and
-- then they are found again in it.
import Transcript.Corpus.Parser

namespace Transcript.Corpus

/-! ## Line by line -/

/-- Whether a line opens a case. -/
def opensCase (marker line : List Char) : Bool :=
  match Line.classify marker line with
  | .command _ => true
  | _ => false

/-- The lines of a text that are taken in, with the number of the first: all of them, or
those below a blank first one. -/
def linesTaken (text : List Char) : Nat × List (List Char) :=
  match Text.lines text with
  | [] => (1, [])
  | first :: rest => if (Text.trim first).isEmpty then (2, rest) else (1, first :: rest)

namespace Columns

/-- Both columns hold this many entries. -/
structure Level (n : Nat) (columns : Columns) : Prop where
  commands : columns.commands.length = n
  outputs : columns.outputs.length = n

variable {marker line : List Char} {columns next : Columns} {number n : Nat}

theorem ofText_eq_addAll (marker text : List Char) :
    ofText marker text = addAll marker ⟨[], []⟩ (linesTaken text).1 (linesTaken text).2 := by
  unfold ofText linesTaken
  rcases Text.lines text with _ | ⟨first, rest⟩
  · rfl
  · by_cases hblank : (Text.trim first).isEmpty = true
    · simp only [if_pos hblank]
    · simp only [if_neg hblank]

/-- Lines can be taken in in two parts. -/
theorem addAll_append (marker : List Char) (columns : Columns) (number : Nat)
    (taken rest : List (List Char)) :
    columns.addAll marker number (taken ++ rest) =
      match columns.addAll marker number taken with
      | .ok reached => reached.addAll marker (number + taken.length) rest
      | .error failure => .error failure := by
  induction taken generalizing columns number with
  | nil => rfl
  | cons line taken ih =>
    simp only [List.cons_append, addAll, List.length_cons]
    rcases columns.add marker number line with failure | next
    · rfl
    · dsimp only
      rw [ih, Nat.add_assoc, Nat.add_comm 1]

/-- A line makes both columns longer by one, or neither. -/
theorem Level.add (h : columns.Level n) (hadd : columns.add marker number line = .ok next) :
    next.Level (n + if opensCase marker line then 1 else 0) := by
  unfold Columns.add at hadd
  unfold opensCase
  cases hline : Line.classify marker line with
  | blank =>
    rw [hline] at hadd
    cases hadd
    exact h
  | command invocation =>
    rw [hline] at hadd
    cases hadd
    exact ⟨congrArg (· + 1) h.commands, congrArg (· + 1) h.outputs⟩
  | output text =>
    rw [hline] at hadd
    obtain ⟨commands, _ | ⟨latest, older⟩⟩ := columns
    · cases hadd
    · cases hadd
      exact ⟨h.commands, h.outputs⟩

theorem Level.addAll {lines : List (List Char)} (h : columns.Level n)
    (hadd : columns.addAll marker number lines = .ok next) :
    next.Level (n + lines.countP (opensCase marker)) := by
  induction lines generalizing columns number n with
  | nil =>
    cases hadd
    exact h
  | cons line lines ih =>
    simp only [Columns.addAll] at hadd
    rcases hnext : columns.add marker number line with failure | reached
    · rw [hnext] at hadd
      cases hadd
    · rw [hnext] at hadd
      rw [List.countP_cons, ← Nat.add_assoc, Nat.add_right_comm]
      exact ih (h.add hnext) hadd

/-- Only output that no command precedes is refused. -/
theorem exists_orphanOutput_of_addAll_eq_error {lines : List (List Char)} {failure : Failure}
    (h : columns.addAll marker number lines = .error failure) :
    ∃ n text, failure = orphanOutput n text := by
  induction lines generalizing columns number with
  | nil => cases h
  | cons line lines ih =>
    simp only [Columns.addAll] at h
    split at h
    · exact ih h
    · rename_i refused hadd
      cases h
      unfold Columns.add at hadd
      split at hadd
      · cases hadd
      · cases hadd
      · split at hadd
        · cases hadd
          exact ⟨_, _, rfl⟩
        · cases hadd

theorem Level.empty : Level 0 ⟨[], []⟩ := ⟨rfl, rfl⟩

/-- The columns of a text hold an entry for each line that opens a case. -/
theorem Level.ofText {text : List Char} (h : Columns.ofText marker text = .ok columns) :
    columns.Level ((linesTaken text).2.countP (opensCase marker)) := by
  rw [ofText_eq_addAll] at h
  simpa using Level.empty.addAll h

end Columns

/-! ## Columns as they are given -/

section

variable {commands outputs : List String} {corpus : Corpus}

/-- Columns make the corpus whose columns they are, and no other. -/
theorem ofColumns_eq_ok_iff : ofColumns commands outputs = .ok corpus ↔
    corpus.commands = commands ∧ corpus.expectedOutputs = outputs := by
  constructor
  · intro h
    unfold ofColumns at h
    split at h
    · rename_i heven
      cases h
      have hcommands : ((commands.zip outputs).map (·.1)) = commands :=
        List.map_fst_zip (Nat.le_of_eq heven)
      have houtputs : ((commands.zip outputs).map (·.2)) = outputs :=
        List.map_snd_zip (Nat.le_of_eq heven.symm)
      rw [← List.map_uncurry_zip_eq_zipWith]
      simp only [Corpus.commands, expectedOutputs, List.map_map]
      exact ⟨hcommands, houtputs⟩
    · cases h
  · rintro ⟨rfl, rfl⟩
    simp [ofColumns, Corpus.commands, expectedOutputs, List.zipWith_map, List.zipWith_self]

theorem ofColumns_of_uneven (h : commands.length ≠ outputs.length) :
    ofColumns commands outputs = .error (.unevenColumns commands.length outputs.length) :=
  if_neg h

theorem exists_ofColumns_iff :
    (∃ corpus, ofColumns commands outputs = .ok corpus) ↔ commands.length = outputs.length := by
  constructor
  · rintro ⟨corpus, h⟩
    obtain ⟨rfl, rfl⟩ := ofColumns_eq_ok_iff.mp h
    simp [Corpus.commands, expectedOutputs]
  · exact fun h => ⟨_, if_pos h⟩

end

/-! ## Texts -/

/-- A text that is read makes even columns. -/
theorem parse_ne_unevenColumns (prompt text : String) (commands outputs : Nat) :
    parse prompt text ≠ .error (.unevenColumns commands outputs) := by
  intro h
  simp only [parse] at h
  split at h
  · cases h
  · split at h
    · rename_i failure hcolumns
      rw [Columns.ofText_eq_addAll] at hcolumns
      obtain ⟨n, orphan, rfl⟩ := Columns.exists_orphanOutput_of_addAll_eq_error hcolumns
      cases h
    · rename_i columns hcolumns
      have hlevel := Columns.Level.ofText hcolumns
      obtain ⟨corpus, hcorpus⟩ := exists_ofColumns_iff.mpr
        (show (columns.commands.reverse.map String.ofList).length =
            (columns.outputs.reverse.map String.ofList).length by
          simp [hlevel.commands, hlevel.outputs])
      rw [hcorpus] at h
      cases h

/-- The columns of a corpus never drift apart. However many lines of a text have been taken in,
the columns hold as many commands as outputs, one of each for a line that opens a case, and
the rest of the text goes on from them; or the text has been refused. So no text makes uneven
columns. Of columns as they are given, even ones and no others make a corpus, the one with
just these columns; uneven ones are refused with their lengths. -/
theorem the_columns_never_drift_apart (prompt text : String) (commands outputs : List String) :
    (∀ marker taken rest, (linesTaken text.toList).2 = taken ++ rest →
      match Columns.addAll marker ⟨[], []⟩ (linesTaken text.toList).1 taken with
      | .ok columns =>
        columns.Level (taken.countP (opensCase marker)) ∧
          Columns.ofText marker text.toList =
            columns.addAll marker ((linesTaken text.toList).1 + taken.length) rest
      | .error failure => Columns.ofText marker text.toList = .error failure) ∧
    (∀ m n, parse prompt text ≠ .error (.unevenColumns m n)) ∧
    ((∃ corpus, ofColumns commands outputs = .ok corpus) ↔ commands.length = outputs.length) ∧
    (∀ corpus, ofColumns commands outputs = .ok corpus ↔
      corpus.commands = commands ∧ corpus.expectedOutputs = outputs) ∧
    (commands.length ≠ outputs.length →
      ofColumns commands outputs = .error (.unevenColumns commands.length outputs.length)) := by
  refine ⟨?_, parse_ne_unevenColumns prompt text, exists_ofColumns_iff,
    fun corpus => ofColumns_eq_ok_iff, ofColumns_of_uneven⟩
  intro marker taken rest hlines
  rw [Columns.ofText_eq_addAll, hlines, Columns.addAll_append]
  rcases htaken : Columns.addAll marker ⟨[], []⟩ (linesTaken text.toList).1 taken with
    failure | columns
  · rfl
  · have hlevel := Columns.Level.empty.addAll htaken
    rw [Nat.zero_add] at hlevel
    exact ⟨hlevel, rfl⟩

/-- Two lines below a blank first one have been taken in, of a text whose last line opens a
second case; and a column of two commands beside one of one output. -/
theorem the_columns_of_two_cases_are_level :
    let text := "\n$ a\nx\n$ b\n"
    let marker := ['$', ' ']
    let taken := [['$', ' ', 'a'], ['x']]
    linesTaken text.toList = (2, taken ++ [['$', ' ', 'b']]) ∧
      Columns.addAll marker ⟨[], []⟩ 2 taken = .ok ⟨[['a']], [['x', '\n']]⟩ ∧
      Columns.Level 1 ⟨[['a']], [['x', '\n']]⟩ ∧
      Columns.ofText marker text.toList = .ok ⟨[['b'], ['a']], [[], ['x', '\n']]⟩ ∧
      ofColumns ["a", "b"] ["x\n"] = .error (.unevenColumns 2 1) := by
  intro text marker taken
  have hlines : linesTaken text.toList = (2, taken ++ [['$', ' ', 'b']]) := by decide +kernel
  have htaken : Columns.addAll marker ⟨[], []⟩ 2 taken = .ok ⟨[['a']], [['x', '\n']]⟩ := rfl
  obtain ⟨hlevel, -, -, -, huneven⟩ := the_columns_never_drift_apart "$ " text ["a", "b"] ["x\n"]
  have hreached := hlevel marker taken [['$', ' ', 'b']] (by rw [hlines])
  rw [hlines] at hreached
  dsimp only at hreached
  rw [htaken] at hreached
  exact ⟨hlines, htaken, hreached.1, hreached.2, huneven (by decide)⟩

end Transcript.Corpus

-- A corpus written down and read again. Well-formed cases are written as lines that keep
-- their form when they are trimmed, and only the command lines of which start with the
-- marker; so the segments of the lines are the cases.
import Mathlib.Data.List.Basic
import Transcript.Proofs.Corpus.Segments

namespace Transcript

namespace Corpus

/-! ## Lines of a case -/

/-- A command that can stand behind the marker. Without a command, the marker must not end
in a blank, or its own end would be cut off. -/
structure IsCommand (marker command : List Char) : Prop where
  oneLine : '\n' ∉ command
  trimmed : Text.trim command = command
  ne_nil : (∃ c ∈ marker.getLast?, Text.isBlank c = true) → command ≠ []

/-- A line that can stand below a command. -/
structure IsRow (marker row : List Char) : Prop where
  oneLine : '\n' ∉ row
  trimmed : Text.trim row = row
  ne_nil : row ≠ []
  notMarked : ¬ marker <+: row

/-- These lines spell these cases: the command line of each case, and its rows below it. -/
inductive Spells (marker : List Char) : List (List Char) → List Case → Prop where
  | nil : Spells marker [] []
  | cons {command : List Char} {rows lines : List (List Char)} {cases : List Case} :
      IsCommand marker command → (∀ row ∈ rows, IsRow marker row) → Spells marker lines cases →
      Spells marker ((marker ++ command) :: (rows ++ lines))
        (⟨String.ofList command, String.ofList (terminated rows)⟩ :: cases)

/-- A marker as a prompt can leave it: not blank, no blank before it, and on one line. -/
structure IsMarker (marker : List Char) : Prop where
  oneLine : '\n' ∉ marker
  ne_nil : marker ≠ []
  head_not_blank : ∀ c ∈ marker.head?, Text.isBlank c = false

variable {marker command : List Char} {lines : List (List Char)} {cases : List Case}

theorem isMarker_trimStart {prompt : List Char} (hline : '\n' ∉ prompt)
    (hblank : Text.trimStart prompt ≠ []) : IsMarker (Text.trimStart prompt) where
  oneLine h := hline ((List.dropWhile_sublist _).mem h)
  ne_nil := hblank
  head_not_blank _ h := Text.head?_trimStart_not_blank h

/-- A command line is its own trim. -/
theorem IsCommand.trim_line (h : IsCommand marker command) (hmarker : IsMarker marker) :
    Text.trim (marker ++ command) = marker ++ command := by
  refine Text.trim_eq_self (fun c hc => ?_) fun c hc => ?_
  · rw [List.head?_append_of_ne_nil _ hmarker.ne_nil] at hc
    exact hmarker.head_not_blank c hc
  · by_cases hne : command = []
    · rw [hne, List.append_nil] at hc
      rcases hb : Text.isBlank c with _ | _
      · rfl
      · exact absurd hne (h.ne_nil ⟨c, hc, hb⟩)
    · rw [List.getLast?_append_of_ne_nil _ hne, ← h.trimmed] at hc
      exact Text.getLast?_trim_not_blank hc

/-! ## Reading the lines -/

theorem outputBelow_append {rows : List (List Char)} (h : ∀ row ∈ rows, ¬ marker <+: row)
    (below : List (List Char)) :
    outputBelow marker (rows ++ below) = rows ++ outputBelow marker below := by
  refine List.takeWhile_append_of_pos fun row hrow => ?_
  rw [Bool.not_eq_true', ← Bool.not_eq_true, List.isPrefixOf_iff_prefix]
  exact h row hrow

theorem segments_append {rows : List (List Char)} (h : ∀ row ∈ rows, ¬ marker <+: row)
    (below : List (List Char)) : segments marker (rows ++ below) = segments marker below := by
  induction rows with
  | nil => rfl
  | cons row rows ih =>
    have hrow := h row List.mem_cons_self
    rw [List.cons_append, segments, if_neg (by rwa [List.isPrefixOf_iff_prefix])]
    exact ih fun r hr => h r (List.mem_cons_of_mem row hr)

theorem segments_command_line (marker command : List Char) (below : List (List Char)) :
    segments marker ((marker ++ command) :: below) =
      ⟨Text.trim command, terminated (outputBelow marker below)⟩ :: segments marker below := by
  have h : marker.isPrefixOf (marker ++ command) = true :=
    List.isPrefixOf_iff_prefix.mpr (List.prefix_append _ _)
  rw [segments, if_pos h, List.drop_left]

theorem Spells.head_marked (h : Spells marker lines cases) :
    ∀ line ∈ lines.head?, marker <+: line := by
  cases h with
  | nil => simp
  | cons => simp

/-- No output stands before the first command. -/
theorem Spells.outputBelow_eq_nil (h : Spells marker lines cases) :
    outputBelow marker lines = [] := by
  cases h with
  | nil => rfl
  | cons => simp [outputBelow, List.isPrefixOf_iff_prefix]

/-- The segments of the lines are the cases that they spell. -/
theorem Spells.segments_eq (h : Spells marker lines cases) :
    (segments marker lines).map Segment.toCase = cases := by
  induction h with
  | nil => rfl
  | cons hcommand hrows hrest ih =>
    have hnot := fun row hrow => (hrows row hrow).notMarked
    rw [segments_command_line, outputBelow_append hnot, hrest.outputBelow_eq_nil,
      List.append_nil, hcommand.trimmed, segments_append hnot, List.map_cons, ih]
    rfl

/-- A line as the content of a text has it. -/
structure IsContentLine (line : List Char) : Prop where
  oneLine : '\n' ∉ line
  trimmed : Text.trim line = line
  ne_nil : line ≠ []

theorem IsRow.isContentLine {row : List Char} (h : IsRow marker row) : IsContentLine row :=
  ⟨h.oneLine, h.trimmed, h.ne_nil⟩

/-- The lines are whole lines of a content: none is blank, none has outer blanks. -/
theorem Spells.lines_whole (h : Spells marker lines cases) (hmarker : IsMarker marker) :
    ∀ line ∈ lines, IsContentLine line := by
  induction h with
  | nil => simp
  | cons hcommand hrows _ ih =>
    intro line hline
    rcases List.mem_cons.mp hline with rfl | hline
    · refine ⟨fun hmem => ?_, hcommand.trim_line hmarker, ?_⟩
      · exact (List.mem_append.mp hmem).elim hmarker.oneLine hcommand.oneLine
      · exact List.append_ne_nil_of_left_ne_nil hmarker.ne_nil _
    · rcases List.mem_append.mp hline with hrow | hline
      · exact (hrows line hrow).isContentLine
      · exact ih line hline

theorem map_fst_content_terminated (h : ∀ line ∈ lines, IsContentLine line) :
    (content (terminated lines)).map (·.1) = lines := by
  have htrim : lines.map Text.trim = lines := by
    rw [List.map_congr_left fun line hline => (h line hline).trimmed, List.map_id']
  rw [content, map_fst_contentFrom, terminated,
    Text.map_trim_lines_flatMap fun line hline => (h line hline).oneLine, htrim,
    List.filter_eq_self]
  intro line hline
  simpa using (h line hline).ne_nil

/-- Cases spelled by lines are read from them. -/
theorem Spells.parse_eq (h : Spells marker lines cases) (hmarker : IsMarker marker)
    {prompt : String} (hprompt : Text.trimStart prompt.toList = marker) :
    parse prompt (String.ofList (terminated lines)) = .ok ⟨cases⟩ := by
  have hcontent := map_fst_content_terminated (h.lines_whole hmarker)
  have hsegments := h.segments_eq
  rw [parse_of_not_blank hprompt hmarker.ne_nil, String.toList_ofList]
  rcases hc : content (terminated lines) with _ | ⟨⟨first, number⟩, below⟩
  · rw [hc, List.map_nil] at hcontent
    rw [← hcontent] at hsegments
    rw [← hsegments]
    rfl
  · rw [hc, List.map_cons] at hcontent
    have hfirst : marker.isPrefixOf first = true := by
      rw [List.isPrefixOf_iff_prefix]
      exact h.head_marked first (by rw [← hcontent]; rfl)
    dsimp only
    rw [if_pos hfirst, hcontent, hsegments]

/-! ## Writing cases -/

/-- A text that can stand below a command: rows with a newline after each. -/
def IsOutput (marker text : List Char) : Prop :=
  ∃ rows, (∀ row ∈ rows, IsRow marker row) ∧ text = terminated rows

theorem isOutput_nil : IsOutput marker [] := ⟨[], by simp, rfl⟩

theorem IsRow.isOutput {row : List Char} (h : IsRow marker row) : IsOutput marker (row ++ ['\n']) :=
  ⟨[row], by simpa using h, by simp [terminated]⟩

theorem IsOutput.append {s t : List Char} (hs : IsOutput marker s) (ht : IsOutput marker t) :
    IsOutput marker (s ++ t) := by
  obtain ⟨rows, hrows, rfl⟩ := hs
  obtain ⟨below, hbelow, rfl⟩ := ht
  refine ⟨rows ++ below, fun row hrow => ?_, by simp [terminated]⟩
  rcases List.mem_append.mp hrow with hrow | hrow
  · exact hrows row hrow
  · exact hbelow row hrow

/-- A case that can be written behind the marker and read again. -/
structure WellFormed (marker : List Char) (case : Case) : Prop where
  command : IsCommand marker case.command.toList
  output : IsOutput marker case.expected.toList

/-- The text of cases: for each one the marker and its command on a line, and its output. -/
def write (marker : String) (cases : List Case) : String :=
  String.join (cases.map fun case => marker ++ case.command ++ "\n" ++ case.expected)

theorem write_cons (marker : String) (case : Case) (rest : List Case) :
    write marker (case :: rest) =
      marker ++ case.command ++ "\n" ++ case.expected ++ write marker rest := by
  simp [write, String.join_cons]

/-- Well-formed cases are written as lines that spell them. -/
theorem spells_write {marker : String} (h : ∀ case ∈ cases, WellFormed marker.toList case) :
    ∃ lines, Spells marker.toList lines cases ∧
      write marker cases = String.ofList (terminated lines) := by
  induction cases with
  | nil => exact ⟨[], .nil, rfl⟩
  | cons case rest ih =>
    have hcase := h case List.mem_cons_self
    obtain ⟨rows, hrows, hexpected⟩ := hcase.output
    obtain ⟨lines, hlines, hwrite⟩ := ih fun c hc => h c (List.mem_cons_of_mem case hc)
    have hspells := Spells.cons hcase.command hrows hlines
    rw [← hexpected, String.ofList_toList, String.ofList_toList] at hspells
    refine ⟨_, hspells, ?_⟩
    rw [← String.toList_inj, write_cons, hwrite]
    simp [terminated, hexpected]

/-- Well-formed cases that were written with the marker of a prompt are read with the prompt. -/
theorem parse_write {prompt marker : String} (hline : '\n' ∉ prompt.toList)
    (hmarker : Text.trimStart prompt.toList = marker.toList) (hne : marker.toList ≠ [])
    (h : ∀ case ∈ cases, WellFormed marker.toList case) :
    parse prompt (write marker cases) = .ok ⟨cases⟩ := by
  obtain ⟨lines, hlines, hwrite⟩ := spells_write h
  have := isMarker_trimStart hline (by rwa [hmarker])
  rw [hwrite]
  exact hlines.parse_eq (hmarker ▸ this) hmarker

end Corpus

end Transcript

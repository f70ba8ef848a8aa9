-- What a corpus text says. Of its lines only those count that are not blank, each without
-- its outer blanks: its content. Each line of the content that starts with the marker is
-- a segment with the lines below it, up to the next such line. The reader, which takes
-- in one line after the other, reads exactly these segments.
import Transcript.Corpus.Parser
import Transcript.Proofs.Text.Lines

namespace Transcript.Corpus

/-! ## The content of a text -/

/-- Lines without their outer blanks, numbered from this number on. Blank lines are left
out, but counted. -/
def contentFrom (number : Nat) (lines : List (List Char)) : List (List Char × Nat) :=
  ((lines.map Text.trim).zipIdx number).filter fun (line, _) => !line.isEmpty

/-- The content of a text, each line with its number in the text. -/
def content (text : List Char) : List (List Char × Nat) := contentFrom 1 (Text.lines text)

theorem contentFrom_cons_of_blank {line : List Char} (h : Text.trim line = []) (number : Nat)
    (rest : List (List Char)) :
    contentFrom number (line :: rest) = contentFrom (number + 1) rest := by
  simp [contentFrom, h]

theorem contentFrom_cons_of_not_blank {line : List Char} (h : Text.trim line ≠ [])
    (number : Nat) (rest : List (List Char)) :
    contentFrom number (line :: rest) =
      (Text.trim line, number) :: contentFrom (number + 1) rest := by
  simp [contentFrom, h]

/-- Without their numbers, the lines of the content do not depend on where counting starts. -/
theorem map_fst_contentFrom (number : Nat) (lines : List (List Char)) :
    (contentFrom number lines).map (·.1) = (lines.map Text.trim).filter (!·.isEmpty) := by
  induction lines generalizing number with
  | nil => rfl
  | cons line rest ih =>
    by_cases h : Text.trim line = []
    · rw [contentFrom_cons_of_blank h, ih]
      simp [h]
    · rw [contentFrom_cons_of_not_blank h, List.map_cons, ih]
      simp [h]

/-! ## Segments -/

/-- A case as it stands in a text. -/
structure Segment where
  command : List Char
  output : List Char
deriving DecidableEq

def Segment.toCase (s : Segment) : Case := ⟨String.ofList s.command, String.ofList s.output⟩

/-- Lines with a newline after each. -/
def terminated (lines : List (List Char)) : List Char := lines.flatMap (· ++ ['\n'])

/-- The lines up to the first one that starts with the marker. -/
def outputBelow (marker : List Char) (lines : List (List Char)) : List (List Char) :=
  lines.takeWhile fun line => !marker.isPrefixOf line

/-- The segments of a content: one for each line that starts with the marker. Its command
is the rest of that line, its output the lines between it and the next such line. -/
def segments (marker : List Char) : List (List Char) → List Segment
  | [] => []
  | line :: below =>
    if marker.isPrefixOf line then
      ⟨Text.trim (line.drop marker.length), terminated (outputBelow marker below)⟩ ::
        segments marker below
    else segments marker below

theorem afterStart?_eq (marker line : List Char) :
    afterStart? marker line =
      if marker.isPrefixOf line then some (line.drop marker.length) else none := by
  induction marker generalizing line with
  | nil => simp [afterStart?]
  | cons p ps ih =>
    cases line with
    | nil => rfl
    | cons c cs =>
      by_cases h : p = c
      · simp [afterStart?, h, ih]
      · simp [afterStart?, h]

theorem Line.classify_eq (marker line : List Char) :
    Line.classify marker line =
      if Text.trim line = [] then .blank
      else if marker.isPrefixOf (Text.trim line) then
        .command (Text.trim ((Text.trim line).drop marker.length))
      else .output (Text.trim line) := by
  simp only [Line.classify, afterStart?_eq, List.isEmpty_iff]
  split
  · rfl
  · split <;> simp_all

/-! ## Reading line by line -/

/-- Once a case is open, the lines go on its output up to the next command, and every
further segment opens a case of its own. -/
theorem Columns.addAll_of_open (marker : List Char) (lines : List (List Char)) (number : Nat)
    (commands : List (List Char)) (latest : List Char) (older : List (List Char)) :
    Columns.addAll marker ⟨commands, latest :: older⟩ number lines =
      let below := (contentFrom number lines).map (·.1)
      .ok ⟨((segments marker below).map (·.command)).reverse ++ commands,
        ((segments marker below).map (·.output)).reverse ++
          (latest ++ terminated (outputBelow marker below)) :: older⟩ := by
  induction lines generalizing number commands latest older with
  | nil => simp [Columns.addAll, contentFrom, segments, outputBelow, terminated]
  | cons line rest ih =>
    simp only [Columns.addAll, Columns.add, Line.classify_eq]
    by_cases hblank : Text.trim line = []
    · rw [contentFrom_cons_of_blank hblank, if_pos hblank]
      exact ih ..
    · rw [contentFrom_cons_of_not_blank hblank, if_neg hblank, List.map_cons]
      by_cases hstart : marker.isPrefixOf (Text.trim line) = true
      · rw [if_pos hstart]
        dsimp only
        rw [ih]
        simp [segments, outputBelow, terminated, hstart]
      · rw [if_neg hstart]
        dsimp only
        rw [ih]
        simp [segments, outputBelow, terminated, hstart]

/-- Before the first command only blank lines are taken in. -/
theorem Columns.addAll_of_none (marker : List Char) (lines : List (List Char)) (number : Nat) :
    Columns.addAll marker ⟨[], []⟩ number lines =
      match contentFrom number lines with
      | [] => .ok ⟨[], []⟩
      | (first, n) :: below =>
        if marker.isPrefixOf first then
          let read := segments marker (first :: below.map (·.1))
          .ok ⟨(read.map (·.command)).reverse, (read.map (·.output)).reverse⟩
        else .error (orphanOutput n first) := by
  induction lines generalizing number with
  | nil => rfl
  | cons line rest ih =>
    simp only [Columns.addAll, Columns.add, Line.classify_eq]
    by_cases hblank : Text.trim line = []
    · rw [contentFrom_cons_of_blank hblank, if_pos hblank]
      exact ih ..
    · rw [contentFrom_cons_of_not_blank hblank, if_neg hblank]
      by_cases hstart : marker.isPrefixOf (Text.trim line) = true
      · simp only [if_pos hstart, Columns.addAll_of_open]
        simp [segments, hstart]
      · simp only [if_neg hstart]

/-- Passing over a blank first line changes nothing but where counting starts. -/
theorem Columns.ofText_eq (marker text : List Char) :
    Columns.ofText marker text = Columns.addAll marker ⟨[], []⟩ 1 (Text.lines text) := by
  unfold Columns.ofText
  split
  · rename_i h
    rw [h]
    rfl
  · rename_i first rest h
    rw [h]
    split
    · rename_i hblank
      rw [List.isEmpty_iff] at hblank
      simp [Columns.addAll, Columns.add, Line.classify_eq, hblank]
    · rfl

/-! ## Whole texts -/

theorem ofColumns_segments (read : List Segment) :
    ofColumns (read.map fun s => String.ofList s.command)
      (read.map fun s => String.ofList s.output) = .ok ⟨read.map Segment.toCase⟩ := by
  simp [ofColumns, List.zipWith_map, List.zipWith_self, Segment.toCase]

theorem parse_of_blank {prompt : String} (h : ∀ c ∈ prompt.toList, Text.isBlank c = true)
    (text : String) : parse prompt text = .error (.settings "corpus prompt must not be blank") := by
  simp [parse, (Text.trimStart_eq_nil_iff _).mpr h]

/-- What is read with a prompt that is not blank. -/
theorem parse_of_not_blank {prompt : String} {marker : List Char}
    (hmarker : Text.trimStart prompt.toList = marker) (hne : marker ≠ []) (text : String) :
    parse prompt text =
      match content text.toList with
      | [] => .ok ⟨[]⟩
      | (first, number) :: below =>
        if marker.isPrefixOf first then
          .ok ⟨(segments marker (first :: below.map (·.1))).map Segment.toCase⟩
        else .error (orphanOutput number first) := by
  simp only [parse, hmarker, List.isEmpty_iff, if_neg hne, Columns.ofText_eq,
    Columns.addAll_of_none, content]
  rcases contentFrom 1 (Text.lines text.toList) with _ | ⟨⟨first, number⟩, below⟩
  · rfl
  · dsimp only
    by_cases hstart : marker.isPrefixOf first = true
    · simp only [if_pos hstart, List.reverse_reverse, List.map_map]
      exact ofColumns_segments _
    · simp only [if_neg hstart]

/-- A corpus is read as documented. A blank prompt is refused. Otherwise the first line of
the content must start with the marker, or the text is refused as malformed with the number
of this line and words that quote it; and then the cases are the segments of the content. -/
theorem parse_eq_segments (prompt text : String) :
    parse prompt text =
      if prompt.toList.all Text.isBlank then
        .error (.settings "corpus prompt must not be blank")
      else
        let marker := Text.trimStart prompt.toList
        match content text.toList with
        | [] => .ok ⟨[]⟩
        | (first, number) :: below =>
          if marker <+: first then
            .ok ⟨(segments marker (first :: below.map (·.1))).map Segment.toCase⟩
          else
            .error (.malformed number ("output " ++ Text.quote (String.ofList first) ++
              " appears before any command")) := by
  split
  · rename_i hblank
    exact parse_of_blank (List.all_eq_true.mp hblank) text
  · rename_i hblank
    rw [List.all_eq_true, ← Text.trimStart_eq_nil_iff] at hblank
    simp only [parse_of_not_blank rfl hblank, List.isPrefixOf_iff_prefix, orphanOutput]

end Transcript.Corpus

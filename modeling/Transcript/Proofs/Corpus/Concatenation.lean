-- Two corpus texts one behind the other. Where the first ends with a complete line, the content
-- of both is that of the first and then that of the second; so the segments of the second come
-- behind those of the first, and what the second says before its first command goes to the
-- last case of the first, or is refused if there is none.
import Transcript.Proofs.Corpus.Writing

namespace Transcript.Corpus

/-! ## The content of two texts -/

theorem contentFrom_append (number : Nat) (xs ys : List (List Char)) :
    contentFrom number (xs ++ ys) =
      contentFrom number xs ++ contentFrom (number + xs.length) ys := by
  simp [contentFrom, List.zipIdx_append]

/-- Where counting starts later, every line has a later number. -/
theorem contentFrom_add (number later : Nat) (lines : List (List Char)) :
    contentFrom (number + later) lines =
      (contentFrom number lines).map fun (line, n) => (line, n + later) := by
  induction lines generalizing number with
  | nil => rfl
  | cons line rest ih =>
    by_cases h : Text.trim line = []
    · rw [contentFrom_cons_of_blank h, contentFrom_cons_of_blank h, Nat.add_right_comm, ih]
    · rw [contentFrom_cons_of_not_blank h, contentFrom_cons_of_not_blank h, List.map_cons,
        Nat.add_right_comm, ih]

theorem content_append {first : List Char} (h : Text.IsComplete first) (second : List Char) :
    content (first ++ second) =
      content first ++
        (content second).map fun (line, n) => (line, n + (Text.lines first).length) := by
  rw [content, h.lines_append, contentFrom_append, contentFrom_add]
  rfl

/-- The lines of a content, without their numbers. -/
def rows (text : List Char) : List (List Char) := (content text).map (·.1)

theorem rows_eq (text : List Char) :
    rows text = ((Text.pieces text).map Text.trim).filter (!·.isEmpty) := by
  rw [rows, content, map_fst_contentFrom, Text.map_trim_lines]

theorem rows_append {first : List Char} (h : Text.IsComplete first) (second : List Char) :
    rows (first ++ second) = rows first ++ rows second := by
  rw [rows, content_append h, List.map_append, List.map_map]
  rfl

/-! ## The segments of two contents -/

variable {marker : List Char} {xs ys : List (List Char)}

theorem segments_eq_nil_iff : segments marker xs = [] ↔ ∀ row ∈ xs, ¬ marker <+: row := by
  induction xs with
  | nil => simp [segments]
  | cons row xs ih =>
    rw [List.forall_mem_cons, ← ih, segments, ← List.isPrefixOf_iff_prefix]
    split
    · rename_i hmarked
      simp [hmarked]
    · rename_i hmarked
      simp [hmarked]

theorem outputBelow_cons_of_marked {row : List Char} (h : marker <+: row)
    (below : List (List Char)) : outputBelow marker (row :: below) = [] := by
  rw [← List.isPrefixOf_iff_prefix] at h
  simp [outputBelow, h]

theorem outputBelow_cons_of_not_marked {row : List Char} (h : ¬ marker <+: row)
    (below : List (List Char)) :
    outputBelow marker (row :: below) = row :: outputBelow marker below := by
  rw [← List.isPrefixOf_iff_prefix] at h
  simp [outputBelow, h]

/-- The lines up to a command do not depend on what stands behind it. -/
theorem outputBelow_append_of_marked (h : ∃ row ∈ xs, marker <+: row) (ys : List (List Char)) :
    outputBelow marker (xs ++ ys) = outputBelow marker xs := by
  induction xs with
  | nil => simp at h
  | cons row xs ih =>
    rw [List.cons_append]
    by_cases hmarked : marker <+: row
    · rw [outputBelow_cons_of_marked hmarked, outputBelow_cons_of_marked hmarked]
    · obtain ⟨other, hother, hstart⟩ := h
      have hrest : ∃ row ∈ xs, marker <+: row := by
        rcases List.mem_cons.mp hother with rfl | hother
        · exact absurd hstart hmarked
        · exact ⟨other, hother, hstart⟩
      rw [outputBelow_cons_of_not_marked hmarked, outputBelow_cons_of_not_marked hmarked,
        ih hrest]

/-- A segment with more lines below it. -/
def Segment.extend (s : Segment) (lines : List (List Char)) : Segment :=
  { s with output := s.output ++ terminated lines }

theorem terminated_append (xs ys : List (List Char)) :
    terminated (xs ++ ys) = terminated xs ++ terminated ys := List.flatMap_append

/-- What stands before the first command of a second content goes to the last segment of the
first, and the segments of the second come behind. By induction on the first content, each command
of which opens a segment. -/
theorem segments_append_of_concat {init : List Segment} {last : Segment}
    (h : segments marker xs = init ++ [last]) (ys : List (List Char)) :
    segments marker (xs ++ ys) =
      init ++ last.extend (outputBelow marker ys) :: segments marker ys := by
  induction xs generalizing init with
  | nil =>
    rw [segments] at h
    exact absurd h.symm (by simp)
  | cons row xs ih =>
    rw [List.cons_append]
    by_cases hmarked : marker.isPrefixOf row = true
    · rw [segments, if_pos hmarked] at h ⊢
      cases init with
      | nil =>
        obtain ⟨rfl, hnone⟩ := List.cons.inj h
        rw [segments_eq_nil_iff] at hnone
        have hall : outputBelow marker xs = xs := by
          have happend := outputBelow_append hnone []
          simpa [outputBelow] using happend
        rw [outputBelow_append hnone, segments_append hnone, hall, terminated_append]
        rfl
      | cons s init =>
        obtain ⟨rfl, hrest⟩ := List.cons.inj h
        have hsome : ∃ row ∈ xs, marker <+: row := by
          by_contra hnone
          push Not at hnone
          rw [segments_eq_nil_iff.mpr hnone] at hrest
          simp at hrest
        rw [outputBelow_append_of_marked hsome, ih hrest, List.cons_append]
    · rw [segments, if_neg hmarked] at h ⊢
      exact ih h

/-! ## The text from its first command on -/

/-- The lines of output with which a text starts. -/
def leadingRows (marker text : List Char) : List (List Char) := outputBelow marker (rows text)

/-- A text from its first command on. -/
def fromFirstCommand (marker text : List Char) : List Char :=
  ((Text.pieces text).dropWhile fun piece => !marker.isPrefixOf (Text.trim piece)).flatten

theorem rows_fromFirstCommand (hne : marker ≠ []) (text : List Char) :
    rows (fromFirstCommand marker text) =
      (rows text).dropWhile fun row => !marker.isPrefixOf row := by
  have hpieces : Text.pieces (fromFirstCommand marker text) =
      (Text.pieces text).dropWhile fun piece => !marker.isPrefixOf (Text.trim piece) :=
    Text.piecesAfter_flatten_of_suffix (List.dropWhile_suffix _)
  have hblank : (fun row : List Char => !(!row.isEmpty) || !marker.isPrefixOf row) =
      fun row => !marker.isPrefixOf row := by
    funext row
    cases row with
    | nil =>
      obtain ⟨c, cs, rfl⟩ := List.exists_cons_of_ne_nil hne
      rfl
    | cons c cs => rfl
  rw [rows_eq, rows_eq, hpieces, List.dropWhile_filter, hblank, List.dropWhile_map]
  rfl

theorem outputBelow_dropWhile (marker : List Char) (xs : List (List Char)) :
    outputBelow marker (xs.dropWhile fun row => !marker.isPrefixOf row) = [] := by
  induction xs with
  | nil => rfl
  | cons row xs ih =>
    by_cases hmarked : marker.isPrefixOf row = true
    · simp [outputBelow, hmarked]
    · simpa [hmarked] using ih

theorem segments_dropWhile (marker : List Char) (xs : List (List Char)) :
    segments marker (xs.dropWhile fun row => !marker.isPrefixOf row) = segments marker xs := by
  induction xs with
  | nil => rfl
  | cons row xs ih =>
    by_cases hmarked : marker.isPrefixOf row = true
    · simp [hmarked]
    · simpa [hmarked, segments] using ih

/-! ## What a text is read as -/

variable {prompt text : String}

/-- A text is read where no output stands before its first command, as its segments. -/
theorem parse_eq_ok_iff (hne : Text.trimStart prompt.toList ≠ []) {corpus : Corpus} :
    parse prompt text = .ok corpus ↔
      leadingRows (Text.trimStart prompt.toList) text.toList = [] ∧
        corpus = ⟨(segments (Text.trimStart prompt.toList) (rows text.toList)).map
          Segment.toCase⟩ := by
  rw [parse_of_not_blank rfl hne, leadingRows, rows]
  rcases content text.toList with _ | ⟨⟨first, number⟩, below⟩
  · simp [outputBelow, segments, eq_comm]
  · by_cases hmarked : (Text.trimStart prompt.toList).isPrefixOf first = true
    · simp [outputBelow, hmarked, eq_comm]
    · simp [outputBelow, hmarked]

/-- A text is refused for its first line of content, if that is no command. -/
theorem parse_eq_error_iff (hne : Text.trimStart prompt.toList ≠ []) {failure : Failure} :
    parse prompt text = .error failure ↔
      ∃ first number below, content text.toList = (first, number) :: below ∧
        ¬ Text.trimStart prompt.toList <+: first ∧ failure = orphanOutput number first := by
  rw [parse_of_not_blank rfl hne]
  rcases content text.toList with _ | ⟨⟨first, number⟩, below⟩
  · simp
  · dsimp only
    by_cases hmarked : Text.trimStart prompt.toList <+: first
    · rw [if_pos (List.isPrefixOf_iff_prefix.mpr hmarked)]
      refine iff_of_false nofun ?_
      rintro ⟨first, number, below, heq, hnot, -⟩
      cases heq
      exact hnot hmarked
    · rw [if_neg (mt List.isPrefixOf_iff_prefix.mp hmarked)]
      constructor
      · intro h
        exact ⟨first, number, below, rfl, hmarked, (Except.error.inj h).symm⟩
      · rintro ⟨first, number, below, heq, -, rfl⟩
        cases heq
        rfl

/-- A text is always read from its first command on. -/
theorem parse_fromFirstCommand (hne : Text.trimStart prompt.toList ≠ []) (text : String) :
    let marker := Text.trimStart prompt.toList
    parse prompt (String.ofList (fromFirstCommand marker text.toList)) =
      .ok ⟨(segments marker (rows text.toList)).map Segment.toCase⟩ := by
  intro marker
  rw [parse_eq_ok_iff hne, String.toList_ofList, leadingRows, rows_fromFirstCommand hne]
  exact ⟨outputBelow_dropWhile _ _, by rw [segments_dropWhile]⟩

/-! ## Two texts -/

/-- A case with more lines of output. -/
def extendCase (case : Case) (lines : List (List Char)) : Case :=
  { case with expected := case.expected ++ String.ofList (terminated lines) }

theorem toCase_extend (s : Segment) (lines : List (List Char)) :
    (s.extend lines).toCase = extendCase s.toCase lines := by
  simp [Segment.extend, Segment.toCase, extendCase, String.ofList_append]

/-- With no output before its first command, a second content only adds its segments. -/
theorem segments_append_of_outputBelow (h : outputBelow marker ys = [])
    (xs : List (List Char)) :
    segments marker (xs ++ ys) = segments marker xs ++ segments marker ys := by
  rcases List.eq_nil_or_concat (segments marker xs) with hnone | ⟨init, last, hlast⟩
  · rw [hnone, segments_append (segments_eq_nil_iff.mp hnone)]
    rfl
  · rw [List.concat_eq_append] at hlast
    have hextend : last.extend [] = last := by simp [Segment.extend, terminated]
    rw [segments_append_of_concat hlast, hlast, h, hextend, List.append_assoc]
    rfl

/-- A content with a first line and no output before its first command starts with a command. -/
theorem marked_of_outputBelow {row : List Char} (h : outputBelow marker (row :: xs) = []) :
    marker <+: row := by
  by_contra hnot
  rw [outputBelow_cons_of_not_marked hnot] at h
  cases h

theorem outputBelow_append_eq_nil (h : outputBelow marker xs = [])
    (hys : xs = [] → outputBelow marker ys = []) : outputBelow marker (xs ++ ys) = [] := by
  cases xs with
  | nil => exact hys rfl
  | cons row xs => exact outputBelow_cons_of_marked (marked_of_outputBelow h) (xs ++ ys)

/-- A content without segments and without output before the first is empty. -/
theorem eq_nil_of_segments (h : outputBelow marker xs = []) (hnone : segments marker xs = []) :
    xs = [] := by
  cases xs with
  | nil => rfl
  | cons row xs =>
    exact absurd (marked_of_outputBelow h) (segments_eq_nil_iff.mp hnone row List.mem_cons_self)

/-- Texts one behind the other are read one behind the other. Where the first is complete and
read, a second that is read goes on with its cases. A second that is refused for output before
its first command is refused behind a first without cases, with the lines of that counted before
it; behind any other first, that output goes to the last case, and what the second says from its
first command on comes behind. -/
theorem texts_are_read_one_behind_the_other {prompt first second : String} {a : Corpus}
    (hprompt : ¬ ∀ c ∈ prompt.toList, Text.isBlank c = true)
    (hcomplete : Text.IsComplete first.toList) (hfirst : parse prompt first = .ok a) :
    let marker := Text.trimStart prompt.toList
    (∀ b, parse prompt second = .ok b → parse prompt (first ++ second) = .ok ⟨a.cases ++ b.cases⟩) ∧
    ∀ failure, parse prompt second = .error failure →
      ∃ line reason, failure = .malformed line reason ∧
        (a.cases = [] → parse prompt (first ++ second) =
          .error (.malformed (line + (Text.lines first.toList).length) reason)) ∧
        ∀ init last, a.cases = init ++ [last] →
          ∃ rest, parse prompt (String.ofList (fromFirstCommand marker second.toList)) = .ok rest ∧
            parse prompt (first ++ second) =
              .ok ⟨init ++ extendCase last (leadingRows marker second.toList) :: rest.cases⟩ := by
  intro marker
  have hne : marker ≠ [] := mt (Text.trimStart_eq_nil_iff _).mp hprompt
  have hrows : rows (first ++ second).toList = rows first.toList ++ rows second.toList := by
    rw [String.toList_append, rows_append hcomplete]
  obtain ⟨hlead, rfl⟩ := (parse_eq_ok_iff hne).mp hfirst
  constructor
  · intro b hsecond
    obtain ⟨hlead', rfl⟩ := (parse_eq_ok_iff hne).mp hsecond
    rw [parse_eq_ok_iff hne, leadingRows, hrows, segments_append_of_outputBelow hlead',
      List.map_append]
    exact ⟨outputBelow_append_eq_nil hlead fun _ => hlead', rfl⟩
  · intro failure hsecond
    obtain ⟨row, number, below, hcontent, hnot, rfl⟩ := (parse_eq_error_iff hne).mp hsecond
    refine ⟨number, _, rfl, fun hnone => ?_, fun init last hlast => ?_⟩
    · rw [List.map_eq_nil_iff] at hnone
      have hempty : content first.toList = [] :=
        List.map_eq_nil_iff.mp (eq_nil_of_segments hlead hnone)
      have hwhole : content (first ++ second).toList =
          (row, number + (Text.lines first.toList).length) ::
            below.map fun (line, n) => (line, n + (Text.lines first.toList).length) := by
        rw [String.toList_append, content_append hcomplete, hempty, hcontent]
        rfl
      exact (parse_eq_error_iff hne).mpr ⟨row, _, _, hwhole, hnot, rfl⟩
    · refine ⟨_, parse_fromFirstCommand hne second, ?_⟩
      obtain ⟨front, back, hread, rfl, hback⟩ := List.map_eq_append_iff.mp hlast
      obtain ⟨s, rfl, rfl⟩ := List.map_eq_singleton_iff.mp hback
      rw [parse_eq_ok_iff hne, leadingRows, hrows, segments_append_of_concat hread]
      have hsome : rows first.toList ≠ [] := by
        intro hnil
        rw [hnil] at hread
        simp [segments] at hread
      refine ⟨outputBelow_append_eq_nil hlead fun hnil => absurd hnil hsome, ?_⟩
      rw [List.map_append, List.map_cons, toCase_extend]
      rfl

/-- A second text that starts with output, behind a case, behind blank lines alone, and one that
starts with a command. -/
theorem a_second_text_starts_with_output :
    parse "$ " "\n y \n$ b\nz" = .error (orphanOutput 2 ['y']) ∧
      parse "$ " ("$ a\r\n\nx\n" ++ "\n y \n$ b\nz") =
        .ok ⟨[⟨"a", "x\ny\n"⟩, ⟨"b", "z\n"⟩]⟩ ∧
      parse "$ " ("\n \n" ++ "\n y \n$ b\nz") = .error (orphanOutput 4 ['y']) ∧
      parse "$ " ("$ a\r\n\nx\n" ++ "$ c") = .ok ⟨[⟨"a", "x\n"⟩, ⟨"c", ""⟩]⟩ := by
  have hprompt : ¬ ∀ c ∈ "$ ".toList, Text.isBlank c = true := by
    intro h
    exact absurd (h '$' (by decide)) (by decide)
  have hfirst : parse "$ " "$ a\r\n\nx\n" = .ok ⟨[⟨"a", "x\n"⟩]⟩ := by decide +kernel
  have hblank : parse "$ " "\n \n" = .ok ⟨[]⟩ := by decide +kernel
  have hsecond : parse "$ " "\n y \n$ b\nz" = .error (orphanOutput 2 ['y']) := by decide +kernel
  have hcase : parse "$ " "$ c" = .ok ⟨[⟨"c", ""⟩]⟩ := by decide +kernel
  have hlead : leadingRows (Text.trimStart "$ ".toList) "\n y \n$ b\nz".toList = [['y']] := by
    decide +kernel
  have hrest : parse "$ " (String.ofList
      (fromFirstCommand (Text.trimStart "$ ".toList) "\n y \n$ b\nz".toList)) =
        .ok ⟨[⟨"b", "z\n"⟩]⟩ := by decide +kernel
  refine ⟨hsecond, ?_, ?_, ?_⟩
  · obtain ⟨-, hbad⟩ := texts_are_read_one_behind_the_other hprompt
      (show Text.IsComplete "$ a\r\n\nx\n".toList by decide) hfirst
    obtain ⟨_, _, -, -, hextended⟩ := hbad _ hsecond
    obtain ⟨rest, hread, hwhole⟩ := hextended [] ⟨"a", "x\n"⟩ rfl
    rw [hrest] at hread
    obtain rfl := Except.ok.inj hread
    rw [hwhole, hlead]
    rfl
  · obtain ⟨-, hbad⟩ := texts_are_read_one_behind_the_other hprompt
      (show Text.IsComplete "\n \n".toList by decide) hblank
    obtain ⟨_, _, hfailure, hrefused, -⟩ := hbad _ hsecond
    obtain ⟨rfl, rfl⟩ := Failure.malformed.inj hfailure
    exact hrefused rfl
  · obtain ⟨hgood, -⟩ := texts_are_read_one_behind_the_other hprompt
      (show Text.IsComplete "$ a\r\n\nx\n".toList by decide) hfirst
    exact hgood _ hcase

end Transcript.Corpus

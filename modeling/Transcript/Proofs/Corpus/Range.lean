-- Reading against writing. Whatever text a corpus was read from, its cases are well-formed,
-- so they can be written, and what was written is read as the same cases. The cases that
-- some text holds are therefore exactly the well-formed ones.
import Transcript.Proofs.Corpus.Writing

namespace Transcript.Corpus

/-! ## Cases of a text -/

theorem isContentLine_of_mem {text line : List Char}
    (h : line ∈ (content text).map (·.1)) : IsContentLine line := by
  rw [content, map_fst_contentFrom, List.mem_filter] at h
  obtain ⟨hmem, hne⟩ := h
  obtain ⟨whole, hwhole, rfl⟩ := List.mem_map.mp hmem
  refine ⟨fun hnewline => ?_, Text.trim_trim whole, by simpa using hne⟩
  exact Text.not_mem_of_mem_lines hwhole (Text.mem_of_mem_trim hnewline)

variable {marker line : List Char} {lines : List (List Char)}

/-- What stands behind the marker is a command. -/
theorem IsContentLine.isCommand (h : IsContentLine line) (hmarked : marker <+: line) :
    IsCommand marker (Text.trim (line.drop marker.length)) := by
  obtain ⟨rest, rfl⟩ := hmarked
  rw [List.drop_left]
  refine ⟨fun hnewline => ?_, Text.trim_trim rest, ?_⟩
  · exact h.oneLine (List.mem_append_right _ (Text.mem_of_mem_trim hnewline))
  · rintro ⟨last, hlast, hblank⟩ hnil
    rw [Text.trim_eq_nil_iff] at hnil
    obtain ⟨c, hc, hcblank⟩ : ∃ c ∈ (marker ++ rest).getLast?, Text.isBlank c = true := by
      rcases List.eq_nil_or_concat rest with rfl | ⟨init, c, rfl⟩
      · exact ⟨last, by rwa [List.append_nil], hblank⟩
      · refine ⟨c, by simp, hnil c (by simp)⟩
    rw [← h.trimmed] at hc
    rw [Text.getLast?_trim_not_blank hc] at hcblank
    cases hcblank

theorem IsContentLine.isRow (h : IsContentLine line) (hnot : ¬ marker <+: line) :
    IsRow marker line :=
  ⟨h.oneLine, h.trimmed, h.ne_nil, hnot⟩

theorem isOutput_outputBelow (h : ∀ line ∈ lines, IsContentLine line) :
    IsOutput marker (terminated (outputBelow marker lines)) := by
  refine ⟨outputBelow marker lines, fun row hrow => ?_, rfl⟩
  have hnot := List.mem_takeWhile_imp hrow
  refine (h row ((List.takeWhile_sublist _).mem hrow)).isRow fun hmarked => ?_
  rw [← List.isPrefixOf_iff_prefix] at hmarked
  simp [hmarked] at hnot

/-- The segments of a content are well-formed cases. -/
theorem wellFormed_segments (h : ∀ line ∈ lines, IsContentLine line) :
    ∀ segment ∈ segments marker lines, WellFormed marker segment.toCase := by
  induction lines with
  | nil => simp [segments]
  | cons line below ih =>
    obtain ⟨hline, hbelow⟩ := List.forall_mem_cons.mp h
    unfold segments
    split
    · rename_i hmarked
      rw [List.isPrefixOf_iff_prefix] at hmarked
      refine List.forall_mem_cons.mpr ⟨⟨?_, ?_⟩, ih hbelow⟩
      · simpa [Segment.toCase] using hline.isCommand hmarked
      · simpa [Segment.toCase] using isOutput_outputBelow hbelow
    · exact ih hbelow

/-- Whatever the text, the cases that are read from it are well-formed. -/
theorem wellFormed_of_parse {prompt text : String} {corpus : Corpus}
    (h : parse prompt text = .ok corpus) :
    ∀ case ∈ corpus.cases, WellFormed (Text.trimStart prompt.toList) case := by
  by_cases hblank : ∀ c ∈ prompt.toList, Text.isBlank c = true
  · rw [parse_of_blank hblank] at h
    cases h
  rw [← Text.trimStart_eq_nil_iff] at hblank
  have hlines : ∀ line ∈ (content text.toList).map (·.1), IsContentLine line :=
    fun line hline => isContentLine_of_mem hline
  rw [parse_of_not_blank rfl hblank] at h
  split at h
  · cases h
    simp
  · rename_i first number below hcontent
    rw [hcontent, List.map_cons] at hlines
    split at h
    · cases h
      intro case hcase
      obtain ⟨segment, hsegment, rfl⟩ := List.mem_map.mp hcase
      exact wellFormed_segments hlines segment hsegment
    · cases h

/-! ## Reading and writing -/

/-- With a prompt on one line that is not blank, the cases that some text holds are exactly
the well-formed ones, writing them with the prompt is undone by reading, and a text that is
read is read alike after its cases were written. -/
theorem reading_undoes_writing (prompt : String) (hline : '\n' ∉ prompt.toList)
    (hblank : ¬ ∀ c ∈ prompt.toList, Text.isBlank c = true) :
    let marker := Text.trimStart prompt.toList
    (∀ cases, (∃ text, parse prompt text = .ok ⟨cases⟩) ↔ ∀ case ∈ cases, WellFormed marker case) ∧
      (∀ cases, (∀ case ∈ cases, WellFormed marker case) →
        parse prompt (write (String.ofList marker) cases) = .ok ⟨cases⟩) ∧
      ∀ text corpus, parse prompt text = .ok corpus →
        parse prompt (write (String.ofList marker) corpus.cases) = parse prompt text := by
  intro marker
  have hmarker : Text.trimStart prompt.toList = (String.ofList marker).toList :=
    String.toList_ofList.symm
  rw [← Text.trimStart_eq_nil_iff] at hblank
  have hwrite : ∀ cases, (∀ case ∈ cases, WellFormed marker case) →
      parse prompt (write (String.ofList marker) cases) = .ok ⟨cases⟩ := by
    intro cases hcases
    refine parse_write hline hmarker (by rwa [← hmarker]) ?_
    rwa [String.toList_ofList]
  refine ⟨fun cases => ⟨?_, fun hcases => ⟨_, hwrite cases hcases⟩⟩, hwrite, ?_⟩
  · rintro ⟨text, htext⟩
    exact wellFormed_of_parse htext
  · intro text corpus htext
    rw [htext]
    exact hwrite corpus.cases (wellFormed_of_parse htext)

/-- A command that starts with the prompt, one that is empty, rows with blanks around them and
one with a carriage return inside. -/
theorem reading_undoes_writing_prompts_in_commands :
    let text := "\n  >>  >> a\r\n\t> x\ry \n\n>>\n>>> >>"
    let corpus : Corpus := ⟨[⟨">> a", "> x\ry\n"⟩, ⟨"", ""⟩, ⟨"> >>", ""⟩]⟩
    parse " >>" text = .ok corpus ∧
      parse " >>" (write ">>" corpus.cases) = parse " >>" text := by
  intro text corpus
  have htext : parse " >>" text = .ok corpus := by decide +kernel
  have hblank : ¬ ∀ c ∈ " >>".toList, Text.isBlank c = true := by
    intro h
    exact absurd (h '>' (by decide)) (by decide)
  have hundoes := reading_undoes_writing " >>" (by decide) hblank
  exact ⟨htext, hundoes.2.2 text corpus htext⟩

end Transcript.Corpus

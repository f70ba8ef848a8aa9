-- The lines of a connection. Any bytes have them, and the server takes off a connection the
-- lines that its bytes have; those that were sent with a newline after each are found again.
import Transcript.Proofs.Text.Utf8
import Transcript.SortedSet.Wire

namespace Transcript.Wire

/-! ## The lines in bytes -/

/-- A text before a newline without the carriage return that belongs to the newline. -/
def withoutReturn (cs : List Char) : List Char :=
  if cs.getLast? = some '\r' then cs.dropLast else cs

/-- The lines in the bytes of a connection: those with an end, a last one without an end if
there is anything in it, and none from a line on that is no text. -/
inductive Lines : List UInt8 → List String → Prop where
  | nil : Lines [] []
  | ended {cs : List Char} {rest : List UInt8} {lines : List String} : '\n' ∉ cs →
      Lines rest lines →
      Lines (Text.utf8 cs ++ 10 :: rest) (String.ofList (withoutReturn cs) :: lines)
  | last {cs : List Char} : cs ≠ [] → '\n' ∉ cs → Lines (Text.utf8 cs) [String.ofList cs]
  | broken {bytes rest : List UInt8} : (∀ cs, Text.utf8 cs ≠ bytes) → 10 ∉ bytes →
      rest = [] ∨ (∃ later, rest = 10 :: later) → Lines (bytes ++ rest) []

/-! ## Lines that are received -/

theorem dropLineEnd_newline (cs : List Char) :
    Text.dropLineEnd (cs ++ ['\n']) = withoutReturn cs := by
  rcases List.eq_nil_or_concat cs with rfl | ⟨init, c, rfl⟩
  · rfl
  · by_cases hc : c = '\r' <;> simp [Text.dropLineEnd, withoutReturn, hc]

theorem receivedLines_of_not_text {piece : List UInt8} (h : ∀ cs, Text.utf8 cs ≠ piece)
    (rest : List (List UInt8)) : receivedLines (piece :: rest) = [] := by
  rcases hread : Text.decodeUtf8 piece with f | cs
  · rw [receivedLines, hread]
  · exact absurd (Text.decodeUtf8_eq_ok_iff.mp hread) (h cs)

/-- The server takes these lines off the bytes of a connection. -/
theorem Lines.received {bytes : List UInt8} {lines : List String} (h : Lines bytes lines) :
    receivedLines (Text.piecesAfter (· == 10) bytes) = lines := by
  induction h with
  | nil => rfl
  | ended hcs _ ih =>
    rw [Text.piecesAfter_utf8_append hcs, receivedLines, Text.decodeUtf8_utf8]
    simp only [dropLineEnd_newline, ih]
  | @last cs hne hcs =>
    have hbytes : Text.utf8 cs ≠ [] := by
      obtain ⟨c, rest, rfl⟩ := List.exists_cons_of_ne_nil hne
      simp [Text.utf8, Text.utf8Char_ne_nil]
    have hend := Text.isEnd_of_not_mem (mt Text.newline_mem_utf8_iff.mp hcs)
    rw [Text.piecesAfter_of_forall hbytes hend, receivedLines, Text.decodeUtf8_utf8]
    simp only [Text.dropLineEnd_of_not_mem hcs]
    rfl
  | @broken bytes rest hnot hbytes hrest =>
    have hend := Text.isEnd_of_not_mem hbytes
    rcases hrest with rfl | ⟨later, rfl⟩
    · have hne : bytes ≠ [] := fun h => hnot [] h.symm
      rw [List.append_nil, Text.piecesAfter_of_forall hne hend]
      exact receivedLines_of_not_text hnot _
    · rw [Text.piecesAfter_append_of_isEnd hend (by decide)]
      refine receivedLines_of_not_text (fun cs hcs => ?_) _
      obtain ⟨ds, hds⟩ := Text.exists_utf8_of_newline hcs
      exact hnot ds hds

/-- Bytes end before their first newline, or altogether. -/
theorem exists_first_newline (bytes : List UInt8) : ∃ first rest, bytes = first ++ rest ∧
    10 ∉ first ∧ (rest = [] ∨ ∃ later, rest = 10 :: later) := by
  by_cases h : 10 ∈ bytes
  · obtain ⟨first, later, hbytes, hfirst⟩ := List.eq_append_cons_of_mem h
    exact ⟨first, 10 :: later, hbytes, hfirst, .inr ⟨later, rfl⟩⟩
  · exact ⟨bytes, [], (List.append_nil bytes).symm, h, .inl rfl⟩

/-- The bytes of every connection have lines. -/
theorem exists_lines (bytes : List UInt8) : ∃ lines, Lines bytes lines := by
  obtain ⟨first, rest, hbytes, hfirst, hrest⟩ := exists_first_newline bytes
  by_cases htext : ∃ cs, Text.utf8 cs = first
  · obtain ⟨cs, rfl⟩ := htext
    have hcs := mt Text.newline_mem_utf8_iff.mpr hfirst
    rcases hrest with rfl | ⟨later, rfl⟩
    · rw [hbytes, List.append_nil]
      by_cases hnil : cs = []
      · rw [hnil]
        exact ⟨[], .nil⟩
      · exact ⟨_, .last hnil hcs⟩
    · obtain ⟨lines, hlines⟩ := exists_lines later
      rw [hbytes]
      exact ⟨_, .ended hcs hlines⟩
  · rw [hbytes]
    exact ⟨[], .broken (not_exists.mp htext) hfirst hrest⟩
termination_by bytes.length
decreasing_by
  rw [hbytes, List.length_append, List.length_cons]
  omega

theorem lines_iff {bytes : List UInt8} {lines : List String} :
    Lines bytes lines ↔ receivedLines (Text.piecesAfter (· == 10) bytes) = lines := by
  refine ⟨Lines.received, ?_⟩
  rintro rfl
  obtain ⟨lines, hlines⟩ := exists_lines bytes
  rwa [hlines.received]

/-! ## Lines that were sent -/

theorem lines_sentLines {lines : List String}
    (h : ∀ line ∈ lines, '\n' ∉ line.toList ∧ line.toList.getLast? ≠ some '\r') :
    Lines (sentLines lines) lines := by
  induction lines with
  | nil => exact .nil
  | cons line lines ih =>
    obtain ⟨⟨hnewline, hreturn⟩, hlines⟩ := List.forall_mem_cons.mp h
    have hended := Lines.ended hnewline (ih hlines)
    rw [withoutReturn, if_neg hreturn, String.ofList_toList] at hended
    simpa [sentLines] using hended

end Transcript.Wire

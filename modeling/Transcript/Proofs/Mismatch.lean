-- How a mismatch is told. The message quotes both texts, so that it hides no difference between
-- them. The blocks of the console show them line by line: the line that is told is the first
-- that can differ there, and it does, unless what differs is the end of a line or a text that
-- reads like one of the console's own marks.
import Transcript.Proofs.Divergence
import Transcript.Proofs.Text.Quoted
import Transcript.Report

namespace Transcript

/-! ## The message -/

/-- The message of a mismatch quotes both texts, and hides no difference in either of them. -/
theorem a_mismatch_message_hides_no_difference (command actual expected : String) :
    (Failure.mismatch command actual expected).message =
        "command: " ++ command ++ " returned: " ++ Text.quote actual ++ " but expected " ++
          Text.quote expected ∧
      (Text.quote actual = Text.quote expected ↔ actual = expected) ∧
      ∀ actual' expected', (Failure.mismatch command actual expected).message =
          (Failure.mismatch command actual' expected').message ↔
        actual = actual' ∧ expected = expected' := by
  refine ⟨rfl, Text.quote_injective.eq_iff, fun actual' expected' => ⟨fun h => ?_, ?_⟩⟩
  · have hquotes : Text.quote actual ++ (" but expected " ++ Text.quote expected) =
        Text.quote actual' ++ (" but expected " ++ Text.quote expected') := by
      unfold Failure.message at h
      simpa only [String.append_assoc, String.append_right_inj] using h
    obtain ⟨hactual, hrest⟩ := Text.quote_append_inj hquotes
    exact ⟨hactual, Text.quote_injective ((String.append_right_inj _).mp hrest)⟩
  · rintro ⟨rfl, rfl⟩
    rfl

/-- A text that reads like the middle of a message stays inside its quotes. -/
example : (Failure.mismatch "c" "a\" but expected \"b" "\n").message =
    "command: c returned: \"a\\\" but expected \\\"b\" but expected \"\\n\"" := by
  decide +kernel

/-! ## Lines as they are shown -/

namespace Text

/-- What ends a line and is not shown of it. -/
def IsLineEnd (ending : List Char) : Prop := ending = ['\n'] ∨ ending = ['\r', '\n']

theorem dropLineEnd_newline {line : List Char} (h : line.getLast? ≠ some '\r') :
    dropLineEnd (line ++ ['\n']) = line := by
  unfold dropLineEnd
  rw [List.reverse_append, List.reverse_singleton, List.singleton_append]
  split
  · rename_i hrev
    rw [← List.head?_reverse, (List.cons.inj hrev).2] at h
    exact absurd rfl h
  · rename_i hrev
    rw [← (List.cons.inj hrev).2, List.reverse_reverse]
  · rename_i hno
    exact absurd rfl (hno _)

theorem dropLineEnd_return_newline (line : List Char) :
    dropLineEnd (line ++ ['\r', '\n']) = line := by
  simp [dropLineEnd]

/-- A complete line is what is shown of it and its end. -/
theorem exists_lineEnd (line : List Char) :
    ∃ shown ending, IsLineEnd ending ∧ line ++ ['\n'] = shown ++ ending ∧
      dropLineEnd (line ++ ['\n']) = shown ∧ (ending = ['\n'] → shown.getLast? ≠ some '\r') := by
  by_cases h : line.getLast? = some '\r'
  · obtain ⟨shown, rfl⟩ := List.getLast?_eq_some_iff.mp h
    refine ⟨shown, ['\r', '\n'], .inr rfl, List.append_assoc _ _ _, ?_, by simp⟩
    rw [List.append_assoc]
    exact dropLineEnd_return_newline shown
  · exact ⟨line, ['\n'], .inl rfl, rfl, dropLineEnd_newline h, fun _ => h⟩

theorem dropLineEnd_of_isLineEnd {shown ending : List Char} (hending : IsLineEnd ending)
    (h : ending = ['\n'] → shown.getLast? ≠ some '\r') : dropLineEnd (shown ++ ending) = shown := by
  rcases hending with rfl | rfl
  · exact dropLineEnd_newline (h rfl)
  · exact dropLineEnd_return_newline shown

theorem IsLineEnd.getLast?_append {ending : List Char} (h : IsLineEnd ending) (s : List Char) :
    (s ++ ending).getLast? = some '\n' := by
  rcases h with rfl | rfl <;> simp

/-- A line of a text is complete, or holds no newline. -/
theorem line_form {s line : List Char} (h : line ∈ pieces s) :
    '\n' ∉ line ∨ ∃ body, line = body ++ ['\n'] := by
  obtain ⟨body, hbody, rfl | ⟨c, hc, rfl⟩⟩ := piece_form h
  · exact .inl fun hmem => absurd (hbody _ hmem) (by decide)
  · exact .inr ⟨body, by rw [beq_iff_eq.mp hc]⟩

/-- Texts by their lines: none, a last one without a newline, or a complete one and more. -/
theorem lines_induction {motive : List Char → Prop} (nil : motive [])
    (last : ∀ line, line ≠ [] → '\n' ∉ line → motive line)
    (line : ∀ line rest, '\n' ∉ line → motive rest → motive (line ++ '\n' :: rest))
    (s : List Char) : motive s := by
  induction hn : s.length using Nat.strongRecOn generalizing s with
  | ind n ih =>
    by_cases hs : '\n' ∈ s
    · obtain ⟨front, rest, rfl, hfront⟩ := List.eq_append_cons_of_mem hs
      refine line front rest hfront (ih rest.length ?_ rest rfl)
      rw [← hn, List.length_append, List.length_cons]
      omega
    · by_cases hempty : s = []
      · exact hempty ▸ nil
      · exact last s hempty hs

end Text

/-! ## Rows of a block -/

/-- What stands behind a line whose newline is missing. -/
def missingNewline : List Char := " (no newline at end)".toList

/-- A line as the console shows it, without its indentation. -/
def shownLine (line : List Char) : List Char :=
  Text.dropLineEnd line ++ if line.getLast? = some '\n' then [] else missingNewline

/-- The rows of a block with these lines. -/
def rowsOfLines : List (List Char) → List String
  | [] => ["    (empty)"]
  | lines => lines.map fun line => "    " ++ String.ofList (shownLine line)

/-- The rows that the console shows of a text. -/
def blockRows (text : String) : List String := rowsOfLines (Text.pieces text.toList)

theorem rowsOfLines_eq_map {lines : List (List Char)} (h : lines ≠ []) :
    rowsOfLines lines = lines.map fun line => "    " ++ String.ofList (shownLine line) := by
  cases lines with
  | nil => contradiction
  | cons line lines => rfl

theorem shownLine_of_not_mem {line : List Char} (h : '\n' ∉ line) :
    shownLine line = line ++ missingNewline := by
  have hlast : line.getLast? ≠ some '\n' := fun hlast => h (List.mem_of_getLast? hlast)
  rw [shownLine, if_neg hlast, Text.dropLineEnd_of_not_mem h]

theorem shownLine_newline (line : List Char) :
    shownLine (line ++ ['\n']) = Text.dropLineEnd (line ++ ['\n']) := by
  rw [shownLine, if_pos List.getLast?_concat, List.append_nil]

theorem shownLine_of_isLineEnd {shown ending : List Char} (hending : Text.IsLineEnd ending)
    (h : ending = ['\n'] → shown.getLast? ≠ some '\r') : shownLine (shown ++ ending) = shown := by
  rw [shownLine, if_pos (hending.getLast?_append shown), List.append_nil,
    Text.dropLineEnd_of_isLineEnd hending h]

/-- The block of a text that is not empty is made of what is shown of its lines. -/
theorem intercalate_shownLine {s : List Char} (h : s ≠ []) :
    String.intercalate "\n" ((Text.lines s).map fun line => "    " ++ String.ofList line) ++
        (if s.getLast? = some '\n' then "" else String.ofList missingNewline) =
      String.intercalate "\n"
        ((Text.pieces s).map fun line => "    " ++ String.ofList (shownLine line)) := by
  induction s using Text.lines_induction with
  | nil => contradiction
  | last line hne hline =>
    have hlast : line.getLast? ≠ some '\n' := fun hlast => hline (List.mem_of_getLast? hlast)
    have hpieces : Text.pieces line = [line] := Text.piecesAfter_of_forall hne fun c hc => by
      rw [beq_eq_false_iff_ne]
      exact fun heq => hline (heq ▸ hc)
    rw [Text.lines, hpieces, if_neg hlast, List.map_singleton, List.map_singleton,
      List.map_singleton, String.intercalate_singleton, String.intercalate_singleton,
      shownLine_of_not_mem hline, Text.dropLineEnd_of_not_mem hline, String.ofList_append,
      String.append_assoc]
  | line line rest hline ih =>
    rw [Text.lines, Text.pieces_append_newline hline, List.map_cons, List.map_cons, List.map_cons,
      shownLine_newline]
    by_cases hrest : rest = []
    · subst hrest
      simp [Text.pieces, Text.piecesAfter]
    · obtain ⟨c, tail, rfl⟩ := List.exists_cons_of_ne_nil hrest
      have hpieces : Text.pieces (c :: tail) ≠ [] := fun hnil =>
        hrest ((Text.flatten_piecesAfter _ _).symm.trans (by rw [← Text.pieces, hnil]; rfl))
      have hlast : (line ++ '\n' :: c :: tail).getLast? = (c :: tail).getLast? := by
        rw [List.getLast?_append_cons, List.getLast?_cons_cons]
      have hrows := ih hrest
      rw [Text.lines] at hrows
      rw [hlast, String.intercalate_cons_of_ne_nil (by simpa using hpieces),
        String.intercalate_cons_of_ne_nil (by simpa using hpieces), ← hrows]
      simp only [String.append_assoc]

/-- A block without colours is made of its rows. -/
theorem indentBlock_eq_rows (text : String) :
    indentBlock false text = String.intercalate "\n" (blockRows text) := by
  unfold indentBlock blockRows
  by_cases htext : text = ""
  · subst htext
    rfl
  · have hchars : text.toList ≠ [] := fun hnil => htext (String.toList_inj.mp hnil)
    have hpieces : Text.pieces text.toList ≠ [] := fun hnil =>
      hchars ((Text.flatten_piecesAfter _ _).symm.trans (by rw [← Text.pieces, hnil]; rfl))
    rw [if_neg (by simpa using htext), rowsOfLines_eq_map hpieces,
      ← intercalate_shownLine hchars]
    split
    · rw [String.append_empty]
    · rw [String.append_assoc]
      rfl

theorem newline_not_mem_shownLine {s line : List Char} (h : line ∈ Text.pieces s) :
    '\n' ∉ shownLine line := by
  have hline : '\n' ∉ Text.dropLineEnd line :=
    Text.not_mem_of_mem_lines (List.mem_map_of_mem h)
  have hmark : '\n' ∉ missingNewline := by decide
  unfold shownLine
  split
  · rwa [List.append_nil]
  · exact fun hmem => (List.mem_append.mp hmem).elim hline hmark

/-- The rows of a block are its lines. -/
theorem newline_not_mem_blockRows (text : String) : ∀ row ∈ blockRows text, '\n' ∉ row.toList := by
  intro row hrow
  unfold blockRows at hrow
  rcases hpieces : Text.pieces text.toList with _ | ⟨first, others⟩
  · rw [hpieces, rowsOfLines, List.mem_singleton] at hrow
    subst hrow
    decide
  · rw [rowsOfLines_eq_map (by rw [hpieces]; exact List.cons_ne_nil _ _)] at hrow
    obtain ⟨line, hline, rfl⟩ := List.mem_map.mp hrow
    have hshown : '\n' ∉ (String.ofList (shownLine line)).toList := by
      rw [String.toList_ofList]
      exact newline_not_mem_shownLine hline
    rw [String.toList_append, List.mem_append]
    exact fun hmem => hmem.elim (by decide) hshown

/-- Blocks that are the same have the same rows. -/
theorem blockRows_eq_of_indentBlock_eq {text other : String}
    (h : indentBlock false text = indentBlock false other) : blockRows text = blockRows other := by
  have hsplit : ∀ t, (indentBlock false t).toList.splitOn '\n' = (blockRows t).map String.toList := by
    intro t
    rw [indentBlock_eq_rows, String.toList_intercalate]
    refine List.splitOn_intercalate '\n' (fun chars hchars => ?_) ?_
    · obtain ⟨row, hrow, rfl⟩ := List.mem_map.mp hchars
      exact newline_not_mem_blockRows t row hrow
    · unfold blockRows
      cases Text.pieces t.toList <;> simp [rowsOfLines]
  have hrows : (blockRows text).map String.toList = (blockRows other).map String.toList := by
    rw [← hsplit, ← hsplit, h]
  exact (List.map_injective_iff.mpr fun _ _ => String.toList_inj.mp) hrows

/-! ## Rows that are the same -/

/-- Texts, cut into lines, that differ behind `k` lines and are shown as the same row there: a
carriage return before a newline is not shown, a line without its newline is shown as one that
reads like it with the mark for that, and so is an empty text. -/
inductive LooksAlike : Nat → List (List Char) → List (List Char) → Prop where
  | carriageReturn {k : Nat} {as bs : List (List Char)} {line : List Char} :
      as[k]? = some (line ++ ['\n']) → bs[k]? = some (line ++ ['\r', '\n']) →
      line.getLast? ≠ some '\r' → LooksAlike k as bs
  | mark {k : Nat} {as bs : List (List Char)} {line ending : List Char} :
      Text.IsLineEnd ending → as[k]? = some line → '\n' ∉ line →
      bs[k]? = some (line ++ missingNewline ++ ending) → LooksAlike k as bs
  | empty {bs : List (List Char)} {ending : List Char} :
      Text.IsLineEnd ending → bs[0]? = some ("(empty)".toList ++ ending) → LooksAlike 0 [] bs
  | symm {k : Nat} {as bs : List (List Char)} : LooksAlike k as bs → LooksAlike k bs as

theorem getElem?_rowsOfLines {lines : List (List Char)} {k : Nat} {line : List Char}
    (h : lines[k]? = some line) :
    (rowsOfLines lines)[k]? = some ("    " ++ String.ofList (shownLine line)) := by
  have hne : lines ≠ [] := by
    rintro rfl
    simp at h
  rw [rowsOfLines_eq_map hne, List.getElem?_map, h, Option.map_some]

theorem getLast?_append_missingNewline (line : List Char) :
    (line ++ missingNewline).getLast? = some ')' := by
  rw [List.getLast?_append]
  rfl

theorem LooksAlike.rows_eq {k : Nat} {as bs : List (List Char)} (h : LooksAlike k as bs) :
    (rowsOfLines as)[k]? = (rowsOfLines bs)[k]? := by
  induction h with
  | carriageReturn ha hb hline =>
    rw [getElem?_rowsOfLines ha, getElem?_rowsOfLines hb,
      shownLine_of_isLineEnd (.inl rfl) fun _ => hline, shownLine_of_isLineEnd (.inr rfl) (by simp)]
  | @mark k as bs line ending hending ha hline hb =>
    have hlast : (line ++ missingNewline).getLast? ≠ some '\r' := by
      rw [getLast?_append_missingNewline]
      decide
    rw [getElem?_rowsOfLines ha, getElem?_rowsOfLines hb, shownLine_of_not_mem hline,
      shownLine_of_isLineEnd hending fun _ => hlast]
  | empty hending hb =>
    rw [getElem?_rowsOfLines hb, shownLine_of_isLineEnd hending fun _ => by decide]
    rfl
  | symm _ ih => exact ih.symm

/-- Lines that differ and are shown as the same row. -/
theorem looksAlike_of_shownLine_eq {k : Nat} {s t : List Char} {line other : List Char}
    (hs : (Text.pieces s)[k]? = some line) (ht : (Text.pieces t)[k]? = some other)
    (hne : line ≠ other) (h : shownLine line = shownLine other) :
    LooksAlike k (Text.pieces s) (Text.pieces t) := by
  have hmark : ∀ {line body : List Char}, '\n' ∉ line → shownLine line = shownLine (body ++ ['\n']) →
      ∃ ending, Text.IsLineEnd ending ∧ body ++ ['\n'] = line ++ missingNewline ++ ending := by
    intro line body hline h
    obtain ⟨shown, ending, hending, hbody, hshown, -⟩ := Text.exists_lineEnd body
    refine ⟨ending, hending, ?_⟩
    rw [hbody, ← shownLine_of_not_mem hline, h, shownLine_newline, hshown]
  rcases Text.line_form (List.mem_of_getElem? hs) with hline | ⟨body, rfl⟩
  · rcases Text.line_form (List.mem_of_getElem? ht) with hother | ⟨body, rfl⟩
    · rw [shownLine_of_not_mem hline, shownLine_of_not_mem hother] at h
      exact absurd (List.append_cancel_right h) hne
    · obtain ⟨ending, hending, hbody⟩ := hmark hline h
      exact .mark hending hs hline (hbody ▸ ht)
  · rcases Text.line_form (List.mem_of_getElem? ht) with hother | ⟨body', rfl⟩
    · obtain ⟨ending, hending, hbody⟩ := hmark hother h.symm
      exact .symm (.mark hending ht hother (hbody ▸ hs))
    · obtain ⟨shown, ending, hending, hbody, hshown, hreturn⟩ := Text.exists_lineEnd body
      obtain ⟨shown', ending', hending', hbody', hshown', hreturn'⟩ := Text.exists_lineEnd body'
      rw [shownLine_newline, shownLine_newline, hshown, hshown'] at h
      subst h
      rw [hbody] at hs hne
      rw [hbody'] at ht hne
      rcases hending with rfl | rfl
      · rcases hending' with rfl | rfl
        · contradiction
        · exact .carriageReturn hs ht (hreturn rfl)
      · rcases hending' with rfl | rfl
        · exact .symm (.carriageReturn ht hs (hreturn' rfl))
        · contradiction

/-- A line that is shown like an empty text. -/
theorem looksAlike_of_shownLine_eq_empty {t other : List Char}
    (ht : (Text.pieces t)[0]? = some other) (h : shownLine other = "(empty)".toList) :
    LooksAlike 0 [] (Text.pieces t) := by
  rcases Text.line_form (List.mem_of_getElem? ht) with hother | ⟨body, rfl⟩
  · have hlast := congrArg List.getLast? h
    have hlength := congrArg List.length h
    rw [shownLine_of_not_mem hother, List.length_append] at hlength
    have hlong : "(empty)".toList.length < missingNewline.length := by decide
    omega
  · obtain ⟨shown, ending, hending, hbody, hshown, -⟩ := Text.exists_lineEnd body
    rw [shownLine_newline, hshown] at h
    rw [hbody, h] at ht
    exact .empty hending ht

theorem row_inj {chars chars' : List Char}
    (h : "    " ++ String.ofList chars = "    " ++ String.ofList chars') : chars = chars' := by
  have hchars := congrArg String.toList ((String.append_right_inj _).mp h)
  rwa [String.toList_ofList, String.toList_ofList] at hchars

/-- A row that only one of the texts has a line for is in the other block the row of an empty
text. -/
theorem looksAlike_of_row_eq_of_none {k : Nat} {s t other : List Char}
    (hdiffers : DifferBehind '\n' (Text.pieces s) (Text.pieces t) k)
    (hs : (Text.pieces s)[k]? = none) (ht : (Text.pieces t)[k]? = some other)
    (h : (rowsOfLines (Text.pieces s))[k]? = (rowsOfLines (Text.pieces t))[k]?) :
    LooksAlike k (Text.pieces s) (Text.pieces t) := by
  rw [getElem?_rowsOfLines ht] at h
  rcases hpieces : Text.pieces s with _ | ⟨first, others⟩
  · rw [hpieces] at h
    cases k with
    | zero =>
      have hempty : "    (empty)" = "    " ++ String.ofList "(empty)".toList := by decide
      rw [rowsOfLines, List.getElem?_cons_zero, hempty, Option.some.injEq] at h
      exact looksAlike_of_shownLine_eq_empty ht (row_inj h).symm
    | succ k => cases h
  · rw [rowsOfLines_eq_map (by rw [hpieces]; exact List.cons_ne_nil _ _), List.getElem?_map,
      hs] at h
    cases h

/-- In the row behind the lines that are the same, the blocks are the same exactly if the texts
look alike there. -/
theorem DifferBehind.rows_eq_iff {k : Nat} {s t : List Char}
    (hdiffers : DifferBehind '\n' (Text.pieces s) (Text.pieces t) k) :
    (rowsOfLines (Text.pieces s))[k]? = (rowsOfLines (Text.pieces t))[k]? ↔
      LooksAlike k (Text.pieces s) (Text.pieces t) := by
  refine ⟨fun h => ?_, LooksAlike.rows_eq⟩
  rcases hs : (Text.pieces s)[k]? with _ | line
  · rcases ht : (Text.pieces t)[k]? with _ | other
    · exact absurd (hs.trans ht.symm) hdiffers.differs
    · exact looksAlike_of_row_eq_of_none hdiffers hs ht h
  · rcases ht : (Text.pieces t)[k]? with _ | other
    · exact .symm (looksAlike_of_row_eq_of_none hdiffers.symm ht hs h.symm)
    · rw [getElem?_rowsOfLines hs, getElem?_rowsOfLines ht, Option.some.injEq] at h
      refine looksAlike_of_shownLine_eq hs ht (fun heq => hdiffers.differs ?_) (row_inj h)
      rw [hs, ht, heq]

/-- The rows before it are the same ones. -/
theorem DifferBehind.row_before {k i : Nat} {as bs : List (List Char)}
    (hdiffers : DifferBehind '\n' as bs k) (hi : i < k) :
    ∃ row, (rowsOfLines as)[i]? = some row ∧ (rowsOfLines bs)[i]? = some row := by
  obtain ⟨line, ha, hb, -⟩ := hdiffers.same i hi
  exact ⟨_, getElem?_rowsOfLines ha, getElem?_rowsOfLines hb⟩

theorem length_le_length_rowsOfLines (lines : List (List Char)) :
    lines.length ≤ (rowsOfLines lines).length := by
  cases lines <;> simp [rowsOfLines]

/-- One of the blocks has a row there. -/
theorem DifferBehind.lt_length {k : Nat} {as bs : List (List Char)}
    (hdiffers : DifferBehind '\n' as bs k) :
    k < max (rowsOfLines as).length (rowsOfLines bs).length := by
  have has := length_le_length_rowsOfLines as
  have hbs := length_le_length_rowsOfLines bs
  by_contra hlt
  refine hdiffers.differs ?_
  rw [List.getElem?_eq_none (by omega), List.getElem?_eq_none (by omega)]

/-! ## What the console prints -/

namespace Console

theorem lines_append (rows others : List String) :
    lines (rows ++ others) = lines rows ++ lines others := by
  rw [lines, List.map_append, String.join_append, lines, lines]

/-- Rows that are printed as one text are printed row by row. -/
theorem lines_intercalate {rows : List String} (h : rows ≠ []) :
    lines [String.intercalate "\n" rows] = lines rows := by
  induction rows with
  | nil => contradiction
  | cons row rows ih =>
    rcases rows with _ | ⟨next, rows⟩
    · rw [String.intercalate_singleton]
    · have hrest := ih (List.cons_ne_nil next rows)
      have hcons : lines (row :: next :: rows) = row ++ "\n" ++ lines (next :: rows) := by
        rw [← List.singleton_append, lines_append]
        simp [lines]
      rw [hcons, ← hrest, String.intercalate_cons_of_ne_nil (List.cons_ne_nil next rows)]
      simp [lines, String.append_assoc]

theorem lines_indentBlock (text : String) :
    lines [indentBlock false text] = lines (blockRows text) := by
  rw [indentBlock_eq_rows, lines_intercalate]
  unfold blockRows
  cases Text.pieces text.toList <;> simp [rowsOfLines]

end Console

/-- The console tells of a mismatch in rows: those of the expected text, those of the actual one,
and the number of the line in which the texts first differ. That line has a row in one of the
blocks, and the rows above it are the same in both. The row itself differs unless the texts look
alike there, and only then the blocks can be the same. -/
theorem the_row_told_differs_unless_it_looks_alike (console : Console) (index : Nat)
    (command actual expected : String) (hcolours : console.colours = false)
    (hne : actual ≠ expected) :
    ∃ k, (console.observe
          (.caseFailed index ⟨command, expected⟩ (.mismatch command actual expected))).2 =
        Console.lines (["✖ Test failed: " ++ (Failure.mismatch command actual expected).message,
          "  case " ++ toString (index + 1) ++ " of " ++ toString console.total, "  expected:"] ++
          blockRows expected ++ ["  actual:"] ++ blockRows actual ++
          ["  first difference at line " ++ toString (k + 1)]) ∧
      (∀ row ∈ blockRows expected ++ blockRows actual, '\n' ∉ row.toList) ∧
      k < max (blockRows expected).length (blockRows actual).length ∧
      (∀ i < k, ∃ row, (blockRows expected)[i]? = some row ∧ (blockRows actual)[i]? = some row) ∧
      ((blockRows expected)[k]? = (blockRows actual)[k]? ↔
        LooksAlike k (Text.pieces expected.toList) (Text.pieces actual.toList)) ∧
      (indentBlock false expected = indentBlock false actual →
        LooksAlike k (Text.pieces expected.toList) (Text.pieces actual.toList)) := by
  obtain ⟨n, hn⟩ : ∃ n, firstDivergentLine actual expected = some n := by
    rw [← Option.ne_none_iff_exists', firstDivergentLine_eq_by_characters, Ne,
      firstDivergentLineBy_eq_none_iff, String.toList_inj]
    exact hne
  obtain ⟨k, rfl, hdiffers⟩ := (firstDivergentLineBy_eq_some_iff _ _ _ _).mp
    (firstDivergentLine_eq_by_characters actual expected ▸ hn)
  have hrows := hdiffers.symm.rows_eq_iff
  refine ⟨k, ?_, fun row hrow => ?_, hdiffers.symm.lt_length, fun i hi => hdiffers.symm.row_before hi,
    hrows, fun hblocks => hrows.mp ?_⟩
  · have hfailure : console.failureRows index ⟨command, expected⟩
        (.mismatch command actual expected) =
        ["✖ Test failed: " ++ (Failure.mismatch command actual expected).message,
          "  case " ++ toString (index + 1) ++ " of " ++ toString console.total, "  expected:"] ++
          [indentBlock false expected] ++ ["  actual:"] ++ [indentBlock false actual] ++
          ["  first difference at line " ++ toString (k + 1)] := by
      simp [Console.failureRows, Console.mismatchRows, Failure.actual?, hcolours, hn, Style.paint,
        ← String.append_assoc]
    rw [Console.observe, hfailure]
    simp only [Console.lines_append, Console.lines_indentBlock]
  · exact (List.mem_append.mp hrow).elim (newline_not_mem_blockRows expected row)
      (newline_not_mem_blockRows actual row)
  · exact congrArg (·[k]?) (blockRows_eq_of_indentBlock_eq hblocks)

/-- A last line without its newline, behind a line that is the same, against two that have it. -/
theorem a_missing_newline_is_told_in_its_row :
    (⟨false, false, 1⟩ : Console).colours = false ∧ "a\r\nb" ≠ "a\r\nb\n\n" ∧
      ((⟨false, false, 1⟩ : Console).observe (.caseFailed 0 ⟨"c", "a\r\nb\n\n"⟩
          (.mismatch "c" "a\r\nb" "a\r\nb\n\n"))).2 =
        "✖ Test failed: command: c returned: \"a\\r\\nb\" but expected \"a\\r\\nb\\n\\n\"\n" ++
          "  case 1 of 1\n  expected:\n    a\n    b\n    \n  actual:\n    a\n" ++
          "    b (no newline at end)\n  first difference at line 2\n" ∧
      ¬LooksAlike 1 (Text.pieces "a\r\nb\n\n".toList) (Text.pieces "a\r\nb".toList) := by
  obtain ⟨k, htext, -, hlt, -, hrows, -⟩ := the_row_told_differs_unless_it_looks_alike
    ⟨false, false, 1⟩ 0 "c" "a\r\nb" "a\r\nb\n\n" rfl (by decide)
  have hprinted : ((⟨false, false, 1⟩ : Console).observe (.caseFailed 0 ⟨"c", "a\r\nb\n\n"⟩
      (.mismatch "c" "a\r\nb" "a\r\nb\n\n"))).2 =
        "✖ Test failed: command: c returned: \"a\\r\\nb\" but expected \"a\\r\\nb\\n\\n\"\n" ++
          "  case 1 of 1\n  expected:\n    a\n    b\n    \n  actual:\n    a\n" ++
          "    b (no newline at end)\n  first difference at line 2\n" := by decide +kernel
  have hexpected : blockRows "a\r\nb\n\n" = ["    a", "    b", "    "] := by decide +kernel
  have hactual : blockRows "a\r\nb" = ["    a", "    b (no newline at end)"] := by decide +kernel
  rw [hprinted, hexpected, hactual] at htext
  rw [hexpected, hactual] at hlt hrows
  refine ⟨rfl, by decide, hprinted, fun halike => ?_⟩
  obtain rfl : k = 1 := by
    have hk : k < 3 := hlt
    clear hrows hlt
    revert htext
    revert k
    decide +kernel
  exact absurd (hrows.mpr halike) (by decide)

/-- A carriage return before a newline is a difference that the blocks do not show, and so are
the console's own marks where the text holds them. -/
theorem a_carriage_return_is_told_and_not_shown :
    ((⟨false, false, 1⟩ : Console).observe
        (.caseFailed 0 ⟨"cmd", "a\n"⟩ (.mismatch "cmd" "a\r\n" "a\n"))).2 =
      "✖ Test failed: command: cmd returned: \"a\\r\\n\" but expected \"a\\n\"\n" ++
        "  case 1 of 1\n  expected:\n    a\n  actual:\n    a\n  first difference at line 1\n" ∧
      "a\r\n" ≠ "a\n" ∧ indentBlock false "a\r\n" = indentBlock false "a\n" ∧
      indentBlock false "a" = indentBlock false "a (no newline at end)\n" ∧
      indentBlock false "" = indentBlock false "(empty)\n" := by
  decide +kernel

end Transcript

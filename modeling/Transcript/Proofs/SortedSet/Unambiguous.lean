-- Rendered replies are unambiguous. Rows of a reply tell its kind by their first letters, and an
-- array tells how many items follow; so the rows of a reply are told from what stands behind
-- them, whatever they imitate, and two replies of texts on one line are rendered the same only
-- if they hold the same at the same places.
import Mathlib.Data.List.Forall2
import Transcript.Proofs.SortedSet.Rows

namespace Transcript

/-! ## Rows of text -/

/-- Rows as they are written, each with its newline. -/
def writtenRows (rows : List String) : List Char := rows.flatMap fun row => row.toList ++ ['\n']

/-- A text without a newline in it. -/
def OneLine (text : String) : Prop := '\n' ∉ text.toList

theorem writtenRows_cons (row : String) (rest : List String) :
    writtenRows (row :: rest) = row.toList ++ '\n' :: writtenRows rest := by
  rw [writtenRows, List.flatMap_cons, List.append_assoc]
  rfl

theorem writtenRows_append (rows others : List String) :
    writtenRows (rows ++ others) = writtenRows rows ++ writtenRows others := List.flatMap_append

/-- A row is told from what follows its newline. -/
theorem append_newline_inj {row row' rest rest' : List Char} (hrow : '\n' ∉ row)
    (hrow' : '\n' ∉ row') (h : row ++ '\n' :: rest = row' ++ '\n' :: rest') :
    row = row' ∧ rest = rest' := by
  induction row generalizing row' with
  | nil =>
    cases row' with
    | nil => exact ⟨rfl, (List.cons.inj h).2⟩
    | cons c row' => exact absurd ((List.cons.inj h).1 ▸ List.mem_cons_self) hrow'
  | cons c row ih =>
    cases row' with
    | nil => exact absurd ((List.cons.inj h).1 ▸ List.mem_cons_self) hrow
    | cons d row' =>
      obtain ⟨rfl, htail⟩ := List.cons.inj h
      obtain ⟨rfl, hrest⟩ := ih (fun hc => hrow (List.mem_cons_of_mem c hc))
        (fun hc => hrow' (List.mem_cons_of_mem c hc)) htail
      exact ⟨rfl, hrest⟩

/-- Rows at the start of other rows are the first of these. -/
theorem exists_of_writtenRows_append {rows others : List String} {rest : List Char}
    (hrows : ∀ row ∈ rows, OneLine row) (hothers : ∀ row ∈ others, OneLine row)
    (h : writtenRows rows ++ rest = writtenRows others) :
    ∃ later, others = rows ++ later ∧ rest = writtenRows later := by
  induction rows generalizing others with
  | nil => exact ⟨others, rfl, h⟩
  | cons row rows ih =>
    rw [writtenRows_cons, List.append_assoc, List.cons_append] at h
    cases others with
    | nil => simp [writtenRows] at h
    | cons other others =>
      rw [writtenRows_cons] at h
      obtain ⟨hrow, hrest⟩ := append_newline_inj (hrows row List.mem_cons_self)
        (hothers other List.mem_cons_self) h
      obtain ⟨later, rfl, hlater⟩ := ih (fun r hr => hrows r (List.mem_cons_of_mem row hr))
        (fun r hr => hothers r (List.mem_cons_of_mem other hr)) hrest
      exact ⟨later, by rw [String.toList_inj.mp hrow]; rfl, hlater⟩

/-- A text that ends in a newline is made of rows. -/
theorem exists_writtenRows (text : List Char) (h : text = [] ∨ text.getLast? = some '\n') :
    ∃ rows, (∀ row ∈ rows, OneLine row) ∧ text = writtenRows rows := by
  induction text with
  | nil => exact ⟨[], List.forall_mem_nil _, rfl⟩
  | cons c text ih =>
    have hlast : (c :: text).getLast? = some '\n' := h.resolve_left (List.cons_ne_nil c text)
    have htext : text = [] ∨ text.getLast? = some '\n' := by
      cases text with
      | nil => exact .inl rfl
      | cons d text => exact .inr (by rwa [List.getLast?_cons_cons] at hlast)
    obtain ⟨rows, hrows, htext⟩ := ih htext
    by_cases hc : c = '\n'
    · have hempty : OneLine "" := by simp [OneLine]
      refine ⟨"" :: rows, List.forall_mem_cons.mpr ⟨hempty, hrows⟩, ?_⟩
      rw [writtenRows_cons, htext, hc]
      rfl
    · cases rows with
      | nil =>
        rw [htext] at hlast
        exact absurd (Option.some.inj hlast) hc
      | cons row rows =>
        obtain ⟨hrow, hrows⟩ := List.forall_mem_cons.mp hrows
        have hfirst : OneLine (String.ofList (c :: row.toList)) := by
          rw [OneLine, String.toList_ofList, List.mem_cons]
          exact fun hmem => hmem.elim (fun heq => hc heq.symm) hrow
        refine ⟨String.ofList (c :: row.toList) :: rows,
          List.forall_mem_cons.mpr ⟨hfirst, hrows⟩, ?_⟩
        rw [htext, writtenRows_cons, writtenRows_cons, String.toList_ofList, List.cons_append]

/-! ## Whole numbers -/

theorem repr_nat_injective {m n : Nat} (h : m.repr = n.repr) : m = n := by
  have hdigits : Nat.toDigits 10 m = Nat.toDigits 10 n := by
    simpa only [Nat.toList_repr] using congrArg String.toList h
  rw [← Nat.ofDigitChars_ten_toDigits (n := m), hdigits, Nat.ofDigitChars_ten_toDigits]

/-- No number is written with a minus by its digits alone. -/
theorem repr_ne_minus_append (n : Nat) (s : String) : n.repr ≠ "-" ++ s := by
  intro h
  have hmem : '-' ∈ Nat.toDigits 10 n := by
    rw [← Nat.toList_repr, h, String.toList_append]
    exact List.mem_append_left _ (List.mem_singleton.mpr rfl)
  exact absurd (Nat.isDigit_of_mem_toDigits (by decide) (by decide) hmem) (by decide)

theorem toString_int_injective {m n : Int} (h : toString m = toString n) : m = n := by
  rw [Int.toString_eq_repr, Int.toString_eq_repr, Int.repr_eq_if, Int.repr_eq_if] at h
  split at h <;> split at h
  · have hnat := repr_nat_injective h
    omega
  · exact absurd h (repr_ne_minus_append _ _)
  · exact absurd h.symm (repr_ne_minus_append _ _)
  · have hnat := repr_nat_injective ((String.append_right_inj _).mp h)
    omega

/-! ## Rows of replies -/

namespace Reply

/-- The texts of a reply stand on one line each. -/
inductive OnOneLine : Reply → Prop where
  | nil : OnOneLine .nil
  | err {text : String} : OneLine text → OnOneLine (.err text)
  | str {text : String} : OneLine text → OnOneLine (.str text)
  | int {value : Int} : OnOneLine (.int value)
  | double {value : Binary64} : OnOneLine (.double value)
  | arr {items : List Reply} : (∀ item ∈ items, OnOneLine item) → OnOneLine (.arr items)

/-- The row that opens an array of this size. -/
def openRow (size : Nat) : String := "(arr) len=" ++ toString size

/-- The row that ends an array. -/
def endRow : String := "(arr) end"

mutual

/-- The rows of a reply, without their newlines. -/
def rows : Reply → List String
  | .nil => ["(nil)"]
  | .err text => ["(err) " ++ text]
  | .str text => ["(str) " ++ text]
  | .int value => ["(int) " ++ toString value]
  | .double value => ["(double) " ++ Decimal.plain value]
  | .arr items => openRow items.length :: (rowsAll items ++ [endRow])

def rowsAll : List Reply → List String
  | [] => []
  | item :: rest => rows item ++ rowsAll rest

end

theorem toList_endRow : "(arr) end\n".toList = writtenRows [endRow] := by decide

mutual

/-- A reply is rendered by its rows. -/
theorem toList_render : (r : Reply) → r.render.toList = writtenRows r.rows
  | .nil => rfl
  | .err text => by simp [render, rows, writtenRows]
  | .str text => by simp [render, rows, writtenRows]
  | .int value => by simp [render, rows, writtenRows]
  | .double value => by simp [render, rows, writtenRows]
  | .arr items => by
    rw [render, rows, writtenRows_cons, writtenRows_append, ← toList_endRow,
      ← toList_renderAll items]
    simp [openRow]

theorem toList_renderAll : (items : List Reply) →
    (renderAll items).toList = writtenRows (rowsAll items)
  | [] => rfl
  | item :: rest => by
    rw [renderAll, rowsAll, String.toList_append, writtenRows_append, toList_render item,
      toList_renderAll rest]

end

theorem oneLine_append {tag text : String} (htag : OneLine tag) (htext : OneLine text) :
    OneLine (tag ++ text) := by
  rw [OneLine, String.toList_append, List.mem_append]
  exact fun hmem => hmem.elim htag htext

theorem oneLine_of_solid {text : String} (h : Text.Solid text.toList) : OneLine text :=
  fun hmem => absurd (h.not_blank _ hmem) (by decide)

theorem oneLine_openRow (size : Nat) : OneLine (openRow size) := by
  have hsize : Text.Solid (toString size).toList := by
    rw [Nat.toString_eq_repr, Nat.toList_repr]
    exact Text.solid_toDigits size
  exact oneLine_append (by unfold OneLine; decide) (oneLine_of_solid hsize)

mutual

/-- A reply of texts on one line has no newline in its rows. -/
theorem OnOneLine.oneLine_rows : (r : Reply) → r.OnOneLine → ∀ row ∈ r.rows, OneLine row
  | .nil, _ => List.forall_mem_singleton.mpr (by unfold OneLine; decide)
  | .err text, .err h =>
    List.forall_mem_singleton.mpr (oneLine_append (by unfold OneLine; decide) h)
  | .str text, .str h =>
    List.forall_mem_singleton.mpr (oneLine_append (by unfold OneLine; decide) h)
  | .int value, _ => List.forall_mem_singleton.mpr
      (oneLine_append (by unfold OneLine; decide) (oneLine_of_solid (Text.solid_toString_int value)))
  | .double value, _ => List.forall_mem_singleton.mpr
      (oneLine_append (by unfold OneLine; decide) (oneLine_of_solid (Decimal.solid_plain value)))
  | .arr items, .arr h => by
    intro row hrow
    rcases List.mem_cons.mp hrow with rfl | hrow
    · exact oneLine_openRow _
    · rcases List.mem_append.mp hrow with hrow | hrow
      · exact oneLine_rowsAll items h row hrow
      · rw [List.mem_singleton.mp hrow]
        unfold OneLine
        decide

theorem OnOneLine.oneLine_rowsAll : (items : List Reply) → (∀ item ∈ items, item.OnOneLine) →
    ∀ row ∈ rowsAll items, OneLine row
  | [], _ => List.forall_mem_nil _
  | item :: rest, h => by
    intro row hrow
    rcases List.mem_append.mp hrow with hrow | hrow
    · exact oneLine_rows item (h item List.mem_cons_self) row hrow
    · exact oneLine_rowsAll rest (fun r hr => h r (List.mem_cons_of_mem item hr)) row hrow

end

/-! ## Replies told by their rows -/

/-- Replies that hold the same at the same places, as far as doubles can be told by their digits. -/
inductive ShownAlike : Reply → Reply → Prop where
  | nil : ShownAlike .nil .nil
  | err (text : String) : ShownAlike (.err text) (.err text)
  | str (text : String) : ShownAlike (.str text) (.str text)
  | int (value : Int) : ShownAlike (.int value) (.int value)
  | double {x y : Binary64} : Decimal.plain x = Decimal.plain y → ShownAlike (.double x) (.double y)
  | arr {items others : List Reply} : List.Forall₂ ShownAlike items others →
      ShownAlike (.arr items) (.arr others)

/-- The letter behind the bracket of a reply's first row. -/
def letter : Reply → Char
  | .nil => 'n'
  | .err _ => 'e'
  | .str _ => 's'
  | .int _ => 'i'
  | .double _ => 'd'
  | .arr _ => 'a'

theorem exists_rows_eq_cons (r : Reply) :
    ∃ first later, r.rows = first :: later ∧ first.toList[1]? = some r.letter := by
  cases r with
  | nil => exact ⟨_, _, rfl, rfl⟩
  | err text => exact ⟨_, _, rfl, by rw [String.toList_append]; rfl⟩
  | str text => exact ⟨_, _, rfl, by rw [String.toList_append]; rfl⟩
  | int value => exact ⟨_, _, rfl, by rw [String.toList_append]; rfl⟩
  | double value => exact ⟨_, _, rfl, by rw [String.toList_append]; rfl⟩
  | arr items => exact ⟨_, _, rfl, by rw [openRow, String.toList_append]; rfl⟩

/-- Rows that start with those of either reply tell its kind. -/
theorem letter_eq {a b : Reply} {s t : List String} (h : a.rows ++ s = b.rows ++ t) :
    a.letter = b.letter := by
  obtain ⟨first, later, ha, hfirst⟩ := exists_rows_eq_cons a
  obtain ⟨first', later', hb, hfirst'⟩ := exists_rows_eq_cons b
  rw [ha, hb] at h
  rw [(List.cons.inj h).1, hfirst'] at hfirst
  exact (Option.some.inj hfirst).symm

theorem openRow_inj {size size' : Nat} (h : openRow size = openRow size') : size = size' :=
  repr_nat_injective ((String.append_right_inj _).mp h)

theorem openRow_ne_endRow (size : Nat) : openRow size ≠ endRow := by
  intro h
  have hchar := congrArg (·.toList[6]?) h
  rw [openRow, String.toList_append] at hchar
  exact absurd hchar (by simp [endRow])

mutual

/-- The rows of a reply are told from what stands behind them. -/
theorem shownAlike_of_rows : (a b : Reply) → {s t : List String} → a.rows ++ s = b.rows ++ t →
    a.ShownAlike b ∧ s = t
  | .nil, b, _, _, h => by
    cases b with
    | nil => exact ⟨.nil, (List.cons.inj h).2⟩
    | _ => exact absurd (letter_eq h) (by simp [letter])
  | .err text, b, _, _, h => by
    cases b with
    | err other =>
      obtain ⟨hrow, hrest⟩ := List.cons.inj h
      obtain rfl := (String.append_right_inj _).mp hrow
      exact ⟨.err text, hrest⟩
    | _ => exact absurd (letter_eq h) (by simp [letter])
  | .str text, b, _, _, h => by
    cases b with
    | str other =>
      obtain ⟨hrow, hrest⟩ := List.cons.inj h
      obtain rfl := (String.append_right_inj _).mp hrow
      exact ⟨.str text, hrest⟩
    | _ => exact absurd (letter_eq h) (by simp [letter])
  | .int value, b, _, _, h => by
    cases b with
    | int other =>
      obtain ⟨hrow, hrest⟩ := List.cons.inj h
      obtain rfl := toString_int_injective ((String.append_right_inj _).mp hrow)
      exact ⟨.int value, hrest⟩
    | _ => exact absurd (letter_eq h) (by simp [letter])
  | .double x, b, _, _, h => by
    cases b with
    | double y =>
      obtain ⟨hrow, hrest⟩ := List.cons.inj h
      exact ⟨.double ((String.append_right_inj _).mp hrow), hrest⟩
    | _ => exact absurd (letter_eq h) (by simp [letter])
  | .arr items, b, s, t, h => by
    cases b with
    | arr others =>
      obtain ⟨hrow, hrest⟩ := List.cons.inj h
      have hitems : rowsAll items ++ endRow :: s = rowsAll others ++ endRow :: t := by
        simpa using hrest
      obtain ⟨hitems, hend⟩ := forall₂_of_rowsAll items others (openRow_inj hrow) hitems
      exact ⟨.arr hitems, (List.cons.inj hend).2⟩
    | _ => exact absurd (letter_eq h) (by simp [letter])

theorem forall₂_of_rowsAll : (items others : List Reply) → {s t : List String} →
    items.length = others.length → rowsAll items ++ s = rowsAll others ++ t →
    List.Forall₂ ShownAlike items others ∧ s = t
  | [], [], _, _, _, h => ⟨.nil, h⟩
  | a :: items, b :: others, _, _, hlength, h => by
    rw [rowsAll, rowsAll, List.append_assoc, List.append_assoc] at h
    obtain ⟨hfirst, hrest⟩ := shownAlike_of_rows a b h
    obtain ⟨hlater, hfollows⟩ :=
      forall₂_of_rowsAll items others (Nat.succ.inj hlength) hrest
    exact ⟨.cons hfirst hlater, hfollows⟩

end

mutual

theorem ShownAlike.rows_eq : (a b : Reply) → a.ShownAlike b → a.rows = b.rows
  | _, _, .nil => rfl
  | _, _, .err _ => rfl
  | _, _, .str _ => rfl
  | _, _, .int _ => rfl
  | _, _, .double h => by rw [rows, rows, h]
  | .arr items, .arr others, .arr h => by
    rw [rows, rows, h.length_eq, rowsAll_eq items others h]

theorem ShownAlike.rowsAll_eq : (items others : List Reply) → List.Forall₂ ShownAlike items others →
    rowsAll items = rowsAll others
  | [], [], _ => rfl
  | a :: items, b :: others, .cons hfirst hlater => by
    rw [rowsAll, rowsAll, rows_eq a b hfirst, rowsAll_eq items others hlater]

end

/-! ## Arrays among the rows -/

/-- A reply, or a reply in one that it holds. -/
inductive Within (r : Reply) : Reply → Prop where
  | self : Within r r
  | item {item : Reply} {items : List Reply} : item ∈ items → Within r item → Within r (.arr items)

theorem letter_eq_of_openRow {r : Reply} {size : Nat} {later : List String}
    (h : r.rows = openRow size :: later) : r.letter = 'a' := by
  obtain ⟨first, rest, hrows, hletter⟩ := exists_rows_eq_cons r
  rw [hrows] at h
  rw [(List.cons.inj h).1, openRow, String.toList_append] at hletter
  exact (Option.some.inj hletter).symm

/-- A reply that is no array is one row, which opens none. -/
theorem behind_of_leaf {r : Reply} {row : String} (hrows : r.rows = [row]) (hletter : r.letter ≠ 'a')
    {size : Nat} {before after later : List String}
    (h : r.rows ++ later = before ++ openRow size :: after) :
    ∃ between, before = r.rows ++ between ∧ later = between ++ openRow size :: after := by
  rw [hrows] at h ⊢
  cases before with
  | nil =>
    rw [(List.cons.inj h).1] at hrows
    exact absurd (letter_eq_of_openRow hrows) hletter
  | cons first before =>
    obtain ⟨rfl, hlater⟩ := List.cons.inj h
    exact ⟨before, rfl, hlater⟩

mutual

/-- A row that opens an array stands in a reply where one of its arrays begins, or behind it. -/
theorem array_of_openRow {size : Nat} {after : List String} : (r : Reply) →
    {before later : List String} → r.rows ++ later = before ++ openRow size :: after →
    (∃ items rest, items.length = size ∧ Within (.arr items) r ∧
      after = rowsAll items ++ endRow :: rest) ∨
    ∃ between, before = r.rows ++ between ∧ later = between ++ openRow size :: after
  | .nil, _, _, h => .inr (behind_of_leaf rfl (by simp [letter]) h)
  | .err _, _, _, h => .inr (behind_of_leaf rfl (by simp [letter]) h)
  | .str _, _, _, h => .inr (behind_of_leaf rfl (by simp [letter]) h)
  | .int _, _, _, h => .inr (behind_of_leaf rfl (by simp [letter]) h)
  | .double _, _, _, h => .inr (behind_of_leaf rfl (by simp [letter]) h)
  | .arr items, before, later, h => by
    cases before with
    | nil =>
      obtain ⟨hrow, hrest⟩ := List.cons.inj h
      refine .inl ⟨items, later, openRow_inj hrow, .self, ?_⟩
      simpa using hrest.symm
    | cons row before =>
      obtain ⟨rfl, hrest⟩ := List.cons.inj h
      have hitems : rowsAll items ++ endRow :: later = before ++ openRow size :: after := by
        simpa using hrest
      rcases array_of_openRow_items items hitems with
        ⟨item, hitem, found, rest, hsize, hwithin, hafter⟩ | ⟨between, rfl, hbetween⟩
      · exact .inl ⟨found, rest, hsize, .item hitem hwithin, hafter⟩
      · cases between with
        | nil => exact absurd (List.cons.inj hbetween).1.symm (openRow_ne_endRow size)
        | cons row between =>
          obtain ⟨rfl, hlater⟩ := List.cons.inj hbetween
          exact .inr ⟨between, by simp [rows], hlater⟩

theorem array_of_openRow_items {size : Nat} {after : List String} : (items : List Reply) →
    {before later : List String} → rowsAll items ++ later = before ++ openRow size :: after →
    (∃ item ∈ items, ∃ found rest, found.length = size ∧ Within (.arr found) item ∧
      after = rowsAll found ++ endRow :: rest) ∨
    ∃ between, before = rowsAll items ++ between ∧ later = between ++ openRow size :: after
  | [], before, _, h => .inr ⟨before, rfl, h⟩
  | item :: items, before, later, h => by
    rw [rowsAll, List.append_assoc] at h
    rcases array_of_openRow item h with hfound | ⟨between, rfl, hbetween⟩
    · exact .inl ⟨item, List.mem_cons_self, hfound⟩
    · rcases array_of_openRow_items items hbetween with
        ⟨other, hother, hfound⟩ | ⟨between, rfl, hlater⟩
      · exact .inl ⟨other, List.mem_cons_of_mem item hother, hfound⟩
      · exact .inr ⟨between, by rw [rowsAll, List.append_assoc], hlater⟩

end

/-! ## Texts of replies -/

/-- A rendered reply at the start of another one is the whole of it. -/
theorem OnOneLine.render_append_eq {a b : Reply} (ha : a.OnOneLine) (hb : b.OnOneLine)
    (more : String) (h : a.render ++ more = b.render) : a.ShownAlike b ∧ more = "" := by
  have hchars := congrArg String.toList h
  rw [String.toList_append, toList_render, toList_render] at hchars
  obtain ⟨later, hrows, hmore⟩ :=
    exists_of_writtenRows_append (oneLine_rows a ha) (oneLine_rows b hb) hchars
  have hrows : a.rows ++ later = b.rows ++ [] := by rw [List.append_nil, hrows]
  obtain ⟨hshown, rfl⟩ := shownAlike_of_rows a b hrows
  exact ⟨hshown, String.toList_inj.mp hmore⟩

/-- Where a line of a rendered reply opens an array of some size, an array of that size begins. -/
theorem OnOneLine.array_of_line {r : Reply} (hr : r.OnOneLine) {before after : String} {size : Nat}
    (hbefore : before = "" ∨ before.toList.getLast? = some '\n')
    (h : r.render = before ++ "(arr) len=" ++ toString size ++ "\n" ++ after) :
    ∃ items rest, items.length = size ∧ Within (.arr items) r ∧
      after = renderAll items ++ "(arr) end\n" ++ rest := by
  obtain ⟨first, hfirst, hbefore⟩ := exists_writtenRows before.toList
    (hbefore.imp_left fun heq => by rw [heq]; rfl)
  have hchars : writtenRows first ++ ((openRow size).toList ++ '\n' :: after.toList) =
      writtenRows r.rows := by
    rw [← toList_render, h, ← hbefore]
    simp [openRow]
  obtain ⟨later, hrows, hlater⟩ := exists_of_writtenRows_append hfirst (oneLine_rows r hr) hchars
  have hall : ∀ row ∈ later, OneLine row := fun row hrow =>
    oneLine_rows r hr row (by rw [hrows]; exact List.mem_append_right _ hrow)
  cases later with
  | nil => simp [writtenRows] at hlater
  | cons row later =>
    rw [writtenRows_cons] at hlater
    obtain ⟨hrow, hafter⟩ := append_newline_inj (oneLine_openRow size)
      (hall row List.mem_cons_self) hlater
    have hsplit : r.rows ++ [] = first ++ openRow size :: later := by
      rw [List.append_nil, hrows, String.toList_inj.mp hrow]
    rcases array_of_openRow r hsplit with
      ⟨items, rest, hsize, hwithin, hrest⟩ | ⟨between, -, hnone⟩
    · refine ⟨items, String.ofList (writtenRows rest), hsize, hwithin, ?_⟩
      have hlast : writtenRows (endRow :: rest) = writtenRows [endRow] ++ writtenRows rest :=
        writtenRows_append [endRow] rest
      rw [← String.toList_inj, hafter, hrest, String.toList_append, String.toList_append,
        toList_endRow, String.toList_ofList, toList_renderAll, writtenRows_append, hlast,
        List.append_assoc]
    · simp at hnone

end Reply

/-- Replies of texts on one line are rendered the same exactly if they hold the same at the same
places, with doubles told by their digits. None is rendered as the start of another one. And
every line that opens an array is followed by as many rendered items as it says, and then by the
line that ends it. -/
theorem replies_are_rendered_unambiguously {a b : Reply} (ha : a.OnOneLine) (hb : b.OnOneLine) :
    (a.render = b.render ↔ a.ShownAlike b) ∧
    (∀ more, a.render ++ more = b.render → more = "") ∧
    ∀ before size after, (before = "" ∨ before.toList.getLast? = some '\n') →
      a.render = before ++ "(arr) len=" ++ toString size ++ "\n" ++ after →
      ∃ items rest, items.length = size ∧ Reply.Within (.arr items) a ∧
        after = Reply.renderAll items ++ "(arr) end\n" ++ rest := by
  refine ⟨⟨fun h => ?_, fun h => ?_⟩, fun more h => (ha.render_append_eq hb more h).2,
    fun before size after hbefore h => ha.array_of_line hbefore h⟩
  · exact (ha.render_append_eq hb "" (by rw [String.append_empty, h])).1
  · rw [← String.toList_inj, Reply.toList_render, Reply.toList_render, h.rows_eq]

/-- A text that reads like the end of an array does not end it, and values that stand for no number
are shown alike: the first line opens an array of two, and the second one of one. -/
theorem an_end_in_a_text_ends_no_array :
    let a : Reply := .arr [.arr [.str "(arr) end"], .double (.nan false)]
    let b : Reply := .arr [.arr [.str "(arr) end"], .double (.nan true)]
    a.OnOneLine ∧ b.OnOneLine ∧ a ≠ b ∧ a.render = b.render ∧
      (∀ more, a.render ++ more = b.render → more = "") ∧
      ∃ items rest, items.length = 1 ∧ Reply.Within (.arr items) a ∧
        "(str) (arr) end\n(arr) end\n(double) NaN\n(arr) end\n" =
          Reply.renderAll items ++ "(arr) end\n" ++ rest := by
  intro a b
  have hline : OneLine "(arr) end" := by unfold OneLine; decide
  have hinner : (Reply.arr [.str "(arr) end"]).OnOneLine :=
    .arr (List.forall_mem_singleton.mpr (.str hline))
  have ha : a.OnOneLine := .arr (by simp [hinner, Reply.OnOneLine.double])
  have hb : b.OnOneLine := .arr (by simp [hinner, Reply.OnOneLine.double])
  have hne : a ≠ b := by
    have hnan : Binary64.nan false ≠ .nan true := by decide
    simpa [a, b] using hnan
  have hshown : a.ShownAlike b :=
    .arr (.cons (.arr (.cons (.str _) .nil)) (.cons (.double (by decide)) .nil))
  obtain ⟨hiff, hmore, hlines⟩ := replies_are_rendered_unambiguously ha hb
  exact ⟨ha, hb, hne, hiff.mpr hshown, hmore, hlines "(arr) len=2\n" 1 _ (.inr (by decide)) rfl⟩

end Transcript

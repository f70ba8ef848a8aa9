-- Laws of trimming, and of the lines of a text that was written line by line. A line
-- end is one newline, and what stands before it is found again up to outer blanks.
import Mathlib.Data.List.TakeWhile
import Transcript.Text.Blank
import Transcript.Text.Lines

namespace Transcript.Text

/-! ## Trimming -/

theorem trimStart_eq_nil_iff (s : List Char) : trimStart s = [] ↔ ∀ c ∈ s, isBlank c = true :=
  List.dropWhile_eq_nil_iff

theorem trimStart_cons_of_not_blank {c : Char} (h : isBlank c = false) (s : List Char) :
    trimStart (c :: s) = c :: s := by
  simp [trimStart, h]

theorem trimEnd_append_of_not_blank {c : Char} (h : isBlank c = false) (s : List Char) :
    trimEnd (s ++ [c]) = s ++ [c] := by
  simp [trimEnd, h]

theorem trimEnd_append_of_blank {c : Char} (h : isBlank c = true) (s : List Char) :
    trimEnd (s ++ [c]) = trimEnd s := by
  simp [trimEnd, h]

/-- A blank at the end is cut off. -/
theorem trim_append_of_blank {c : Char} (h : isBlank c = true) (s : List Char) :
    trim (s ++ [c]) = trim s := by
  unfold trim
  by_cases hs : trimStart s = []
  · have hsc : trimStart (s ++ [c]) = [] := by
      rw [trimStart_eq_nil_iff] at hs ⊢
      intro x hx
      rcases List.mem_append.mp hx with hx | hx
      · exact hs x hx
      · rw [List.mem_singleton.mp hx]
        exact h
    rw [hs, hsc]
  · have hsc : trimStart (s ++ [c]) = trimStart s ++ [c] := by
      have hne : (trimStart s).isEmpty = false := by simpa using hs
      unfold trimStart at hne ⊢
      rw [List.dropWhile_append, hne]
      rfl
    rw [hsc, trimEnd_append_of_blank h]

/-- A text with no blank at either end is its own trim. -/
theorem trim_eq_self {s : List Char} (hhead : ∀ c ∈ s.head?, isBlank c = false)
    (hlast : ∀ c ∈ s.getLast?, isBlank c = false) : trim s = s := by
  have hstart : trimStart s = s := by
    cases s with
    | nil => rfl
    | cons c rest => exact trimStart_cons_of_not_blank (hhead c rfl) rest
  rw [trim, hstart]
  rcases List.eq_nil_or_concat s with rfl | ⟨init, c, rfl⟩
  · rfl
  · rw [List.concat_eq_append] at hlast ⊢
    exact trimEnd_append_of_not_blank (hlast c (by simp)) init

theorem trim_eq_self_of_ends {s : List Char} {first last : Char} (hhead : s.head? = some first)
    (hlast : s.getLast? = some last) (hfirst : isBlank first = false)
    (hblank : isBlank last = false) : trim s = s := by
  refine trim_eq_self (fun c hc => ?_) fun c hc => ?_
  · rw [hhead, Option.mem_some] at hc
    exact hc ▸ hfirst
  · rw [hlast, Option.mem_some] at hc
    exact hc ▸ hblank

theorem head?_trimStart_not_blank {s : List Char} {c : Char} (h : c ∈ (trimStart s).head?) :
    isBlank c = false := by
  have := List.head?_dropWhile_not isBlank s
  rw [trimStart, Option.mem_def] at h
  simpa [h] using this

theorem getLast?_trim_not_blank {s : List Char} {c : Char} (h : c ∈ (trim s).getLast?) :
    isBlank c = false := by
  rw [trim, trimEnd, List.getLast?_reverse, Option.mem_def] at h
  have := List.head?_dropWhile_not isBlank (trimStart s).reverse
  simpa [h] using this

theorem mem_of_mem_trim {s : List Char} {c : Char} (h : c ∈ trim s) : c ∈ s := by
  rw [trim, trimEnd, List.mem_reverse] at h
  have hstart := List.mem_reverse.mp ((List.dropWhile_sublist _).mem h)
  exact (List.dropWhile_sublist _).mem hstart

theorem trimEnd_prefix (s : List Char) : trimEnd s <+: s := by
  rw [← List.reverse_suffix, trimEnd, List.reverse_reverse]
  exact List.dropWhile_suffix _

theorem head?_trim_not_blank {s : List Char} {c : Char} (h : c ∈ (trim s).head?) :
    isBlank c = false := by
  obtain ⟨rest, hrest⟩ := trimEnd_prefix (trimStart s)
  refine head?_trimStart_not_blank (s := s) (c := c) ?_
  rw [← hrest, List.head?_append]
  rw [Option.mem_def] at h ⊢
  rw [← trim, h]
  rfl

theorem trim_trim (s : List Char) : trim (trim s) = trim s :=
  trim_eq_self (fun _ hc => head?_trim_not_blank hc) fun _ hc => getLast?_trim_not_blank hc

theorem trim_eq_nil_iff (s : List Char) : trim s = [] ↔ ∀ c ∈ s, isBlank c = true := by
  rw [← trimStart_eq_nil_iff]
  unfold trim trimEnd
  rw [List.reverse_eq_nil_iff, List.dropWhile_eq_nil_iff]
  constructor
  · intro h
    rcases hs : trimStart s with _ | ⟨c, rest⟩
    · rfl
    · have hc : isBlank c = false := head?_trimStart_not_blank (s := s) (by rw [hs]; rfl)
      rw [h c (by rw [hs]; simp)] at hc
      cases hc
  · intro h
    simp [h]

/-! ## Lines of any text -/

/-- A piece ends with its only end mark, or it has none. -/
theorem piece_form {α : Type} {isEnd : α → Bool} {s piece : List α}
    (h : piece ∈ piecesAfter isEnd s) :
    ∃ body, (∀ x ∈ body, isEnd x = false) ∧
      (piece = body ∨ ∃ e, isEnd e = true ∧ piece = body ++ [e]) := by
  induction s generalizing piece with
  | nil => simp [piecesAfter] at h
  | cons x rest ih =>
    unfold piecesAfter at h
    by_cases hx : isEnd x = true
    · rw [if_pos hx, List.mem_cons] at h
      rcases h with rfl | h
      · exact ⟨[], by simp, .inr ⟨x, hx, rfl⟩⟩
      · exact ih h
    · rw [if_neg hx] at h
      rw [Bool.not_eq_true] at hx
      rcases hrest : piecesAfter isEnd rest with _ | ⟨first, others⟩
      · rw [hrest, List.mem_singleton] at h
        exact ⟨[x], by simpa using hx, .inl h⟩
      · rw [hrest, List.mem_cons] at h
        rcases h with rfl | h
        · obtain ⟨body, hbody, hform⟩ := ih (hrest ▸ List.mem_cons_self)
          refine ⟨x :: body, List.forall_mem_cons.mpr ⟨hx, hbody⟩, ?_⟩
          rcases hform with rfl | ⟨e, he, rfl⟩
          · exact .inl rfl
          · exact .inr ⟨e, he, rfl⟩
        · exact ih (hrest ▸ List.mem_cons_of_mem first h)

/-- Pieces with more before the first of them. -/
def prepend {α : Type} (front : List α) : List (List α) → List (List α)
  | [] => [front]
  | piece :: pieces => (front ++ piece) :: pieces

theorem getElem?_zero_prepend {α : Type} (front : List α) (pieces : List (List α)) :
    (prepend front pieces)[0]? = some (front ++ (pieces[0]?).getD []) := by
  cases pieces <;> simp [prepend]

theorem getElem?_succ_prepend {α : Type} (front : List α) (pieces : List (List α)) (i : Nat) :
    (prepend front pieces)[i + 1]? = pieces[i + 1]? := by
  cases pieces <;> rfl

theorem piecesAfter_cons_of_isEnd {α : Type} {isEnd : α → Bool} {x : α} (h : isEnd x = true)
    (s : List α) : piecesAfter isEnd (x :: s) = [x] :: piecesAfter isEnd s := by
  rw [piecesAfter, if_pos h]

theorem piecesAfter_cons_of_not_isEnd {α : Type} {isEnd : α → Bool} {x : α}
    (h : isEnd x = false) (s : List α) :
    piecesAfter isEnd (x :: s) = prepend [x] (piecesAfter isEnd s) := by
  rw [piecesAfter, if_neg (by simp [h])]
  cases piecesAfter isEnd s <;> rfl

/-- What holds no end mark goes to the first piece of what follows. -/
theorem piecesAfter_append_of_forall {α : Type} {isEnd : α → Bool} {front : List α}
    (hne : front ≠ []) (h : ∀ x ∈ front, isEnd x = false) (s : List α) :
    piecesAfter isEnd (front ++ s) = prepend front (piecesAfter isEnd s) := by
  induction front with
  | nil => contradiction
  | cons x front ih =>
    rw [List.cons_append, piecesAfter_cons_of_not_isEnd (h x List.mem_cons_self)]
    rcases front with _ | ⟨y, front⟩
    · rfl
    · rw [ih (List.cons_ne_nil y front) fun z hz => h z (List.mem_cons_of_mem x hz)]
      cases piecesAfter isEnd s <;> rfl

theorem piecesAfter_of_forall {α : Type} {isEnd : α → Bool} {xs : List α} (hne : xs ≠ [])
    (hxs : ∀ x ∈ xs, isEnd x = false) : piecesAfter isEnd xs = [xs] := by
  have happend := piecesAfter_append_of_forall hne hxs []
  rwa [List.append_nil] at happend

/-- The first piece starts as the text does. -/
theorem head?_piecesAfter {α : Type} (isEnd : α → Bool) (s : List α) :
    (piecesAfter isEnd s)[0]?.bind List.head? = s.head? := by
  cases s with
  | nil => rfl
  | cons x s =>
    cases h : isEnd x with
    | true =>
      rw [piecesAfter_cons_of_isEnd h]
      rfl
    | false =>
      rw [piecesAfter_cons_of_not_isEnd h]
      cases piecesAfter isEnd s <;> rfl

theorem nil_not_mem_piecesAfter {α : Type} (isEnd : α → Bool) (s : List α) :
    [] ∉ piecesAfter isEnd s := by
  induction s with
  | nil => exact List.not_mem_nil
  | cons x s ih =>
    cases h : isEnd x with
    | true =>
      rw [piecesAfter_cons_of_isEnd h]
      simpa using ih
    | false =>
      rw [piecesAfter_cons_of_not_isEnd h]
      rcases hs : piecesAfter isEnd s with _ | ⟨piece, pieces⟩
      · simp [prepend]
      · rw [hs] at ih
        simpa [prepend] using fun hmem => ih (List.mem_cons_of_mem piece hmem)

theorem dropLineEnd_of_not_mem {cs : List Char} (h : '\n' ∉ cs) : dropLineEnd cs = cs := by
  unfold dropLineEnd
  rw [← List.mem_reverse] at h
  split
  · rename_i hrev
    simp [hrev] at h
  · rename_i hrev
    simp [hrev] at h
  · rfl

theorem mem_of_mem_dropLineEnd {piece : List Char} {c : Char} (h : c ∈ dropLineEnd piece) :
    c ∈ piece := by
  unfold dropLineEnd at h
  split at h
  · rename_i rest hrev
    rw [← List.mem_reverse, hrev]
    simp [List.mem_reverse.mp h]
  · rename_i rest hrev
    rw [← List.mem_reverse, hrev]
    simp [List.mem_reverse.mp h]
  · exact h

/-- A line has no newline in it. -/
theorem not_mem_of_mem_lines {s line : List Char} (h : line ∈ lines s) : '\n' ∉ line := by
  obtain ⟨piece, hpiece, rfl⟩ := List.mem_map.mp h
  obtain ⟨body, hbody, hform⟩ := piece_form hpiece
  have hnot : '\n' ∉ body := fun hmem => absurd (hbody _ hmem) (by decide)
  rcases hform with rfl | ⟨e, he, rfl⟩
  · exact fun hmem => hnot (mem_of_mem_dropLineEnd hmem)
  · obtain rfl : e = '\n' := by simpa using he
    unfold dropLineEnd
    rw [List.reverse_append, List.reverse_singleton, List.singleton_append]
    split
    · rename_i rest hrev
      obtain ⟨-, hrev⟩ := List.cons.inj hrev
      intro hmem
      refine hnot ?_
      rw [← List.mem_reverse, hrev]
      simp [List.mem_reverse.mp hmem]
    · rename_i rest _ hrev
      obtain ⟨-, hrev⟩ := List.cons.inj hrev
      rw [← hrev, List.reverse_reverse]
      exact hnot
    · rename_i hno
      exact absurd rfl (hno _)

/-! ## Lines of a written text -/

theorem piecesAfter_append_of_isEnd {α : Type} {isEnd : α → Bool} {xs : List α} {e : α}
    (hxs : ∀ x ∈ xs, isEnd x = false) (he : isEnd e = true) (rest : List α) :
    piecesAfter isEnd (xs ++ e :: rest) = (xs ++ [e]) :: piecesAfter isEnd rest := by
  induction xs with
  | nil => simp [piecesAfter, he]
  | cons x xs ih =>
    have hx : isEnd x = false := hxs x List.mem_cons_self
    have hrest := ih fun y hy => hxs y (List.mem_cons_of_mem x hy)
    simp [piecesAfter, hx, hrest]

theorem pieces_append_newline {line : List Char} (h : '\n' ∉ line) (rest : List Char) :
    pieces (line ++ '\n' :: rest) = (line ++ ['\n']) :: pieces rest := by
  refine piecesAfter_append_of_isEnd (fun c hc => ?_) (by decide) rest
  rw [beq_eq_false_iff_ne]
  exact fun hcn => h (hcn ▸ hc)

/-- Dropping a line end drops at most a blank more than the newline. -/
theorem trim_dropLineEnd (line : List Char) : trim (dropLineEnd (line ++ ['\n'])) = trim line := by
  rcases List.eq_nil_or_concat line with rfl | ⟨init, c, rfl⟩
  · rfl
  · by_cases hc : c = '\r'
    · subst hc
      rw [List.concat_eq_append, trim_append_of_blank (by decide)]
      simp [dropLineEnd]
    · simp [dropLineEnd, hc]

/-- Lines written with a newline after each are read again, up to outer blanks. -/
theorem map_trim_lines_flatMap {ls : List (List Char)} (h : ∀ l ∈ ls, '\n' ∉ l) :
    (lines (ls.flatMap (· ++ ['\n']))).map trim = ls.map trim := by
  induction ls with
  | nil => rfl
  | cons l ls ih =>
    have hl : '\n' ∉ l := h l List.mem_cons_self
    have hls := ih fun x hx => h x (List.mem_cons_of_mem l hx)
    unfold lines at hls ⊢
    rw [List.flatMap_cons, List.append_assoc, List.singleton_append, pieces_append_newline hl,
      List.map_cons, List.map_cons, List.map_cons, trim_dropLineEnd, hls]

/-! ## Texts one behind the other -/

theorem piecesAfter_ne_nil {α : Type} {isEnd : α → Bool} {s : List α} (h : s ≠ []) :
    piecesAfter isEnd s ≠ [] := by
  intro hnil
  have hflatten := flatten_piecesAfter isEnd s
  rw [hnil] at hflatten
  exact h hflatten.symm

/-- Behind an end mark the pieces start anew. -/
theorem piecesAfter_append {α : Type} {isEnd : α → Bool} {s : List α}
    (h : ∀ x ∈ s.getLast?, isEnd x = true) (t : List α) :
    piecesAfter isEnd (s ++ t) = piecesAfter isEnd s ++ piecesAfter isEnd t := by
  induction s with
  | nil => rfl
  | cons x s ih =>
    by_cases hs : s = []
    · subst hs
      have hx : isEnd x = true := h x rfl
      rw [List.singleton_append, piecesAfter_cons_of_isEnd hx, piecesAfter_cons_of_isEnd hx]
      rfl
    · rw [List.getLast?_cons_of_ne_nil hs] at h
      rw [List.cons_append]
      cases hx : isEnd x with
      | true =>
        rw [piecesAfter_cons_of_isEnd hx, piecesAfter_cons_of_isEnd hx, ih h]
        rfl
      | false =>
        obtain ⟨piece, pieces, hpieces⟩ := List.exists_cons_of_ne_nil (piecesAfter_ne_nil hs)
        rw [piecesAfter_cons_of_not_isEnd hx, piecesAfter_cons_of_not_isEnd hx, ih h, hpieces]
        rfl

/-- The last pieces of a text are the pieces of what they are together. -/
theorem piecesAfter_flatten_of_suffix {α : Type} {isEnd : α → Bool} {s : List α}
    {last : List (List α)} (h : last <:+ piecesAfter isEnd s) :
    piecesAfter isEnd last.flatten = last := by
  induction s with
  | nil =>
    rw [List.suffix_nil.mp h]
    rfl
  | cons x s ih =>
    by_cases hall : last = piecesAfter isEnd (x :: s)
    · rw [hall, flatten_piecesAfter]
    · refine ih ?_
      cases hx : isEnd x with
      | true =>
        rw [piecesAfter_cons_of_isEnd hx] at h hall
        exact (List.suffix_cons_iff.mp h).resolve_left hall
      | false =>
        rw [piecesAfter_cons_of_not_isEnd hx] at h hall
        cases hs : piecesAfter isEnd s with
        | nil =>
          rw [hs] at h hall
          exact (List.suffix_cons_iff.mp h).resolve_left hall
        | cons piece pieces =>
          rw [hs] at h hall
          have htail := (List.suffix_cons_iff.mp h).resolve_left hall
          exact htail.trans (List.suffix_cons piece pieces)

/-- A text without a line that is under way: it is empty, or ends in a newline. -/
def IsComplete (s : List Char) : Prop := ∀ c ∈ s.getLast?, c = '\n'

instance (s : List Char) : Decidable (IsComplete s) :=
  decidable_of_iff (s.getLast?.all (· = '\n') = true) <| by
    unfold IsComplete
    cases s.getLast? <;> simp

/-- The lines of what stands behind a complete text are lines of their own. -/
theorem IsComplete.lines_append {s : List Char} (h : IsComplete s) (t : List Char) :
    lines (s ++ t) = lines s ++ lines t := by
  have hends : ∀ c ∈ s.getLast?, (c == '\n') = true := fun c hc => beq_iff_eq.mpr (h c hc)
  rw [lines, pieces, piecesAfter_append hends, List.map_append]
  rfl

/-- A line and the piece of the text that it was are the same but for blanks. -/
theorem trim_dropLineEnd_of_mem {s piece : List Char} (h : piece ∈ pieces s) :
    trim (dropLineEnd piece) = trim piece := by
  obtain ⟨body, hbody, rfl | ⟨c, hc, rfl⟩⟩ := piece_form h
  · rw [dropLineEnd_of_not_mem fun hmem => absurd (hbody _ hmem) (by decide)]
  · obtain rfl : c = '\n' := beq_iff_eq.mp hc
    rw [trim_dropLineEnd, trim_append_of_blank (by decide)]

theorem map_trim_lines (s : List Char) : (lines s).map trim = (pieces s).map trim := by
  rw [lines, List.map_map]
  exact List.map_congr_left fun _ hpiece => trim_dropLineEnd_of_mem hpiece

end Transcript.Text

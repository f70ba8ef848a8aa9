-- A text cut after each of its line ends, and the lines without their ends.

namespace Transcript.Text

/-! ## Pieces -/

/-- The pieces of a sequence, each up to and with its own end mark; the last
piece may have none. The pieces together are the sequence. -/
def piecesAfter {α : Type} (isEnd : α → Bool) : List α → List (List α)
  | [] => []
  | c :: rest =>
    if isEnd c then [c] :: piecesAfter isEnd rest
    else
      match piecesAfter isEnd rest with
      | [] => [[c]]
      | piece :: pieces => (c :: piece) :: pieces

theorem flatten_piecesAfter {α : Type} (isEnd : α → Bool) (s : List α) :
    (piecesAfter isEnd s).flatten = s := by
  induction s with
  | nil => rfl
  | cons c rest ih =>
    unfold piecesAfter
    split
    · simp [ih]
    · split
      · rename_i h
        rw [h] at ih
        simp_all
      · rename_i piece pieces h
        rw [h] at ih
        simp_all

/-- The pieces of a text, each with the newline that ends it. -/
def pieces (s : List Char) : List (List Char) := piecesAfter (· == '\n') s

/-! ## Lines -/

/-- A piece without its newline, and without a carriage return before that newline. -/
def dropLineEnd (piece : List Char) : List Char :=
  match piece.reverse with
  | '\n' :: '\r' :: rest => rest.reverse
  | '\n' :: rest => rest.reverse
  | _ => piece

/-- The lines of a text. A text that ends in a newline has no empty line after it. -/
def lines (s : List Char) : List (List Char) := (pieces s).map dropLineEnd

end Transcript.Text

-- Connections only frame lines. Whatever bytes come on a connection, each of its lines is
-- answered by one line, in the store that was left by the lines before it on this connection
-- and on those before; so lines get the same answers however they are divided among
-- connections.
import Transcript.Proofs.SortedSet.Wire
import Transcript.SortedSet.Session

namespace Transcript.Wire

/-! ## Replies -/

/-- The replies to lines: to a list of strings as the store handles it, and to any other line a
refusal that leaves the store as it is. -/
inductive Replies : Store → List String → List Reply → Store → Prop where
  | nil {store : Store} : Replies store [] [] store
  | request {store final : Store} {line : String} {words : List String} {lines : List String}
      {replies : List Reply} : Json.IsStringList words line.toList →
      Replies (store.handle words).2 lines replies final →
      Replies store (line :: lines) ((store.handle words).1 :: replies) final
  | refused {store final : Store} {line reason : String} {lines : List String}
      {replies : List Reply} : (∀ words, ¬ Json.IsStringList words line.toList) →
      Json.strings line = .error reason → Replies store lines replies final →
      Replies store (line :: lines) (.err ("bad request: " ++ reason) :: replies) final

theorem Replies.answerLines_eq {store final : Store} {lines : List String}
    {replies : List Reply} (h : Replies store lines replies final) :
    answerLines store lines = (replies, final) := by
  induction h with
  | nil => rfl
  | request hwords _ ih =>
    rw [answerLines, answerLine, Json.strings_eq_ok_iff.mpr hwords]
    simp only [ih]
  | refused _ hreason _ ih =>
    rw [answerLines, answerLine, hreason]
    simp only [ih]

/-- Lines have replies, whatever they are. -/
theorem exists_replies (store : Store) (lines : List String) :
    ∃ replies final, Replies store lines replies final := by
  induction lines generalizing store with
  | nil => exact ⟨[], store, .nil⟩
  | cons line lines ih =>
    rcases hread : Json.strings line with reason | words
    · obtain ⟨replies, final, hreplies⟩ := ih store
      exact ⟨_, final, .refused (Json.not_isStringList hread) hread hreplies⟩
    · obtain ⟨replies, final, hreplies⟩ := ih (store.handle words).2
      exact ⟨_, final, .request (Json.strings_eq_ok_iff.mp hread) hreplies⟩

/-- Lines have no other replies. -/
theorem Replies.unique {store final final' : Store} {lines : List String}
    {replies replies' : List Reply} (h : Replies store lines replies final)
    (h' : Replies store lines replies' final') : replies = replies' ∧ final = final' :=
  Prod.mk.inj (h.answerLines_eq.symm.trans h'.answerLines_eq)

theorem Replies.length_eq {store final : Store} {lines : List String} {replies : List Reply}
    (h : Replies store lines replies final) : replies.length = lines.length := by
  induction h with
  | nil => rfl
  | request _ _ ih => exact congrArg Nat.succ ih
  | refused _ _ _ ih => exact congrArg Nat.succ ih

theorem Replies.append {store middle final : Store} {lines lines' : List String}
    {replies replies' : List Reply} (h : Replies store lines replies middle)
    (h' : Replies middle lines' replies' final) :
    Replies store (lines ++ lines') (replies ++ replies') final := by
  induction h with
  | nil => exact h'
  | request hwords _ ih => exact .request hwords (ih h')
  | refused hnot hreason _ ih => exact .refused hnot hreason (ih h')

/-! ## Lines of replies -/

/-- A reply is written up to the brace that ends it. -/
theorem getLast?_replyLine (reply : Reply) : (replyLine reply).toList.getLast? = some '\x7d' := by
  rw [replyLine, Json.compact, String.toList_ofList]
  have hbrace : ∀ cs, ('\x7b' :: (cs ++ ['\x7d'])).getLast? = some '\x7d' := by
    intro cs
    rw [← List.cons_append, List.getLast?_concat]
  cases reply <;> exact hbrace _

/-- The bytes that answer lines with these replies. -/
def replyBytes (replies : List Reply) : List UInt8 := sentLines (replies.map replyLine)

/-- Replies are answered in as many lines. -/
theorem lines_replyBytes (replies : List Reply) :
    Lines (replyBytes replies) (replies.map replyLine) := by
  refine lines_sentLines fun line hline => ?_
  obtain ⟨reply, -, rfl⟩ := List.mem_map.mp hline
  refine ⟨newline_not_mem_replyLine reply, ?_⟩
  rw [getLast?_replyLine]
  decide

theorem flatten_map_replyBytes (answers : List (List Reply)) :
    (answers.map replyBytes).flatten = replyBytes answers.flatten := by
  induction answers with
  | nil => rfl
  | cons replies answers ih =>
    rw [List.map_cons, List.flatten_cons, ih, List.flatten_cons]
    simp [replyBytes, sentLines]

/-! ## Connections -/

theorem Lines.serveConnection_eq {store final : Store} {sent : List UInt8} {lines : List String}
    {replies : List Reply} (h : Lines sent lines) (hreplies : Replies store lines replies final) :
    serveConnection store sent = (replyBytes replies, final) := by
  rw [serveConnection, h.received, hreplies.answerLines_eq]
  rfl

/-- The connections are answered line by line, in the store that the lines before left. -/
theorem exists_answers {connections : List (List UInt8)} {lines : List (List String)}
    (h : List.Forall₂ Lines connections lines) (store : Store) :
    ∃ (answers : List (List Reply)) (final : Store),
      Replies store lines.flatten answers.flatten final ∧
      answers.map List.length = lines.map List.length ∧
      serveAll store connections = (answers.map replyBytes, final) ∧
      ∀ later, session store (connections.map .bytes ++ later) =
        answers.map (fun replies => .bytes (replyBytes replies)) ++ session final later := by
  induction h generalizing store with
  | nil => exact ⟨[], store, .nil, rfl, rfl, fun later => rfl⟩
  | cons hlines _ ih =>
    obtain ⟨replies, middle, hreplies⟩ := exists_replies store _
    obtain ⟨answers, final, hanswers, hlength, hserve, hsession⟩ := ih middle
    have hfirst := hlines.serveConnection_eq hreplies
    refine ⟨replies :: answers, final, hreplies.append hanswers, ?_, ?_, fun later => ?_⟩
    · rw [List.map_cons, List.map_cons, hreplies.length_eq, hlength]
    · rw [serveAll, hfirst]
      simp only [hserve]
      rfl
    · rw [List.map_cons, List.cons_append, session, visit, hfirst]
      simp only [hsession later]
      rfl

/-- Connections are only framing. The bytes of a connection have their lines and no others. The
lines of connections one after the other are each answered by one line on their connection, in
the store that all the lines before left, and what comes later finds the store that the last one
left. So the same lines in the same order get the same bytes and leave the same store, on
whatever connections they come. -/
theorem connections_are_only_framing :
    (∀ sent, ∃! lines, Lines sent lines) ∧
    (∀ store connections lines, List.Forall₂ Lines connections lines →
      ∃ (answers : List (List Reply)) (final : Store),
      Replies store lines.flatten answers.flatten final ∧
      answers.map List.length = lines.map List.length ∧
      (∀ replies ∈ answers, Lines (replyBytes replies) (replies.map replyLine)) ∧
      serveAll store connections = (answers.map replyBytes, final) ∧
      ∀ later, session store (connections.map .bytes ++ later) =
        answers.map (fun replies => .bytes (replyBytes replies)) ++ session final later) ∧
    ∀ store lines, ∃ replies final, Replies store lines replies final ∧
      ∀ connections framed, List.Forall₂ Lines connections framed → framed.flatten = lines →
        (serveAll store connections).1.flatten = replyBytes replies ∧
        (serveAll store connections).2 = final := by
  refine ⟨fun sent => ?_, fun store connections lines h => ?_, fun store lines => ?_⟩
  · obtain ⟨lines, hlines⟩ := exists_lines sent
    exact ⟨lines, hlines, fun others hothers => hothers.received.symm.trans hlines.received⟩
  · obtain ⟨answers, final, hreplies, hlength, hserve, hsession⟩ := exists_answers h store
    exact ⟨answers, final, hreplies, hlength, fun replies _ => lines_replyBytes replies, hserve,
      hsession⟩
  · obtain ⟨replies, final, hreplies⟩ := exists_replies store lines
    refine ⟨replies, final, hreplies, fun connections framed h hframed => ?_⟩
    obtain ⟨answers, final', hanswers, -, hserve, -⟩ := exists_answers h store
    rw [hframed] at hanswers
    obtain ⟨rfl, rfl⟩ := hreplies.unique hanswers
    rw [hserve, flatten_map_replyBytes]
    exact ⟨rfl, rfl⟩

/-- A line that is no list is refused, and bytes that are no text end their connection and not
the store: three lines get the same bytes on two connections, the first of them broken after two
lines, and on one. -/
theorem a_broken_connection_and_a_whole_one :
    let added := "[\"zadd\",\"k\",\"1\",\"a\"]"
    let plain := "zadd k 2 b"
    let asked := " [ \"zscore\" , \"k\" , \"\\u0061\" ]"
    let broken := Text.utf8 (added ++ "\r\n" ++ plain ++ "\n").toList ++ 255 :: sentLines [added]
    let replies : List Reply := [.int 1,
      .err "bad request: expected value at line 1 column 1", .double (.ofRatio false 1 1)]
    ∃ final, Replies Store.empty [added, plain, asked] replies final ∧
      (serveAll Store.empty [broken, Text.utf8 asked.toList]).1.flatten = replyBytes replies ∧
      (serveAll Store.empty [broken, Text.utf8 asked.toList]).2 = final ∧
      (serveAll Store.empty [sentLines [added, plain, asked]]).1.flatten = replyBytes replies ∧
      (serveAll Store.empty [sentLines [added, plain, asked]]).2 = final := by
  intro added plain asked broken replies
  have hadded : Json.IsStringList ["zadd", "k", "1", "a"] added.toList :=
    Json.strings_eq_ok_iff.mp (by decide +kernel)
  have hplain : Json.strings plain = .error "expected value at line 1 column 1" := by
    decide +kernel
  have hasked : Json.IsStringList ["zscore", "k", "a"] asked.toList :=
    Json.strings_eq_ok_iff.mp (by decide +kernel)
  have hreplies : Replies Store.empty [added, plain, asked] replies _ :=
    .request hadded (.refused (Json.not_isStringList hplain) hplain (.request hasked .nil))
  obtain ⟨-, -, hsame⟩ := connections_are_only_framing
  obtain ⟨found, final, hfound, hall⟩ := hsame Store.empty [added, plain, asked]
  obtain ⟨rfl, -⟩ := hfound.unique hreplies
  have hbroken : Lines broken [added, plain] := lines_iff.mpr (by decide +kernel)
  have hlast : Lines (Text.utf8 asked.toList) [asked] := lines_iff.mpr (by decide +kernel)
  have hwhole : Lines (sentLines [added, plain, asked]) [added, plain, asked] :=
    lines_iff.mpr (by decide +kernel)
  obtain ⟨hbytes, hstore⟩ := hall _ _ (.cons hbroken (.cons hlast .nil)) rfl
  obtain ⟨hbytes', hstore'⟩ := hall _ _ (.cons hwhole .nil) rfl
  exact ⟨final, hfound, hbytes, hstore, hbytes', hstore'⟩

end Transcript.Wire

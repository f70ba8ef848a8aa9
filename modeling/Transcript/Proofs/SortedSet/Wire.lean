-- Both directions of a connection. The server handles the requests that were sent, with every
-- character of their words, and a client finds on the first line that comes back the reply
-- that was sent there, or a fault where a double of it has no digits.
import Transcript.Proofs.SortedSet.Framing
import Transcript.Proofs.SortedSet.Indexes
import Transcript.Proofs.SortedSet.Replies
import Transcript.SortedSet.Program

namespace Transcript

namespace Wire

open Json

/-! ## Requests -/

theorem newline_not_mem_requestLine (words : List String) :
    '\n' ∉ (requestLine words).toList := newline_not_mem_compact _

theorem newline_not_mem_replyLine (reply : Reply) : '\n' ∉ (replyLine reply).toList :=
  newline_not_mem_compact _

/-- Lines are cut off the front one by one. -/
theorem piecesAfter_sentLines_cons {line : String} (h : '\n' ∉ line.toList)
    (rest : List String) : Text.piecesAfter (· == 10) (sentLines (line :: rest)) =
      Text.utf8 (line.toList ++ ['\n']) :: Text.piecesAfter (· == 10) (sentLines rest) := by
  rw [sentLines, List.flatMap_cons, List.append_assoc, List.singleton_append, ← sentLines]
  exact Text.piecesAfter_utf8_append h _

/-- A request is written up to the bracket that ends it. -/
theorem getLast?_requestLine (words : List String) :
    (requestLine words).toList.getLast? = some ']' := by
  rw [requestLine, compact, String.toList_ofList, compactChars, ← List.cons_append,
    List.getLast?_concat]

theorem receivedLines_requestLines (requests : List (List String)) :
    receivedLines (Text.piecesAfter (· == 10) (sentLines (requests.map requestLine))) =
      requests.map requestLine := by
  refine (lines_sentLines fun line hline => ?_).received
  obtain ⟨words, -, rfl⟩ := List.mem_map.mp hline
  refine ⟨newline_not_mem_requestLine words, ?_⟩
  rw [getLast?_requestLine]
  decide

theorem answerLine_requestLine (store : Store) (words : List String) :
    answerLine store (requestLine words) = store.handle words := by
  rw [answerLine, requestLine, strings_compact]

theorem answerLines_requestLines (store : Store) (requests : List (List String)) :
    answerLines store (requests.map requestLine) = store.handleAll requests := by
  induction requests generalizing store with
  | nil => rfl
  | cons words rest ih =>
    rw [List.map_cons, answerLines, answerLine_requestLine]
    simp only [ih]
    rfl

/-- The server handles the requests of a connection as they were sent. -/
theorem serveConnection_requestLines (store : Store) (requests : List (List String)) :
    serveConnection store (sentLines (requests.map requestLine)) =
      (sentLines ((store.handleAll requests).1.map replyLine), (store.handleAll requests).2) := by
  rw [serveConnection, receivedLines_requestLines, answerLines_requestLines]

/-! ## Replies -/

theorem toOption_mapError {ε δ α : Type} (x : Except ε α) (f : ε → δ) :
    (x.mapError f).toOption = x.toOption := by
  cases x <;> rfl

theorem eq_ok_of_toOption {ε α : Type} {x : Except ε α} {a : α} (h : x.toOption = some a) :
    x = .ok a := by
  cases x with
  | error e => cases h
  | ok b => rw [Option.some.inj h]

theorem exists_error_of_toOption {ε α : Type} {x : Except ε α} (h : x.toOption = none) :
    ∃ e, x = .error e := by
  cases x with
  | error e => exact ⟨e, rfl⟩
  | ok b => cases h

/-- A line is a reply where the reader finds one and leaves nothing but blanks. -/
theorem toOption_parseReply (line : String) : (parseReply line).toOption =
    (readReply nestingLimit line.toList).found?.bind fun (reply, rest) =>
      if skipSpace rest = [] then some reply else none := by
  rw [parseReply, toOption_mapError]
  rcases readReply nestingLimit line.toList with f | ⟨reply, rest⟩
  · rfl
  · rcases hrest : skipSpace rest with _ | ⟨c, rest⟩
    · simp only [hrest, Reading.found?, Option.bind_some]
      rfl
    · simp only [hrest, Reading.found?, Option.bind_some]
      rfl

/-- A client reads the reply on the first line as it is read by itself. -/
theorem toOption_receiveReply {reply : Reply} (hfits : Fits reply)
    (hdepth : reply.depth ≤ nestingLimit) (later : List String) :
    (receiveReply (sentLines (replyLine reply :: later))).toOption = reply.received? := by
  have hread := settles_readReply reply hfits nestingLimit hdepth ['\n']
    (endsNumber_cons (by decide) [])
  have hline : (replyLine reply).toList = compactChars reply.toJson := String.toList_ofList
  rw [receiveReply, piecesAfter_sentLines_cons (newline_not_mem_replyLine reply)]
  simp only [Text.decodeUtf8_utf8]
  rw [toOption_parseReply, String.toList_ofList, hline, hread]
  cases reply.received? <;> rfl

/-! ## Replies that are sent -/

/-- What a server sends: the answer of a store to a request, or what is wrong with a line. -/
inductive IsSent : Reply → Prop where
  | answer (store : Store) (words : List String) : IsSent (store.handle words).1
  | refusal (reason : String) : IsSent (.err ("bad request: " ++ reason))

/-- The forms of the answers of a store. -/
theorem answer_forms (store : Store) (request : Store.Request) :
    (∃ b, (store.answer request).1 = Store.flag b) ∨
    (∃ members, (store.answer request).1 = Store.page members) ∨
    (∃ score, (store.answer request).1 = .double score) ∨
    (store.answer request).1 = .nil ∨ ∃ reason, (store.answer request).1 = .err reason := by
  cases request with
  | add key score name => exact .inl ⟨_, rfl⟩
  | remove key name =>
    rw [Store.answer]
    split <;> exact .inl ⟨_, rfl⟩
  | lookup key name =>
    rw [Store.answer]
    split
    · exact .inr (.inr (.inl ⟨_, rfl⟩))
    · exact .inr (.inr (.inr (.inl rfl)))
  | query key place offset limit =>
    rw [Store.answer]
    split <;> exact .inr (.inl ⟨_, rfl⟩)
  | refused reason => exact .inr (.inr (.inr (.inr ⟨_, rfl⟩)))

/-- The items of a page are names and scores. -/
theorem mem_page {members : List Member} {r : Reply}
    (h : r ∈ members.flatMap fun m => [Reply.str m.name, .double m.score]) :
    (∃ name, r = .str name) ∨ ∃ score, r = .double score := by
  obtain ⟨m, -, hm⟩ := List.mem_flatMap.mp h
  rcases List.mem_pair.mp hm with rfl | rfl
  · exact .inl ⟨_, rfl⟩
  · exact .inr ⟨_, rfl⟩

theorem fits_page (members : List Member) : Fits (Store.page members) := by
  intro n hn
  obtain ⟨r, hr, hleaf⟩ := Reply.mem_leavesAll.mp hn
  rcases mem_page hr with ⟨name, rfl⟩ | ⟨score, rfl⟩ <;> simp [Reply.leaves] at hleaf

theorem depth_page (members : List Member) : (Store.page members).depth ≤ 1 := by
  refine Nat.succ_le_succ (Reply.depthAll_le_iff.mpr fun r hr => ?_)
  rcases mem_page hr with ⟨name, rfl⟩ | ⟨score, rfl⟩ <;> exact Nat.le_refl 0

/-- A client's reader is made for all that is sent. -/
theorem IsSent.fits {reply : Reply} (h : IsSent reply) :
    Fits reply ∧ reply.depth ≤ nestingLimit := by
  cases h with
  | answer store words =>
    rw [Store.handle]
    rcases answer_forms store (.ofWords words) with
      ⟨b, h⟩ | ⟨members, h⟩ | ⟨score, h⟩ | h | ⟨reason, h⟩
    · rw [h]
      refine ⟨fun n hn => ?_, Nat.zero_le _⟩
      obtain rfl : n = if b then 1 else 0 := by simpa [Store.flag, Reply.leaves] using hn
      cases b <;> decide
    · rw [h]
      exact ⟨fits_page members, Nat.le_trans (depth_page members) (by decide)⟩
    all_goals
      rw [h]
      exact ⟨fun n hn => by simp [Reply.leaves] at hn, Nat.zero_le _⟩
  | refusal reason => exact ⟨fun n hn => by simp [Reply.leaves] at hn, Nat.zero_le _⟩

/-! ## Both directions -/

/-- What a client makes of the answer to its request, and the store after it. -/
theorem toOption_exchange (store : Store) (words : List String) :
    ((SetProgram.exchange store words).1.toOption, (SetProgram.exchange store words).2) =
      ((store.handle words).1.received?, (store.handle words).2) := by
  obtain ⟨hfits, hdepth⟩ := (IsSent.answer store words).fits
  have hserve := serveConnection_requestLines store [words]
  have hreceive := toOption_receiveReply hfits hdepth []
  rw [List.map_singleton] at hserve
  rw [SetProgram.exchange, SetProgram.requestBytes, hserve, ← hreceive]
  rfl

/-- Requests and replies stand on one line each. The server decodes the words that were sent
and handles them, and a client decodes the reply that was sent if the doubles in it are finite
and read back, and no reply if one of them is not finite. -/
theorem the_wire_carries_requests_and_replies :
    (∀ words, '\n' ∉ (requestLine words).toList ∧ Json.strings (requestLine words) = .ok words) ∧
    (∀ store requests, serveConnection store (sentLines (requests.map requestLine)) =
      (sentLines ((store.handleAll requests).1.map replyLine), (store.handleAll requests).2)) ∧
    ∀ reply, IsSent reply → ∀ later,
      '\n' ∉ (replyLine reply).toList ∧
      ((∀ x, .double x ∈ reply.leaves → x.isFinite ∧ x.ReadsBack) →
        receiveReply (sentLines (replyLine reply :: later)) = .ok reply) ∧
      ((∃ x, .double x ∈ reply.leaves ∧ x.isFinite = false) →
        ∃ reason, receiveReply (sentLines (replyLine reply :: later)) = .error reason) := by
  refine ⟨fun words => ⟨newline_not_mem_requestLine words, strings_compact words⟩,
    serveConnection_requestLines, fun reply hsent later => ?_⟩
  obtain ⟨hfits, hdepth⟩ := hsent.fits
  have hreceived := toOption_receiveReply hfits hdepth later
  refine ⟨newline_not_mem_replyLine reply, fun hdoubles => ?_, fun ⟨x, hx, hnot⟩ => ?_⟩
  · rw [Reply.received?_eq_some reply fun x hx => (hdoubles x hx).2.received?] at hreceived
    exact eq_ok_of_toOption hreceived
  · rw [Reply.received?_eq_none (received?_of_not_finite hnot) reply hx] at hreceived
    exact exists_error_of_toOption hreceived

/-- A page of scores that read back, one of them a minus zero, reaches the client as it was
sent, and the score of a member that is no number does not reach it. -/
theorem a_page_is_carried_and_no_number_is_not :
    let history := [["zadd", "z", "1.5", "n\n"], ["zadd", "z", "-0", "\"m\""],
      ["zadd", "x", "nan", "n"]]
    let store := (Store.empty.handleAll history).2
    let page : Reply :=
      .arr [.str "\"m\"", .double (.zero true), .str "n\n", .double (.ofRatio false 3 2)]
    receiveReply (sentLines [replyLine (store.handle ["zquery", "z", "-1", "", "0", "10"]).1]) =
        .ok page ∧
      ∃ reason, receiveReply (sentLines [replyLine (store.handle ["zscore", "x", "n"]).1]) =
        .error reason := by
  intro history store page
  obtain ⟨-, -, hreplies⟩ := the_wire_carries_requests_and_replies
  obtain ⟨-, hpage, -⟩ := hreplies _ (.answer store ["zquery", "z", "-1", "", "0", "10"]) []
  obtain ⟨-, -, hscore⟩ := hreplies _ (.answer store ["zscore", "x", "n"]) []
  refine ⟨hpage fun x hx => ?_, hscore ⟨.nan false, List.mem_singleton.mpr rfl, by decide⟩⟩
  have hleaves : .double x ∈ page.leaves := hx
  have hx : x = .zero true ∨ x = .ofRatio false 3 2 := by
    simpa [page, Reply.leaves, Reply.leavesAll] using hleaves
  unfold Binary64.ReadsBack
  rcases hx with rfl | rfl <;> decide +kernel

end Wire

end Transcript

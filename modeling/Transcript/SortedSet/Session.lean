-- Sessions with one server of sets: visits one after the other, each on a connection of its
-- own, either by a client with a request or with bytes as they are.
import Transcript.SortedSet.Program

namespace Transcript.Wire

/-- A connection to the server. -/
inductive Visit where
  | request (words : List String)
  | bytes (sent : List UInt8)
deriving DecidableEq

/-- What came back on a connection: what the client made of it, or the bytes. -/
inductive Answer where
  | reply (r : Except String Reply)
  | bytes (received : List UInt8)

/-- One visit. -/
def visit (store : Store) : Visit → Answer × Store
  | .request words =>
    let (reply, store) := SetProgram.exchange store words
    (.reply reply, store)
  | .bytes sent =>
    let (received, store) := serveConnection store sent
    (.bytes received, store)

/-- Visits one after the other. -/
def session (store : Store) : List Visit → List Answer
  | [] => []
  | v :: rest =>
    let (answer, store) := visit store v
    answer :: session store rest

/-- A session without a way to the server. A client tells so; bytes as they are cannot be
sent, which ends the session. -/
def sessionWithout (reason : String) : List Visit → Except String (List Answer)
  | [] => .ok []
  | .request _ :: rest => (sessionWithout reason rest).map (.reply (.error reason) :: ·)
  | .bytes _ :: _ => .error reason

end Transcript.Wire

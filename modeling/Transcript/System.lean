-- What the tool asks of the system it runs on. The system is whatever answers these
-- questions: how its processes behave, and what its files hold, is left open.
import Transcript.Server

namespace Transcript

/-- A system: its variables, its accounts, its files, and its processes. Only opening a log and
running processes change it. -/
structure System (σ : Type) where
  /-- The value of an environment variable, if it is set. -/
  environment : String → σ → Option String
  /-- The home directory of the account that the tool runs in, if it has one. -/
  accountHome : σ → Option String
  /-- Whether a path leads to something. -/
  isThere : String → σ → Bool
  /-- The text of the file at a path, or why it cannot be read. -/
  readText : String → σ → Except String String
  /-- Opens a file to write at its end, and makes it if it is not there. -/
  openLog : String → σ → Except String σ
  /-- Runs a command as a process of its own. -/
  launch : Launcher σ
  /-- Runs the server. -/
  server : ServerHost σ

end Transcript

-- What can go wrong in a run, and the words for it. Every message names the
-- command it is about; texts that differ are shown quoted.
import Transcript.Text.Blank
import Transcript.Text.Quoted
import Transcript.Words

namespace Transcript

/-! ## Commands without output -/

/-- Why a command gave no output. -/
inductive CommandFailure where
  | emptyCommand
  | noWords (reason : String)
  | notStarted (program reason : String)
  | exitCode (code : Int) (stderr : String)
  | signaled (stderr : String)
  | notText (reason : String)
deriving DecidableEq

/-- What the program wrote on its error output, without the blanks at its end. -/
def stderrNote (stderr : String) : String :=
  let shown := Text.trimEnd stderr.toList
  if shown.isEmpty then "" else "; stderr: " ++ String.ofList shown

def CommandFailure.message : CommandFailure → String
  | .emptyCommand => "command line is empty"
  | .noWords reason => "could not tokenize: " ++ reason
  | .notStarted program reason => "could not start '" ++ program ++ "': " ++ reason
  | .exitCode code stderr => "exited with code " ++ toString code ++ stderrNote stderr
  | .signaled stderr => "terminated by signal" ++ stderrNote stderr
  | .notText reason => "stdout is not valid UTF-8: " ++ reason

/-- A command line without words is a command that cannot run. -/
def WordsFault.toFailure : WordsFault → CommandFailure
  | .empty => .emptyCommand
  | .openQuote => .noWords "missing closing quote"

/-! ## Errors -/

/-- What ends a run or keeps it from starting. -/
inductive Failure where
  | malformed (line : Nat) (reason : String)
  | unevenColumns (commands outputs : Nat)
  | execution (command : String) (failure : CommandFailure)
  | mismatch (command actual expected : String)
  | serverStart (reason : String)
  | serverStop (reason : String)
  | settings (reason : String)
  | settingsFile (reason : String)
  | host (reason : String)
  | unreadable (path reason : String)
  | document (reason : String)
deriving DecidableEq

def Failure.message : Failure → String
  | .malformed line reason => "Malformed corpus at line " ++ toString line ++ ": " ++ reason
  | .unevenColumns commands outputs =>
    "Malformed corpus: " ++ toString commands ++ " commands but " ++ toString outputs ++
      " expected outputs"
  | .execution command failure => "Command '" ++ command ++ "' failed: " ++ failure.message
  | .mismatch command actual expected =>
    "command: " ++ command ++ " returned: " ++ Text.quote actual ++ " but expected " ++
      Text.quote expected
  | .serverStart reason => "Server failed to start: " ++ reason
  | .serverStop reason => "Server failed to stop cleanly: " ++ reason
  | .settings reason => "Configuration error: " ++ reason
  | .settingsFile reason => "Invalid configuration file: " ++ reason
  | .host reason => "IO error: " ++ reason
  | .unreadable path reason => "Failed to read file '" ++ path ++ "': " ++ reason
  | .document reason => "JSON error: " ++ reason

/-! ## Kinds -/

/-- The groups that machines tell errors apart by. -/
inductive FailureKind where
  | corpus
  | execution
  | mismatch
  | server
  | settings
  | host
deriving DecidableEq

def FailureKind.name : FailureKind → String
  | .corpus => "PARSE_INCONSISTENCY"
  | .execution => "EXECUTION_ERROR"
  | .mismatch => "OUTPUT_MISMATCH"
  | .server => "SERVER_ERROR"
  | .settings => "CONFIG_ERROR"
  | .host => "INTERNAL_ERROR"

def Failure.kind : Failure → FailureKind
  | .malformed .. | .unevenColumns .. => .corpus
  | .execution .. => .execution
  | .mismatch .. => .mismatch
  | .serverStart .. | .serverStop .. => .server
  | .settings .. | .settingsFile .. | .unreadable .. => .settings
  | .host .. | .document .. => .host

end Transcript

-- Judging one output: it must be the expected one byte for byte, and where it is
-- not, the first line that differs is told.
import Transcript.Corpus
import Transcript.Text.Utf8

namespace Transcript

/-- A case passes on exactly its expected output. -/
def Case.judge (case : Case) (actual : String) : Except Failure Unit :=
  if actual = case.expected then .ok ()
  else .error (.mismatch case.command actual case.expected)

/-- What two sequences start with in common. -/
def commonStart {α : Type} [DecidableEq α] : List α → List α → List α
  | a :: as, b :: bs => if a = b then a :: commonStart as bs else []
  | _, _ => []

/-- The number of the line in which two byte sequences first differ: one more than the
newlines before that place. -/
def firstDivergentLineOfBytes (actual expected : List UInt8) : Option Nat :=
  if actual = expected then none
  else some ((commonStart actual expected).count 10 + 1)

/-- The number of the first line in which two texts differ, none when they are equal. -/
def firstDivergentLine (actual expected : String) : Option Nat :=
  firstDivergentLineOfBytes (Text.utf8 actual.toList) (Text.utf8 expected.toList)

end Transcript

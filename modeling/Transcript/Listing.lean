-- A corpus as it is listed: each case under its number, or all cases as one document.
import Transcript.Report

namespace Transcript

/-- A number in at least three places. -/
def numberColumn (n : Nat) : String :=
  let digits := Nat.toDigits 10 n
  String.ofList (List.replicate (3 - digits.length) ' ' ++ digits)

/-- The rows of a case under its number. -/
def Case.listing (c : Case) (colours : Bool) (number : Nat) : List String :=
  [numberColumn number ++ ". " ++ Style.emphasized.paint colours c.command] ++
    (if c.expected.isEmpty then ["     " ++ Style.dimmed.paint colours "(no output)"] else []) ++
    (Text.lines c.expected.toList).map fun line => "     " ++ String.ofList line

/-- The cases under their numbers, and their count. -/
def Corpus.listing (c : Corpus) (colours : Bool) : String :=
  let rows := (c.cases.zipIdx 1).flatMap fun (case, number) => case.listing colours number
  Console.lines (rows ++ ["\n" ++ toString c.size ++ " cases"])

/-- The cases as a document. -/
def Corpus.document (c : Corpus) : String := c.toJson.pretty ++ "\n"

end Transcript

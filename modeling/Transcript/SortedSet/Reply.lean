-- Replies of the set server, and the two forms in which they are written: rows for
-- people, and documents for the wire.
import Transcript.Json

namespace Transcript

/-- A reply. -/
inductive Reply where
  | nil
  | err (text : String)
  | str (text : String)
  | int (value : Int)
  | double (value : Binary64)
  | arr (items : List Reply)

namespace Reply

/-! ## Rows -/

mutual

/-- A reply as rows that tell its type. An array stands between its size and its end. -/
def render : Reply → String
  | .nil => "(nil)\n"
  | .err text => "(err) " ++ text ++ "\n"
  | .str text => "(str) " ++ text ++ "\n"
  | .int value => "(int) " ++ toString value ++ "\n"
  | .double value => "(double) " ++ Decimal.plain value ++ "\n"
  | .arr items => "(arr) len=" ++ toString items.length ++ "\n" ++ renderAll items ++ "(arr) end\n"

def renderAll : List Reply → String
  | [] => ""
  | item :: rest => render item ++ renderAll rest

end

/-! ## Documents -/

mutual

/-- A reply as a document: its type, and its value if it has one. -/
def toJson : Reply → Json
  | .nil => .obj [("type", .str "nil")]
  | .err text => .obj [("type", .str "err"), ("value", .str text)]
  | .str text => .obj [("type", .str "str"), ("value", .str text)]
  | .int value => .obj [("type", .str "int"), ("value", .int value)]
  | .double value => .obj [("type", .str "double"), ("value", .double value)]
  | .arr items => .obj [("type", .str "arr"), ("value", .arr (toJsonAll items))]

def toJsonAll : List Reply → List Json
  | [] => []
  | item :: rest => toJson item :: toJsonAll rest

end

end Reply

end Transcript

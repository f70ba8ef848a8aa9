-- Settings from a document. What the document does not say keeps its default, what is
-- not known is passed over, and the first value of the wrong type, in the order of the
-- document, is told.
import Transcript.Settings
import Transcript.Toml.Document
import Transcript.Text.Quoted

namespace Transcript.Settings

/-! ## Faults -/

/-- Why a text gives no settings. -/
inductive FileFault where
  /-- It is no document. -/
  | form
  /-- A value is of the wrong type. -/
  | type (detail : String)
deriving DecidableEq

def FileFault.reason : FileFault → String
  | .form => "not a TOML document"
  | .type detail => detail

/-- A value as type faults name it. -/
def found : Toml.Value → String
  | .str s => "string " ++ Text.quote s
  | .int n => "integer `" ++ toString n ++ "`"
  | .float x => "floating point `" ++ Decimal.pointed x ++ "`"
  | .bool b => "boolean `" ++ (if b then "true" else "false") ++ "`"
  | .arr _ => "sequence"
  | .table _ | .moment _ => "map"

def wrongType {α : Type} (expected : String) (v : Toml.Value) : Except FileFault α :=
  .error (.type ("invalid type: " ++ found v ++ ", expected " ++ expected))

/-! ## Fields -/

def readText : Toml.Value → Except FileFault String
  | .str s => .ok s
  | v => wrongType "a string" v

/-- A path that is set. -/
def readPath : Toml.Value → Except FileFault (Option String)
  | .str s => .ok (some s)
  | v => wrongType "path string" v

def readFlag : Toml.Value → Except FileFault Bool
  | .bool b => .ok b
  | v => wrongType "a boolean" v

/-- A time is a whole number that is not negative. -/
def readTime : Toml.Value → Except FileFault Nat
  | .int n =>
    if 0 ≤ n then .ok n.toNat
    else .error (.type ("invalid value: integer `" ++ toString n ++ "`, expected u64"))
  | v => wrongType "u64" v

/-- The variables of a table of texts. -/
def readVariables : List (String × Toml.Value) → Except FileFault (Keyed String)
  | [] => .ok []
  | (name, v) :: rest => do
    let text ← readText v
    let vars ← readVariables rest
    return (name, text) :: vars

/-- A table of texts. A moment stands for a table with its text under one name. -/
def readEnvironment : Toml.Value → Except FileFault (Keyed String)
  | .table entries => readVariables entries
  | .moment m => .ok [("$__toml_private_datetime", m.text)]
  | v => wrongType "a map" v

/-! ## Sections -/

/-- A field of a section: its name, and what a value does to the section. -/
structure Field (σ : Type) where
  name : String
  set : Toml.Value → σ → Except FileFault σ

/-- A field read by a reader and then put in. -/
def Field.of {σ α : Type} (name : String) (read : Toml.Value → Except FileFault α)
    (put : α → σ → σ) : Field σ :=
  ⟨name, fun v s => (read v).map fun a => put a s⟩

/-- Takes in one entry of a table; an entry of no known name changes nothing. -/
def setEntry {σ : Type} (fields : List (Field σ)) (s : σ) (entry : String × Toml.Value) :
    Except FileFault σ :=
  match fields.find? fun f => f.name = entry.1 with
  | some f => f.set entry.2 s
  | none => .ok s

/-- Takes in the entries of a table in their order. -/
def setEntries {σ : Type} (fields : List (Field σ)) (s : σ) (entries : Toml.Table) :
    Except FileFault σ :=
  entries.foldlM (setEntry fields) s

/-- Takes in the items of an array, one a field in the order of the fields. -/
def setItems {σ : Type} (fields : List (Field σ)) (s : σ) (items : List Toml.Value) :
    Except FileFault σ :=
  (fields.zip items).foldlM (fun s (f, v) => f.set v s) s

/-- Reads a section: a table of its fields, or an array of them in order. -/
def readSection {σ : Type} (name : String) (fields : List (Field σ)) (default : σ) :
    Toml.Value → Except FileFault σ
  | .table entries => setEntries fields default entries
  | .arr items => setItems fields default items
  | .moment _ => .ok default
  | v => wrongType ("struct " ++ name) v

def serverFields : List (Field ServerSettings) :=
  [.of "command" readText fun v s => { s with command := v },
    .of "warmup_ms" readTime fun v s => { s with warmup := v },
    .of "shutdown_grace_ms" readTime fun v s => { s with grace := v },
    .of "working_dir" readPath fun v s => { s with directory := v }]

def clientFields : List (Field ClientSettings) :=
  [.of "working_dir" readPath fun v s => { s with directory := v },
    .of "env" readEnvironment fun v s => { s with environment := v }]

def corpusFields : List (Field CorpusSettings) :=
  [.of "prompt" readText fun v s => { s with prompt := v },
    .of "path" readPath fun v s => { s with path := v }]

def outputFields : List (Field OutputSettings) :=
  [.of "progress" readFlag fun v s => { s with progress := v },
    .of "color" readFlag fun v s => { s with colours := v }]

def sections : List (Field Settings) :=
  [.of "server" (readSection "ServerConfig" serverFields .default)
      fun v s => { s with server := v },
    .of "client" (readSection "ClientConfig" clientFields .default)
      fun v s => { s with client := v },
    .of "corpus" (readSection "CorpusConfig" corpusFields .default)
      fun v s => { s with corpus := v },
    .of "output" (readSection "OutputConfig" outputFields .default)
      fun v s => { s with output := v }]

/-! ## Documents -/

/-- The settings that a document gives. -/
def ofTable (entries : Toml.Table) : Except FileFault Settings :=
  setEntries sections .default entries

/-- The settings that a text gives. -/
def parse (text : String) : Except FileFault Settings :=
  match Toml.parse? text with
  | some entries => ofTable entries
  | none => .error .form

end Transcript.Settings

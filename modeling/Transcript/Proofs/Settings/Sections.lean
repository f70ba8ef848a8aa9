-- Settings by their known fields. A document gives settings exactly if each known field that is
-- there is of its kind; only for the environment one more kind of value counts: a moment is
-- taken for a table of one text. Each part of the settings is then set by its field alone.
import Mathlib.Data.List.Basic
import Transcript.Proofs.Settings.Fields
import Transcript.Proofs.Toml.Keys

namespace Transcript.Settings

/-! ## What values mean -/

def IsText (v : Toml.Value) (text : String) : Prop := v = .str text

def IsPath (v : Toml.Value) (path : Option String) : Prop :=
  ∃ text, v = .str text ∧ path = some text

def IsTime (v : Toml.Value) (time : Nat) : Prop := v = .int time

def IsFlag (v : Toml.Value) (flag : Bool) : Prop := v = .bool flag

/-- A table of texts as the values of its keys. -/
def variablesTable (vars : Keyed String) : Toml.Table :=
  vars.map fun (name, text) => (name, .str text)

/-- A table of texts, or a moment for the table that holds its text under one name. -/
def IsEnvironment (v : Toml.Value) (vars : Keyed String) : Prop :=
  v = .table (variablesTable vars) ∨
    ∃ m, v = .moment m ∧ vars = [("$__toml_private_datetime", m.text)]

variable {v w : Toml.Value}

theorem readText_eq_ok_iff {text : String} : readText v = .ok text ↔ IsText v text := by
  cases v <;> simp [readText, wrongType, IsText]

theorem readPath_eq_ok_iff {path : Option String} : readPath v = .ok path ↔ IsPath v path := by
  cases v <;> simp [readPath, wrongType, IsPath, eq_comm]

theorem readFlag_eq_ok_iff {flag : Bool} : readFlag v = .ok flag ↔ IsFlag v flag := by
  cases v <;> simp [readFlag, wrongType, IsFlag]

theorem readTime_eq_ok_iff {time : Nat} : readTime v = .ok time ↔ IsTime v time := by
  cases v with
  | int n =>
    simp only [readTime, IsTime, Toml.Value.int.injEq]
    split
    · rw [Except.ok.injEq]
      omega
    · simp only [reduceCtorEq, false_iff]
      omega
  | _ => simp [readTime, wrongType, IsTime]

theorem readVariables_eq_ok_iff {entries : Toml.Table} {vars : Keyed String} :
    readVariables entries = .ok vars ↔ entries = variablesTable vars := by
  induction entries generalizing vars with
  | nil => cases vars <;> simp [readVariables, variablesTable]
  | cons e rest ih =>
    obtain ⟨name, v⟩ := e
    have hread : readVariables ((name, v) :: rest) = readText v >>= fun text =>
        readVariables rest >>= fun later => .ok ((name, text) :: later) := rfl
    simp only [hread, bind_eq_ok_iff, readText_eq_ok_iff, ih]
    constructor
    · rintro ⟨text, rfl, later, rfl, ⟨⟩⟩
      rfl
    · intro h
      rcases vars with _ | ⟨⟨name', text⟩, later⟩
      · cases h
      · obtain ⟨hfirst, hrest⟩ := List.cons.inj h
        cases hfirst
        exact ⟨text, rfl, later, hrest, rfl⟩

theorem readEnvironment_eq_ok_iff {vars : Keyed String} :
    readEnvironment v = .ok vars ↔ IsEnvironment v vars := by
  cases v with
  | table entries => simp [readEnvironment, readVariables_eq_ok_iff, IsEnvironment]
  | moment m => simp [readEnvironment, IsEnvironment, eq_comm]
  | _ => simp [readEnvironment, wrongType, IsEnvironment]

/-! ## The parts of a section -/

@[simp]
theorem Field.name_of {σ α : Type} {name : String} {read : Toml.Value → Except FileFault α}
    {put : α → σ → σ} : (Field.of name read put).name = name := rfl

theorem apart_serverFields : Apart serverFields where
  names := by simp [serverFields]
  steady := by simp [serverFields, Field.steady_of]

theorem apart_clientFields : Apart clientFields where
  names := by simp [clientFields]
  steady := by simp [clientFields, Field.steady_of]

theorem apart_corpusFields : Apart corpusFields where
  names := by simp [corpusFields]
  steady := by simp [corpusFields, Field.steady_of]

theorem apart_outputFields : Apart outputFields where
  names := by simp [outputFields]
  steady := by simp [outputFields, Field.steady_of]

theorem apart_sections : Apart sections where
  names := by simp [sections]
  steady := by simp [sections, Field.steady_of]

/-- The field at a place sets its part alone. -/
theorem Sets.of {σ α : Type} {fields : List (Field σ)} {name : String}
    {read : Toml.Value → Except FileFault α} {put : α → σ → σ} {means : Toml.Value → α → Prop}
    {part : σ → α} {i : Nat} (hfields : Apart fields)
    (hget : fields[i]? = some (.of name read put)) (hread : ∀ {v a}, read v = .ok a → means v a)
    (hput : ∀ a s, part (put a s) = a) (hkeeps : ∀ g ∈ fields, g.name = name ∨ g.Keeps part) :
    Sets fields name means part where
  known := ⟨_, List.mem_of_getElem? hget, rfl⟩
  makes g hg hname := by
    obtain rfl := hfields.eq_of_name hg (List.mem_of_getElem? hget) hname
    exact Field.makes_of hread hput
  keeps g hg hne := (hkeeps g hg).resolve_left hne

theorem sets_command : Sets serverFields "command" IsText (·.command) :=
  .of (i := 0) apart_serverFields rfl readText_eq_ok_iff.mp (fun _ _ => rfl)
    (by simp [serverFields, Field.keeps_of])

theorem sets_warmup : Sets serverFields "warmup_ms" IsTime (·.warmup) :=
  .of (i := 1) apart_serverFields rfl readTime_eq_ok_iff.mp (fun _ _ => rfl)
    (by simp [serverFields, Field.keeps_of])

theorem sets_grace : Sets serverFields "shutdown_grace_ms" IsTime (·.grace) :=
  .of (i := 2) apart_serverFields rfl readTime_eq_ok_iff.mp (fun _ _ => rfl)
    (by simp [serverFields, Field.keeps_of])

theorem sets_serverDirectory : Sets serverFields "working_dir" IsPath (·.directory) :=
  .of (i := 3) apart_serverFields rfl readPath_eq_ok_iff.mp (fun _ _ => rfl)
    (by simp [serverFields, Field.keeps_of])

theorem sets_clientDirectory : Sets clientFields "working_dir" IsPath (·.directory) :=
  .of (i := 0) apart_clientFields rfl readPath_eq_ok_iff.mp (fun _ _ => rfl)
    (by simp [clientFields, Field.keeps_of])

theorem sets_environment : Sets clientFields "env" IsEnvironment (·.environment) :=
  .of (i := 1) apart_clientFields rfl readEnvironment_eq_ok_iff.mp (fun _ _ => rfl)
    (by simp [clientFields, Field.keeps_of])

theorem sets_prompt : Sets corpusFields "prompt" IsText (·.prompt) :=
  .of (i := 0) apart_corpusFields rfl readText_eq_ok_iff.mp (fun _ _ => rfl)
    (by simp [corpusFields, Field.keeps_of])

theorem sets_path : Sets corpusFields "path" IsPath (·.path) :=
  .of (i := 1) apart_corpusFields rfl readPath_eq_ok_iff.mp (fun _ _ => rfl)
    (by simp [corpusFields, Field.keeps_of])

theorem sets_progress : Sets outputFields "progress" IsFlag (·.progress) :=
  .of (i := 0) apart_outputFields rfl readFlag_eq_ok_iff.mp (fun _ _ => rfl)
    (by simp [outputFields, Field.keeps_of])

theorem sets_colours : Sets outputFields "color" IsFlag (·.colours) :=
  .of (i := 1) apart_outputFields rfl readFlag_eq_ok_iff.mp (fun _ _ => rfl)
    (by simp [outputFields, Field.keeps_of])

/-! ## Sections -/

/-- A section as it is read from a value. -/
def IsSection {σ : Type} (label : String) (fields : List (Field σ)) (default : σ)
    (v : Toml.Value) (s : σ) : Prop := readSection label fields default v = .ok s

theorem sets_server :
    Sets sections "server" (IsSection "ServerConfig" serverFields .default) (·.server) :=
  .of (i := 0) apart_sections rfl id (fun _ _ => rfl)
    (by simp [sections, Field.keeps_of])

theorem sets_client :
    Sets sections "client" (IsSection "ClientConfig" clientFields .default) (·.client) :=
  .of (i := 1) apart_sections rfl id (fun _ _ => rfl)
    (by simp [sections, Field.keeps_of])

theorem sets_corpus :
    Sets sections "corpus" (IsSection "CorpusConfig" corpusFields .default) (·.corpus) :=
  .of (i := 2) apart_sections rfl id (fun _ _ => rfl)
    (by simp [sections, Field.keeps_of])

theorem sets_output :
    Sets sections "output" (IsSection "OutputConfig" outputFields .default) (·.output) :=
  .of (i := 3) apart_sections rfl id (fun _ _ => rfl)
    (by simp [sections, Field.keeps_of])

/-- The value under a key of a section. -/
def valueAt? (doc : Toml.Table) (part key : String) : Option Toml.Value :=
  match Keyed.find? doc part with
  | some (.table entries) => Keyed.find? entries key
  | _ => none

/-- The sections that are there are tables. -/
def SectionsAreTables (doc : Toml.Table) : Prop :=
  ∀ f ∈ sections, ∀ v, Keyed.find? doc f.name = some v → ∃ entries, v = .table entries

section

variable {σ α : Type} {fields : List (Field σ)} {default : σ} {label part : String}
  {doc : Toml.Table}

theorem nodup_names_of_find? {entries : Toml.Table} (hdoc : (Toml.Value.table doc).DistinctKeys)
    (hfind : Keyed.find? doc part = some (.table entries)) : (Keyed.names entries).Nodup := by
  have hvalues := (Toml.Value.distinctKeys_table_iff.mp hdoc).2
  exact (Toml.Value.distinctKeys_table_iff.mp (hvalues _ (Keyed.mem_of_find? hfind))).1

/-- A section is read exactly if each of its fields takes its value. -/
theorem exists_readSection_iff (hfields : Apart fields)
    (hdoc : (Toml.Value.table doc).DistinctKeys)
    (htable : ∀ v, Keyed.find? doc part = some v → ∃ entries, v = .table entries) :
    (∀ v, Keyed.find? doc part = some v → ∃ s, readSection label fields default v = .ok s) ↔
      ∀ f ∈ fields, ∀ v, valueAt? doc part f.name = some v → f.Takes v := by
  unfold valueAt?
  rcases hfind : Keyed.find? doc part with _ | v
  · simp
  · obtain ⟨entries, rfl⟩ := htable v hfind
    have hread := exists_setEntries_iff hfields (nodup_names_of_find? hdoc hfind) default
    rw [← hread]
    exact ⟨fun h => h _ rfl, by rintro h _ ⟨⟩; exact h⟩

/-- A part of a section is what stands for it in the document, or as it is in the section that is
there from the start: whether the section is missing or the key alone is the same. -/
theorem Sets.layered_valueAt? {name : String} {means : Toml.Value → α → Prop} {inner : σ → α}
    {outer : Settings → σ} {s : Settings}
    (hsection : Sets sections part (IsSection label fields (outer .default)) outer)
    (hfield : Sets fields name means inner) (hdoc : (Toml.Value.table doc).DistinctKeys)
    (htable : ∀ v, Keyed.find? doc part = some v → ∃ entries, v = .table entries)
    (hs : ofTable doc = .ok s) :
    Layered means (valueAt? doc part name) (inner (outer .default)) (inner (outer s)) := by
  have hnames := (Toml.Value.distinctKeys_table_iff.mp hdoc).1
  have houter := hsection.setEntries hnames hs
  unfold valueAt?
  rcases hfind : Keyed.find? doc part with _ | v
  · rw [hfind] at houter
    exact congrArg inner houter
  · obtain ⟨entries, rfl⟩ := htable v hfind
    rw [hfind] at houter
    exact hfield.setEntries (nodup_names_of_find? hdoc hfind) houter

end

/-! ## Known fields -/

inductive Kind where
  | text
  | time
  | flag
  | environment

/-- The values of a kind. -/
inductive Kind.Admits : Kind → Toml.Value → Prop where
  | text (s : String) : Admits .text (.str s)
  | time (n : Nat) : Admits .time (.int n)
  | flag (b : Bool) : Admits .flag (.bool b)
  | environment {entries : Toml.Table} : (∀ e ∈ entries, ∃ s, e.2 = .str s) →
      Admits .environment (.table entries)

/-- A field of a section, with the kind that its values are of. -/
structure KnownField where
  part : String
  name : String
  kind : Kind

def knownFields : List KnownField :=
  [⟨"server", "command", .text⟩, ⟨"server", "warmup_ms", .time⟩,
    ⟨"server", "shutdown_grace_ms", .time⟩, ⟨"server", "working_dir", .text⟩,
    ⟨"client", "working_dir", .text⟩, ⟨"client", "env", .environment⟩,
    ⟨"corpus", "prompt", .text⟩, ⟨"corpus", "path", .text⟩,
    ⟨"output", "progress", .flag⟩, ⟨"output", "color", .flag⟩]

/-- The values that a field of a kind takes: those of the kind, and for an environment the
moments too. -/
def Kind.Counts (kind : Kind) (v : Toml.Value) : Prop :=
  kind.Admits v ∨ kind = .environment ∧ ∃ m, v = .moment m

theorem exists_readText_iff : (∃ text, readText v = .ok text) ↔ Kind.text.Counts v := by
  simp only [readText_eq_ok_iff, IsText, Kind.Counts, reduceCtorEq, false_and, or_false]
  constructor
  · rintro ⟨text, rfl⟩
    exact .text text
  · rintro ⟨⟩
    exact ⟨_, rfl⟩

theorem exists_readPath_iff : (∃ path, readPath v = .ok path) ↔ Kind.text.Counts v := by
  simp only [readPath_eq_ok_iff, IsPath, Kind.Counts, reduceCtorEq, false_and, or_false]
  constructor
  · rintro ⟨_, text, rfl, -⟩
    exact .text text
  · rintro ⟨⟩
    exact ⟨_, _, rfl, rfl⟩

theorem exists_readTime_iff : (∃ time, readTime v = .ok time) ↔ Kind.time.Counts v := by
  simp only [readTime_eq_ok_iff, IsTime, Kind.Counts, reduceCtorEq, false_and, or_false]
  constructor
  · rintro ⟨time, rfl⟩
    exact .time time
  · rintro ⟨⟩
    exact ⟨_, rfl⟩

theorem exists_readFlag_iff : (∃ flag, readFlag v = .ok flag) ↔ Kind.flag.Counts v := by
  simp only [readFlag_eq_ok_iff, IsFlag, Kind.Counts, reduceCtorEq, false_and, or_false]
  constructor
  · rintro ⟨flag, rfl⟩
    exact .flag flag
  · rintro ⟨⟩
    exact ⟨_, rfl⟩

theorem exists_variablesTable_iff {entries : Toml.Table} :
    (∃ vars, entries = variablesTable vars) ↔ ∀ e ∈ entries, ∃ s, e.2 = .str s := by
  constructor
  · rintro ⟨vars, rfl⟩ e he
    obtain ⟨pair, -, rfl⟩ := List.mem_map.mp he
    exact ⟨pair.2, rfl⟩
  · intro h
    induction entries with
    | nil => exact ⟨[], rfl⟩
    | cons e rest ih =>
      obtain ⟨⟨text, htext⟩, hrest⟩ := List.forall_mem_cons.mp h
      obtain ⟨vars, rfl⟩ := ih hrest
      exact ⟨(e.1, text) :: vars, congrArg (· :: variablesTable vars) (Prod.ext rfl htext)⟩

theorem exists_readEnvironment_iff :
    (∃ vars, readEnvironment v = .ok vars) ↔ Kind.environment.Counts v := by
  simp only [readEnvironment_eq_ok_iff, IsEnvironment, Kind.Counts, true_and]
  constructor
  · rintro ⟨vars, rfl | ⟨m, rfl, -⟩⟩
    · exact .inl (.environment (exists_variablesTable_iff.mp ⟨vars, rfl⟩))
    · exact .inr ⟨m, rfl⟩
  · rintro (⟨⟨⟩ | ⟨⟩ | ⟨⟩ | htexts⟩ | ⟨m, rfl⟩)
    · obtain ⟨vars, rfl⟩ := exists_variablesTable_iff.mpr htexts
      exact ⟨vars, .inl rfl⟩
    · exact ⟨_, .inr ⟨m, rfl, rfl⟩⟩

/-- A document gives settings exactly if each known field takes the value that stands for it. -/
theorem exists_ofTable_iff {doc : Toml.Table} (hdoc : (Toml.Value.table doc).DistinctKeys)
    (htables : SectionsAreTables doc) :
    (∃ s, ofTable doc = .ok s) ↔
      ∀ f ∈ knownFields, ∀ v, valueAt? doc f.part f.name = some v → f.kind.Counts v := by
  have hnames := (Toml.Value.distinctKeys_table_iff.mp hdoc).1
  simp only [SectionsAreTables, sections, List.forall_mem_cons, Field.name_of] at htables
  obtain ⟨hserver, hclient, hcorpus, houtput, -⟩ := htables
  unfold ofTable
  rw [exists_setEntries_iff apart_sections hnames]
  simp only [sections, List.forall_mem_cons, Field.name_of, Field.takes_of_iff Settings.default]
  rw [exists_readSection_iff apart_serverFields hdoc hserver,
    exists_readSection_iff apart_clientFields hdoc hclient,
    exists_readSection_iff apart_corpusFields hdoc hcorpus,
    exists_readSection_iff apart_outputFields hdoc houtput]
  simp only [serverFields, clientFields, corpusFields, outputFields, knownFields,
    List.forall_mem_cons, Field.name_of, Field.takes_of_iff ServerSettings.default,
    Field.takes_of_iff ClientSettings.default, Field.takes_of_iff CorpusSettings.default,
    Field.takes_of_iff OutputSettings.default, exists_readText_iff, exists_readPath_iff,
    exists_readTime_iff, exists_readFlag_iff, exists_readEnvironment_iff, List.not_mem_nil,
    false_implies, implies_true, and_true, and_assoc]

end Transcript.Settings

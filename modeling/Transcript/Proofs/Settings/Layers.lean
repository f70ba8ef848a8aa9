-- The layers of the settings: what a command line says counts over what the file says, and that
-- over the defaults, field by field. The settings of a document depend on its known fields
-- alone, neither on the order of its sections and keys nor on what else it holds.
import Mathlib.Data.List.Perm.Basic
import Transcript.Application
import Transcript.Proofs.Settings.Sections
import Transcript.Proofs.Toml.Equality

namespace Transcript.Settings

/-! ## The file over the defaults -/

/-- Settings whose parts are what a document has under the keys of its sections, each by itself,
and as they are by default where it has nothing. -/
structure Reflects (doc : Toml.Table) (s : Settings) : Prop where
  command : Layered IsText (valueAt? doc "server" "command")
    Settings.default.server.command s.server.command
  warmup : Layered IsTime (valueAt? doc "server" "warmup_ms")
    Settings.default.server.warmup s.server.warmup
  grace : Layered IsTime (valueAt? doc "server" "shutdown_grace_ms")
    Settings.default.server.grace s.server.grace
  serverDirectory : Layered IsPath (valueAt? doc "server" "working_dir")
    Settings.default.server.directory s.server.directory
  clientDirectory : Layered IsPath (valueAt? doc "client" "working_dir")
    Settings.default.client.directory s.client.directory
  environment : Layered IsEnvironment (valueAt? doc "client" "env")
    Settings.default.client.environment s.client.environment
  prompt : Layered IsText (valueAt? doc "corpus" "prompt")
    Settings.default.corpus.prompt s.corpus.prompt
  path : Layered IsPath (valueAt? doc "corpus" "path")
    Settings.default.corpus.path s.corpus.path
  progress : Layered IsFlag (valueAt? doc "output" "progress")
    Settings.default.output.progress s.output.progress
  colours : Layered IsFlag (valueAt? doc "output" "color")
    Settings.default.output.colours s.output.colours

theorem reflects_of_ofTable {doc : Toml.Table} {s : Settings}
    (hdoc : (Toml.Value.table doc).DistinctKeys) (htables : SectionsAreTables doc)
    (hs : ofTable doc = .ok s) : Reflects doc s := by
  simp only [SectionsAreTables, sections, List.forall_mem_cons, Field.name_of] at htables
  obtain ⟨hserver, hclient, hcorpus, houtput, -⟩ := htables
  exact {
    command := sets_server.layered_valueAt? sets_command hdoc hserver hs
    warmup := sets_server.layered_valueAt? sets_warmup hdoc hserver hs
    grace := sets_server.layered_valueAt? sets_grace hdoc hserver hs
    serverDirectory := sets_server.layered_valueAt? sets_serverDirectory hdoc hserver hs
    clientDirectory := sets_client.layered_valueAt? sets_clientDirectory hdoc hclient hs
    environment := sets_client.layered_valueAt? sets_environment hdoc hclient hs
    prompt := sets_corpus.layered_valueAt? sets_prompt hdoc hcorpus hs
    path := sets_corpus.layered_valueAt? sets_path hdoc hcorpus hs
    progress := sets_output.layered_valueAt? sets_progress hdoc houtput hs
    colours := sets_output.layered_valueAt? sets_colours hdoc houtput hs }

/-! ## Documents with the same fields -/

/-- The same value, or one table in two orders. -/
inductive Similar : Toml.Value → Toml.Value → Prop where
  | same (v : Toml.Value) : Similar v v
  | reordered {entries others : Toml.Table} : entries.Perm others →
      Similar (.table entries) (.table others)

/-- Two documents that agree on each known field, whatever else they hold, and in any order. -/
def SameFields (doc other : Toml.Table) : Prop :=
  ∀ f ∈ knownFields,
    Option.Rel Similar (valueAt? doc f.part f.name) (valueAt? other f.part f.name)

/-- The same settings, with the variables of the environment in any order. -/
structure Alike (s t : Settings) : Prop where
  server : s.server = t.server
  directory : s.client.directory = t.client.directory
  environment : s.client.environment.Perm t.client.environment
  corpus : s.corpus = t.corpus
  output : s.output = t.output

variable {v w : Toml.Value}

theorem Similar.counts (h : Similar v w) {kind : Kind} (hv : kind.Counts v) : kind.Counts w := by
  cases h with
  | same => exact hv
  | reordered hperm =>
    rcases hv with ⟨⟨⟩ | ⟨⟩ | ⟨⟩ | htexts⟩ | ⟨-, m, hm⟩
    · exact .inl (.environment fun e he => htexts e (hperm.mem_iff.mpr he))
    · cases hm

theorem Similar.isText {a b : String} (h : Similar v w) (ha : IsText v a) (hb : IsText w b) :
    a = b := by
  cases h with
  | same => exact Toml.Value.str.inj (ha.symm.trans hb)
  | reordered => cases ha

theorem Similar.isTime {a b : Nat} (h : Similar v w) (ha : IsTime v a) (hb : IsTime w b) :
    a = b := by
  cases h with
  | same => exact Int.ofNat.inj (Toml.Value.int.inj (ha.symm.trans hb))
  | reordered => cases ha

theorem Similar.isFlag {a b : Bool} (h : Similar v w) (ha : IsFlag v a) (hb : IsFlag w b) :
    a = b := by
  cases h with
  | same => exact Toml.Value.bool.inj (ha.symm.trans hb)
  | reordered => cases ha

theorem Similar.isPath {a b : Option String} (h : Similar v w) (ha : IsPath v a)
    (hb : IsPath w b) : a = b := by
  obtain ⟨text, htext, rfl⟩ := ha
  obtain ⟨other, hother, rfl⟩ := hb
  exact congrArg some (h.isText htext hother)

theorem variablesTable_perm_iff {vars others : Keyed String} :
    (variablesTable vars).Perm (variablesTable others) ↔ vars.Perm others := by
  refine List.map_perm_map_iff ?_
  rintro ⟨name, text⟩ ⟨name', text'⟩ h
  cases h
  rfl

theorem Similar.isEnvironment {a b : Keyed String} (h : Similar v w) (ha : IsEnvironment v a)
    (hb : IsEnvironment w b) : a.Perm b := by
  cases h with
  | same =>
    rcases ha with rfl | ⟨m, rfl, rfl⟩
    · rcases hb with hb | ⟨m, hb, -⟩
      · exact variablesTable_perm_iff.mp (.of_eq (Toml.Value.table.inj hb))
      · cases hb
    · rcases hb with hb | ⟨m, hb, rfl⟩
      · cases hb
      · cases hb
        exact .refl _
  | reordered hperm =>
    rcases ha with ha | ⟨m, ha, -⟩
    · rcases hb with hb | ⟨m, hb, -⟩
      · cases ha
        cases hb
        exact variablesTable_perm_iff.mp hperm
      · cases hb
    · cases ha

/-- A part that is set by similar values, or by none on both sides, is the same in both. -/
theorem Layered.similar {α : Type} {means : Toml.Value → α → Prop} {same : α → α → Prop}
    {given other : Option Toml.Value} {default a b : α} (hsame : same default default)
    (hmeans : ∀ {v w a b}, Similar v w → means v a → means w b → same a b)
    (h : Option.Rel Similar given other) (ha : Layered means given default a)
    (hb : Layered means other default b) : same a b := by
  cases h with
  | some h => exact hmeans h ha hb
  | none =>
    rw [show a = default from ha, show b = default from hb]
    exact hsame

attribute [ext] ServerSettings CorpusSettings OutputSettings

theorem Reflects.alike {doc other : Toml.Table} {s t : Settings} (hs : Reflects doc s)
    (ht : Reflects other t) (h : SameFields doc other) : s.Alike t := by
  simp only [SameFields, knownFields, List.forall_mem_cons] at h
  obtain ⟨hcommand, hwarmup, hgrace, hserverDirectory, hclientDirectory, henvironment, hprompt,
    hpath, hprogress, hcolours, -⟩ := h
  exact {
    server := ServerSettings.ext (hs.command.similar rfl Similar.isText hcommand ht.command)
      (hs.warmup.similar rfl Similar.isTime hwarmup ht.warmup)
      (hs.grace.similar rfl Similar.isTime hgrace ht.grace)
      (hs.serverDirectory.similar rfl Similar.isPath hserverDirectory ht.serverDirectory)
    directory := hs.clientDirectory.similar rfl Similar.isPath hclientDirectory ht.clientDirectory
    environment := hs.environment.similar (.refl _) Similar.isEnvironment henvironment
      ht.environment
    corpus := CorpusSettings.ext (hs.prompt.similar rfl Similar.isText hprompt ht.prompt)
      (hs.path.similar rfl Similar.isPath hpath ht.path)
    output := OutputSettings.ext (hs.progress.similar rfl Similar.isFlag hprogress ht.progress)
      (hs.colours.similar rfl Similar.isFlag hcolours ht.colours) }

/-- Of two documents with the same fields, one gives settings where the other does. -/
theorem SameFields.exists_ofTable {doc other : Toml.Table} (h : SameFields doc other)
    (hdoc : (Toml.Value.table doc).DistinctKeys) (htables : SectionsAreTables doc)
    (hother : (Toml.Value.table other).DistinctKeys) (hothers : SectionsAreTables other)
    (hs : ∃ s, ofTable doc = .ok s) : ∃ t, ofTable other = .ok t := by
  rw [exists_ofTable_iff hdoc htables] at hs
  rw [exists_ofTable_iff hother hothers]
  intro f hf w hw
  have hsame := h f hf
  rw [hw] at hsame
  rcases hv : valueAt? doc f.part f.name with _ | v
  · rw [hv] at hsame
    cases hsame
  · rw [hv] at hsame
    cases hsame with
    | some hsimilar => exact hsimilar.counts (hs f hf v hv)

/-! ## The command line over the file -/

/-- Settings of a run: what an option says where it is given, and else what the settings say. -/
structure Overrides (choice : CommandLine.RunChoice) (s run : Settings) : Prop where
  command : run.server.command = choice.server.getD s.server.command
  warmup : run.server.warmup = choice.warmup.getD s.server.warmup
  grace : run.server.grace = s.server.grace
  serverDirectory : run.server.directory = s.server.directory
  client : run.client = s.client
  prompt : run.corpus.prompt = choice.corpus.prompt.getD s.corpus.prompt
  path : run.corpus.path = choice.corpus.path.or s.corpus.path
  progress : run.output.progress = if choice.noProgress then false else s.output.progress
  colours : run.output.colours = if choice.noColours then false else s.output.colours

theorem overrides_effective (choice : CommandLine.RunChoice) (s : Settings) :
    Overrides choice s (Application.effective s (.run choice)) where
  command := rfl
  warmup := rfl
  grace := rfl
  serverDirectory := rfl
  client := rfl
  prompt := rfl
  path := rfl
  progress := by
    rcases hflag : choice.noProgress <;>
      simp [Application.effective, CommandLine.RunChoice.apply, hflag]
  colours := by
    rcases hflag : choice.noColours <;>
      simp [Application.effective, CommandLine.RunChoice.apply, hflag]

/-! ## All layers -/

theorem parse_eq_ofTable {text : String} {doc : Toml.Table} (h : Toml.parse? text = some doc) :
    parse text = ofTable doc := by
  rw [parse, h]

/-- Settings are those of the command line over those of the file over the defaults, field by
field. A document whose sections are tables gives settings exactly if each known field that is
there is of its kind, or is an environment that is a moment. They are what its known fields
say, each by itself, and any other document with the same known fields gives them too. A run
takes of its options what is given and of the settings all the rest. -/
theorem settings_are_layered_field_by_field {text : String} {doc : Toml.Table}
    (hdoc : Toml.parse? text = some doc) (htables : SectionsAreTables doc) :
    ((∃ s, parse text = .ok s) ↔
        ∀ f ∈ knownFields, ∀ v, valueAt? doc f.part f.name = some v →
          f.kind.Admits v ∨ f.kind = .environment ∧ ∃ m, v = .moment m) ∧
      (∀ s, parse text = .ok s → Reflects doc s) ∧
      (∀ otherText other, Toml.parse? otherText = some other → SectionsAreTables other →
        SameFields doc other →
          ∀ s, parse text = .ok s → ∃ t, parse otherText = .ok t ∧ s.Alike t) ∧
      ∀ choice s, Overrides choice s (Application.effective s (.run choice)) := by
  have hkeys := Toml.distinctKeys_of_parse? hdoc
  rw [parse_eq_ofTable hdoc]
  refine ⟨exists_ofTable_iff hkeys htables, fun s hs => reflects_of_ofTable hkeys htables hs,
    fun otherText other hother hothers hsame s hs => ?_, overrides_effective⟩
  have hotherKeys := Toml.distinctKeys_of_parse? hother
  obtain ⟨t, ht⟩ := hsame.exists_ofTable hkeys htables hotherKeys hothers ⟨s, hs⟩
  refine ⟨t, (parse_eq_ofTable hother).trans ht, ?_⟩
  exact (reflects_of_ofTable hkeys htables hs).alike (reflects_of_ofTable hotherKeys hothers ht)
    hsame

/-- Two files that say the same in another order, the second with more that is not known. -/
theorem a_file_in_another_order_gives_like_settings :
    ∃ doc other,
      Toml.parse? "output.color = false\n[client.env]\nA = \"1\"\nB = \"2\"" = some doc ∧
      SectionsAreTables doc ∧
      Toml.parse? "n = []\n[client.env]\nB = \"2\"\nA = \"1\"\n[output]\nm = true\ncolor = false" =
        some other ∧
      SectionsAreTables other ∧ SameFields doc other ∧
      ∃ s t, parse "output.color = false\n[client.env]\nA = \"1\"\nB = \"2\"" = .ok s ∧
        Reflects doc s ∧
        parse "n = []\n[client.env]\nB = \"2\"\nA = \"1\"\n[output]\nm = true\ncolor = false" =
          .ok t ∧ s.Alike t ∧
        Overrides ⟨⟨none, some "> "⟩, none, some 5, false, true, false⟩ s
          (Application.effective s
            (.run ⟨⟨none, some "> "⟩, none, some 5, false, true, false⟩)) := by
  obtain ⟨doc, hdoc⟩ : ∃ doc : Toml.Table, doc = [("output", .table [("color", .bool false)]),
    ("client", .table [("env", .table [("A", .str "1"), ("B", .str "2")])])] := ⟨_, rfl⟩
  obtain ⟨other, hother⟩ : ∃ other : Toml.Table, other = [("n", .arr []),
    ("client", .table [("env", .table [("B", .str "2"), ("A", .str "1")])]),
    ("output", .table [("m", .bool true), ("color", .bool false)])] := ⟨_, rfl⟩
  have htext : Toml.parse? "output.color = false\n[client.env]\nA = \"1\"\nB = \"2\"" =
      some doc := by
    rw [hdoc]
    decide +kernel
  have hotherText : Toml.parse?
      "n = []\n[client.env]\nB = \"2\"\nA = \"1\"\n[output]\nm = true\ncolor = false" =
      some other := by
    rw [hother]
    decide +kernel
  have htables : SectionsAreTables doc := by
    simp [hdoc, SectionsAreTables, sections, Keyed.find?_cons]
  have hothers : SectionsAreTables other := by
    simp [hother, SectionsAreTables, sections, Keyed.find?_cons]
  have hsame : SameFields doc other := by
    simpa [hdoc, hother, SameFields, knownFields, valueAt?, Keyed.find?_cons] using
      And.intro (Similar.reordered (.swap _ _ _)) (Similar.same _)
  have hkinds : ∀ f ∈ knownFields, ∀ v, valueAt? doc f.part f.name = some v →
      f.kind.Admits v ∨ f.kind = .environment ∧ ∃ m, v = .moment m := by
    simpa [hdoc, knownFields, valueAt?, Keyed.find?_cons] using
      And.intro (Kind.Admits.environment (by simp)) (Kind.Admits.flag false)
  obtain ⟨hgives, hreflects, hlike, hover⟩ := settings_are_layered_field_by_field htext htables
  obtain ⟨s, hs⟩ := hgives.mpr hkinds
  obtain ⟨t, ht, halike⟩ := hlike _ other hotherText hothers hsame s hs
  exact ⟨doc, other, htext, htables, hotherText, hothers, hsame, s, t, hs, hreflects s hs, ht,
    halike, hover _ s⟩

/-- A document whose only known field is an environment that is no table of texts, and that gives
settings all the same: the mark of a moment is passed to the commands as a variable. -/
theorem a_moment_is_taken_for_an_environment :
    ∃ doc s, Toml.parse? "[client]\nenv = 1979-05-27\n" = some doc ∧ SectionsAreTables doc ∧
      parse "[client]\nenv = 1979-05-27\n" = .ok s ∧
      s.client.environment = [("$__toml_private_datetime", "1979-05-27")] ∧
      ¬((∃ s, parse "[client]\nenv = 1979-05-27\n" = .ok s) ↔
        ∀ f ∈ knownFields, ∀ v, valueAt? doc f.part f.name = some v → f.kind.Admits v) := by
  have htext : Toml.parse? "[client]\nenv = 1979-05-27\n" =
      some [("client", .table [("env", .moment (.day ⟨1979, 5, 27⟩))])] := by
    decide +kernel
  have hs : parse "[client]\nenv = 1979-05-27\n" = .ok { Settings.default with
      client := ⟨none, [("$__toml_private_datetime", "1979-05-27")]⟩ } := by decide +kernel
  refine ⟨_, _, htext, ?_, hs, rfl, fun hgives => ?_⟩
  · simp [SectionsAreTables, sections, Keyed.find?_cons]
  · have hkinds := hgives.mp ⟨_, hs⟩
    have henvironment := hkinds ⟨"client", "env", .environment⟩ (by simp [knownFields]) _ rfl
    cases henvironment

end Transcript.Settings

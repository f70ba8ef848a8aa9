-- What a run loads. Its settings are those of the file that is named for them, or else of the
-- user's file if it is there, or else the defaults; its corpus is what its text says, read
-- with the prompt that is meant. The loader finds just these, and fails where there are none.
import Transcript.Application
import Transcript.Proofs.Run.Verdict
import Transcript.Proofs.Settings.Fields

namespace Transcript.Application

variable {σ : Type} {system : System σ} {s : σ} {settingsFile : Option String}
  {choice : CommandLine.RunChoice} {settings : Settings} {corpus : Corpus}

/-! ## The user's file -/

/-- The path of a name in a directory. -/
inductive IsBelow (directory name : String) : String → Prop where
  | apart : directory.toList.getLast? ≠ some '/' → IsBelow directory name (directory ++ "/" ++ name)
  | ended : directory.toList.getLast? = some '/' → IsBelow directory name (directory ++ name)

/-- The home directory of the user: the one that is named, or else that of the account. -/
inductive IsHome (system : System σ) (s : σ) : String → Prop where
  | named {home : String} :
      system.environment "HOME" s = some home → home ≠ "" → IsHome system s home
  | account {home : String} :
      (∀ named, system.environment "HOME" s = some named → named = "") →
      system.accountHome s = some home → home ≠ "" → IsHome system s home

/-- The directory for settings: the one that is named, if its path is absolute, or else one in
the home directory. -/
inductive IsForSettings (system : System σ) (s : σ) (home : String) : String → Prop where
  | named {directory : String} :
      system.environment "XDG_CONFIG_HOME" s = some directory → ['/'] <+: directory.toList →
      IsForSettings system s home directory
  | inHome {directory : String} :
      (∀ named, system.environment "XDG_CONFIG_HOME" s = some named → ¬ ['/'] <+: named.toList) →
      IsBelow home ".config" directory → IsForSettings system s home directory

/-- The file that a user with a home directory keeps settings in. -/
inductive IsUserFile (system : System σ) (s : σ) : String → Prop where
  | intro {home all own path : String} :
      IsHome system s home → IsForSettings system s home all → IsBelow all "golden-replay" own →
      IsBelow own "config.toml" path → IsUserFile system s path

theorem singleton_prefix_iff {c : Char} {text : List Char} :
    [c] <+: text ↔ text.head? = some c := by
  cases text <;> simp [eq_comm]

theorem below_eq_iff {directory : String} (h : directory ≠ "") (name path : String) :
    below directory name = path ↔ IsBelow directory name path := by
  unfold below
  by_cases hlast : directory.toList.getLast? = some '/'
  · rw [if_pos (.inr hlast)]
    constructor
    · rintro rfl
      exact .ended hlast
    · rintro (hapart | -)
      · exact absurd hlast hapart
      · rfl
  · have hempty : ¬ (directory.isEmpty = true ∨ directory.toList.getLast? = some '/') := by
      simp [String.isEmpty_iff, h, hlast]
    rw [if_neg hempty]
    constructor
    · rintro rfl
      exact .apart hlast
    · rintro (- | hended)
      · rfl
      · exact absurd hended hlast

theorem IsBelow.ne_empty {directory name path : String} (h : IsBelow directory name path)
    (hname : name ≠ "") : path ≠ "" := by
  cases h <;> simp [hname]

theorem homeDirectory?_eq_some_iff {home : String} :
    homeDirectory? system s = some home ↔ IsHome system s home := by
  have hnone : (system.environment "HOME" s).filter (fun d => !d.isEmpty) = none ↔
      ∀ named, system.environment "HOME" s = some named → named = "" := by
    simp [Option.filter_eq_none_iff]
  rw [homeDirectory?, Option.or_eq_some_iff, hnone, Option.filter_eq_some_iff,
    Option.filter_eq_some_iff]
  simp only [Bool.not_eq_true', String.isEmpty_eq_false_iff]
  constructor
  · rintro (⟨hnamed, hne⟩ | ⟨hunnamed, haccount, hne⟩)
    · exact .named hnamed hne
    · exact .account hunnamed haccount hne
  · rintro (⟨hnamed, hne⟩ | ⟨hunnamed, haccount, hne⟩)
    · exact .inl ⟨hnamed, hne⟩
    · exact .inr ⟨hunnamed, haccount, hne⟩

theorem IsHome.ne_empty {home : String} (h : IsHome system s home) : home ≠ "" := by
  rcases h with ⟨-, hne⟩ | ⟨-, -, hne⟩ <;> exact hne

/-- The directory for settings of a user with this home directory. -/
theorem isForSettings_iff {home all : String} (hhome : home ≠ "") :
    ((system.environment "XDG_CONFIG_HOME" s).filter fun d => d.toList.head? = some '/').getD
        (below home ".config") = all ↔ IsForSettings system s home all := by
  rcases hnamed : (system.environment "XDG_CONFIG_HOME" s).filter
      fun d => d.toList.head? = some '/' with _ | named
  · have hnone : ∀ named, system.environment "XDG_CONFIG_HOME" s = some named →
        ¬ ['/'] <+: named.toList := by
      intro named hset hprefix
      have hhead := Option.filter_eq_none_iff.mp hnamed named hset
      simp [singleton_prefix_iff.mp hprefix] at hhead
    rw [hnamed, Option.getD_none, below_eq_iff hhome]
    constructor
    · exact .inHome hnone
    · rintro (⟨hset, hprefix⟩ | ⟨-, hbelow⟩)
      · exact absurd hprefix (hnone _ hset)
      · exact hbelow
  · obtain ⟨hset, hhead⟩ := Option.filter_eq_some_iff.mp hnamed
    have hprefix : ['/'] <+: named.toList := singleton_prefix_iff.mpr (of_decide_eq_true hhead)
    rw [hnamed, Option.getD_some]
    constructor
    · rintro rfl
      exact .named hset hprefix
    · rintro (⟨hother, -⟩ | ⟨hunnamed, -⟩)
      · exact Option.some.inj (hset.symm.trans hother)
      · exact absurd hprefix (hunnamed _ hset)

theorem IsForSettings.ne_empty {home all : String} (h : IsForSettings system s home all) :
    all ≠ "" := by
  rcases h with ⟨-, hprefix⟩ | ⟨-, hbelow⟩
  · rintro rfl
    simp at hprefix
  · exact hbelow.ne_empty (by decide)

/-- The tool looks for the user's settings in the user's file. -/
theorem settingsFile?_eq_some_iff {path : String} :
    settingsFile? system s = some path ↔ IsUserFile system s path := by
  simp only [settingsFile?, settingsDirectory?, Option.map_map, Option.map_eq_some_iff,
    Function.comp_apply, homeDirectory?_eq_some_iff]
  constructor
  · rintro ⟨home, hhome, hpath⟩
    have hall : IsForSettings system s home _ := (isForSettings_iff hhome.ne_empty).mp rfl
    have hown := (below_eq_iff hall.ne_empty "golden-replay" _).mp rfl
    exact .intro hhome hall hown ((below_eq_iff (hown.ne_empty (by decide)) _ _).mp hpath)
  · rintro ⟨hhome, hall, hown, hpath⟩
    refine ⟨_, hhome, ?_⟩
    rw [(isForSettings_iff hhome.ne_empty).mpr hall, (below_eq_iff hall.ne_empty _ _).mpr hown,
      (below_eq_iff (hown.ne_empty (by decide)) _ _).mpr hpath]

theorem IsUserFile.eq {path other : String} (h : IsUserFile system s path)
    (hother : IsUserFile system s other) : other = path := by
  rw [← settingsFile?_eq_some_iff] at h hother
  exact Option.some.inj (hother.symm.trans h)

/-! ## Settings -/

/-- The settings that a run finds: those of the file that is named for them, or else of the
user's file if it is there, or else the defaults. -/
inductive FindsSettings (system : System σ) (s : σ) : Option String → Settings → Prop where
  | named {path text : String} {settings : Settings} :
      system.readText path s = .ok text → Settings.parse text = .ok settings →
      FindsSettings system s (some path) settings
  | users {path text : String} {settings : Settings} :
      IsUserFile system s path → system.isThere path s = true →
      system.readText path s = .ok text → Settings.parse text = .ok settings →
      FindsSettings system s none settings
  | defaults :
      (∀ path, IsUserFile system s path → system.isThere path s = false) →
      FindsSettings system s none .default

theorem readSettings_eq_ok_iff {path : String} :
    readSettings system s path = .ok settings ↔
      ∃ text, system.readText path s = .ok text ∧ Settings.parse text = .ok settings := by
  unfold readSettings
  simp only [bind_eq_ok_iff, mapError_eq_ok_iff, readFile]

theorem loadSettings_eq_ok_iff :
    loadSettings system s settingsFile = .ok settings ↔
      FindsSettings system s settingsFile settings := by
  rcases settingsFile with _ | path
  · rcases hfile : settingsFile? system s with _ | path
    · have hnone : ∀ path, ¬ IsUserFile system s path := by
        intro path hpath
        rw [settingsFile?_eq_some_iff.mpr hpath] at hfile
        cases hfile
      simp only [loadSettings, hfile]
      constructor
      · rintro ⟨⟩
        exact .defaults fun path hpath => absurd hpath (hnone path)
      · rintro (- | ⟨hpath, -, -, -⟩ | -)
        · exact absurd hpath (hnone _)
        · rfl
    · have huser := settingsFile?_eq_some_iff.mp hfile
      simp only [loadSettings, hfile]
      split
      · rename_i hthere
        rw [readSettings_eq_ok_iff]
        constructor
        · rintro ⟨text, htext, hparse⟩
          exact .users huser hthere htext hparse
        · rintro (- | ⟨hpath, -, htext, hparse⟩ | hnone)
          · obtain rfl := huser.eq hpath
            exact ⟨_, htext, hparse⟩
          · rw [hnone path huser] at hthere
            cases hthere
      · rename_i hmissing
        constructor
        · rintro ⟨⟩
          refine .defaults fun other hother => ?_
          rw [huser.eq hother]
          exact Bool.eq_false_iff.mpr hmissing
        · rintro (- | ⟨hpath, hthere, -, -⟩ | -)
          · rw [huser.eq hpath] at hthere
            exact absurd hthere hmissing
          · rfl
  · rw [loadSettings, readSettings_eq_ok_iff]
    constructor
    · rintro ⟨text, htext, hparse⟩
      exact .named htext hparse
    · rintro ⟨htext, hparse⟩
      exact ⟨_, htext, hparse⟩

/-! ## The corpus -/

/-- The text of a corpus: that of its file, or the scenario. -/
inductive CorpusText (system : System σ) (s : σ) : Option String → String → Prop where
  | file {path text : String} :
      system.readText path s = .ok text → CorpusText system s (some path) text
  | scenario : CorpusText system s none Corpus.scenario

theorem loadCorpus_eq_ok_iff {settings : CorpusSettings} :
    loadCorpus system s settings = .ok corpus ↔
      ∃ text, CorpusText system s settings.path text ∧
        Corpus.parse settings.prompt text = .ok corpus := by
  rcases settings with ⟨prompt, _ | path⟩
  · constructor
    · exact fun h => ⟨_, .scenario, h⟩
    · rintro ⟨_, ⟨⟩, h⟩
      exact h
  · have hread : loadCorpus system s ⟨prompt, some path⟩ =
        readFile system s path >>= Corpus.parse prompt := rfl
    rw [hread, bind_eq_ok_iff]
    constructor
    · rintro ⟨text, htext, h⟩
      exact ⟨text, .file (mapError_eq_ok_iff.mp htext), h⟩
    · rintro ⟨text, ⟨htext⟩, h⟩
      exact ⟨text, mapError_eq_ok_iff.mpr htext, h⟩

/-! ## Both -/

/-- The settings that a run finds and the corpus that it is to replay: the text that is meant,
read with the prompt that is meant. -/
structure Loads (system : System σ) (s : σ) (settingsFile : Option String)
    (choice : CommandLine.RunChoice) (settings : Settings) (corpus : Corpus) : Prop where
  finds : FindsSettings system s settingsFile settings
  reads : ∃ text, CorpusText system s (choice.corpus.path.or settings.corpus.path) text ∧
    Corpus.parse (choice.corpus.prompt.getD settings.corpus.prompt) text = .ok corpus

/-- What a run loads, or the failure that keeps it from loading. -/
def load (system : System σ) (s : σ) (settingsFile : Option String)
    (choice : CommandLine.RunChoice) : Except Failure (Settings × Corpus) := do
  let settings ← loadSettings system s settingsFile
  let corpus ← loadCorpus system s (choice.corpus.apply settings.corpus)
  return (settings, corpus)

theorem load_eq_ok_iff :
    load system s settingsFile choice = .ok (settings, corpus) ↔
      Loads system s settingsFile choice settings corpus := by
  unfold load
  rw [bind_eq_ok_iff]
  constructor
  · rintro ⟨found, hsettings, h⟩
    obtain ⟨parsed, hcorpus, ⟨⟩⟩ := bind_eq_ok_iff.mp h
    exact ⟨loadSettings_eq_ok_iff.mp hsettings, loadCorpus_eq_ok_iff.mp hcorpus⟩
  · rintro ⟨hsettings, hcorpus⟩
    exact ⟨settings, loadSettings_eq_ok_iff.mpr hsettings,
      bind_eq_ok_iff.mpr ⟨corpus, loadCorpus_eq_ok_iff.mpr hcorpus, rfl⟩⟩

end Transcript.Application

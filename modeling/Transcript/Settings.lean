-- The settings of a run, and the values they have when nothing else is said.
import Transcript.Keyed
import Transcript.Corpus.Parser

namespace Transcript

/-- How the server is started and stopped. -/
structure ServerSettings where
  command : String
  /-- The pause after the start, before the first case, in milliseconds. -/
  warmup : Nat
  /-- The time to end in after a request to stop, in milliseconds. -/
  grace : Nat
  directory : Option String
deriving DecidableEq

/-- How client commands are run. -/
structure ClientSettings where
  directory : Option String
  /-- Variables that are set for the commands. -/
  environment : Keyed String
deriving DecidableEq

/-- Where the corpus comes from and how it is read. -/
structure CorpusSettings where
  prompt : String
  /-- The corpus file; without one the scenario is replayed. -/
  path : Option String
deriving DecidableEq

/-- How a run is shown. -/
structure OutputSettings where
  progress : Bool
  colours : Bool
deriving DecidableEq

structure Settings where
  server : ServerSettings
  client : ClientSettings
  corpus : CorpusSettings
  output : OutputSettings
deriving DecidableEq

def ServerSettings.default : ServerSettings := ⟨"bazel run //server:server", 1000, 2000, none⟩

def ClientSettings.default : ClientSettings := ⟨none, []⟩

def CorpusSettings.default : CorpusSettings := ⟨Corpus.defaultPrompt, none⟩

def OutputSettings.default : OutputSettings := ⟨true, true⟩

def Settings.default : Settings := ⟨.default, .default, .default, .default⟩

end Transcript

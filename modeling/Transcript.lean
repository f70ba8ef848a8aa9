import Transcript.Main
import Transcript.Proofs.Recording
import Transcript.Proofs.SortedSet.Agreement
import Transcript.Proofs.SortedSet.Clients
import Transcript.Proofs.SortedSet.Connections
import Transcript.Proofs.Corpus.Range
import Transcript.Proofs.Json.Numerals
import Transcript.Proofs.Json.Strings
import Transcript.Proofs.Run.Composition
import Transcript.Proofs.Run.Events
import Transcript.Proofs.Run.Lifecycle
import Transcript.Proofs.Text.Utf8
import Transcript.Proofs.Json.Compact
import Transcript.Proofs.SortedSet.Wire
import Transcript.Proofs.Application.ExitCode
import Transcript.Proofs.SortedSet.Observation
import Transcript.Proofs.SortedSet.Paging
import Transcript.Proofs.SortedSet.Traceless
import Transcript.Proofs.Words.Arguments
import Transcript.Proofs.Divergence
import Transcript.Proofs.Mismatch
import Transcript.Proofs.SortedSet.Unambiguous
import Transcript.Proofs.SortedSet.Scores
import Transcript.Proofs.Corpus.Concatenation
import Transcript.Proofs.Run.Verdict
import Transcript.Proofs.Run.Console
import Transcript.Proofs.Report
import Transcript.Proofs.Corpus.Columns
import Transcript.Proofs.Run.Turns
import Transcript.Proofs.Toml.Keys
import Transcript.Proofs.Settings.Fields
import Transcript.Proofs.Settings.Layers
import Transcript.Proofs.Host.Programs
import Transcript.Proofs.Host.Arithmetic

-- What machines are told. The summary of a run and the list of a corpus are printed as one
-- document each, and nothing of them is lost: the document has one value, in which all of it
-- can be found, so what is printed tells any two of them apart.
import Transcript.Application
import Transcript.Proofs.Json.Layout

namespace Transcript

/-! ## Values without points and powers -/

namespace Json

theorem plain_ofOption {α : Type} {f : α → Json} (h : ∀ a, Plain (f a)) (a? : Option α) :
    Plain (.ofOption f a?) := by
  cases a? with
  | none => exact .null
  | some a => exact h a

end Json

theorem Corpus.plain_toJson (c : Corpus) : c.toJson.Plain := by
  have hcase : ∀ case : Case, case.toJson.Plain := fun case => .obj (by simp [Json.Plain.str])
  refine .arr fun item hitem => ?_
  obtain ⟨case, -, rfl⟩ := List.mem_map.mp hitem
  exact hcase case

theorem FailureReport.plain_toJson (r : FailureReport) : r.toJson.Plain := by
  have hactual := Json.plain_ofOption Json.Plain.str r.actual
  exact .obj (by simp [Json.Plain.str, hactual])

theorem Phase.plain_toJson (p : Phase) : p.toJson.Plain := by
  cases p <;> exact .obj (by simp [Json.Plain.str, Json.Plain.int])

theorem Summary.plain_toJson (s : Summary) : s.toJson.Plain := by
  have hfailure := Json.plain_ofOption FailureReport.plain_toJson s.failure
  exact .obj (by simp [Json.Plain.bool, Json.Plain.int, s.phase.plain_toJson, hfailure])

/-! ## What a value is of -/

theorem Json.ofOption_injective {α : Type} {f : α → Json} (hf : Function.Injective f)
    (hnull : ∀ a, f a ≠ .null) : Function.Injective (Json.ofOption f) := by
  intro a? b? h
  cases a? <;> cases b?
  · rfl
  · exact absurd h.symm (hnull _)
  · exact absurd h (hnull _)
  · rw [hf h]

theorem Case.toJson_injective : Function.Injective Case.toJson := by
  rintro ⟨command, expected⟩ ⟨command', expected'⟩ h
  simpa [toJson] using h

/-- The value of a corpus is of no other corpus. -/
theorem Corpus.toJson_injective : Function.Injective Corpus.toJson := by
  rintro ⟨as⟩ ⟨bs⟩ h
  have hcases : as = bs := List.map_injective_iff.mpr Case.toJson_injective (Json.arr.inj h)
  rw [hcases]

theorem FailureReport.toJson_injective : Function.Injective FailureReport.toJson := by
  have hactuals := Json.ofOption_injective (fun _ _ => Json.str.inj) fun _ => nofun
  rintro ⟨kind, message, command, actual, expected⟩ ⟨kind', message', command', actual', expected'⟩ h
  have hfields := Json.obj.inj h
  simp only [List.cons.injEq, Prod.mk.injEq, Json.str.injEq, true_and, and_true] at hfields
  obtain ⟨rfl, rfl, rfl, hactual, rfl⟩ := hfields
  rw [hactuals hactual]

theorem Phase.toJson_injective : Function.Injective Phase.toJson := by
  intro p q h
  cases p <;> cases q
  case running.running index other =>
    have hindex : (index : Int) = other := by simpa [toJson, name] using h
    rw [Int.ofNat_inj.mp hindex]
  all_goals simp_all [toJson, name]

/-- The value of a summary is of no other summary. -/
theorem Summary.toJson_injective : Function.Injective Summary.toJson := by
  have hfailures := Json.ofOption_injective FailureReport.toJson_injective fun _ => nofun
  rintro ⟨passed, phase, run, total, failure⟩ ⟨passed', phase', run', total', failure'⟩ h
  have hfields := Json.obj.inj h
  simp only [List.cons.injEq, Prod.mk.injEq, Json.bool.injEq, Json.int.injEq, true_and,
    and_true] at hfields
  obtain ⟨rfl, hphase, hrun, htotal, hfailure⟩ := hfields
  rw [Phase.toJson_injective hphase, Int.ofNat_inj.mp hrun, Int.ofNat_inj.mp htotal,
    hfailures hfailure]

/-! ## What is printed -/

/-- What is printed of a run as a document, and of a corpus, is one document and a newline. Read by
the grammar, with any meaning of numbers that are not whole, the document has one value: that of
all fields of the summary, with the case where one is running, and with null for a failure or an
output that is absent; and that of the cases of the corpus, in order. So no two summaries are
printed alike, and no two corpora. -/
theorem documents_lose_nothing {σ : Type} (system : System σ) (state : σ)
    (real : List Char → Binary64) :
    (∀ s : Summary, ∃ text, (Observer.document.observe (.runFinished s)).2 = text ++ "\n" ∧
      ∀ v, Json.IsDocument real v text.toList ↔ v = .obj
        [("passed", .bool s.passed),
          ("state", .obj (("phase", .str s.phase.name) :: match s.phase with
            | .running index => [("case", .int index)]
            | _ => [])),
          ("cases_run", .int s.casesRun), ("cases_total", .int s.casesTotal),
          ("failure", match s.failure with
            | none => .null
            | some r => .obj
              [("kind", .str r.kind), ("message", .str r.message), ("command", .str r.command),
                ("actual", match r.actual with
                  | none => .null
                  | some actual => .str actual),
                ("expected", .str r.expected)])]) ∧
      (∀ c : Corpus, ∃ text, (Application.list system state c true).stdout = text ++ "\n" ∧
        ∀ v, Json.IsDocument real v text.toList ↔ v = .arr (c.cases.map fun case =>
          .obj [("command", .str case.command), ("expected_output", .str case.expected)])) ∧
      (Function.Injective fun s : Summary => (Observer.document.observe (.runFinished s)).2) ∧
      Function.Injective fun c : Corpus => (Application.list system state c true).stdout := by
  have hend : ∀ {text other : String}, text ++ "\n" = other ++ "\n" → text = other := by
    intro text other h
    rw [← String.toList_inj, String.toList_append, String.toList_append] at h
    exact String.toList_inj.mp (List.append_cancel_right h)
  refine ⟨fun s => ⟨s.toJson.pretty, rfl, fun v => ?_⟩,
    fun c => ⟨c.toJson.pretty, rfl, fun v => Json.isDocument_pretty_iff c.plain_toJson v⟩,
    fun a b h => ?_, fun a b h => ?_⟩
  · rw [Json.isDocument_pretty_iff s.plain_toJson v]
    refine iff_of_eq (congrArg (v = ·) ?_)
    rcases s with ⟨passed, _ | _ | index | _ | _, casesRun, casesTotal,
      _ | ⟨kind, message, command, _ | actual, expected⟩⟩ <;> rfl
  · exact Summary.toJson_injective (Json.eq_of_pretty_eq a.plain_toJson b.plain_toJson (hend h))
  · exact Corpus.toJson_injective (Json.eq_of_pretty_eq a.plain_toJson b.plain_toJson (hend h))

end Transcript

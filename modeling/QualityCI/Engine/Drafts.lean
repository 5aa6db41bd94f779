import QualityCI.Engine.Evaluate
import QualityCI.Loader.Accepted

/-!
# Documents that are not approved

Every rule reads the documents through `document_by_type` or through the approved ones; only the
evidence of a missing document lists them all.  So two cases with the same approved documents get
the same statuses, whatever drafts and obsolete documents stand between them.

* `DifferInDrafts` — two cases that differ only in their documents that are not approved.
* **`drafts_inert`** — their runs have the same statuses.
-/

namespace QualityCI

open Py

/-- **The cases differ only in documents that are not approved**: they have the same entries
besides the documents, and the same approved documents in the same order. -/
structure DifferInDrafts (a b : Dict) : Prop where
  others : ∀ key, key ≠ "documents" → a.get? key = b.get? key
  approved : approvedDocuments a = approvedDocuments b

section Rules

variable {a b : Dict}

/-- The documents of a type that count are the approved ones of that type. -/
lemma filter_isApprovedOf (case : Dict) (documentType : String) :
    (documentsOf case).filter (isApprovedOf documentType) =
      (approvedDocuments case).filter
        fun doc => decide (doc.get? "document_type" = some (.str documentType)) := by
  rw [approvedDocuments, List.filter_filter]
  rfl

lemma DifferInDrafts.documentByType (h : DifferInDrafts a b) (documentType : String) :
    QualityCI.documentByType a documentType = QualityCI.documentByType b documentType := by
  rw [documentByType_eq, documentByType_eq, filter_isApprovedOf, filter_isApprovedOf, h.approved]

lemma DifferInDrafts.dictAt (h : DifferInDrafts a b) {key : String} (hkey : key ≠ "documents") :
    a.dictAt key = b.dictAt key := by
  simp only [Dict.dictAt, h.others key hkey]

lemma DifferInDrafts.textAt (h : DifferInDrafts a b) {key : String} (hkey : key ≠ "documents") :
    a.textAt key = b.textAt key := by
  simp only [Dict.textAt, h.others key hkey]

lemma DifferInDrafts.event (h : DifferInDrafts a b) : a.dictAt "event" = b.dictAt "event" :=
  h.dictAt (by decide)

variable [PyUnicode]

lemma DifferInDrafts.buildImpactPlan (h : DifferInDrafts a b) :
    QualityCI.buildImpactPlan a = QualityCI.buildImpactPlan b := by
  simp only [QualityCI.buildImpactPlan, h.event]

omit [PyUnicode] in
lemma DifferInDrafts.legacyUnboundEvidence (h : DifferInDrafts a b) :
    QualityCI.legacyUnboundEvidence a = QualityCI.legacyUnboundEvidence b := by
  funext documents
  simp only [QualityCI.legacyUnboundEvidence, Dict.contains,
    h.others "relationship_migration" (by decide)]
  rfl

/-! ## The rules

Each rule reads the two cases alike; where it cites the types of all documents, its status is the
same.
-/

lemma DifferInDrafts.coverSteps (h : DifferInDrafts a b) (plan : ImpactPlan)
    (flow pfmea control : Dict) :
    QualityCI.coverSteps a plan flow pfmea control =
      QualityCI.coverSteps b plan flow pfmea control := by
  simp only [QualityCI.coverSteps, coverListed, h.event, h.legacyUnboundEvidence]

lemma DifferInDrafts.ruleProcessCoverage (h : DifferInDrafts a b) (plan : ImpactPlan) :
    (QualityCI.ruleProcessCoverage a plan).map Finding.status =
      (QualityCI.ruleProcessCoverage b plan).map Finding.status := by
  simp only [QualityCI.ruleProcessCoverage, h.documentByType, h.coverSteps]
  split
  · split_ifs
    · simp only [Except.map, finding_status]
    · rfl
  · simp only [Except.map, finding_status]

lemma DifferInDrafts.ruleSpecConsistency (h : DifferInDrafts a b) (plan : ImpactPlan) :
    (QualityCI.ruleSpecConsistency a plan).status =
      (QualityCI.ruleSpecConsistency b plan).status := by
  simp only [QualityCI.ruleSpecConsistency, h.documentByType, h.event, h.legacyUnboundEvidence]
  split
  · split_ifs
    · simp only [finding_status]
    · rfl
    · rfl
  · simp only [finding_status]

lemma DifferInDrafts.ruleSpecialCharacteristicControl (h : DifferInDrafts a b)
    (plan : ImpactPlan) :
    (QualityCI.ruleSpecialCharacteristicControl a plan).status =
      (QualityCI.ruleSpecialCharacteristicControl b plan).status := by
  simp only [QualityCI.ruleSpecialCharacteristicControl, h.documentByType, h.event,
    h.legacyUnboundEvidence]
  split
  · rfl
  · simp only [finding_status]

lemma DifferInDrafts.ruleRevisionAfterApproval (h : DifferInDrafts a b) :
    QualityCI.ruleRevisionAfterApproval a = QualityCI.ruleRevisionAfterApproval b := by
  simp only [QualityCI.ruleRevisionAfterApproval, h.event, h.approved]

omit [PyUnicode] in
lemma DifferInDrafts.ruleInspectionCurrentReferences (h : DifferInDrafts a b)
    (context : Option ReferenceContext) :
    (QualityCI.ruleInspectionCurrentReferences a context).status =
      (QualityCI.ruleInspectionCurrentReferences b context).status := by
  simp only [QualityCI.ruleInspectionCurrentReferences, h.documentByType]
  split
  · rfl
  · simp only [finding_status]

lemma DifferInDrafts.reportMismatches (h : DifferInDrafts a b) :
    QualityCI.reportMismatches a = QualityCI.reportMismatches b := by
  funext event requirement context report
  simp only [QualityCI.reportMismatches, reportComparisons,
    h.textAt (show "schema_version" ≠ "documents" by decide)]

lemma DifferInDrafts.ruleValidationEvidence (h : DifferInDrafts a b)
    (context : Option ValidationContext) :
    QualityCI.ruleValidationEvidence a context = QualityCI.ruleValidationEvidence b context := by
  simp only [QualityCI.ruleValidationEvidence, h.event, contextRequiredCode,
    h.dictAt (show "validation_migration" ≠ "documents" by decide), reviewReports,
    compareReports, h.reportMismatches]

omit [PyUnicode] in
lemma DifferInDrafts.ruleHighRiskApproval (h : DifferInDrafts a b) :
    QualityCI.ruleHighRiskApproval a = QualityCI.ruleHighRiskApproval b := by
  simp only [QualityCI.ruleHighRiskApproval, h.event]

/-- **The findings before printing have the same statuses.** -/
theorem DifferInDrafts.statuses (h : DifferInDrafts a b) {plan : ImpactPlan}
    {reference : Option ReferenceContext} {validation : Option ValidationContext}
    (f : RuleFindings a plan reference validation) (g : RuleFindings b plan reference validation) :
    f.all.map Finding.status = g.all.map Finding.status := by
  have hcoverage : f.coverage.status = g.coverage.status := by
    have heq := h.ruleProcessCoverage plan
    rw [f.coverage_eq, g.coverage_eq] at heq
    exact Except.ok.inj heq
  have hrevision : f.revision = g.revision := by
    have heq := h.ruleRevisionAfterApproval
    rw [f.revision_eq, g.revision_eq] at heq
    exact Except.ok.inj heq
  have hevidence : f.evidence = g.evidence := by
    have heq := h.ruleValidationEvidence validation
    rw [f.evidence_eq, g.evidence_eq] at heq
    exact Except.ok.inj heq
  simp only [RuleFindings.all, List.map_cons, List.map_nil, hcoverage, hrevision, hevidence,
    h.ruleSpecConsistency, h.ruleSpecialCharacteristicControl, h.ruleInspectionCurrentReferences,
    h.ruleHighRiskApproval]

/-- **Documents that are not approved are inert**: they change no status of a run. -/
theorem drafts_inert (ha : validateCaseDict a = .ok ()) (hb : validateCaseDict b = .ok ())
    (h : DifferInDrafts a b) {reference : Option ReferenceContext}
    {validation : Option ValidationContext} {run run' : RunResult}
    (hrun : evaluateCase a reference validation = .ok run)
    (hrun' : evaluateCase b reference validation = .ok run') :
    run.findings.length = 7 ∧
      run.findings.map Finding.status = run'.findings.map Finding.status ∧
      run.overallStatus = run'.overallStatus := by
  simp only [evaluateCase, prepareCase_current ha] at hrun
  simp only [evaluateCase, prepareCase_current hb] at hrun'
  obtain ⟨plan, hplan, f, printed, hprinted, _, -, _, -, rfl⟩ := evaluatePrepared_eq_ok.mp hrun
  obtain ⟨plan', hplan', g, printed', hprinted', _, -, _, -, rfl⟩ :=
    evaluatePrepared_eq_ok.mp hrun'
  obtain rfl : plan = plan' := by
    rw [h.buildImpactPlan, hplan'] at hplan
    exact (Except.ok.inj hplan).symm
  have hstatuses : printed.map Finding.status = printed'.map Finding.status := by
    rw [map_status_print hprinted, map_status_print hprinted', h.statuses f g]
  refine ⟨?_, hstatuses, by simp only [hstatuses]⟩
  have hlength := congrArg List.length (map_status_print hprinted)
  simpa [RuleFindings.all] using hlength

end Rules

section Ascii

attribute [local instance] asciiUnicode

/-- The sample with a draft of a work instruction that has no rows before its documents. -/
def draftedCase : Dict :=
  sampleCase (sampleEvent "LOW" [] [])
    (sampleDocument "SOP-DRAFT" "SOP" "DRAFT" [("characteristics", .arr [])] [] :: sampleDocuments)

/-- The sample with and without the draft. -/
theorem drafts_inert_sample : ∃ run run',
    evaluateCase (sampleCase (sampleEvent "LOW" [] []) sampleDocuments) none none = .ok run ∧
      evaluateCase draftedCase none none = .ok run' ∧ run.findings.length = 7 ∧
      run.findings.map Finding.status = run'.findings.map Finding.status ∧
      run.overallStatus = run'.overallStatus := by
  have hreturns : (evaluateCase (sampleCase (sampleEvent "LOW" [] []) sampleDocuments)
      none none).toOption.isSome = true := by decide +kernel
  have hreturns' : (evaluateCase draftedCase none none).toOption.isSome = true := by
    decide +kernel
  obtain ⟨run, hrun⟩ := exists_ok_of_isSome hreturns
  obtain ⟨run', hrun'⟩ := exists_ok_of_isSome hreturns'
  have hdrafts : DifferInDrafts (sampleCase (sampleEvent "LOW" [] []) sampleDocuments)
      draftedCase := by
    refine ⟨fun key hkey => ?_, by decide +kernel⟩
    simp only [draftedCase, sampleCase, Dict.ofList, List.foldl_cons, List.foldl_nil,
      Dict.get?_set, if_neg hkey.symm]
  exact ⟨run, run', hrun, hrun',
    drafts_inert (by decide +kernel) (by decide +kernel) hdrafts hrun hrun'⟩

end Ascii

end QualityCI

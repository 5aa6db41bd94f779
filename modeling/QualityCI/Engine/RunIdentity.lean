import QualityCI.Engine.CoverageOrder
import QualityCI.Engine.GateOrder
import QualityCI.Engine.SpecificationOrder
import QualityCI.Engine.Release

/-!
# One name, one run

A run is named by the hash of its case's projection, which forgets the order of lists, and the
rules read the case as it stands.  Two cases with one projection therefore give runs of one name,
and the runs are equal exactly when the lists that the rules cite come in one order.

* `CitedAlike` — the lists that the rules cite come in one order.
* **`evaluateCase_same_projection_iff`** — cases with one projection run alike exactly then.
* `evaluateCase_reversed_documents` — two runs of one name that differ.
-/

namespace QualityCI

open Py

section Runs

variable [PyUnicode] {a b : Dict}

/-- **The lists that the rules cite come in one order.** -/
structure CitedAlike (a b : Dict) : Prop where
  coverage : CoverageAlike a b
  specifications : SpecsAlike a b
  specials : SpecialsAlike a b
  revisions : RevisionsAlike a b
  approvals : ApprovalsAlike a b

/-- The seven rules' findings print alike exactly when the cited lists come in one order. -/
lemma Comparable.ruleResults_agree_iff {plan : ImpactPlan} (h : Comparable a b plan)
    {reference : Option ReferenceContext} {validation : Option ValidationContext}
    (hprints : ∀ rule ∈ ruleResults a plan reference validation,
      ∃ p, printRule rule = .ok p) :
    List.Forall₂ (Agree printRule) (ruleResults a plan reference validation)
      (ruleResults b plan reference validation) ↔ CitedAlike a b := by
  simp only [ruleResults, List.forall_mem_cons, List.not_mem_nil, IsEmpty.forall_iff,
    implies_true, and_true] at hprints
  obtain ⟨h1, h2, h3, h4, h5, h6, h7⟩ := hprints
  have hreferences := agree_of_eq
    (congrArg Except.ok (h.aligned.ruleInspectionCurrentReferences h.left reference)) h5
  have hevidence := agree_of_eq (h.aligned.ruleValidationEvidence h.left validation) h6
  simp only [ruleResults, List.forall₂_cons, List.forall₂_nil_left_iff, and_true,
    h.ruleProcessCoverage_agree_iff h1, h.ruleSpecConsistency_agree_iff h2,
    h.ruleSpecialCharacteristicControl_agree_iff h3, h.ruleRevisionAfterApproval_agree_iff h4,
    h.ruleHighRiskApproval_agree_iff h7]
  constructor
  · rintro ⟨hc, hs, hsp, hr, -, -, ha⟩
    exact ⟨hc, hs, hsp, hr, ha⟩
  · intro hal
    exact ⟨hal.coverage, hal.specifications, hal.specials, hal.revisions, hreferences, hevidence,
      hal.approvals⟩

/-- Cases with one projection have runs of one name, and these are equal exactly when the cited
lists come in one order. -/
lemma evaluatePrepared_same_projection_iff {source : CaseSourceAssurance}
    {reference : Option ReferenceContext} {validation : Option ValidationContext}
    {run : RunResult} (wa : (Json.obj a).WF) (wb : (Json.obj b).WF)
    (ha : validateCaseDict a = .ok ()) (hb : validateCaseDict b = .ok ())
    (hagree : Agree canonicalCaseProjection a b)
    (hrun : evaluatePrepared a source reference validation = .ok run) :
    (∀ run', evaluatePrepared b source reference validation = .ok run' →
      run'.caseHash = run.caseHash ∧ run'.runId = run.runId) ∧
    (evaluatePrepared b source reference validation = .ok run ↔ CitedAlike a b) := by
  have haccepted := validateCase_accepted ha
  have hbaccepted := validateCase_accepted hb
  have haligned := aligned_of_agree wa wb haccepted hbaccepted hagree
  have hplans := haligned.buildImpactPlan haccepted
  have hhashes := canonicalHash_eq_of_agree ha hb hagree
  obtain ⟨plan, hplan, printed, hprinted, caseHash, hhash, runId, hid, rfl⟩ :=
    evaluateHashed_eq_ok_printed.mp hrun
  have hcomparable : Comparable a b plan := ⟨haccepted, hbaccepted, wa, wb, haligned, hplan⟩
  have hrules : Agree (mapEach printRule) (ruleResults a plan reference validation)
      (ruleResults b plan reference validation) ↔ CitedAlike a b := by
    rw [agree_mapEach_iff]
    refine hcomparable.ruleResults_agree_iff fun rule hrule => ?_
    obtain ⟨p, -, hp⟩ := mapEach_mem hprinted hrule
    exact ⟨p, hp⟩
  have hparts : ∀ run', evaluatePrepared b source reference validation = .ok run' →
      run'.caseHash = caseHash ∧ run'.runId = runId ∧
        mapEach printRule (ruleResults b plan reference validation) = .ok run'.findings := by
    intro run' hrun'
    obtain ⟨plan', hplan', printed', hprinted', caseHash', hhash', runId', hid', rfl⟩ :=
      evaluateHashed_eq_ok_printed.mp hrun'
    rw [← hplans, hplan] at hplan'
    obtain rfl := Except.ok.inj hplan'
    rw [← hhashes, hhash] at hhash'
    obtain rfl := Except.ok.inj hhash'
    rw [hid] at hid'
    obtain rfl := Except.ok.inj hid'
    exact ⟨rfl, rfl, hprinted'⟩
  refine ⟨fun run' hrun' => ⟨(hparts run' hrun').1, (hparts run' hrun').2.1⟩, ?_⟩
  rw [← hrules]
  constructor
  · intro hb'
    exact ⟨printed, hprinted, (hparts _ hb').2.2⟩
  · rintro ⟨printed', hprintedA, hprintedB⟩
    rw [hprinted] at hprintedA
    obtain rfl := Except.ok.inj hprintedA
    refine evaluateHashed_eq_ok_printed.mpr ⟨plan, hplans ▸ hplan, printed, hprintedB, caseHash,
      hhashes ▸ hhash, runId, hid, ?_⟩
    rw [Dict.textAt, Dict.textAt, haligned.entry "case_id" (by decide)]

/-- **One name, one run?**  Cases with one projection give runs of one name, and the runs are
equal exactly when the lists that the rules cite come in one order. -/
theorem evaluateCase_same_projection_iff {rawA rawB : Dict}
    {reference : Option ReferenceContext} {validation : Option ValidationContext}
    {run : RunResult} (wa : (Json.obj rawA).WF) (wb : (Json.obj rawB).WF)
    (ha : prepareCase rawA = .ok a) (hb : prepareCase rawB = .ok b)
    (hagree : Agree canonicalCaseProjection a b)
    (hrun : evaluateCase rawA reference validation = .ok run) :
    (∀ run', evaluateCase rawB reference validation = .ok run' →
      run'.caseHash = run.caseHash ∧ run'.runId = run.runId) ∧
    (evaluateCase rawB reference validation = .ok run ↔ CitedAlike a b) := by
  have hprepared : ∀ {raw prepared : Dict}, prepareCase raw = .ok prepared →
      evaluateCase raw reference validation =
        evaluatePrepared prepared unboundCaseSourceAssurance reference validation := by
    intro raw prepared h
    simp only [evaluateCase, h]
    rfl
  rw [hprepared ha] at hrun
  rw [hprepared hb]
  exact evaluatePrepared_same_projection_iff (prepareCase_wf wa ha) (prepareCase_wf wb hb)
    (prepareCase_eq_ok.mp ha).2 (prepareCase_eq_ok.mp hb).2 hagree hrun

end Runs

section Ascii

attribute [local instance] asciiUnicode

/-- The released case with its documents in the opposite order. -/
def reversedCase : Dict :=
  releasedCase.set "documents" (.arr ((documentsOf releasedCase).reverse.map .obj))

/-- The documents that the fourth finding of a run cites. -/
def revisionDocuments (run : RunResult) : List (List String) :=
  ((run.findings.drop 3).take 1).map fun f => f.evidence.map EvidenceRef.documentId

/-- Both cases are accepted, have one projection, and are run with the documents cited in their
own order. -/
lemma reversedCase_accepted :
    ((Json.obj releasedCase).WF ∧ (Json.obj reversedCase).WF) ∧
    (prepareCase releasedCase = .ok releasedCase ∧ prepareCase reversedCase = .ok reversedCase) ∧
    ((canonicalCaseProjection releasedCase).toOption.isSome = true ∧
      canonicalCaseProjection releasedCase = canonicalCaseProjection reversedCase) ∧
    (evaluateCase releasedCase none none).map revisionDocuments =
      .ok [["FLOW", "PFMEA", "CP", "SOP", "IR"]] ∧
    (evaluateCase reversedCase none none).map revisionDocuments =
      .ok [["IR", "SOP", "CP", "PFMEA", "FLOW"]] := by
  decide +kernel

lemma releasedCase_agree : Agree canonicalCaseProjection releasedCase reversedCase := by
  obtain ⟨-, -, ⟨hreturns, heq⟩, -⟩ := reversedCase_accepted
  obtain ⟨projection, h⟩ := exists_ok_of_isSome hreturns
  exact ⟨projection, h, heq ▸ h⟩

/-- A run whose citations are known. -/
lemma run_of_documents {case : Dict} {documents : List (List String)}
    (h : (evaluateCase case none none).map revisionDocuments = .ok documents) :
    ∃ run, evaluateCase case none none = .ok run ∧ revisionDocuments run = documents := by
  cases hrun : evaluateCase case none none with
  | error e =>
      rw [hrun] at h
      exact absurd h (by simp [Except.map])
  | ok run =>
      rw [hrun] at h
      exact ⟨run, rfl, Except.ok.inj h⟩

/-- The released case and its reverse meet the conditions. -/
theorem evaluateCase_same_projection_released : ∃ run,
    evaluateCase releasedCase none none = .ok run ∧
    (∀ run', evaluateCase reversedCase none none = .ok run' →
      run'.caseHash = run.caseHash ∧ run'.runId = run.runId) ∧
    (evaluateCase reversedCase none none = .ok run ↔ CitedAlike releasedCase reversedCase) := by
  obtain ⟨⟨hwf, hwf'⟩, ⟨hprepared, hprepared'⟩, -, hruns, -⟩ := reversedCase_accepted
  obtain ⟨run, hrun, -⟩ := run_of_documents hruns
  exact ⟨run, hrun, evaluateCase_same_projection_iff hwf hwf' hprepared hprepared'
    releasedCase_agree hrun⟩

/-- **Two runs of one name that differ**: the documents of the released case in the opposite order
give the same projection, hash and name, and a finding that cites them the other way round. -/
theorem evaluateCase_reversed_documents : ∃ run run',
    prepareCase releasedCase = .ok releasedCase ∧ prepareCase reversedCase = .ok reversedCase ∧
    Agree canonicalCaseProjection releasedCase reversedCase ∧
    evaluateCase releasedCase none none = .ok run ∧
    evaluateCase reversedCase none none = .ok run' ∧
    run'.caseHash = run.caseHash ∧ run'.runId = run.runId ∧ run' ≠ run := by
  obtain ⟨⟨hwf, hwf'⟩, ⟨hprepared, hprepared'⟩, -, hruns, hruns'⟩ := reversedCase_accepted
  obtain ⟨run, hrun, hdocs⟩ := run_of_documents hruns
  obtain ⟨run', hrun', hdocs'⟩ := run_of_documents hruns'
  obtain ⟨prepared, hp, hevaluate⟩ := evaluateCase_eq_ok.mp hrun
  obtain ⟨prepared', hp', hevaluate'⟩ := evaluateCase_eq_ok.mp hrun'
  rw [hprepared] at hp
  obtain rfl := Except.ok.inj hp
  rw [hprepared'] at hp'
  obtain rfl := Except.ok.inj hp'
  have hname := (evaluatePrepared_same_projection_iff hwf hwf' (prepareCase_eq_ok.mp hprepared).2
    (prepareCase_eq_ok.mp hprepared').2 releasedCase_agree hevaluate).1 run' hevaluate'
  refine ⟨run, run', hprepared, hprepared', releasedCase_agree, hrun, hrun', hname.1, hname.2, ?_⟩
  rintro rfl
  rw [hdocs] at hdocs'
  exact absurd hdocs' (by decide)

end Ascii

end QualityCI

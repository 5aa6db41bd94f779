import QualityCI.Rules.Contexts
import QualityCI.Rules.Coverage
import QualityCI.Rules.Gates
import QualityCI.Rules.Specification

/-!
# Evaluation of a case

`_evaluate_case` of `engine.py`: the case is prepared, its plan is built, the seven rules run in
order, and the run is named by a hash of the case's hash and of what the contexts attest.

* `overallStatus` — the merge of the rules' statuses.
* `RunResult`, `evaluateCase` — the run.
* **`evaluateCase_eq_ok`** — the parts of a run that returned.
* **`overallStatus_eq_pass`** — the merge passes when every rule does.
-/

namespace QualityCI

open Py

/-! ## Statuses -/

/-- `_overall_status`. -/
def overallStatus (statuses : List CheckStatus) : CheckStatus :=
  if CheckStatus.contradicted ∈ statuses then .contradicted
  else if CheckStatus.unverifiable ∈ statuses then .unverifiable
  else .pass

/-- **The merge passes when every rule does.** -/
theorem overallStatus_eq_pass {statuses : List CheckStatus} :
    overallStatus statuses = .pass ↔ ∀ s ∈ statuses, s = .pass := by
  unfold overallStatus
  constructor
  · intro h s hs
    split_ifs at h with hc hu
    cases s with
    | pass => rfl
    | contradicted => exact absurd hs hc
    | unverifiable => exact absurd hs hu
  · intro h
    rw [if_neg fun hc => absurd (h _ hc) (by decide), if_neg fun hu => absurd (h _ hu) (by decide)]

/-! ## Runs -/

def runResultContractVersion : String := "qualityci-run-result-0.2"
def runIdentityVersion : String := "qualityci-run-identity-v4"
def caseSourceUnbound : String := "UNBOUND_SERIALIZED_CASE"
def unattestedReferenceAssurance : String := "UNATTESTED_JSON"
def attestedReferenceAssurance : String := "ATTESTED_REFERENCE_SET"
def validationAssuranceUnattested : String := "UNATTESTED_VALIDATION_JSON"
def validationAssuranceAttested : String := "ATTESTED_VALIDATION_SET"

/-- Where a case comes from. -/
structure CaseSourceAssurance where
  state : String
  packContractVersion : Option String := none
  setContractVersion : Option String := none
  setHash : Option String := none
  bindingHash : Option String := none
  lineageContractVersion : Option String := none
  lineageHash : Option String := none
  deriving DecidableEq

/-- `unbound_case_source_assurance()`. -/
def unboundCaseSourceAssurance : CaseSourceAssurance where
  state := caseSourceUnbound

/-- A text or `None`. -/
def optionJson : Option String → Json
  | some s => .str s
  | none => .null

/-- What the contexts of a run attest. -/
structure AssuranceStates where
  referenceState : String
  referenceSetHash : Option String
  referenceContractVersion : Option String
  validationState : String
  validationEvidenceSetHash : Option String
  validationEvidenceContractVersion : Option String
  deriving DecidableEq

/-- The assurance that two contexts give. -/
def assuranceOf (reference : Option ReferenceContext) (validation : Option ValidationContext) :
    AssuranceStates where
  referenceState :=
    if reference.isNone then unattestedReferenceAssurance else attestedReferenceAssurance
  referenceSetHash := reference.map ReferenceContext.referenceSetHash
  referenceContractVersion := reference.map ReferenceContext.contractVersion
  validationState :=
    if validation.isNone then validationAssuranceUnattested else validationAssuranceAttested
  validationEvidenceSetHash := validation.map ValidationContext.evidenceSetHash
  validationEvidenceContractVersion := validation.map ValidationContext.contractVersion

/-- The subject of a run's name. -/
def runIdentity (caseHash : String) (source : CaseSourceAssurance) (states : AssuranceStates) :
    Dict :=
  Dict.ofList
    [("run_result_contract_version", .str runResultContractVersion),
     ("run_identity_version", .str runIdentityVersion), ("case_hash", .str caseHash),
     ("ruleset_version", .str rulesetVersion), ("case_source_assurance_state", .str source.state),
     ("case_source_pack_contract_version", optionJson source.packContractVersion),
     ("case_source_set_contract_version", optionJson source.setContractVersion),
     ("case_source_set_hash", optionJson source.setHash),
     ("case_source_binding_hash", optionJson source.bindingHash),
     ("case_source_lineage_contract_version", optionJson source.lineageContractVersion),
     ("case_source_lineage_hash", optionJson source.lineageHash),
     ("reference_assurance_state", .str states.referenceState),
     ("reference_set_hash", optionJson states.referenceSetHash),
     ("reference_contract_version", optionJson states.referenceContractVersion),
     ("validation_assurance_state", .str states.validationState),
     ("validation_evidence_set_hash", optionJson states.validationEvidenceSetHash),
     ("validation_evidence_contract_version",
       optionJson states.validationEvidenceContractVersion)]

/-- The first sixteen digits of the hash of a domain and a value's text. -/
def domainDigest (domain : String) (value : Json) : Result String := do
  let payload ← dumps value
  .ok (sha256Hex (domain ++ payload))

/-- `_run_id_for_current_identity`. -/
def runIdForCurrentIdentity (caseHash : String) (source : CaseSourceAssurance)
    (states : AssuranceStates) : Result String := do
  let digest ← domainDigest "QualityCI/run-identity/v4\x00" (.obj (runIdentity caseHash source states))
  .ok (String.ofList (digest.toList.take 16))

structure RunResult where
  runId : String
  caseId : String
  caseHash : String
  rulesetVersion : String
  runResultContractVersion : String
  runIdentityVersion : String
  caseSourceAssurance : CaseSourceAssurance
  assurance : AssuranceStates
  overallStatus : CheckStatus
  impactPlan : ImpactPlan
  findings : List (Finding EvidenceRef)
  deriving DecidableEq

variable [PyUnicode]

/-- The seven rules in their order. -/
def ruleResults (case : Dict) (plan : ImpactPlan) (reference : Option ReferenceContext)
    (validation : Option ValidationContext) : List (Result (Finding Citation)) :=
  [ruleProcessCoverage case plan,
   .ok (ruleSpecConsistency case plan),
   .ok (ruleSpecialCharacteristicControl case plan),
   ruleRevisionAfterApproval case,
   .ok (ruleInspectionCurrentReferences case reference),
   ruleValidationEvidence case validation,
   .ok (ruleHighRiskApproval case)]

/-- A rule's finding with its evidence printed. -/
def printRule (rule : Result (Finding Citation)) : Result (Finding EvidenceRef) := do
  let finding ← rule
  finding.print

/-- The run of a prepared case, with the hash of the case. -/
def evaluateHashed (hash : Json → Result String) (case : Dict) (source : CaseSourceAssurance)
    (reference : Option ReferenceContext) (validation : Option ValidationContext) :
    Result RunResult := do
  let plan ← buildImpactPlan case
  let findings ← mapEach printRule (ruleResults case plan reference validation)
  let caseHash ← hash (.obj case)
  let states := assuranceOf reference validation
  let runId ← runIdForCurrentIdentity caseHash source states
  .ok
    { runId := runId
      caseId := case.textAt "case_id"
      caseHash := caseHash
      rulesetVersion := rulesetVersion
      runResultContractVersion := runResultContractVersion
      runIdentityVersion := runIdentityVersion
      caseSourceAssurance := source
      assurance := states
      overallStatus := overallStatus (findings.map Finding.status)
      impactPlan := plan
      findings := findings }

/-- The run of a prepared case. -/
def evaluatePrepared (case : Dict) (source : CaseSourceAssurance)
    (reference : Option ReferenceContext) (validation : Option ValidationContext) :
    Result RunResult :=
  evaluateHashed canonicalHash case source reference validation

/-- `_evaluate_case(case, reference_context, validation_context)`. -/
def evaluateCase (case : Dict) (reference : Option ReferenceContext)
    (validation : Option ValidationContext) : Result RunResult := do
  let case ← prepareCase case
  evaluatePrepared case unboundCaseSourceAssurance reference validation

/-! ## The parts of a run -/

/-- The seven findings of a run, before printing. -/
structure RuleFindings (case : Dict) (plan : ImpactPlan) (reference : Option ReferenceContext)
    (validation : Option ValidationContext) where
  coverage : Finding Citation
  revision : Finding Citation
  evidence : Finding Citation
  coverage_eq : ruleProcessCoverage case plan = .ok coverage
  revision_eq : ruleRevisionAfterApproval case = .ok revision
  evidence_eq : ruleValidationEvidence case validation = .ok evidence

/-- The findings in the order of the rules. -/
def RuleFindings.all {case : Dict} {plan : ImpactPlan} {reference : Option ReferenceContext}
    {validation : Option ValidationContext} (f : RuleFindings case plan reference validation) :
    List (Finding Citation) :=
  [f.coverage, ruleSpecConsistency case plan, ruleSpecialCharacteristicControl case plan,
   f.revision, ruleInspectionCurrentReferences case reference, f.evidence,
   ruleHighRiskApproval case]

lemma mapEach_printRule {rules : List (Finding Citation)} :
    mapEach printRule (rules.map .ok) = mapEach Finding.print rules := by
  induction rules with
  | nil => rfl
  | cons f rest ih =>
      rw [List.map_cons, mapEach, mapEach, ih]
      rfl

/-- Printing the rules' results is having the seven findings and printing them. -/
lemma mapEach_ruleResults {case : Dict} {plan : ImpactPlan} {reference : Option ReferenceContext}
    {validation : Option ValidationContext} {printed : List (Finding EvidenceRef)} :
    mapEach printRule (ruleResults case plan reference validation) = .ok printed ↔
      ∃ f : RuleFindings case plan reference validation,
        mapEach Finding.print f.all = .ok printed := by
  constructor
  · intro h
    have hrule : ∀ r ∈ ruleResults case plan reference validation, ∃ f, r = .ok f := by
      intro r hr
      obtain ⟨_, -, hp⟩ := mapEach_mem h hr
      simp only [printRule, bind_eq_ok] at hp
      obtain ⟨f, hf, -⟩ := hp
      exact ⟨f, hf⟩
    obtain ⟨coverage, hcoverage⟩ := hrule (ruleProcessCoverage case plan) (by simp [ruleResults])
    obtain ⟨revision, hrevision⟩ := hrule (ruleRevisionAfterApproval case) (by simp [ruleResults])
    obtain ⟨evidence, hevidence⟩ :=
      hrule (ruleValidationEvidence case validation) (by simp [ruleResults])
    refine ⟨⟨coverage, revision, evidence, hcoverage, hrevision, hevidence⟩, ?_⟩
    rw [← h, ← mapEach_printRule, ruleResults, hcoverage, hrevision, hevidence]
    rfl
  · rintro ⟨f, hf⟩
    rw [← hf, ← mapEach_printRule, ruleResults, f.coverage_eq, f.revision_eq, f.evidence_eq]
    rfl

/-- The run of a prepared case, from its printed findings. -/
lemma evaluateHashed_eq_ok_printed {hash : Json → Result String} {case : Dict}
    {source : CaseSourceAssurance}
    {reference : Option ReferenceContext} {validation : Option ValidationContext}
    {run : RunResult} :
    evaluateHashed hash case source reference validation = .ok run ↔
      ∃ plan, buildImpactPlan case = .ok plan ∧
      ∃ printed, mapEach printRule (ruleResults case plan reference validation) = .ok printed ∧
      ∃ caseHash, hash (.obj case) = .ok caseHash ∧
      ∃ runId, runIdForCurrentIdentity caseHash source (assuranceOf reference validation) =
        .ok runId ∧
      run =
        { runId := runId
          caseId := case.textAt "case_id"
          caseHash := caseHash
          rulesetVersion := rulesetVersion
          runResultContractVersion := runResultContractVersion
          runIdentityVersion := runIdentityVersion
          caseSourceAssurance := source
          assurance := assuranceOf reference validation
          overallStatus := overallStatus (printed.map Finding.status)
          impactPlan := plan
          findings := printed } := by
  simp only [evaluateHashed, bind_eq_ok, Except.ok.injEq, eq_comm (b := run)]

/-- **The parts of a run**: it planned, printed the seven findings, hashed the case and named
itself. -/
theorem evaluateHashed_eq_ok {hash : Json → Result String} {case : Dict}
    {source : CaseSourceAssurance}
    {reference : Option ReferenceContext} {validation : Option ValidationContext}
    {run : RunResult} :
    evaluateHashed hash case source reference validation = .ok run ↔
      ∃ plan, buildImpactPlan case = .ok plan ∧
      ∃ f : RuleFindings case plan reference validation, ∃ printed,
        mapEach Finding.print f.all = .ok printed ∧
      ∃ caseHash, hash (.obj case) = .ok caseHash ∧
      ∃ runId, runIdForCurrentIdentity caseHash source (assuranceOf reference validation) =
        .ok runId ∧
      run =
        { runId := runId
          caseId := case.textAt "case_id"
          caseHash := caseHash
          rulesetVersion := rulesetVersion
          runResultContractVersion := runResultContractVersion
          runIdentityVersion := runIdentityVersion
          caseSourceAssurance := source
          assurance := assuranceOf reference validation
          overallStatus := overallStatus (printed.map Finding.status)
          impactPlan := plan
          findings := printed } := by
  simp only [evaluateHashed_eq_ok_printed, mapEach_ruleResults]
  constructor
  · rintro ⟨plan, hplan, printed, ⟨f, hf⟩, hrest⟩
    exact ⟨plan, hplan, f, printed, hf, hrest⟩
  · rintro ⟨plan, hplan, f, printed, hf, hrest⟩
    exact ⟨plan, hplan, printed, ⟨f, hf⟩, hrest⟩

theorem evaluatePrepared_eq_ok {case : Dict} {source : CaseSourceAssurance}
    {reference : Option ReferenceContext} {validation : Option ValidationContext}
    {run : RunResult} :
    evaluatePrepared case source reference validation = .ok run ↔
      ∃ plan, buildImpactPlan case = .ok plan ∧
      ∃ f : RuleFindings case plan reference validation, ∃ printed,
        mapEach Finding.print f.all = .ok printed ∧
      ∃ caseHash, canonicalHash (.obj case) = .ok caseHash ∧
      ∃ runId, runIdForCurrentIdentity caseHash source (assuranceOf reference validation) =
        .ok runId ∧
      run =
        { runId := runId
          caseId := case.textAt "case_id"
          caseHash := caseHash
          rulesetVersion := rulesetVersion
          runResultContractVersion := runResultContractVersion
          runIdentityVersion := runIdentityVersion
          caseSourceAssurance := source
          assurance := assuranceOf reference validation
          overallStatus := overallStatus (printed.map Finding.status)
          impactPlan := plan
          findings := printed } :=
  evaluateHashed_eq_ok

lemma evaluateCase_eq_ok {case : Dict} {reference : Option ReferenceContext}
    {validation : Option ValidationContext} {run : RunResult} :
    evaluateCase case reference validation = .ok run ↔ ∃ prepared, prepareCase case = .ok prepared ∧
      evaluatePrepared prepared unboundCaseSourceAssurance reference validation = .ok run := by
  simp only [evaluateCase, bind_eq_ok]

/-- Printing does not change the statuses. -/
lemma map_status_print {findings : List (Finding Citation)} {printed : List (Finding EvidenceRef)}
    (h : mapEach Finding.print findings = .ok printed) :
    printed.map Finding.status = findings.map Finding.status := by
  induction findings generalizing printed with
  | nil =>
      obtain rfl := Except.ok.inj h
      rfl
  | cons f rest ih =>
      simp only [mapEach, bind_eq_ok, Except.ok.injEq] at h
      obtain ⟨p, hp, ps, hps, rfl⟩ := h
      rw [List.map_cons, List.map_cons, Finding.print_status hp, ih hps]

end QualityCI

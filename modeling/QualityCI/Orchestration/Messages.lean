import QualityCI.Engine.Returns
import QualityCI.Lib.PyRaises

/-!
# The messages of a team run

The parties of a team run hand each other values of exact types, and every constructor checks its
fields again, with checks of its own.  The exact types and key sets that a constructor asks for are
those of the structures here; what is left of its checks is a definition.

* `exactText`, `exactConstant`, `lowerHex` — the checks of one field.
* `TeamTraceEvent`, `DispatchStep` — a step of the trace and a step of the plan.
* `RunResult.toDict`, `ImpactPlan.toDict` — the payloads that are hashed.
* **`canonicalHash_payload`** — a payload has a hash, of sixty-four digits.
* **`validateReferenceProfile_of_postInit`** — a run that its constructor takes passes the messages'
  check of its assurance.
-/

namespace QualityCI

open Py

/-! ## The checks of one field -/

/-- The text is neither empty nor has whitespace at an end. -/
def IsTrimmed (text : String) : Prop := text ≠ "" ∧ text = strip text

instance (text : String) : Decidable (IsTrimmed text) := inferInstanceAs (Decidable (_ ∧ _))

/-- `_exact_text`. -/
def exactText (text label : String) : Result Unit :=
  require (IsTrimmed text) s!"{label} must be an exact non-empty trimmed string"

/-- `_exact_constant`. -/
def exactConstant (value : Option String) (expected label : String) : Result Unit :=
  require (value = some expected) s!"{label} is unsupported"

/-- `_lower_hex`. -/
def lowerHex (value : Option String) (length : ℕ) (label : String) : Result Unit :=
  match value with
  | some text =>
      require (IsHexText length text) s!"{label} must be one lowercase hexadecimal identity"
  | none => valueError s!"{label} must be one lowercase hexadecimal identity"

@[simp] lemma exactText_eq_ok {text label : String} {u : Unit} :
    exactText text label = .ok u ↔ IsTrimmed text := require_eq_ok

@[simp] lemma exactConstant_eq_ok {value : Option String} {expected label : String} {u : Unit} :
    exactConstant value expected label = .ok u ↔ value = some expected := require_eq_ok

@[simp] lemma lowerHex_eq_ok {text label : String} {length : ℕ} {u : Unit} :
    lowerHex (some text) length label = .ok u ↔ IsHexText length text := require_eq_ok

/-! ## The checks of a run -/

/-- The profile of an attested context, or of none. -/
def validateProfile (subject state unattested attested version hashLabel label : String)
    (hash contractVersion : Option String) : Result Unit :=
  if state = unattested then
    require (hash = none ∧ contractVersion = none)
      s!"{label} unattested {subject} profile requires nulls"
  else if state = attested then do
    lowerHex hash 64 s!"{label} {hashLabel}"
    exactConstant contractVersion version s!"{label} {subject} contract version"
  else valueError s!"{label} {subject} assurance state is unsupported"

/-- `_validate_reference_profile`. -/
def validateReferenceProfile (states : AssuranceStates) (label : String) : Result Unit := do
  validateProfile "reference" states.referenceState unattestedReferenceAssurance
    attestedReferenceAssurance "qualityci-controlled-reference-0.1" "reference set hash" label
    states.referenceSetHash states.referenceContractVersion
  validateProfile "validation" states.validationState validationAssuranceUnattested
    validationAssuranceAttested "qualityci-validation-evidence-0.1" "validation evidence set hash"
    label states.validationEvidenceSetHash states.validationEvidenceContractVersion

/-- `_validate_result_value_types`. -/
def validateResultValueTypes (status : CheckStatus) (findings : List (Finding EvidenceRef))
    (label : String) : Result Unit :=
  require (status = overallStatus (findings.map Finding.status))
    s!"{label} overall_status disagrees with its findings"

/-- What the constructor of a run accepts is a profile. -/
lemma validateProfile_of_checkAttested
    {subject state unattested attested version runLabel hashLabel label : String}
    {hash contractVersion : Option String}
    (h : checkAttested subject state unattested attested version runLabel hash contractVersion =
      .ok ()) :
    validateProfile subject state unattested attested version hashLabel label hash
      contractVersion = .ok () := by
  simp only [checkAttested] at h
  simp only [validateProfile]
  split_ifs with hunattested hattested
  · rw [if_pos hunattested] at h
    exact require_eq_ok.mpr (require_eq_ok.mp h)
  · rw [if_neg hunattested, if_pos hattested] at h
    simp only [lowerHash, bind_eq_ok, exists_unit, require_eq_ok] at h
    obtain ⟨⟨hhex, hsome⟩, hversion⟩ := h
    obtain ⟨text, rfl⟩ := Option.isSome_iff_exists.mp hsome
    rw [lowerHashOrNone, require_eq_ok] at hhex
    simp only [bind_eq_ok, exists_unit, lowerHex_eq_ok, exactConstant_eq_ok]
    exact ⟨hhex, hversion⟩
  · rw [if_neg hunattested, if_neg hattested] at h
    exact absurd h valueError_ne_ok

/-- What the constructor's checks of a run say. -/
structure RunResult.Constructed (run : RunResult) : Prop where
  contractVersion : run.runResultContractVersion = QualityCI.runResultContractVersion
  identityVersion : run.runIdentityVersion = QualityCI.runIdentityVersion
  runId : IsHexText 16 run.runId
  caseHash : IsHexText 64 run.caseHash
  source : checkSource run.caseSourceAssurance = .ok ()
  reference : checkAttested "reference" run.assurance.referenceState unattestedReferenceAssurance
    attestedReferenceAssurance "qualityci-controlled-reference-0.1" "reference set hash"
    run.assurance.referenceSetHash run.assurance.referenceContractVersion = .ok ()
  validation : checkAttested "validation" run.assurance.validationState
    validationAssuranceUnattested validationAssuranceAttested "qualityci-validation-evidence-0.1"
    "validation evidence set hash" run.assurance.validationEvidenceSetHash
    run.assurance.validationEvidenceContractVersion = .ok ()

lemma RunResult.constructed {run : RunResult} (h : run.postInit = .ok ()) : run.Constructed := by
  simp only [RunResult.postInit, bind_eq_ok, exists_unit, require_eq_ok, lowerHash,
    lowerHashOrNone] at h
  obtain ⟨hcontract, hidentity, hid, -, ⟨hhash, -⟩, hsource, hreference, hvalidation, -⟩ := h
  exact ⟨hcontract, hidentity, hid, hhash, hsource, hreference, hvalidation⟩

/-- **What a run attests is a profile.** -/
theorem validateReferenceProfile_of_postInit {run : RunResult} (h : run.Constructed)
    (label : String) : validateReferenceProfile run.assurance label = .ok () := by
  simp only [validateReferenceProfile, bind_eq_ok, exists_unit]
  exact ⟨validateProfile_of_checkAttested h.reference,
    validateProfile_of_checkAttested h.validation⟩

/-! ## Literal dictionaries -/

section Literals

variable {items selected : List (String × Json)}

/-- The values of some of the items of a literal, read one after the other. -/
lemma getItems_ofList (hnodup : (items.map Prod.fst).Nodup) (hsub : ∀ e ∈ selected, e ∈ items) :
    mapEach (fun key => (Dict.ofList items).getItem key) (selected.map Prod.fst) =
      .ok (selected.map Prod.snd) := by
  rw [mapEach_eq_ok, List.forall₂_map_left_iff, List.forall₂_map_right_iff, List.forall₂_same]
  intro e he
  rw [Dict.getItem_eq_ok, Dict.get?_ofList_of_mem hnodup (hsub e he)]

/-- A literal with its first item written again. -/
lemma ofList_set_first {key : String} {v w : Json} {rest : List (String × Json)}
    (hnodup : (key :: rest.map Prod.fst).Nodup) (hv : v.WF) (hw : w.WF)
    (hrest : ∀ e ∈ rest, e.2.WF) :
    (Dict.ofList ((key, v) :: rest)).set key w = Dict.ofList ((key, w) :: rest) := by
  have hordered : ∀ u : Json, u.WF → (Dict.ofList ((key, u) :: rest)).Ordered := by
    intro u hu
    exact (Json.wf_obj.mp (Json.wf_ofList (List.forall_mem_cons.mpr ⟨hu, hrest⟩))).1
  have hget : ∀ (u : Json) (k : String), (Dict.ofList ((key, u) :: rest)).get? k =
      List.lookup k ((key, u) :: rest) := by
    intro u k
    have hkeys : (((key, u) :: rest).map Prod.fst).Nodup := hnodup
    exact Dict.get?_ofList hkeys k
  refine Dict.ext ((hordered v hv).set _ _) (hordered w hw) fun k => ?_
  rw [Dict.get?_set, hget, hget, List.lookup_cons, List.lookup_cons]
  by_cases hk : key = k
  · subst hk
    simp
  · have hne : (k == key) = false := by simpa using fun heq : k = key => hk heq.symm
    rw [if_neg hk, hne]

end Literals

/-! ## Payloads -/

def EvidenceRef.toJson (ref : EvidenceRef) : Json :=
  .obj (Dict.ofList
    [("document_id", .str ref.documentId), ("revision", .str ref.revision),
     ("locator", .str ref.locator), ("excerpt", .str ref.excerpt),
     ("source_hash", .str ref.sourceHash)])

def Finding.toJson (finding : Finding EvidenceRef) : Json :=
  .obj (Dict.ofList
    [("rule_id", .str finding.ruleId), ("title", .str finding.title),
     ("status", .str finding.status.text), ("severity", .str finding.severity),
     ("summary", .str finding.summary),
     ("evidence", .arr (finding.evidence.map EvidenceRef.toJson)),
     ("remediation", .str finding.remediation),
     ("acceptance_conditions", textsJson finding.acceptanceConditions)])

/-- `asdict(plan)`. -/
def ImpactPlan.toDict (plan : ImpactPlan) : Dict :=
  Dict.ofList
    [("event_id", .str plan.eventId),
     ("affected_process_steps", textsJson plan.affectedProcessSteps),
     ("affected_characteristics", textsJson plan.affectedCharacteristics),
     ("affected_links", .arr (plan.affectedLinks.map fun link => textsJson [link.1, link.2])),
     ("required_document_types", textsJson plan.requiredDocumentTypes),
     ("selected_rule_ids", textsJson plan.selectedRuleIds),
     ("reasoning_path", textsJson plan.reasoningPath)]

/-- The items of a source's payload. -/
def CaseSourceAssurance.items (source : CaseSourceAssurance) : List (String × Json) :=
  [("case_source_assurance_state", .str source.state),
   ("case_source_pack_contract_version", optionJson source.packContractVersion),
   ("case_source_set_contract_version", optionJson source.setContractVersion),
   ("case_source_set_hash", optionJson source.setHash),
   ("case_source_binding_hash", optionJson source.bindingHash),
   ("case_source_lineage_contract_version", optionJson source.lineageContractVersion),
   ("case_source_lineage_hash", optionJson source.lineageHash)]

def CaseSourceAssurance.toDict (source : CaseSourceAssurance) : Dict := Dict.ofList source.items

/-- The items of what the contexts attest. -/
def AssuranceStates.items (states : AssuranceStates) : List (String × Json) :=
  [("reference_assurance_state", .str states.referenceState),
   ("reference_set_hash", optionJson states.referenceSetHash),
   ("reference_contract_version", optionJson states.referenceContractVersion),
   ("validation_assurance_state", .str states.validationState),
   ("validation_evidence_set_hash", optionJson states.validationEvidenceSetHash),
   ("validation_evidence_contract_version", optionJson states.validationEvidenceContractVersion)]

/-- The items of a run's outcome. -/
def outcomeItems (status : CheckStatus) (plan : ImpactPlan)
    (findings : List (Finding EvidenceRef)) : List (String × Json) :=
  [("overall_status", .str status.text), ("impact_plan", .obj plan.toDict),
   ("findings", .arr (findings.map Finding.toJson))]

def RunResult.items (run : RunResult) : List (String × Json) :=
  [("run_id", .str run.runId), ("case_id", .str run.caseId), ("case_hash", .str run.caseHash),
   ("ruleset_version", .str run.rulesetVersion),
   ("run_result_contract_version", .str run.runResultContractVersion),
   ("run_identity_version", .str run.runIdentityVersion)] ++
  run.caseSourceAssurance.items ++ run.assurance.items ++
  outcomeItems run.overallStatus run.impactPlan run.findings

/-- `RunResult.to_dict`. -/
def RunResult.toDict (run : RunResult) : Dict := Dict.ofList run.items

/-! ## The steps of the plan and of the trace -/

structure DispatchStep where
  sequence : ℤ
  agentId : String
  skillId : String
  deriving DecidableEq

def DispatchStep.toJson (step : DispatchStep) : Json :=
  .obj (Dict.ofList
    [("sequence", .int step.sequence), ("agent_id", .str step.agentId),
     ("skill_id", .str step.skillId)])

/-- `_DISPATCH_PROFILE`. -/
def dispatchProfile : List DispatchStep :=
  [⟨1, "QCI-IMPACT", "compile-impact-plan"⟩, ⟨2, "QCI-EVIDENCE", "run-evidence-regression"⟩,
   ⟨3, "QCI-GATEKEEPER", "enforce-release-gate"⟩]

structure TeamTraceEvent where
  sequence : ℤ
  agentId : String
  skillId : String
  stateFrom : String
  stateTo : String
  inputHash : String
  outputHash : String
  evidence : List String
  deriving DecidableEq

/-- `_validate_trace_fields`. -/
def validateTraceFields (event : TeamTraceEvent) (label : String) : Result Unit :=
  if event.sequence ≤ 0 then typeError s!"{label} sequence must be an exact positive integer"
  else do
    exactText event.agentId s!"{label} agent_id"
    exactText event.skillId s!"{label} skill_id"
    exactText event.stateFrom s!"{label} state_from"
    exactText event.stateTo s!"{label} state_to"
    lowerHex (some event.inputHash) 64 s!"{label} input_hash"
    lowerHex (some event.outputHash) 64 s!"{label} output_hash"

/-- The constructor of an event of the trace. -/
def teamTraceEvent (label : String) (event : TeamTraceEvent) : Result TeamTraceEvent := do
  validateTraceFields event label
  .ok event

def teamReady : String := "READY_FOR_HUMAN_RELEASE_REVIEW"
def teamBlocked : String := "BLOCKED_PENDING_RESOLUTION"
def teamRuntimeMode : String := "LOCAL_DETERMINISTIC_CONTRACT"

/-- The steps of a trace: each hashes what it was given and what it hands on. -/
def teamTrace (input manager impact run final finalState : String) (locators cited : List String) :
    List TeamTraceEvent :=
  [{ sequence := 1
     agentId := "QCI-MANAGER"
     skillId := "quality-task-intake"
     stateFrom := "RECEIVED"
     stateTo := "SCOPED"
     inputHash := input
     outputHash := manager
     evidence := ["case_id", "event.event_id", "synthetic_for_competition"] },
   { sequence := 2
     agentId := "QCI-IMPACT"
     skillId := "compile-impact-plan"
     stateFrom := "SCOPED"
     stateTo := "PLANNED"
     inputHash := manager
     outputHash := impact
     evidence := ["event.affected_process_steps", "event.affected_characteristics"] },
   { sequence := 3
     agentId := "QCI-EVIDENCE"
     skillId := "run-evidence-regression"
     stateFrom := "PLANNED"
     stateTo := "CHECKED"
     inputHash := impact
     outputHash := run
     evidence := locators },
   { sequence := 4
     agentId := "QCI-GATEKEEPER"
     skillId := "enforce-release-gate"
     stateFrom := "CHECKED"
     stateTo := finalState
     inputHash := run
     outputHash := final
     evidence := cited }]

/-- The locators that the findings cite, sorted. -/
def citedLocators (findings : List (Finding EvidenceRef)) : List String :=
  sortedSet (((findings.flatMap Finding.evidence).map EvidenceRef.locator).filter (· ≠ ""))

/-- The trace that a validator expects: sequence, agent, skill and the two states. -/
def traceProfile (finalState : String) : List (ℤ × String × String × String × String) :=
  [(1, "QCI-MANAGER", "quality-task-intake", "RECEIVED", "SCOPED"),
   (2, "QCI-IMPACT", "compile-impact-plan", "SCOPED", "PLANNED"),
   (3, "QCI-EVIDENCE", "run-evidence-regression", "PLANNED", "CHECKED"),
   (4, "QCI-GATEKEEPER", "enforce-release-gate", "CHECKED", finalState)]

/-- The profile and the hashes of a trace. -/
def validateTraceProfile (trace : List TeamTraceEvent) (finalState : String)
    (joins : List (String × String)) (label : String) : Result Unit := do
  require (trace.map (fun e => (e.sequence, e.agentId, e.skillId, e.stateFrom, e.stateTo)) =
      traceProfile finalState)
    s!"{label} trace profile is inconsistent"
  require (trace.map (fun e => (e.inputHash, e.outputHash)) = joins)
    s!"{label} trace hash joins are inconsistent"

/-- **The trace of a run** passes the checks of its constructors. -/
theorem mapEach_teamTraceEvent {label input manager impact run final finalState : String}
    {locators cited : List String}
    (hhex : ∀ hash ∈ [input, manager, impact, run, final], IsHexText 64 hash)
    (hstate : finalState ∈ [teamReady, teamBlocked]) :
    mapEach (teamTraceEvent label)
        (teamTrace input manager impact run final finalState locators cited) =
      .ok (teamTrace input manager impact run final finalState locators cited) := by
  have htrimmed : IsTrimmed finalState := by
    simp only [List.mem_cons, List.not_mem_nil, or_false] at hstate
    rcases hstate with rfl | rfl <;> decide
  simp only [List.forall_mem_cons] at hhex
  obtain ⟨hinput, hmanager, himpact, hrun, hfinal, -⟩ := hhex
  rw [mapEach_eq_ok]
  simp only [teamTrace, List.forall₂_cons, teamTraceEvent, validateTraceFields, bind_eq_ok,
    exists_unit, and_true, List.Forall₂.nil]
  norm_num
  refine ⟨⟨?_, ?_, ?_, ?_, hinput, hmanager⟩, ⟨?_, ?_, ?_, ?_, hmanager, himpact⟩,
    ⟨?_, ?_, ?_, ?_, himpact, hrun⟩, ⟨?_, ?_, ?_, htrimmed, hrun, hfinal⟩⟩ <;> decide

/-! ## The hash of a payload -/

/-- The digest of a value's text. -/
def textDigest (v : Json) : String := sha256Hex (String.ofList (jsonText v))

lemma textDigest_hex (v : Json) : IsHexText 64 (textDigest v) := sha256Hex_chars _

/-- The value's dictionaries are in order and its floats are finite. -/
def Writable (v : Json) : Prop := v.WF ∧ v.isFinite = true

@[simp] lemma str_writable (s : String) : Writable (.str s) := ⟨trivial, rfl⟩

@[simp] lemma int_writable (n : ℤ) : Writable (.int n) := ⟨trivial, rfl⟩

@[simp] lemma bool_writable (b : Bool) : Writable (.bool b) := ⟨trivial, rfl⟩

@[simp] lemma optionJson_writable (text : Option String) : Writable (optionJson text) := by
  cases text <;> exact ⟨trivial, rfl⟩

/-- A list of values that are all of one writable form. -/
lemma map_writable {α : Type} {f : α → Json} (hf : ∀ a, Writable (f a)) (xs : List α) :
    Writable (.arr (xs.map f)) := by
  constructor
  · refine Json.wf_arr.mpr fun v hv => ?_
    obtain ⟨a, -, rfl⟩ := List.mem_map.mp hv
    exact (hf a).1
  · refine isFinite_arr.mpr fun v hv => ?_
    obtain ⟨a, -, rfl⟩ := List.mem_map.mp hv
    exact (hf a).2

lemma ofList_writable {items : List (String × Json)} (h : ∀ e ∈ items, Writable e.2) :
    Writable (.obj (Dict.ofList items)) :=
  ⟨Json.wf_ofList fun e he => (h e he).1, isFinite_ofList fun e he => (h e he).2⟩

@[simp] lemma textsJson_writable (texts : List String) : Writable (textsJson texts) :=
  map_writable str_writable texts

lemma EvidenceRef.toJson_writable (ref : EvidenceRef) : Writable ref.toJson :=
  ofList_writable (by simp)

lemma Finding.toJson_writable (finding : Finding EvidenceRef) : Writable finding.toJson :=
  ofList_writable (by simp [map_writable EvidenceRef.toJson_writable])

lemma ImpactPlan.toDict_writable (plan : ImpactPlan) : Writable (.obj plan.toDict) :=
  ofList_writable (by simp [map_writable fun link : String × String => textsJson_writable _])

lemma DispatchStep.toJson_writable (step : DispatchStep) : Writable step.toJson :=
  ofList_writable (by simp)

lemma CaseSourceAssurance.items_writable (source : CaseSourceAssurance) :
    ∀ e ∈ source.items, Writable e.2 := by
  simp [CaseSourceAssurance.items]

lemma AssuranceStates.items_writable (states : AssuranceStates) :
    ∀ e ∈ states.items, Writable e.2 := by
  simp [AssuranceStates.items]

lemma outcomeItems_writable (status : CheckStatus) (plan : ImpactPlan)
    (findings : List (Finding EvidenceRef)) :
    ∀ e ∈ outcomeItems status plan findings, Writable e.2 := by
  simp [outcomeItems, plan.toDict_writable, map_writable Finding.toJson_writable]

variable [PyUnicode]

/-- **The hash of a payload**, which is no case. -/
theorem canonicalHash_payload {items : List (String × Json)}
    (hkeys : "schema_version" ∉ items.map Prod.fst) (hitems : ∀ e ∈ items, Writable e.2) :
    canonicalHash (.obj (Dict.ofList items)) = .ok (textDigest (.obj (Dict.ofList items))) := by
  have hversion : (Dict.ofList items).get? "schema_version" = none := by
    cases hget : (Dict.ofList items).get? "schema_version" with
    | none => rfl
    | some v =>
        have hmem := Dict.mem_ofList (Dict.get?_eq_some_mem hget)
        exact absurd (List.mem_map_of_mem hmem) hkeys
  have hdumps := dumps_eq_ok.mpr ⟨(ofList_writable hitems).2, rfl⟩
  simp only [canonicalHash, hashedValue, hashedDict, hversion, ok_bind, hdumps, textDigest]

/-- The hash of a list. -/
lemma canonicalHash_arr {values : List Json} (hvalues : Writable (.arr values)) :
    canonicalHash (.arr values) = .ok (textDigest (.arr values)) := by
  have hdumps := dumps_eq_ok.mpr ⟨hvalues.2, rfl⟩
  simp only [canonicalHash, hashedValue, ok_bind, hdumps, textDigest]

end QualityCI

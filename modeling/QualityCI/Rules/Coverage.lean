import QualityCI.Rules.Relations

/-!
# Coverage of steps and special characteristics

The rules R001 and R003.  Both walk the pairs of the event's scope and look for the rows of the
approved documents that carry them.

* `ruleProcessCoverage` — every affected step and pair is carried by the documents.
* `ruleSpecialCharacteristicControl` — every special pair has a complete control.
* **`ruleProcessCoverage_pass_iff`**, **`ruleSpecialCharacteristicControl_pass_iff`** — when the
  rules pass.
-/

namespace QualityCI

open Py

variable [PyUnicode]

/-! ## R001 -/

/-- `set(doc["fields"].get("process_steps", []))`, sorted; a null list raises. -/
def processStepSet (doc : Dict) : Result (List String) := do
  let steps ← ((doc.dictAt "fields").getD "process_steps" (.arr [])).iterate
  .ok (sortedSet (steps.filterMap Json.str?))

/-- The affected steps that some of the lists does not have. -/
def missingSteps (steps : List String) (lists : List (List String)) : List String :=
  steps.filter fun step => lists.any fun steps =>
    decide (normalizedIdentity step ∉ steps.map normalizedIdentity)

/-- What the PFMEA has of a pair: evidence and gaps. -/
def riskCoverage (pfmea : Dict) (pair : String × String) : List Citation × List String :=
  match risksAt pfmea (pairKey pair) with
  | [] =>
      (missingRelationshipEvidence pfmea "risks" pair ::
        (relationshipCandidates (fieldRows pfmea "risks") (pairKey pair)).map
          (relationshipEvidence pfmea),
       ["PFMEA:" ++ pairLabel pair])
  | risks => (risks.map (relationshipEvidence pfmea), [])

/-- What the control plan has of a pair: evidence and gaps. -/
def controlCoverage (control : Dict) (pair : String × String) : List Citation × List String :=
  match characteristicAt control (pairKey pair) with
  | some row => ([relationshipEvidence control row], [])
  | none =>
      (missingRelationshipEvidence control "characteristics" pair ::
        (relationshipCandidates (fieldRows control "characteristics") (pairKey pair)).map
          (relationshipEvidence control),
       ["CONTROL_PLAN:" ++ pairLabel pair])

/-- The evidence of the relations of one pair. -/
def relationEvidence (event pfmea control : Dict) (pair : String × String) : List Citation :=
  eventRelationshipEvidence event pair ::
    ((riskCoverage pfmea pair).1 ++ (controlCoverage control pair).1)

/-- The gaps in the relations of one pair. -/
def relationGaps (pfmea control : Dict) (pair : String × String) : List String :=
  (riskCoverage pfmea pair).2 ++ (controlCoverage control pair).2

/-- The last stage of R001: every pair is carried by risks and a control. -/
def coverRelations (event pfmea control : Dict) (plan : ImpactPlan) (evidence : List Citation) :
    Finding Citation :=
  let relations := plan.affectedLinks.flatMap (relationEvidence event pfmea control)
  let gaps := plan.affectedLinks.flatMap (relationGaps pfmea control)
  if gaps ≠ [] then
    finding "QCI-R001" "受影响工序覆盖" .contradicted
      ("缺少显式工序—特性承接关系：" ++ join ", " gaps) (evidence ++ relations) "HIGH"
      "在PFMEA与控制计划中补齐与事件affected_links完全一致的关系边。"
      ["每个affected_links pair均有PFMEA风险与控制计划控制项"]
  else
    finding "QCI-R001" "受影响工序覆盖" .pass
      "受影响工序及显式工序—特性关系已由流程、风险与控制行承接。" (evidence ++ relations) "LOW"

/-- R001 once the steps of the three documents are read. -/
def coverListed (case : Dict) (plan : ImpactPlan) (flow pfmea control : Dict)
    (flowSteps pfmeaSteps controlSteps : List String) : Finding Citation :=
  let event := case.dictAt "event"
  let missing := missingSteps plan.affectedProcessSteps [flowSteps, pfmeaSteps, controlSteps]
  let evidence :=
    [documentEvidence flow "fields.process_steps" (textsJson flowSteps),
     documentEvidence pfmea "fields.process_steps" (textsJson pfmeaSteps),
     documentEvidence control "fields.process_steps" (textsJson controlSteps)]
  if missing ≠ [] then
    finding "QCI-R001" "受影响工序覆盖" .contradicted
      ("工序未同时进入过程流程图、PFMEA与控制计划：" ++ join ", " missing ++ "。") evidence "HIGH"
      "补充缺失工序及其流程、风险与控制映射。"
      ["过程流程图、PFMEA与控制计划均包含全部受影响工序"]
  else if scopeRelationshipsComplete plan = false then
    finding "QCI-R001" "受影响工序覆盖" .unverifiable
      "受影响特性缺少确定的工序—特性关系，不能从独立集合推断。" [linksEvidence event] "HIGH"
      "为每个受影响特性声明显式affected_links关系。"
      ["每个受影响特性至少绑定一个明确工序"]
  else
    match legacyUnboundEvidence case [(pfmea, "risks"), (control, "characteristics")] with
    | [] => coverRelations event pfmea control plan evidence
    | unbound =>
        finding "QCI-R001" "受影响工序覆盖" .unverifiable
          "旧版文档行没有可定位的工序关系；事件scope不能替代文档证据。" unbound "HIGH"

/-- R001 once the three documents and the affected steps are there. -/
def coverSteps (case : Dict) (plan : ImpactPlan) (flow pfmea control : Dict) :
    Result (Finding Citation) := do
  let flowSteps ← processStepSet flow
  let pfmeaSteps ← processStepSet pfmea
  let controlSteps ← processStepSet control
  .ok (coverListed case plan flow pfmea control flowSteps pfmeaSteps controlSteps)

/-- `rule_process_coverage`. -/
def ruleProcessCoverage (case : Dict) (plan : ImpactPlan) : Result (Finding Citation) :=
  let unlisted := finding "QCI-R001" "受影响工序覆盖" .unverifiable
    "缺少过程流程图、PFMEA、控制计划或受影响工序清单。"
    [eventEvidence (case.dictAt "event") "affected_process_steps"
      (textsJson plan.affectedProcessSteps), documentTypesEvidence case]
  match documentByType case "PROCESS_FLOW", documentByType case "PFMEA",
    documentByType case "CONTROL_PLAN" with
  | some flow, some pfmea, some control =>
      if plan.affectedProcessSteps = [] then .ok unlisted
      else coverSteps case plan flow pfmea control
  | _, _, _ => .ok unlisted

/-! ## R003 -/

/-- The fields of a complete control. -/
def controlFields : List String := ["control_method", "frequency", "reaction_plan"]

/-- The fields of a control are all there, with something in them. -/
def isControlled (row : Dict) : Bool :=
  controlFields.all fun field => !isBlank (row.textAt field)

/-- What the control plan has of a special pair: evidence and gaps. -/
def specialCoverage (control : Dict) (pair : String × String) : List Citation × List String :=
  match characteristicAt control (pairKey pair) with
  | some row =>
      if isControlled row = true then
        ([documentEvidence control (locatorOf row "fields.characteristics")
          (.obj (Dict.ofList
            [("pair", .obj (relationshipExcerpt row)),
             ("control", .obj (Dict.ofList
               (controlFields.map fun field => (field, row.getD field .null))))]))], [])
      else ([relationshipEvidence control row], [pairLabel pair])
  | none =>
      (missingRelationshipEvidence control "characteristics" pair ::
        (relationshipCandidates (fieldRows control "characteristics") (pairKey pair)).map
          (relationshipEvidence control),
       [pairLabel pair])

/-- Some risk of the pair is special. -/
def isSpecialPair (pfmea : Dict) (pair : String × String) : Bool :=
  (risksAt pfmea (pairKey pair)).any fun risk =>
    (risk.getD "special_characteristic" .null).truthy

/-- The evidence and gaps of one pair that has risks. -/
def controlOfPair (pfmea control : Dict) (pair : String × String) : List Citation × List String :=
  let risks := (risksAt pfmea (pairKey pair)).map (relationshipEvidence pfmea)
  if isSpecialPair pfmea pair = true then
    (risks ++ (specialCoverage control pair).1, (specialCoverage control pair).2)
  else (risks, [])

/-- The evidence of a pair without risks. -/
def missingRiskEvidence (event pfmea : Dict) (pair : String × String) : List Citation :=
  eventRelationshipEvidence event pair :: missingRelationshipEvidence pfmea "risks" pair ::
    (relationshipCandidates (fieldRows pfmea "risks") (pairKey pair)).map
      (relationshipEvidence pfmea)

/-- R003 for pairs without risks. -/
def missingRiskFinding (event pfmea : Dict) (missing : List (String × String)) :
    Finding Citation :=
  let misbound := missing.any fun pair =>
    !(relationshipCandidates (fieldRows pfmea "risks") (pairKey pair)).isEmpty
  finding "QCI-R003" "特殊特性控制覆盖" (if misbound then .contradicted else .unverifiable)
    ((if misbound then "受影响pair被绑定到错误工序或特性："
      else "受影响pair缺少可定位PFMEA风险条目：") ++ join ", " (missing.map pairLabel))
    (missing.flatMap (missingRiskEvidence event pfmea)) "HIGH"
    "在PFMEA中补充受影响工序—特性pair的可定位风险分析。"
    ["每个affected_links pair至少对应一条可定位PFMEA风险"]

/-- R003 once the scope is complete and every row names its step. -/
def controlSpecials (event pfmea control : Dict) (plan : ImpactPlan) : Finding Citation :=
  match plan.affectedLinks.filter fun pair => (risksAt pfmea (pairKey pair)).isEmpty with
  | [] =>
      let evidence := plan.affectedLinks.flatMap fun pair => (controlOfPair pfmea control pair).1
      let gaps := plan.affectedLinks.flatMap fun pair => (controlOfPair pfmea control pair).2
      if gaps ≠ [] then
        finding "QCI-R003" "特殊特性控制覆盖" .contradicted
          ("特殊特性缺少完整控制方法、频次或反应计划：" ++ join ", " gaps) evidence "HIGH"
          "在控制计划中补齐控制方法、频次和反应计划。"
          ["每个PFMEA特殊特性均有完整控制条目"]
      else
        finding "QCI-R003" "特殊特性控制覆盖" .pass
          "PFMEA特殊特性均由同一工序—特性pair的完整控制承接。" evidence "LOW"
  | missing => missingRiskFinding event pfmea missing

/-- `rule_special_characteristic_control`. -/
def ruleSpecialCharacteristicControl (case : Dict) (plan : ImpactPlan) : Finding Citation :=
  let event := case.dictAt "event"
  match documentByType case "PFMEA", documentByType case "CONTROL_PLAN" with
  | some pfmea, some control =>
      if scopeRelationshipsComplete plan = false then
        finding "QCI-R003" "特殊特性控制覆盖" .unverifiable
          "缺少显式affected_links，无法确定风险与控制的关系主体。" [linksEvidence event] "HIGH"
      else
        match legacyUnboundEvidence case [(pfmea, "risks"), (control, "characteristics")] with
        | [] => controlSpecials event pfmea control plan
        | unbound =>
            finding "QCI-R003" "特殊特性控制覆盖" .unverifiable
              "旧版风险/控制行没有显式关系，不能从事件scope反推。" unbound "HIGH"
  | _, _ =>
      finding "QCI-R003" "特殊特性控制覆盖" .unverifiable "缺少PFMEA或控制计划。"
        [documentTypesEvidence case]

/-! ## When R001 passes -/

/-- The approved document of the type lists the step. -/
def ListsStep (case : Dict) (documentType step : String) : Prop :=
  Approved case documentType fun doc => normalizedIdentity step ∈
    ((doc.dictAt "fields").textsAt "process_steps").map normalizedIdentity

/-- The approved PFMEA has a risk row of the pair. -/
def HasRisk (case : Dict) (key : String × String) : Prop :=
  Approved case "PFMEA" fun doc => ∃ risk ∈ fieldRows doc "risks", NamesPair risk key

/-- The approved control plan has a row of the pair. -/
def HasControl (case : Dict) (key : String × String) : Prop :=
  Approved case "CONTROL_PLAN" fun doc =>
    ∃ row ∈ fieldRows doc "characteristics", NamesPair row key

/-- What R001 asks of a case. -/
structure Covered (case : Dict) : Prop where
  steps : (case.dictAt "event").textsAt "affected_process_steps" ≠ []
  listed : ∀ step ∈ (case.dictAt "event").textsAt "affected_process_steps",
    ∀ documentType ∈ ["PROCESS_FLOW", "PFMEA", "CONTROL_PLAN"], ListsStep case documentType step
  scope : ScopeLinked (case.dictAt "event")
  risksBound : RowsBound case "PFMEA" "risks"
  controlsBound : RowsBound case "CONTROL_PLAN" "characteristics"
  carried : ∀ link ∈ (case.dictAt "event").rowsAt "affected_links",
    HasRisk case (pairOf link) ∧ HasControl case (pairOf link)

lemma processStepSet_eq_ok {migrated : Bool} {referenceMigration : Option Json} {doc : Dict}
    (hdoc : AcceptedDocument migrated referenceMigration doc) {steps : List String}
    (h : processStepSet doc = .ok steps) :
    steps = sortedSet ((doc.dictAt "fields").textsAt "process_steps") := by
  simp only [processStepSet, bind_eq_ok, Except.ok.injEq] at h
  obtain ⟨items, hitems, rfl⟩ := h
  rcases hdoc.rows.steps with hnone | hscope
  · rw [Dict.textsAt_of_present?_none hnone]
    rcases Dict.present?_eq_none.mp hnone with habsent | hnull
    · rw [Dict.getD, habsent] at hitems
      obtain rfl := Except.ok.inj hitems
      rfl
    · rw [Dict.getD, hnull] at hitems
      exact absurd hitems typeError_ne_ok
  · rw [Dict.getD, hscope.texts.1] at hitems
    obtain rfl := Except.ok.inj hitems
    rw [List.filterMap_map]
    simp [Function.comp_def, Json.str?]

lemma missingSteps_eq_nil {steps : List String} {lists : List (List String)} :
    missingSteps steps lists = [] ↔
      ∀ step ∈ steps, ∀ l ∈ lists, normalizedIdentity step ∈ l.map normalizedIdentity := by
  simp [missingSteps, List.filter_eq_nil_iff]

lemma mem_map_sortedSet {steps : List String} {k : String} :
    k ∈ (sortedSet steps).map normalizedIdentity ↔ k ∈ steps.map normalizedIdentity := by
  simp only [List.mem_map, mem_sortedSet]

lemma relationGaps_eq_nil {pfmea control : Dict} {pair : String × String} :
    relationGaps pfmea control pair = [] ↔
      (∃ risk ∈ fieldRows pfmea "risks", NamesPair risk (pairKey pair)) ∧
        ∃ row ∈ fieldRows control "characteristics", NamesPair row (pairKey pair) := by
  rw [relationGaps, List.append_eq_nil_iff, ← risksAt_ne_nil, ← characteristicAt_ne_none]
  refine and_congr ?_ ?_
  · unfold riskCoverage
    cases risksAt pfmea (pairKey pair) with
    | nil => simp
    | cons risk rest => simp
  · unfold controlCoverage
    cases characteristicAt control (pairKey pair) with
    | none => simp
    | some row => simp

lemma coverRelations_pass_iff {event pfmea control : Dict} {plan : ImpactPlan}
    {evidence : List Citation} :
    (coverRelations event pfmea control plan evidence).status = .pass ↔
      ∀ pair ∈ plan.affectedLinks, relationGaps pfmea control pair = [] := by
  rw [← List.flatMap_eq_nil_iff]
  simp only [coverRelations]
  split_ifs with h
  · simp only [finding_status, reduceCtorEq, false_iff]
    exact h
  · simp only [finding_status, true_iff]
    exact not_not.mp h

/-- The three stages before the relations, and the relations. -/
lemma coverListed_pass_iff {case flow pfmea control : Dict} {plan : ImpactPlan}
    {flowSteps pfmeaSteps controlSteps : List String} :
    (coverListed case plan flow pfmea control flowSteps pfmeaSteps controlSteps).status = .pass ↔
      missingSteps plan.affectedProcessSteps [flowSteps, pfmeaSteps, controlSteps] = [] ∧
      scopeRelationshipsComplete plan = true ∧
      legacyUnboundEvidence case [(pfmea, "risks"), (control, "characteristics")] = [] ∧
      ∀ pair ∈ plan.affectedLinks, relationGaps pfmea control pair = [] := by
  simp only [coverListed]
  split_ifs with hmissing hscope
  · simp [hmissing]
  · simp [hscope]
  · have hno : missingSteps plan.affectedProcessSteps [flowSteps, pfmeaSteps, controlSteps] = [] :=
      not_not.mp hmissing
    have hyes : scopeRelationshipsComplete plan = true := by simpa using hscope
    split
    · rename_i hnil
      rw [coverRelations_pass_iff]
      simp only [hno, hyes, hnil, true_and]
    · rename_i unbound hne
      simp only [finding_status, reduceCtorEq, false_iff]
      rintro ⟨-, -, hnil, -⟩
      exact hne hnil

/-- The rules' check of the rows' bindings, as a condition on the case. -/
lemma unboundRisksAndControls_eq_nil {case pfmea control : Dict} (hcase : AcceptedCase case)
    (hpfmea : documentByType case "PFMEA" = some pfmea)
    (hcontrol : documentByType case "CONTROL_PLAN" = some control) :
    legacyUnboundEvidence case [(pfmea, "risks"), (control, "characteristics")] = [] ↔
      RowsBound case "PFMEA" "risks" ∧ RowsBound case "CONTROL_PLAN" "characteristics" := by
  rw [legacyUnboundEvidence_eq_nil, rowsBound_iff hcase (Or.inr rfl) hpfmea,
    rowsBound_iff hcase (Or.inl rfl) hcontrol]
  simp only [List.forall_mem_cons, List.not_mem_nil, IsEmpty.forall_iff, implies_true, and_true,
    forall_and]

/-- The rule's check of the steps, as a condition on the case. -/
lemma missingSteps_iff_listed {case flow pfmea control : Dict} {plan : ImpactPlan}
    {flowSteps pfmeaSteps controlSteps : List String} (hcase : AcceptedCase case)
    (hplan : buildImpactPlan case = .ok plan)
    (hflow : documentByType case "PROCESS_FLOW" = some flow)
    (hpfmea : documentByType case "PFMEA" = some pfmea)
    (hcontrol : documentByType case "CONTROL_PLAN" = some control)
    (hfs : processStepSet flow = .ok flowSteps) (hps : processStepSet pfmea = .ok pfmeaSteps)
    (hcs : processStepSet control = .ok controlSteps) :
    missingSteps plan.affectedProcessSteps [flowSteps, pfmeaSteps, controlSteps] = [] ↔
      ∀ step ∈ (case.dictAt "event").textsAt "affected_process_steps",
        ∀ documentType ∈ ["PROCESS_FLOW", "PFMEA", "CONTROL_PLAN"],
          ListsStep case documentType step := by
  have haccepted := fun {type doc} (hd : documentByType case type = some doc) =>
    acceptedDocument_of_mem hcase (documentByType_mem hd).1
  obtain rfl := processStepSet_eq_ok (haccepted hflow) hfs
  obtain rfl := processStepSet_eq_ok (haccepted hpfmea) hps
  obtain rfl := processStepSet_eq_ok (haccepted hcontrol) hcs
  rw [missingSteps_eq_nil, (buildImpactPlan_scope hcase hplan).1]
  simp only [ListsStep, mem_sortedSet, List.forall_mem_cons, List.not_mem_nil, IsEmpty.forall_iff,
    implies_true, and_true, mem_map_sortedSet, approved_iff hflow, approved_iff hpfmea,
    approved_iff hcontrol]

/-- **R001.** -/
theorem ruleProcessCoverage_pass_iff {case : Dict} {plan : ImpactPlan} {f : Finding Citation}
    (hcase : AcceptedCase case) (hplan : buildImpactPlan case = .ok plan)
    (h : ruleProcessCoverage case plan = .ok f) : f.status = .pass ↔ Covered case := by
  obtain ⟨flow, hflow⟩ := documentByType_accepted hcase (show "PROCESS_FLOW" ∈ _ by decide)
  obtain ⟨pfmea, hpfmea⟩ := documentByType_accepted hcase (show "PFMEA" ∈ _ by decide)
  obtain ⟨control, hcontrol⟩ := documentByType_accepted hcase (show "CONTROL_PLAN" ∈ _ by decide)
  have hscope := scopeRelationshipsComplete_iff hcase hplan
  have hsteps : plan.affectedProcessSteps =
      sortedSet ((case.dictAt "event").textsAt "affected_process_steps") :=
    (buildImpactPlan_scope hcase hplan).1
  simp only [ruleProcessCoverage, hflow, hpfmea, hcontrol] at h
  split_ifs at h with hempty
  · obtain rfl := Except.ok.inj h
    simp only [finding_status, reduceCtorEq, false_iff]
    intro hcovered
    rw [hsteps, sortedSet_eq_nil] at hempty
    exact hcovered.steps hempty
  · rw [hsteps, sortedSet_eq_nil] at hempty
    simp only [coverSteps, bind_eq_ok, Except.ok.injEq] at h
    obtain ⟨flowSteps, hfs, pfmeaSteps, hps, controlSteps, hcs, rfl⟩ := h
    rw [coverListed_pass_iff, hscope, missingSteps_iff_listed hcase hplan hflow hpfmea hcontrol hfs hps hcs,
      unboundRisksAndControls_eq_nil hcase hpfmea hcontrol]
    simp only [relationGaps_eq_nil]
    rw [forall_affectedLinks hcase hplan (P := fun key =>
      (∃ risk ∈ fieldRows pfmea "risks", NamesPair risk key) ∧
        ∃ row ∈ fieldRows control "characteristics", NamesPair row key)]
    constructor
    · rintro ⟨hlisted, hlinked, hbound, hcarried⟩
      refine ⟨hempty, hlisted, hlinked, hbound.1, hbound.2, fun link hlink => ?_⟩
      obtain ⟨hrisk, hrow⟩ := hcarried link hlink
      exact ⟨⟨pfmea, hpfmea, hrisk⟩, ⟨control, hcontrol, hrow⟩⟩
    · intro hcovered
      refine ⟨hcovered.listed, hcovered.scope, ⟨hcovered.risksBound, hcovered.controlsBound⟩,
        fun link hlink => ⟨?_, ?_⟩⟩
      · exact (approved_iff hpfmea).mp (hcovered.carried link hlink).1
      · exact (approved_iff hcontrol).mp (hcovered.carried link hlink).2

/-! ## When R003 passes -/

/-- A risk row of the pair in the approved PFMEA is special. -/
def SpecialPair (case : Dict) (key : String × String) : Prop :=
  Approved case "PFMEA" fun doc => ∃ risk ∈ fieldRows doc "risks",
    NamesPair risk key ∧ risk.get? "special_characteristic" = some (.bool true)

/-- The approved control plan has a row of the pair with a method, a frequency and a plan. -/
def HasCompleteControl (case : Dict) (key : String × String) : Prop :=
  Approved case "CONTROL_PLAN" fun doc => ∃ row ∈ fieldRows doc "characteristics",
    NamesPair row key ∧ ∀ field ∈ controlFields, HasText row field

/-- What R003 asks of a case. -/
structure SpeciallyControlled (case : Dict) : Prop where
  scope : ScopeLinked (case.dictAt "event")
  risksBound : RowsBound case "PFMEA" "risks"
  controlsBound : RowsBound case "CONTROL_PLAN" "characteristics"
  risks : ∀ link ∈ (case.dictAt "event").rowsAt "affected_links", HasRisk case (pairOf link)
  controlled : ∀ link ∈ (case.dictAt "event").rowsAt "affected_links",
    SpecialPair case (pairOf link) → HasCompleteControl case (pairOf link)

omit [PyUnicode] in
lemma isControlled_iff {row : Dict} :
    isControlled row = true ↔ ∀ field ∈ controlFields, HasText row field := by
  simp only [isControlled, List.all_eq_true, Bool.not_eq_true', hasText_iff_textAt]

lemma truthy_special {migrated : Bool} {fields risk : Dict} (h : IsRisk migrated fields risk) :
    (risk.getD "special_characteristic" .null).truthy = true ↔
      risk.get? "special_characteristic" = some (.bool true) := by
  rcases h.special with hs | hs <;> simp [Dict.getD, hs, Json.truthy]

lemma isSpecialPair_iff {case pfmea : Dict} (hcase : AcceptedCase case)
    (hpfmea : documentByType case "PFMEA" = some pfmea) {pair : String × String} :
    isSpecialPair pfmea pair = true ↔ SpecialPair case (pairKey pair) := by
  have haccepted := acceptedDocument_of_mem hcase (documentByType_mem hpfmea).1
  rw [SpecialPair, approved_iff hpfmea]
  simp only [isSpecialPair, List.any_eq_true, risksAt, mem_rowsOfPair, and_assoc]
  refine exists_congr fun risk => and_congr_right fun hrisk => and_congr_right fun _ => ?_
  exact truthy_special ((risks_of_fields haccepted.rows).each risk hrisk)

lemma specialCoverage_eq_nil {case control : Dict} (hcase : AcceptedCase case)
    (hcontrol : documentByType case "CONTROL_PLAN" = some control) {pair : String × String} :
    (specialCoverage control pair).2 = [] ↔ HasCompleteControl case (pairKey pair) := by
  have haccepted := acceptedDocument_of_mem hcase (documentByType_mem hcontrol).1
  rw [HasCompleteControl, approved_iff hcontrol]
  unfold specialCoverage
  cases hrow : characteristicAt control (pairKey pair) with
  | none =>
      simp only [List.cons_ne_self, false_iff]
      rintro ⟨row, hmem, hnames, -⟩
      exact absurd hrow (characteristicAt_ne_none.mpr ⟨row, hmem, hnames⟩)
  | some row =>
      have hfound := (characteristicAt_eq_some haccepted).mp hrow
      simp only
      split_ifs with hcontrolled
      · simp only [true_iff]
        exact ⟨row, hfound.1, hfound.2, isControlled_iff.mp hcontrolled⟩
      · simp only [false_iff]
        rintro ⟨other, hmem, hnames, htext⟩
        have hsame := (characteristicAt_eq_some haccepted).mpr ⟨hmem, hnames⟩
        rw [hrow] at hsame
        obtain rfl := Option.some.inj hsame
        exact hcontrolled (isControlled_iff.mpr htext)

lemma controlOfPair_eq_nil {case pfmea control : Dict} (hcase : AcceptedCase case)
    (hpfmea : documentByType case "PFMEA" = some pfmea)
    (hcontrol : documentByType case "CONTROL_PLAN" = some control) {pair : String × String} :
    (controlOfPair pfmea control pair).2 = [] ↔
      (SpecialPair case (pairKey pair) → HasCompleteControl case (pairKey pair)) := by
  rw [← isSpecialPair_iff hcase hpfmea, ← specialCoverage_eq_nil hcase hcontrol]
  unfold controlOfPair
  split_ifs with h
  · simp [h]
  · simp [h]

lemma controlSpecials_pass_iff {event pfmea control : Dict} {plan : ImpactPlan} :
    (controlSpecials event pfmea control plan).status = .pass ↔
      (∀ pair ∈ plan.affectedLinks, risksAt pfmea (pairKey pair) ≠ []) ∧
        ∀ pair ∈ plan.affectedLinks, (controlOfPair pfmea control pair).2 = [] := by
  have hfilter : (plan.affectedLinks.filter fun pair => (risksAt pfmea (pairKey pair)).isEmpty) =
      [] ↔ ∀ pair ∈ plan.affectedLinks, risksAt pfmea (pairKey pair) ≠ [] := by
    simp [List.filter_eq_nil_iff]
  rw [← hfilter]
  unfold controlSpecials
  split
  · rename_i hnil
    simp only [hnil, true_and]
    rw [← List.flatMap_eq_nil_iff]
    split_ifs with h
    · simp only [finding_status, reduceCtorEq, false_iff]
      exact h
    · simp only [finding_status, true_iff]
      exact not_not.mp h
  · rename_i missing hne
    have hstatus : ∀ pairs, (missingRiskFinding event pfmea pairs).status ≠ .pass := by
      intro pairs
      unfold missingRiskFinding
      rw [finding_status]
      split_ifs <;> simp
    exact ⟨fun h => absurd h (hstatus _), fun h => absurd h.1 hne⟩

/-- **R003.** -/
theorem ruleSpecialCharacteristicControl_pass_iff {case : Dict} {plan : ImpactPlan}
    (hcase : AcceptedCase case) (hplan : buildImpactPlan case = .ok plan) :
    (ruleSpecialCharacteristicControl case plan).status = .pass ↔ SpeciallyControlled case := by
  obtain ⟨pfmea, hpfmea⟩ := documentByType_accepted hcase (show "PFMEA" ∈ _ by decide)
  obtain ⟨control, hcontrol⟩ := documentByType_accepted hcase (show "CONTROL_PLAN" ∈ _ by decide)
  have hscope := scopeRelationshipsComplete_iff hcase hplan
  have hrisks := fun key => approved_iff hpfmea (P := fun doc =>
    ∃ risk ∈ fieldRows doc "risks", NamesPair risk key)
  have hbound := unboundRisksAndControls_eq_nil hcase hpfmea hcontrol
  simp only [ruleSpecialCharacteristicControl, hpfmea, hcontrol]
  split_ifs with hcomplete
  · simp only [finding_status, reduceCtorEq, false_iff]
    intro hall
    rw [hscope.mpr hall.scope] at hcomplete
    exact absurd hcomplete (by decide)
  · have hlinked := hscope.mp (by simpa using hcomplete)
    split
    · rename_i hnil
      rw [controlSpecials_pass_iff]
      simp only [risksAt_ne_nil, controlOfPair_eq_nil hcase hpfmea hcontrol]
      rw [forall_affectedLinks hcase hplan (P := fun key =>
        ∃ risk ∈ fieldRows pfmea "risks", NamesPair risk key),
        forall_affectedLinks hcase hplan (P := fun key =>
          SpecialPair case key → HasCompleteControl case key)]
      have hb := hbound.mp hnil
      constructor
      · rintro ⟨hr, hc⟩
        exact ⟨hlinked, hb.1, hb.2, fun link hlink => (hrisks _).mpr (hr link hlink), hc⟩
      · intro hall
        exact ⟨fun link hlink => (hrisks _).mp (hall.risks link hlink), hall.controlled⟩
    · rename_i unbound hne
      simp only [finding_status, reduceCtorEq, false_iff]
      intro hall
      exact hne (hbound.mpr ⟨hall.risksBound, hall.controlsBound⟩)

end QualityCI

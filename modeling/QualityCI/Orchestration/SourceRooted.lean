import QualityCI.Orchestration.Legacy
import QualityCI.Replay.Operations

/-!
# The team run of a case source bundle

Team 0.2 evaluates the case that a bundle of raw sources was built into, and its mutation if there
is one, and may release: its decision is ready when the run passes.  Every message carries the
source's identities, and the constructor of the result compares them all and rebuilds every hash.

* `CaseSourceContext`, `evaluateCaseSourceBundle` — the engine's run of a sealed source context.
* `SourceRootedTeamRunResult`, `validateSourceRootedTeamResult` — the result and its constructor's
  checks.
* `runAgentTeamWithSourceBundle` — the choreography.
* **`validateSourceRootedTeamResult_eq_ok`** — of what the engine returns, the result refuses
  identifiers with whitespace at an end.
* **`runAgentTeamWithSourceBundle_eq_ok`** — so a team run returns exactly when they are trimmed.
-/

namespace QualityCI

open Py

section Team

variable [PyUnicode]

/-! ## The engine's run of a source context -/

/-- What a bundle, and its mutation if there is one, leave in a sealed `_CaseSourceContext`: the
terminal case with its hash, the reference context built from the same bytes, and the identities of
the sources and of the last derivation. -/
structure CaseSourceContext extends SourceContext where
  reference : ReferenceContext
  setHash : String
  bindingHash : String
  lineageHash : Option String
  terminalCaseHash : String

/-- `_CaseSourceContext.assurance`, before its constructor's check. -/
def CaseSourceContext.assurance (context : CaseSourceContext) : CaseSourceAssurance where
  state := if context.lineageHash.isNone then sourceBound else sourceDerived
  packContractVersion := some sourcePackVersion
  setContractVersion := some sourceSetVersion
  setHash := some context.setHash
  bindingHash := some context.bindingHash
  lineageContractVersion := context.lineageHash.map fun _ => sourceLineageVersion
  lineageHash := context.lineageHash

/-- `_SourceAssuredEvaluation`. -/
structure SourceAssuredEvaluation where
  context : CaseSourceContext
  run : RunResult

/-- `_evaluate_source_rooted_case`, of what a sealed context holds; a validation context is one
prepared for its case, as the boundary asks. -/
def evaluateSourceRooted (case : Dict) (reference : ReferenceContext)
    (assurance : CaseSourceAssurance) (validation : Option ValidationContext) :
    Result RunResult := do
  validateCaseSourceAssurance assurance
  let unbound ← runCaseWithReferenceContext case (some reference) validation
  let runId ← runIdForCurrentIdentity unbound.caseHash assurance unbound.assurance
  let run := { unbound with runId := runId, caseSourceAssurance := assurance }
  run.postInit
  .ok run

def evaluateSourceRootedCase (context : CaseSourceContext)
    (validation : Option ValidationContext) : Result RunResult :=
  evaluateSourceRooted context.case context.reference context.assurance validation

/-- `_evaluate_case_source_bundle`, from the contexts that the bundles leave. -/
def evaluateCaseSourceBundle (context : CaseSourceContext)
    (validation : Option ValidationContext) : Result SourceAssuredEvaluation := do
  let run ← evaluateSourceRootedCase context validation
  ensure (run.caseHash = context.terminalCaseHash)
    "source-assured Run differs from rebuilt terminal Case"
  .ok ⟨context, run⟩

/-! ## The messages -/

def teamRunContractVersion : String := "qualityci-team-run-0.2"
def teamTaskContextContractVersion : String := "qualityci-team-task-context-0.2"
def teamTraceEventContractVersion : String := "qualityci-team-trace-event-0.2"
def teamSharedStateContractVersion : String := "qualityci-team-shared-state-0.2"
def teamFinalDecisionContractVersion : String := "qualityci-team-final-decision-0.2"

/-- `_source_tuple`. -/
def sourceTuple (source : CaseSourceAssurance) (label : String) : Result Dict := do
  require (source.state ∈ [sourceBound, sourceDerived])
    s!"{label} source tuple must be BOUND or SOURCE_ROOTED"
  .ok source.toDict

/-- `_team_state_for_status`. -/
def teamStateForStatus (status : String) : String :=
  if status = CheckStatus.pass.text then teamReady else teamBlocked

structure SourceRootedTeamTaskContext where
  contractVersion : String
  caseSource : CaseSourceAssurance
  caseId : String
  eventId : String
  caseHash : String
  synthetic : Bool
  deriving DecidableEq

def SourceRootedTeamTaskContext.items (context : SourceRootedTeamTaskContext) :
    List (String × Json) :=
  [("contract_version", .str context.contractVersion),
   ("case_source", .obj context.caseSource.toDict), ("case_id", .str context.caseId),
   ("event_id", .str context.eventId), ("case_hash", .str context.caseHash),
   ("synthetic", .bool context.synthetic)]

/-- `SourceRootedTeamTaskContext.__post_init__`. -/
def SourceRootedTeamTaskContext.postInit (context : SourceRootedTeamTaskContext) :
    Result Unit := do
  exactConstant (some context.contractVersion) teamTaskContextContractVersion
    "Team 0.2 task context contract version"
  let _ ← sourceTuple context.caseSource "Team 0.2 task context"
  exactText context.caseId "Team 0.2 task context case_id"
  exactText context.eventId "Team 0.2 task context event_id"
  lowerHex (some context.caseHash) 64 "Team 0.2 task context case_hash"

structure SourceRootedTeamTraceEvent extends TeamTraceEvent where
  contractVersion : String
  caseSource : CaseSourceAssurance
  deriving DecidableEq

/-- The constructor of an event of the trace. -/
def sourceRootedTeamTraceEvent (source : CaseSourceAssurance) (event : TeamTraceEvent) :
    Result SourceRootedTeamTraceEvent := do
  let _ ← sourceTuple source "Team 0.2 trace"
  validateTraceFields event "Team 0.2 trace"
  .ok { event with contractVersion := teamTraceEventContractVersion, caseSource := source }

structure SourceRootedTeamArtifactHashes where
  taskContext : String
  dispatchPlan : String
  impactPlan : String
  runResult : String
  finalDecision : String
  deriving DecidableEq

/-- `SourceRootedTeamArtifactHashes.__post_init__`. -/
def SourceRootedTeamArtifactHashes.postInit (hashes : SourceRootedTeamArtifactHashes) :
    Result Unit :=
  forEach (fun entry => lowerHex (some entry.2) 64 s!"Team 0.2 artifact hash {entry.1}")
    [("task_context", hashes.taskContext), ("dispatch_plan", hashes.dispatchPlan),
     ("impact_plan", hashes.impactPlan), ("run_result", hashes.runResult),
     ("final_decision", hashes.finalDecision)]

structure SourceRootedTeamFinalDecision where
  contractVersion : String
  caseSource : CaseSourceAssurance
  decision : String
  runId : String
  overallStatus : String
  deriving DecidableEq

def SourceRootedTeamFinalDecision.items (decision : SourceRootedTeamFinalDecision) :
    List (String × Json) :=
  [("contract_version", .str decision.contractVersion),
   ("case_source", .obj decision.caseSource.toDict), ("decision", .str decision.decision),
   ("run_id", .str decision.runId), ("overall_status", .str decision.overallStatus)]

/-- `SourceRootedTeamFinalDecision.__post_init__`. -/
def SourceRootedTeamFinalDecision.postInit (decision : SourceRootedTeamFinalDecision) :
    Result Unit := do
  exactConstant (some decision.contractVersion) teamFinalDecisionContractVersion
    "Team 0.2 final decision contract version"
  let _ ← sourceTuple decision.caseSource "Team 0.2 final decision"
  require (decision.decision ∈ [teamReady, teamBlocked])
    "Team 0.2 final decision state is unsupported"
  lowerHex (some decision.runId) 16 "Team 0.2 final decision run_id"
  require (decision.overallStatus ∈
      [CheckStatus.pass, CheckStatus.contradicted, CheckStatus.unverifiable].map CheckStatus.text)
    "Team 0.2 final decision status is unsupported"
  require (decision.decision = teamStateForStatus decision.overallStatus)
    "Team 0.2 final decision differs from overall status"

structure SourceRootedTeamSharedState where
  contractVersion : String
  caseSource : CaseSourceAssurance
  caseId : String
  eventId : String
  currentState : String
  artifactHashes : SourceRootedTeamArtifactHashes
  dispatchPlan : List DispatchStep
  runId : String
  rulesetVersion : String
  deriving DecidableEq

/-- `_validate_dispatch_plan`. -/
def validateDispatchPlan (plan : List DispatchStep) (label : String) : Result Unit := do
  whenever (plan.length ≠ dispatchProfile.length)
    (typeError s!"{label} dispatch plan must use exact Team 0.2 values")
  require (plan = dispatchProfile) s!"{label} dispatch plan differs from its exact profile"

/-- `SourceRootedTeamSharedState.__post_init__`. -/
def SourceRootedTeamSharedState.postInit (state : SourceRootedTeamSharedState) :
    Result Unit := do
  exactConstant (some state.contractVersion) teamSharedStateContractVersion
    "Team 0.2 shared state contract version"
  let _ ← sourceTuple state.caseSource "Team 0.2 shared state"
  exactText state.caseId "Team 0.2 shared state case_id"
  exactText state.eventId "Team 0.2 shared state event_id"
  require (state.currentState ∈ [teamReady, teamBlocked])
    "Team 0.2 shared state current_state is unsupported"
  validateDispatchPlan state.dispatchPlan "Team 0.2 shared state"
  lowerHex (some state.runId) 16 "Team 0.2 shared state run_id"
  exactText state.rulesetVersion "Team 0.2 shared state ruleset_version"

/-- `SourceRootedTeamDispatchStep.__post_init__`. -/
def DispatchStep.postInit (step : DispatchStep) : Result Unit := do
  whenever (step.sequence ≤ 0)
    (typeError "Team 0.2 dispatch sequence must be an exact positive integer")
  exactText step.agentId "Team 0.2 dispatch agent_id"
  exactText step.skillId "Team 0.2 dispatch skill_id"

structure SourceRootedTeamRunResult where
  contractVersion : String
  caseSource : CaseSourceAssurance
  taskContext : SourceRootedTeamTaskContext
  run : RunResult
  trace : List SourceRootedTeamTraceEvent
  finalTeamState : String
  finalDecision : SourceRootedTeamFinalDecision
  sharedState : SourceRootedTeamSharedState
  runtimeMode : String := teamRuntimeMode
  deriving DecidableEq

/-! ## The payloads -/

def sourceManagerOutput (context : SourceRootedTeamTaskContext) (plan : List DispatchStep) : Dict :=
  managerOutput (Dict.ofList context.items) plan

def sourceInput (source : CaseSourceAssurance) (caseHash : String) : Dict :=
  Dict.ofList [("case_source", .obj source.toDict), ("case_hash", .str caseHash)]

def sourceDispatchArtifact (source : CaseSourceAssurance) (plan : List DispatchStep) : Dict :=
  Dict.ofList
    [("case_source", .obj source.toDict), ("dispatch_plan", .arr (plan.map DispatchStep.toJson))]

def sourceImpactArtifact (source : CaseSourceAssurance) (caseHash : String) (plan : ImpactPlan) :
    Dict :=
  Dict.ofList
    [("case_source", .obj source.toDict), ("case_hash", .str caseHash),
     ("impact_plan", .obj plan.toDict)]

/-! ## The constructor of the result -/

/-- `_validate_current_team_run`. -/
def validateCurrentTeamRun (run : RunResult) (source : Dict) (caseSource : CaseSourceAssurance) :
    Result Unit := do
  exactConstant (some run.runResultContractVersion) runResultContractVersion
    "CURRENT_V4 RunResult contract version"
  exactConstant (some run.runIdentityVersion) runIdentityVersion
    "CURRENT_V4 RunResult identity version"
  lowerHex (some run.runId) 16 "CURRENT_V4 RunResult run_id"
  exactText run.caseId "CURRENT_V4 RunResult case_id"
  lowerHex (some run.caseHash) 64 "CURRENT_V4 RunResult case_hash"
  exactConstant (some run.rulesetVersion) rulesetVersion "CURRENT_V4 RunResult ruleset_version"
  require (run.caseSourceAssurance.toDict = source)
    "Team 0.2 nested run source tuple disagrees with the root"
  validateReferenceProfile run.assurance "CURRENT_V4"
  validateResultValueTypes run.overallStatus run.findings "CURRENT_V4"
  let expected ← runIdForCurrentIdentity run.caseHash caseSource run.assurance
  require (run.runId = expected) "CURRENT_V4 RunResult run_id differs from its exact identity"

/-- The source tuples of the nested messages, each with its name. -/
def SourceRootedTeamRunResult.nestedSources (value : SourceRootedTeamRunResult) :
    List (CaseSourceAssurance × String) :=
  [(value.taskContext.caseSource, "task context"), (value.sharedState.caseSource, "shared state"),
   (value.finalDecision.caseSource, "final decision")] ++
  value.trace.zipIdx.map fun event => (event.1.caseSource, s!"trace[{event.2}]")

/-- `_validate_source_rooted_team_result`. -/
def validateSourceRootedTeamResult (value : SourceRootedTeamRunResult) : Result Unit := do
  exactConstant (some value.contractVersion) teamRunContractVersion
    "Team 0.2 root contract version"
  exactConstant (some value.runtimeMode) teamRuntimeMode "Team 0.2 runtime mode"
  let source ← sourceTuple value.caseSource "Team 0.2 root"
  validateCurrentTeamRun value.run source value.caseSource
  whenever (value.trace.length ≠ 4)
    (typeError "Team 0.2 result requires exactly four exact trace values")
  forEach (fun nested => do
      let tuple ← sourceTuple nested.1 s!"Team 0.2 {nested.2}"
      require (tuple = source) s!"Team 0.2 {nested.2} source tuple disagrees with the root")
    value.nestedSources
  require (value.taskContext.caseId = value.run.caseId ∧
      value.sharedState.caseId = value.run.caseId ∧
      value.taskContext.caseHash = value.run.caseHash ∧
      value.taskContext.eventId = value.sharedState.eventId ∧
      value.taskContext.synthetic = true)
    "Team 0.2 task/shared identity joins disagree with the run"
  let status := value.run.overallStatus.text
  let expected := teamStateForStatus status
  require (value.finalTeamState = expected ∧ value.sharedState.currentState = expected ∧
      value.finalDecision.decision = expected ∧ value.finalDecision.runId = value.run.runId ∧
      value.finalDecision.overallStatus = status ∧ value.sharedState.runId = value.run.runId ∧
      value.sharedState.rulesetVersion = value.run.rulesetVersion)
    "Team 0.2 run/status/state joins are inconsistent"
  validateDispatchPlan value.sharedState.dispatchPlan "Team 0.2 root"
  let plan := value.sharedState.dispatchPlan
  let task ← canonicalHash (.obj (Dict.ofList value.taskContext.items))
  let dispatch ← canonicalHash (.obj (sourceDispatchArtifact value.caseSource plan))
  let impact ← canonicalHash
    (.obj (sourceImpactArtifact value.caseSource value.run.caseHash value.run.impactPlan))
  let runHash ← canonicalHash (.obj value.run.toDict)
  let final ← canonicalHash (.obj (Dict.ofList value.finalDecision.items))
  require (value.sharedState.artifactHashes = ⟨task, dispatch, impact, runHash, final⟩)
    "Team 0.2 artifact hashes differ from exact nested values"
  let input ← canonicalHash (.obj (sourceInput value.caseSource value.run.caseHash))
  let manager ← canonicalHash (.obj (sourceManagerOutput value.taskContext plan))
  validateTraceProfile (value.trace.map SourceRootedTeamTraceEvent.toTeamTraceEvent) expected
    [(input, manager), (manager, impact), (impact, runHash), (runHash, final)] "Team 0.2"

/-! ## The choreography -/

/-- `run_agent_team_with_source_bundle`, from the contexts that the bundles leave.  The last
comparisons of the source, of the result's own payload with its parts, compare values with
themselves. -/
def runAgentTeamWithSourceBundle (context : CaseSourceContext)
    (validation : Option ValidationContext) : Result SourceRootedTeamRunResult := do
  let evaluation ← evaluateCaseSourceBundle context validation
  let case := evaluation.context.case
  let run := evaluation.run
  let source := run.caseSourceAssurance
  validateCaseSourceAssurance source
  ensure (source.state ∈ [sourceBound, sourceDerived])
    "source-rooted Team requires a bound or derived Run"
  let caseHash ← canonicalHash (.obj case)
  ensure (caseHash = run.caseHash) "source-rooted Team Case differs from current Run"
  let task : SourceRootedTeamTaskContext :=
    { contractVersion := teamTaskContextContractVersion
      caseSource := source
      caseId := case.textAt "case_id"
      eventId := (case.dictAt "event").textAt "event_id"
      caseHash := caseHash
      synthetic := true }
  task.postInit
  forEach DispatchStep.postInit dispatchProfile
  let gate := if run.overallStatus = .pass then teamReady else teamBlocked
  let decision : SourceRootedTeamFinalDecision :=
    { contractVersion := teamFinalDecisionContractVersion
      caseSource := source
      decision := gate
      runId := run.runId
      overallStatus := run.overallStatus.text }
  decision.postInit
  let input ← canonicalHash (.obj (sourceInput source caseHash))
  let manager ← canonicalHash (.obj (sourceManagerOutput task dispatchProfile))
  let impact ← canonicalHash (.obj (sourceImpactArtifact source caseHash run.impactPlan))
  let runHash ← canonicalHash (.obj run.toDict)
  let final ← canonicalHash (.obj (Dict.ofList decision.items))
  let trace ← mapEach (sourceRootedTeamTraceEvent source)
    (teamTrace input manager impact runHash final gate (citedLocators run.findings)
      ["run_id", "case_hash", "ruleset_version", "overall_status", "case_source"])
  let taskHash ← canonicalHash (.obj (Dict.ofList task.items))
  let dispatch ← canonicalHash (.obj (sourceDispatchArtifact source dispatchProfile))
  let hashes : SourceRootedTeamArtifactHashes := ⟨taskHash, dispatch, impact, runHash, final⟩
  hashes.postInit
  let shared : SourceRootedTeamSharedState :=
    { contractVersion := teamSharedStateContractVersion
      caseSource := source
      caseId := case.textAt "case_id"
      eventId := (case.dictAt "event").textAt "event_id"
      currentState := gate
      artifactHashes := hashes
      dispatchPlan := dispatchProfile
      runId := run.runId
      rulesetVersion := run.rulesetVersion }
  shared.postInit
  let result : SourceRootedTeamRunResult :=
    { contractVersion := teamRunContractVersion
      caseSource := source
      taskContext := task
      run := run
      trace := trace
      finalTeamState := gate
      finalDecision := decision
      sharedState := shared }
  validateSourceRootedTeamResult result
  .ok result

/-! ## What the engine returns -/

/-- What the orchestration reads of a source-rooted run: besides what it reads of any run, that its
source is bound or derived, and the name it has with that source. -/
structure SourceRootedRun (case : Dict) (run : RunResult) : Prop extends RunsTo case run where
  state : run.caseSourceAssurance.state ∈ [sourceBound, sourceDerived]
  source : validateCaseSourceAssurance run.caseSourceAssurance = .ok ()
  name : runIdForCurrentIdentity run.caseHash run.caseSourceAssurance run.assurance = .ok run.runId

lemma sourceRootedRun_of_evaluate {context : CaseSourceContext}
    {validation : Option ValidationContext} {evaluation : SourceAssuredEvaluation}
    (h : evaluateCaseSourceBundle context validation = .ok evaluation) :
    evaluation.context = context ∧ SourceRootedRun context.case evaluation.run := by
  simp only [evaluateCaseSourceBundle, evaluateSourceRootedCase, evaluateSourceRooted, bind_eq_ok,
    exists_unit, ensure_eq_ok, Except.ok.injEq] at h
  obtain ⟨_, ⟨hsource, unbound, hunbound, runId, hname, hinit, rfl⟩, -, rfl⟩ := h
  obtain ⟨hevaluate, hinit'⟩ :=
    (runCaseWithReferenceContext_eq_ok (prepareCase_current context.accepted)).mp hunbound
  obtain ⟨hruns, -⟩ := runsTo_of_evaluatePrepared hevaluate hinit'
  refine ⟨rfl, ⟨⟨⟨RunResult.constructed hinit, hruns.evaluated.ruleset, hruns.evaluated.status⟩,
    hruns.caseHash, hruns.plan, hruns.caseId⟩, ?_, hsource, hname⟩⟩
  simp only [CaseSourceContext.assurance, List.mem_cons, List.not_mem_nil, or_false]
  split_ifs
  · exact Or.inl rfl
  · exact Or.inr rfl

/-- The identities of the contexts of a run pass its constructor's checks. -/
structure AttestedContexts (states : AssuranceStates) : Prop where
  reference : checkAttested "reference" states.referenceState unattestedReferenceAssurance
    attestedReferenceAssurance "qualityci-controlled-reference-0.1" "reference set hash"
    states.referenceSetHash states.referenceContractVersion = .ok ()
  validation : checkAttested "validation" states.validationState validationAssuranceUnattested
    validationAssuranceAttested "qualityci-validation-evidence-0.1" "validation evidence set hash"
    states.validationEvidenceSetHash states.validationEvidenceContractVersion = .ok ()

/-- What an evaluation returns passes the constructor's checks, when its source and its contexts
do. -/
lemma postInit_of_evaluatePrepared {case : Dict} {source : CaseSourceAssurance}
    {reference : Option ReferenceContext} {validation : Option ValidationContext}
    {run : RunResult} (hcase : AcceptedCase case) (hsource : checkSource source = .ok ())
    (hcontexts : AttestedContexts (assuranceOf reference validation))
    (h : evaluatePrepared case source reference validation = .ok run) : run.postInit = .ok () := by
  obtain ⟨plan, -, f, printed, -, caseHash, hhash, runId, hrunId, rfl⟩ :=
    evaluatePrepared_eq_ok.mp h
  obtain ⟨digest, hdigest, hname, hhex⟩ := runIdForCurrentIdentity_returns caseHash source
    (assuranceOf reference validation)
  obtain rfl : runId = String.ofList (digest.toList.take 16) :=
    Except.ok.inj (hrunId.symm.trans hname)
  have hcaseHash := isHexText_canonicalHash hhash
  have hid := (hasText_iff_textAt.mp hcase.caseId)
  simp only [RunResult.postInit, bind_eq_ok, exists_unit, require_eq_ok, lowerHash,
    lowerHashOrNone, runIdentity_set, hdigest, Except.ok.injEq, exists_eq_left']
  exact ⟨trivial, trivial, hhex, hid, ⟨hcaseHash, rfl⟩, hsource, hcontexts.reference,
    hcontexts.validation, trivial⟩

omit [PyUnicode] in
/-- An assurance that passes its own check passes that of a run. -/
lemma checkSource_of_valid {source : CaseSourceAssurance}
    (h : validateCaseSourceAssurance source = .ok ()) : checkSource source = .ok () := by
  have hhash : ∀ {value : Option String} {label : String}, sourceTupleHash value label = .ok () →
      lowerHash value label = .ok () ∧ lowerHashOrNone value label = .ok () ∧
        value.isSome = true := by
    intro value label hvalue
    cases value with
    | none => cases hvalue
    | some text =>
        have hhex : lowerHashOrNone (some text) label = .ok () :=
          require_eq_ok.mpr (require_eq_ok.mp hvalue)
        refine ⟨?_, hhex, rfl⟩
        simp only [lowerHash, seq_eq_ok, require_eq_ok]
        exact ⟨hhex, rfl⟩
  by_cases hstate : source.state ∉ [caseSourceUnbound, sourceBound, sourceDerived]
  · rw [validateCaseSourceAssurance, if_pos hstate] at h
    cases h
  · by_cases hunbound : source.state = caseSourceUnbound
    · rw [validateCaseSourceAssurance, if_neg hstate, if_pos hunbound] at h
      rw [checkSource, if_pos hunbound, require_eq_ok]
      exact require_eq_ok.mp h
    · have hbound : source.state = sourceBound ∨ source.state = sourceDerived :=
        or_iff_not_imp_left.mpr fun hroot => by simpa [hunbound, hroot] using hstate
      rw [validateCaseSourceAssurance, if_neg hstate, if_neg hunbound] at h
      simp only [seq_eq_ok, require_eq_ok] at h
      obtain ⟨hpack, hset, hsetHash, hbinding, hlineage⟩ := h
      rw [checkSource, if_neg hunbound, if_pos hbound]
      simp only [seq_eq_ok, require_eq_ok]
      refine ⟨⟨hpack, hset⟩, (hhash hsetHash).1, (hhash hbinding).1, ?_⟩
      by_cases hroot : source.state = sourceBound
      · rw [if_pos hroot] at hlineage ⊢
        exact require_eq_ok.mpr (require_eq_ok.mp hlineage)
      · rw [if_neg hroot] at hlineage ⊢
        simp only [seq_eq_ok, require_eq_ok] at hlineage ⊢
        obtain ⟨hversion, hname⟩ := hlineage
        exact ⟨⟨hversion, (hhash hname).2.2⟩, (hhash hname).2.1⟩

/-- **The run of a source context**: of an accepted case, it returns when the evaluation does. -/
theorem evaluateSourceRooted_returns {case : Dict} {reference : ReferenceContext}
    {assurance : CaseSourceAssurance} {validation : Option ValidationContext} {run : RunResult}
    (haccepted : validateCaseDict case = .ok ())
    (hassurance : validateCaseSourceAssurance assurance = .ok ())
    (hcontexts : AttestedContexts (assuranceOf (some reference) validation))
    (h : evaluateCase case (some reference) validation = .ok run) :
    ∃ rooted, evaluateSourceRooted case reference assurance validation = .ok rooted ∧
      rooted.caseHash = run.caseHash ∧ rooted.overallStatus = run.overallStatus := by
  have hcase := validateCase_accepted haccepted
  have hp := prepareCase_current haccepted
  obtain ⟨_, hp', hevaluate⟩ := evaluateCase_eq_ok.mp h
  obtain rfl := Except.ok.inj (hp.symm.trans hp')
  have hunbound := (runCaseWithReferenceContext_eq_ok hp).mpr
    ⟨hevaluate, postInit_of_evaluatePrepared hcase
      (checkSource_of_valid validateCaseSourceAssurance_unbound) hcontexts hevaluate⟩
  obtain ⟨plan, hplan, f, printed, hprinted, caseHash, hhash, _, -, rfl⟩ :=
    evaluatePrepared_eq_ok.mp hevaluate
  obtain ⟨digest, -, hname, -⟩ := runIdForCurrentIdentity_returns caseHash assurance
    (assuranceOf (some reference) validation)
  have hbound := evaluatePrepared_eq_ok.mpr
    ⟨plan, hplan, f, printed, hprinted, caseHash, hhash, _, hname, rfl⟩
  simp only [evaluateSourceRooted, bind_eq_ok, exists_unit, Except.ok.injEq]
  exact ⟨_, ⟨hassurance, _, hunbound, _, hname, postInit_of_evaluatePrepared hcase
    (checkSource_of_valid hassurance) hcontexts hbound, rfl⟩, rfl, rfl⟩

/-! ## The hashes of the payloads -/

omit [PyUnicode] in
lemma CaseSourceAssurance.toDict_writable (source : CaseSourceAssurance) :
    Writable (.obj source.toDict) := ofList_writable source.items_writable

omit [PyUnicode] in
lemma RunResult.items_writable (run : RunResult) : ∀ e ∈ run.items, Writable e.2 := by
  intro e he
  simp only [RunResult.items, List.mem_append, or_assoc] at he
  rcases he with he | he | he | he
  · revert e
    simp
  · exact run.caseSourceAssurance.items_writable e he
  · exact run.assurance.items_writable e he
  · exact outcomeItems_writable _ _ _ e he

lemma canonicalHash_run (run : RunResult) :
    canonicalHash (.obj run.toDict) = .ok (textDigest (.obj run.toDict)) :=
  canonicalHash_payload (by simp [RunResult.items, CaseSourceAssurance.items,
    AssuranceStates.items, outcomeItems]) run.items_writable

lemma canonicalHash_task (context : SourceRootedTeamTaskContext) :
    canonicalHash (.obj (Dict.ofList context.items)) =
      .ok (textDigest (.obj (Dict.ofList context.items))) :=
  canonicalHash_payload (by simp [SourceRootedTeamTaskContext.items])
    (by simp [SourceRootedTeamTaskContext.items, CaseSourceAssurance.toDict_writable])

lemma canonicalHash_decision (decision : SourceRootedTeamFinalDecision) :
    canonicalHash (.obj (Dict.ofList decision.items)) =
      .ok (textDigest (.obj (Dict.ofList decision.items))) :=
  canonicalHash_payload (by simp [SourceRootedTeamFinalDecision.items])
    (by simp [SourceRootedTeamFinalDecision.items, CaseSourceAssurance.toDict_writable])

lemma canonicalHash_sourceInput (source : CaseSourceAssurance) (caseHash : String) :
    canonicalHash (.obj (sourceInput source caseHash)) =
      .ok (textDigest (.obj (sourceInput source caseHash))) :=
  canonicalHash_payload (by simp) (by simp [source.toDict_writable])

lemma canonicalHash_sourceDispatch (source : CaseSourceAssurance) (plan : List DispatchStep) :
    canonicalHash (.obj (sourceDispatchArtifact source plan)) =
      .ok (textDigest (.obj (sourceDispatchArtifact source plan))) :=
  canonicalHash_payload (by simp)
    (by simp [source.toDict_writable, map_writable DispatchStep.toJson_writable])

lemma canonicalHash_sourceImpact (source : CaseSourceAssurance) (caseHash : String)
    (plan : ImpactPlan) :
    canonicalHash (.obj (sourceImpactArtifact source caseHash plan)) =
      .ok (textDigest (.obj (sourceImpactArtifact source caseHash plan))) :=
  canonicalHash_payload (by simp) (by simp [source.toDict_writable, plan.toDict_writable])

lemma canonicalHash_sourceManager (context : SourceRootedTeamTaskContext)
    (plan : List DispatchStep) :
    canonicalHash (.obj (sourceManagerOutput context plan)) =
      .ok (textDigest (.obj (sourceManagerOutput context plan))) := by
  have hcontext : Writable (.obj (Dict.ofList context.items)) := ofList_writable
    (by simp [SourceRootedTeamTaskContext.items, CaseSourceAssurance.toDict_writable])
  exact canonicalHash_payload (by simp)
    (by simp [hcontext, map_writable DispatchStep.toJson_writable])

/-! ## The result -/

/-- The decision on a run. -/
def gateOf (run : RunResult) : String :=
  if run.overallStatus = .pass then teamReady else teamBlocked

/-- The task context of a run. -/
def sourceTask (case : Dict) (run : RunResult) : SourceRootedTeamTaskContext where
  contractVersion := teamTaskContextContractVersion
  caseSource := run.caseSourceAssurance
  caseId := case.textAt "case_id"
  eventId := (case.dictAt "event").textAt "event_id"
  caseHash := run.caseHash
  synthetic := true

/-- The final decision of a run. -/
def sourceDecision (run : RunResult) : SourceRootedTeamFinalDecision where
  contractVersion := teamFinalDecisionContractVersion
  caseSource := run.caseSourceAssurance
  decision := gateOf run
  runId := run.runId
  overallStatus := run.overallStatus.text

/-- The steps of the trace of a run. -/
def sourceTrace (case : Dict) (run : RunResult) : List TeamTraceEvent :=
  teamTrace (textDigest (.obj (sourceInput run.caseSourceAssurance run.caseHash)))
    (textDigest (.obj (sourceManagerOutput (sourceTask case run) dispatchProfile)))
    (textDigest (.obj (sourceImpactArtifact run.caseSourceAssurance run.caseHash run.impactPlan)))
    (textDigest (.obj run.toDict))
    (textDigest (.obj (Dict.ofList (sourceDecision run).items))) (gateOf run)
    (citedLocators run.findings)
    ["run_id", "case_hash", "ruleset_version", "overall_status", "case_source"]

/-- **The result of a source-rooted team run.** -/
def sourceTeamResult (case : Dict) (run : RunResult) : SourceRootedTeamRunResult where
  contractVersion := teamRunContractVersion
  caseSource := run.caseSourceAssurance
  taskContext := sourceTask case run
  run := run
  trace := (sourceTrace case run).map fun event =>
    { event with
      contractVersion := teamTraceEventContractVersion, caseSource := run.caseSourceAssurance }
  finalTeamState := gateOf run
  finalDecision := sourceDecision run
  sharedState :=
    { contractVersion := teamSharedStateContractVersion
      caseSource := run.caseSourceAssurance
      caseId := case.textAt "case_id"
      eventId := (case.dictAt "event").textAt "event_id"
      currentState := gateOf run
      artifactHashes :=
        { taskContext := textDigest (.obj (Dict.ofList (sourceTask case run).items))
          dispatchPlan :=
            textDigest (.obj (sourceDispatchArtifact run.caseSourceAssurance dispatchProfile))
          impactPlan := textDigest
            (.obj (sourceImpactArtifact run.caseSourceAssurance run.caseHash run.impactPlan))
          runResult := textDigest (.obj run.toDict)
          finalDecision := textDigest (.obj (Dict.ofList (sourceDecision run).items)) }
      dispatchPlan := dispatchProfile
      runId := run.runId
      rulesetVersion := run.rulesetVersion }

omit [PyUnicode] in
lemma sourceTuple_eq_ok {source : CaseSourceAssurance}
    (h : source.state ∈ [sourceBound, sourceDerived]) (label : String) :
    sourceTuple source label = .ok source.toDict := by
  rw [sourceTuple, require, if_pos h]
  rfl

omit [PyUnicode] in
/-- The decision is one of the two, and the one that the status asks for. -/
lemma gateOf_spec (run : RunResult) :
    gateOf run ∈ [teamReady, teamBlocked] ∧
      gateOf run = teamStateForStatus run.overallStatus.text := by
  rw [gateOf, teamStateForStatus]
  cases run.overallStatus <;> decide

lemma validateCurrentTeamRun_eq_ok {case : Dict} {run : RunResult}
    (hrun : SourceRootedRun case run) :
    validateCurrentTeamRun run run.caseSourceAssurance.toDict run.caseSourceAssurance = .ok () ↔
      IsTrimmed run.caseId := by
  have hconstructed := hrun.evaluated.constructed
  have hprofile := validateReferenceProfile_of_postInit hconstructed "CURRENT_V4"
  simp only [validateCurrentTeamRun, bind_eq_ok, exists_unit, lowerHex_eq_ok, exactText_eq_ok,
    exactConstant_eq_ok, validateResultValueTypes, require_eq_ok, Except.ok.injEq,
    exists_eq_left', hprofile, hconstructed.contractVersion, hconstructed.identityVersion,
    hconstructed.runId, hconstructed.caseHash, hrun.evaluated.ruleset, ← hrun.evaluated.status,
    hrun.name, true_and, and_true]

/-- **The constructor of the result refuses a case identifier with whitespace at an end**, and of
what the engine returns nothing else. -/
theorem validateSourceRootedTeamResult_eq_ok {case : Dict} {run : RunResult}
    (hrun : SourceRootedRun case run) :
    validateSourceRootedTeamResult (sourceTeamResult case run) = .ok () ↔
      IsTrimmed run.caseId := by
  obtain ⟨hgate, hstate⟩ := gateOf_spec run
  obtain ⟨value, hvalue⟩ : ∃ value, value = sourceTeamResult case run := ⟨_, rfl⟩
  have hsource : value.caseSource = run.caseSourceAssurance := by rw [hvalue]; rfl
  have hcurrent := validateCurrentTeamRun_eq_ok hrun
  rw [← hvalue]
  simp only [validateSourceRootedTeamResult, bind_eq_ok, exists_unit, exactConstant_eq_ok,
    whenever_eq_ok, forEach_eq_ok, require_eq_ok, canonicalHash_run, canonicalHash_task,
    canonicalHash_decision, canonicalHash_sourceInput, canonicalHash_sourceDispatch,
    canonicalHash_sourceImpact, canonicalHash_sourceManager, Except.ok.injEq, exists_eq_left',
    validateTraceProfile, validateDispatchPlan, typeError_ne_ok, Option.some.injEq, imp_false,
    not_not, hsource, sourceTuple_eq_ok hrun.state]
  rw [hvalue]
  constructor
  · rintro ⟨-, -, hv, -⟩
    exact hcurrent.mp hv
  · intro hcase
    refine ⟨rfl, rfl, hcurrent.mpr hcase, rfl, ?_,
      ⟨hrun.caseId.symm, hrun.caseId.symm, rfl, rfl, rfl⟩,
      ⟨hstate, hstate, hstate, rfl, rfl, rfl, rfl⟩, ⟨rfl, rfl⟩, rfl, ?_, rfl⟩
    · intro nested hnested
      have hsame : nested.1 = run.caseSourceAssurance := by
        simp only [SourceRootedTeamRunResult.nestedSources, sourceTeamResult, sourceTrace,
          teamTrace, List.map_cons, List.map_nil, List.zipIdx_cons, List.zipIdx_nil,
          List.cons_append, List.nil_append, List.mem_cons, List.not_mem_nil, or_false] at hnested
        rcases hnested with rfl | rfl | rfl | rfl | rfl | rfl | rfl
        all_goals rfl
      rw [hsame]
      exact ⟨_, sourceTuple_eq_ok hrun.state _, rfl⟩
    · exact congrArg traceProfile hstate

omit [PyUnicode] in
lemma mapEach_sourceRootedTeamTraceEvent {source : CaseSourceAssurance}
    {events : List TeamTraceEvent} (hsource : source.state ∈ [sourceBound, sourceDerived])
    (hevents : mapEach (teamTraceEvent "Team 0.2 trace") events = .ok events) :
    mapEach (sourceRootedTeamTraceEvent source) events =
      .ok (events.map fun event => { event with
        contractVersion := teamTraceEventContractVersion, caseSource := source }) := by
  refine mapEach_map fun event hevent => ?_
  obtain ⟨_, -, hvalid⟩ := mapEach_mem hevents hevent
  simp only [teamTraceEvent, bind_eq_ok, exists_unit, Except.ok.injEq] at hvalid
  simp only [sourceRootedTeamTraceEvent, sourceTuple_eq_ok hsource, hvalid.1, ok_bind]

lemma sourceTask_postInit_eq_ok {case : Dict} {run : RunResult} (hrun : SourceRootedRun case run) :
    (sourceTask case run).postInit = .ok () ↔
      IsTrimmed (case.textAt "case_id") ∧ IsTrimmed ((case.dictAt "event").textAt "event_id") := by
  simp only [SourceRootedTeamTaskContext.postInit, sourceTask, sourceTuple_eq_ok hrun.state,
    bind_eq_ok, exists_unit, exactConstant_eq_ok, exactText_eq_ok, lowerHex_eq_ok,
    hrun.evaluated.constructed.caseHash, Except.ok.injEq, exists_eq_left', true_and, and_true]

omit [PyUnicode] in
lemma dispatchProfile_postInit : forEach DispatchStep.postInit dispatchProfile = .ok () := by
  decide

lemma sourceDecision_postInit {case : Dict} {run : RunResult} (hrun : SourceRootedRun case run) :
    (sourceDecision run).postInit = .ok () := by
  obtain ⟨hgate, hstate⟩ := gateOf_spec run
  have hstatus : run.overallStatus.text ∈
      [CheckStatus.pass, CheckStatus.contradicted, CheckStatus.unverifiable].map
        CheckStatus.text := by
    cases run.overallStatus <;> decide
  simp only [SourceRootedTeamFinalDecision.postInit, sourceDecision, sourceTuple_eq_ok hrun.state,
    bind_eq_ok, exists_unit, exactConstant_eq_ok, require_eq_ok, lowerHex_eq_ok, hgate, hstatus,
    ← hstate, hrun.evaluated.constructed.runId, Except.ok.injEq, exists_eq_left', and_self]

omit [PyUnicode] in
lemma artifactHashes_postInit {case : Dict} {run : RunResult} :
    (sourceTeamResult case run).sharedState.artifactHashes.postInit = .ok () := by
  simp only [SourceRootedTeamArtifactHashes.postInit, sourceTeamResult, forEach_eq_ok,
    lowerHex_eq_ok, List.forall_mem_cons, textDigest_hex, List.not_mem_nil, IsEmpty.forall_iff,
    implies_true, and_self]

lemma sharedState_postInit_eq_ok {case : Dict} {run : RunResult}
    (hrun : SourceRootedRun case run) :
    (sourceTeamResult case run).sharedState.postInit = .ok () ↔
      IsTrimmed (case.textAt "case_id") ∧ IsTrimmed ((case.dictAt "event").textAt "event_id") := by
  have hruleset : IsTrimmed run.rulesetVersion := by
    rw [hrun.evaluated.ruleset]
    decide
  simp only [SourceRootedTeamSharedState.postInit, sourceTeamResult, sourceTuple_eq_ok hrun.state,
    validateDispatchPlan, bind_eq_ok, exists_unit, exactConstant_eq_ok, exactText_eq_ok,
    require_eq_ok, whenever_eq_ok, lowerHex_eq_ok, (gateOf_spec run).1, hruleset,
    hrun.evaluated.constructed.runId, Except.ok.injEq, exists_eq_left', ne_eq,
    not_true_eq_false, false_imp_iff, true_and, and_true]

/-- **When a team run of a source bundle returns**: the engine having returned, exactly when the
case identifier and the event identifier are trimmed. -/
theorem runAgentTeamWithSourceBundle_eq_ok {context : CaseSourceContext}
    {validation : Option ValidationContext} {evaluation : SourceAssuredEvaluation}
    {result : SourceRootedTeamRunResult}
    (h : evaluateCaseSourceBundle context validation = .ok evaluation) :
    runAgentTeamWithSourceBundle context validation = .ok result ↔
      (IsTrimmed (context.case.textAt "case_id") ∧
        IsTrimmed ((context.case.dictAt "event").textAt "event_id")) ∧
      result = sourceTeamResult context.case evaluation.run := by
  obtain ⟨hcontext, hrun⟩ := sourceRootedRun_of_evaluate h
  obtain ⟨hgate, hstate⟩ := gateOf_spec evaluation.run
  have hconstructed := hrun.evaluated.constructed
  have htrace : mapEach (sourceRootedTeamTraceEvent evaluation.run.caseSourceAssurance)
      (sourceTrace context.case evaluation.run) =
      .ok (sourceTeamResult context.case evaluation.run).trace := by
    refine mapEach_sourceRootedTeamTraceEvent hrun.state (mapEach_teamTraceEvent ?_ hgate)
    simp only [List.forall_mem_cons, textDigest_hex, List.not_mem_nil, IsEmpty.forall_iff,
      implies_true, and_self]
  have hvalid := validateSourceRootedTeamResult_eq_ok hrun
  rw [hrun.caseId] at hvalid
  have htask := sourceTask_postInit_eq_ok hrun
  simp only [runAgentTeamWithSourceBundle, h, hcontext, hrun.source, ensure_eq_ok, hrun.state,
    hrun.caseHash, bind_eq_ok, exists_unit, Except.ok.injEq, exists_eq_left', true_and,
    canonicalHash_run, canonicalHash_task, canonicalHash_decision, canonicalHash_sourceInput,
    canonicalHash_sourceDispatch, canonicalHash_sourceImpact, canonicalHash_sourceManager]
  constructor
  · rintro ⟨hmessage, -, -, trace, hmap, -, -, -, rfl⟩
    obtain rfl : trace = (sourceTeamResult context.case evaluation.run).trace :=
      Except.ok.inj (hmap.symm.trans htrace)
    exact ⟨htask.mp hmessage, rfl⟩
  · rintro ⟨htrimmed, rfl⟩
    exact ⟨htask.mpr htrimmed, dispatchProfile_postInit, sourceDecision_postInit hrun, _, htrace,
      artifactHashes_postInit, (sharedState_postInit_eq_ok hrun).mpr htrimmed,
      hvalid.mpr htrimmed.1, rfl⟩

end Team

end QualityCI

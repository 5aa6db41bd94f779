import QualityCI.Orchestration.Messages

/-!
# The team run of a serialized case

Team 0.1 runs an untrusted case: it prepares and evaluates it, projects the run to its frozen third
version, and hands back a trace, a shared state and a decision that never releases.  The constructor
of the result rebuilds every hash and compares.

* `LegacyTeamRunView`, `legacyTeamRunView` — the projected run.
* `TeamRunResult`, `validateLegacyTeamResult` — the result and its constructor's checks.
* `runAgentTeam` — the choreography.
* **`legacyTeamRunView_eq_ok`**, **`validateLegacyTeamResult_eq_ok`** — of what the engine returns,
  the projection refuses a case identifier with whitespace at an end, and the result such an event
  identifier.
* **`runAgentTeam_eq_ok`** — so a team run returns exactly when both are trimmed.
-/

namespace QualityCI

open Py

/-! ## Source assurance -/

/-- `_lower_hash` of a source tuple. -/
def sourceTupleHash (value : Option String) (label : String) : Result Unit :=
  match value with
  | some text => require (IsHexText 64 text) s!"{label} must be one lowercase SHA-256 value"
  | none => valueError s!"{label} must be one lowercase SHA-256 value"

/-- `validate_case_source_assurance_payload`, which is also the constructor's check. -/
def validateCaseSourceAssurance (source : CaseSourceAssurance) : Result Unit :=
  if source.state ∉ [caseSourceUnbound, sourceBound, sourceDerived] then
    valueError "case source assurance state is unsupported"
  else if source.state = caseSourceUnbound then
    require (source = unboundCaseSourceAssurance)
      "unbound Case source assurance requires null identities"
  else do
    require (source.packContractVersion = some sourcePackVersion)
      "case source pack version is inconsistent"
    require (source.setContractVersion = some sourceSetVersion)
      "case source set version is inconsistent"
    sourceTupleHash source.setHash "case source set hash"
    sourceTupleHash source.bindingHash "case source binding hash"
    if source.state = sourceBound then
      require (source.lineageContractVersion = none ∧ source.lineageHash = none)
        "bound root Case cannot claim a lineage"
    else do
      require (source.lineageContractVersion = some sourceLineageVersion)
        "derived Case requires the lineage contract"
      sourceTupleHash source.lineageHash "case source lineage hash"

lemma validateCaseSourceAssurance_unbound :
    validateCaseSourceAssurance unboundCaseSourceAssurance = .ok () := by decide

/-! ## The frozen projection of a run -/

/-- The subject of a run's name in the third version. -/
def legacyRunIdentity (caseHash : String) (states : AssuranceStates) : Dict :=
  Dict.ofList
    ([("case_hash", .str caseHash), ("ruleset_version", .str rulesetVersion)] ++ states.items)

structure LegacyTeamRunView where
  runId : String
  caseId : String
  caseHash : String
  rulesetVersion : String
  assurance : AssuranceStates
  overallStatus : CheckStatus
  impactPlan : ImpactPlan
  findings : List (Finding EvidenceRef)
  deriving DecidableEq

def LegacyTeamRunView.items (view : LegacyTeamRunView) : List (String × Json) :=
  ("run_id", .str view.runId) ::
  ([("case_id", .str view.caseId), ("case_hash", .str view.caseHash),
    ("ruleset_version", .str view.rulesetVersion)] ++
   view.assurance.items ++ outcomeItems view.overallStatus view.impactPlan view.findings)

/-- `LegacyTeamRunView.to_dict`. -/
def LegacyTeamRunView.toDict (view : LegacyTeamRunView) : Dict := Dict.ofList view.items

/-- `_LEGACY_RUN_RESULT_KEYS`. -/
def legacyRunResultKeys : List String :=
  ["run_id", "case_id", "case_hash", "ruleset_version", "reference_assurance_state",
   "reference_set_hash", "reference_contract_version", "validation_assurance_state",
   "validation_evidence_set_hash", "validation_evidence_contract_version", "overall_status",
   "impact_plan", "findings"]

/-! ## The messages -/

structure TeamArtifactHashes where
  taskContext : String
  dispatchPlan : String
  impactPlan : String
  runResult : String
  deriving DecidableEq

def TeamArtifactHashes.items (hashes : TeamArtifactHashes) : List (String × String) :=
  [("task_context", hashes.taskContext), ("dispatch_plan", hashes.dispatchPlan),
   ("impact_plan", hashes.impactPlan), ("run_result", hashes.runResult)]

structure TeamSharedState where
  caseId : String
  eventId : String
  currentState : String
  artifactHashes : TeamArtifactHashes
  dispatchPlan : List DispatchStep
  runId : String
  rulesetVersion : String
  deriving DecidableEq

structure TeamRunResult where
  run : LegacyTeamRunView
  trace : List TeamTraceEvent
  finalTeamState : String
  sharedState : TeamSharedState
  runtimeMode : String := teamRuntimeMode
  deriving DecidableEq

def taskContext (caseId eventId caseHash : String) : Dict :=
  Dict.ofList
    [("case_id", .str caseId), ("event_id", .str eventId), ("case_hash", .str caseHash),
     ("synthetic", .bool true)]

def managerOutput (context : Dict) (plan : List DispatchStep) : Dict :=
  Dict.ofList
    [("task_context", .obj context), ("dispatch_plan", .arr (plan.map DispatchStep.toJson))]

def impactArtifact (caseHash : String) (plan : ImpactPlan) : Dict :=
  Dict.ofList [("case_hash", .str caseHash), ("impact_plan", .obj plan.toDict)]

def finalPayload (decision runId : String) (status : CheckStatus) : Dict :=
  Dict.ofList
    [("decision", .str decision), ("run_id", .str runId), ("overall_status", .str status.text)]

section Team

variable [PyUnicode]

/-- `_run_case_with_reference_context(case, reference_context, validation_context)`, and `run_case`
where there is no context. -/
def runCaseWithReferenceContext (case : Dict) (reference : Option ReferenceContext)
    (validation : Option ValidationContext) : Result RunResult := do
  let run ← evaluateCase case reference validation
  run.postInit
  .ok run

/-- `_run_id_for_identity`. -/
def runIdForIdentity (caseHash : String) (states : AssuranceStates) : Result String := do
  let identity ← canonicalHash (.obj (legacyRunIdentity caseHash states))
  let digest := sha256Hex ("QualityCI/run-identity/v3\x00" ++ identity)
  .ok (String.ofList (digest.toList.take 16))

/-- `legacy_run_result_projection`. -/
def legacyRunResultProjection (run : RunResult) : Result Dict := do
  require (run.runResultContractVersion = runResultContractVersion ∧
      run.runIdentityVersion = runIdentityVersion)
    "legacy Run projection requires a current RunResult"
  validateCaseSourceAssurance run.caseSourceAssurance
  require (run.caseSourceAssurance = unboundCaseSourceAssurance)
    "source-rooted RunResult cannot be projected as legacy"
  let values ← mapEach (fun key => run.toDict.getItem key) legacyRunResultKeys
  let runId ← runIdForIdentity run.caseHash run.assurance
  .ok ((Dict.ofList (legacyRunResultKeys.zip values)).set "run_id" (.str runId))

/-- `_validate_legacy_team_run_view`. -/
def validateLegacyTeamRunView (view : LegacyTeamRunView) : Result Unit := do
  lowerHex (some view.runId) 16 "LEGACY_V3 run_id"
  exactText view.caseId "LEGACY_V3 case_id"
  lowerHex (some view.caseHash) 64 "LEGACY_V3 case_hash"
  exactConstant (some view.rulesetVersion) rulesetVersion "LEGACY_V3 ruleset_version"
  validateReferenceProfile view.assurance "LEGACY_V3"
  validateResultValueTypes view.overallStatus view.findings "LEGACY_V3"
  let expected ← runIdForIdentity view.caseHash view.assurance
  require (view.runId = expected) "LEGACY_V3 run_id differs from its exact identity"

/-- `_legacy_team_run_view`. -/
def legacyTeamRunView (run : RunResult) : Result LegacyTeamRunView := do
  let projection ← legacyRunResultProjection run
  let view : LegacyTeamRunView :=
    { runId := projection.textAt "run_id"
      caseId := run.caseId
      caseHash := run.caseHash
      rulesetVersion := run.rulesetVersion
      assurance := run.assurance
      overallStatus := run.overallStatus
      impactPlan := run.impactPlan
      findings := run.findings }
  validateLegacyTeamRunView view
  ensure (view.toDict = projection) "legacy Team Run object differs from its frozen payload"
  .ok view

/-- `_validate_legacy_team_result`. -/
def validateLegacyTeamResult (value : TeamRunResult) : Result Unit := do
  validateLegacyTeamRunView value.run
  exactConstant (some value.runtimeMode) teamRuntimeMode "legacy Team runtime mode"
  exactConstant (some value.finalTeamState) teamBlocked "legacy Team final state"
  whenever (value.trace.length ≠ 4)
    (typeError "legacy Team result requires exactly four legacy trace values")
  let shared := value.sharedState
  forEach (fun entry => lowerHex (some entry.2) 64 s!"legacy Team artifact hash {entry.1}")
    shared.artifactHashes.items
  require (shared.dispatchPlan = dispatchProfile)
    "legacy Team dispatch plan differs from its exact profile"
  exactText shared.caseId "legacy Team shared case_id"
  lowerHex (some shared.runId) 16 "legacy Team shared run_id"
  exactConstant (some shared.rulesetVersion) rulesetVersion "legacy Team shared ruleset_version"
  exactConstant (some shared.currentState) teamBlocked "legacy Team shared current_state"
  require (shared.caseId = value.run.caseId ∧ shared.runId = value.run.runId ∧
      shared.rulesetVersion = value.run.rulesetVersion ∧
      shared.currentState = value.finalTeamState)
    "legacy Team shared state differs from its run or final state"
  exactText shared.eventId "legacy Team shared event_id"
  let context := taskContext value.run.caseId shared.eventId value.run.caseHash
  let runHash ← canonicalHash (.obj value.run.toDict)
  let contextHash ← canonicalHash (.obj context)
  let planHash ← canonicalHash (.arr (shared.dispatchPlan.map DispatchStep.toJson))
  let impactHash ← canonicalHash (.obj value.run.impactPlan.toDict)
  require (shared.artifactHashes = ⟨contextHash, planHash, impactHash, runHash⟩)
    "legacy Team artifact hashes differ from exact values"
  let manager ← canonicalHash (.obj (managerOutput context shared.dispatchPlan))
  let impact ← canonicalHash (.obj (impactArtifact value.run.caseHash value.run.impactPlan))
  let final ← canonicalHash
    (.obj (finalPayload value.finalTeamState value.run.runId value.run.overallStatus))
  validateTraceProfile value.trace teamBlocked
    [(value.run.caseHash, manager), (manager, impact), (impact, runHash), (runHash, final)]
    "legacy Team"

/-- `run_agent_team`, from the contexts that its bundles leave. -/
def runAgentTeam (case : Dict) (reference : Option ReferenceContext)
    (validation : Option ValidationContext) : Result TeamRunResult := do
  whenever (reference.isNone ∧ validation.isSome)
    (typeError "validation evidence requires a controlled-reference raw bundle")
  let case ← prepareCase case
  let caseHash ← canonicalHash (.obj case)
  let caseId := case.textAt "case_id"
  let eventId := (case.dictAt "event").textAt "event_id"
  let context := taskContext caseId eventId caseHash
  let plan ← buildImpactPlan case
  let current ← runCaseWithReferenceContext case reference validation
  let run ← legacyTeamRunView current
  let manager ← canonicalHash (.obj (managerOutput context dispatchProfile))
  let impact ← canonicalHash (.obj (impactArtifact caseHash plan))
  let runHash ← canonicalHash (.obj run.toDict)
  let final ← canonicalHash (.obj (finalPayload teamBlocked run.runId run.overallStatus))
  let trace ← mapEach (teamTraceEvent "legacy Team trace")
    (teamTrace caseHash manager impact runHash final teamBlocked (citedLocators run.findings)
      ["run_id", "case_hash", "ruleset_version", "overall_status"])
  let contextHash ← canonicalHash (.obj context)
  let planHash ← canonicalHash (.arr (dispatchProfile.map DispatchStep.toJson))
  let impactHash ← canonicalHash (.obj plan.toDict)
  let result : TeamRunResult :=
    { run := run
      trace := trace
      finalTeamState := teamBlocked
      sharedState :=
        { caseId := caseId
          eventId := eventId
          currentState := teamBlocked
          artifactHashes := ⟨contextHash, planHash, impactHash, runHash⟩
          dispatchPlan := dispatchProfile
          runId := run.runId
          rulesetVersion := run.rulesetVersion } }
  validateLegacyTeamResult result
  .ok result

/-! ## The run that is projected -/

/-- The name of a run in the third version. -/
def legacyRunId (caseHash : String) (states : AssuranceStates) : String :=
  String.ofList ((sha256Hex ("QualityCI/run-identity/v3\x00" ++
    textDigest (.obj (legacyRunIdentity caseHash states)))).toList.take 16)

omit [PyUnicode] in
lemma legacyRunId_hex (caseHash : String) (states : AssuranceStates) :
    IsHexText 16 (legacyRunId caseHash states) := by
  obtain ⟨hlength, hhex⟩ := sha256Hex_chars ("QualityCI/run-identity/v3\x00" ++
    textDigest (.obj (legacyRunIdentity caseHash states)))
  rw [IsHexText, legacyRunId, String.toList_ofList, List.length_take, hlength]
  exact ⟨by omega, fun c hc => hhex c (List.mem_of_mem_take hc)⟩

lemma runIdForIdentity_eq (caseHash : String) (states : AssuranceStates) :
    runIdForIdentity caseHash states = .ok (legacyRunId caseHash states) := by
  have hhash : canonicalHash (.obj (legacyRunIdentity caseHash states)) =
      .ok (textDigest (.obj (legacyRunIdentity caseHash states))) :=
    canonicalHash_payload (by simp [AssuranceStates.items]) (by simpa using states.items_writable)
  rw [runIdForIdentity, hhash]
  rfl

/-- The projected run. -/
def teamView (run : RunResult) : LegacyTeamRunView where
  runId := legacyRunId run.caseHash run.assurance
  caseId := run.caseId
  caseHash := run.caseHash
  rulesetVersion := run.rulesetVersion
  assurance := run.assurance
  overallStatus := run.overallStatus
  impactPlan := run.impactPlan
  findings := run.findings

/-- What the orchestration relies on of a run that the engine has returned. -/
structure RunResult.Evaluated (run : RunResult) : Prop where
  constructed : run.Constructed
  ruleset : run.rulesetVersion = QualityCI.rulesetVersion
  status : run.overallStatus = QualityCI.overallStatus (run.findings.map Finding.status)

omit [PyUnicode] in
lemma RunResult.items_keys (run : RunResult) : (run.items.map Prod.fst).Nodup := by
  simp [RunResult.items, CaseSourceAssurance.items, AssuranceStates.items, outcomeItems]

omit [PyUnicode] in
lemma zip_keys_values (items : List (String × Json)) :
    (items.map Prod.fst).zip (items.map Prod.snd) = items := by
  rw [← List.unzip_fst, ← List.unzip_snd, List.zip_unzip]

omit [PyUnicode] in
lemma LegacyTeamRunView.items_writable (view : LegacyTeamRunView) :
    ∀ e ∈ view.items, Writable e.2 := by
  intro e he
  simp only [LegacyTeamRunView.items, List.mem_cons, List.mem_append, List.not_mem_nil, or_false,
    or_assoc] at he
  rcases he with rfl | rfl | rfl | rfl | he | he
  iterate 4 exact str_writable _
  · exact view.assurance.items_writable e he
  · exact outcomeItems_writable _ _ _ e he

/-- The projection of a run is the payload of its view. -/
lemma legacyRunResultProjection_eq {run : RunResult} (hrun : run.Evaluated)
    (hsource : run.caseSourceAssurance = unboundCaseSourceAssurance) :
    legacyRunResultProjection run = .ok (teamView run).toDict := by
  obtain ⟨own, hown⟩ : ∃ own, own = { teamView run with runId := run.runId } := ⟨_, rfl⟩
  have hkeys : own.items.map Prod.fst = legacyRunResultKeys := by rw [hown]; rfl
  have hsub : ∀ e ∈ own.items, e ∈ run.items := by
    intro e he
    simp only [hown, teamView, LegacyTeamRunView.items, RunResult.items, List.mem_cons,
      List.mem_append] at he ⊢
    tauto
  have hvalues : mapEach (fun key => run.toDict.getItem key) legacyRunResultKeys =
      .ok (own.items.map Prod.snd) := by
    rw [← hkeys]
    exact getItems_ofList run.items_keys hsub
  have hset : (Dict.ofList own.items).set "run_id"
      (.str (legacyRunId run.caseHash run.assurance)) = (teamView run).toDict := by
    have hwf := fun e he => (own.items_writable e he).1
    rw [hown] at hwf ⊢
    exact ofList_set_first (by simp [AssuranceStates.items, outcomeItems]) trivial trivial
      (List.forall_mem_cons.mp hwf).2
  have hzip : legacyRunResultKeys.zip (own.items.map Prod.snd) = own.items := by
    rw [← hkeys, zip_keys_values]
  rw [legacyRunResultProjection, hsource, hvalues, runIdForIdentity_eq, ok_bind, ok_bind, hzip,
    hset]
  simp only [hrun.constructed.contractVersion, hrun.constructed.identityVersion,
    validateCaseSourceAssurance_unbound, require, and_self, ↓reduceIte, ok_bind]

lemma validateLegacyTeamRunView_eq_ok {run : RunResult} (hrun : run.Evaluated) :
    validateLegacyTeamRunView (teamView run) = .ok () ↔ IsTrimmed run.caseId := by
  have hprofile := validateReferenceProfile_of_postInit hrun.constructed "LEGACY_V3"
  have hrunId := legacyRunId_hex run.caseHash run.assurance
  simp only [validateLegacyTeamRunView, teamView, runIdForIdentity_eq, bind_eq_ok, exists_unit,
    lowerHex_eq_ok, exactText_eq_ok, exactConstant_eq_ok, validateResultValueTypes, require_eq_ok,
    Except.ok.injEq, exists_eq_left', hprofile, hrunId, hrun.constructed.caseHash, hrun.ruleset,
    hrun.status, true_and, and_true]

/-- **The projection refuses a case identifier with whitespace at an end**, and nothing else. -/
theorem legacyTeamRunView_eq_ok {run : RunResult} {view : LegacyTeamRunView}
    (hrun : run.Evaluated) (hsource : run.caseSourceAssurance = unboundCaseSourceAssurance) :
    legacyTeamRunView run = .ok view ↔ IsTrimmed run.caseId ∧ view = teamView run := by
  have hid : (teamView run).toDict.textAt "run_id" = legacyRunId run.caseHash run.assurance := by
    refine Dict.textAt_eq ?_
    rw [LegacyTeamRunView.toDict, Dict.get?_ofList]
    · rfl
    · simp [LegacyTeamRunView.items, AssuranceStates.items, outcomeItems]
  simp only [legacyTeamRunView, legacyRunResultProjection_eq hrun hsource, hid, ok_bind]
  change (validateLegacyTeamRunView (teamView run) >>= fun _ =>
    ensure ((teamView run).toDict = (teamView run).toDict) _ >>= fun _ => .ok (teamView run)) =
      .ok view ↔ _
  simp only [bind_eq_ok, exists_unit, validateLegacyTeamRunView_eq_ok hrun, ensure_eq_ok,
    Except.ok.injEq, true_and]
  exact and_congr_right fun _ => eq_comm

/-- **The result of a team run**: the projected run, and the decision that never releases. -/
def teamResult (case : Dict) (run : RunResult) : TeamRunResult :=
  let view := teamView run
  let eventId := (case.dictAt "event").textAt "event_id"
  let context := taskContext run.caseId eventId run.caseHash
  let manager := textDigest (.obj (managerOutput context dispatchProfile))
  let impact := textDigest (.obj (impactArtifact run.caseHash run.impactPlan))
  let runHash := textDigest (.obj view.toDict)
  let final := textDigest (.obj (finalPayload teamBlocked view.runId run.overallStatus))
  { run := view
    trace := teamTrace run.caseHash manager impact runHash final teamBlocked
      (citedLocators run.findings) ["run_id", "case_hash", "ruleset_version", "overall_status"]
    finalTeamState := teamBlocked
    sharedState :=
      { caseId := run.caseId
        eventId := eventId
        currentState := teamBlocked
        artifactHashes :=
          { taskContext := textDigest (.obj context)
            dispatchPlan := textDigest (.arr (dispatchProfile.map DispatchStep.toJson))
            impactPlan := textDigest (.obj run.impactPlan.toDict)
            runResult := runHash }
        dispatchPlan := dispatchProfile
        runId := view.runId
        rulesetVersion := run.rulesetVersion } }

lemma canonicalHash_taskContext (caseId eventId caseHash : String) :
    canonicalHash (.obj (taskContext caseId eventId caseHash)) =
      .ok (textDigest (.obj (taskContext caseId eventId caseHash))) :=
  canonicalHash_payload (by simp) (by simp)

lemma canonicalHash_dispatchPlan (plan : List DispatchStep) :
    canonicalHash (.arr (plan.map DispatchStep.toJson)) =
      .ok (textDigest (.arr (plan.map DispatchStep.toJson))) :=
  canonicalHash_arr (map_writable DispatchStep.toJson_writable plan)

lemma canonicalHash_impactPlan (plan : ImpactPlan) :
    canonicalHash (.obj plan.toDict) = .ok (textDigest (.obj plan.toDict)) :=
  canonicalHash_payload (by simp)
    (by simp [map_writable fun link : String × String => textsJson_writable _])

lemma canonicalHash_managerOutput (caseId eventId caseHash : String) (plan : List DispatchStep) :
    canonicalHash (.obj (managerOutput (taskContext caseId eventId caseHash) plan)) =
      .ok (textDigest (.obj (managerOutput (taskContext caseId eventId caseHash) plan))) := by
  have hcontext : Writable (.obj (taskContext caseId eventId caseHash)) :=
    ofList_writable (by simp)
  exact canonicalHash_payload (by simp)
    (by simp [hcontext, map_writable DispatchStep.toJson_writable])

lemma canonicalHash_impactArtifact (caseHash : String) (plan : ImpactPlan) :
    canonicalHash (.obj (impactArtifact caseHash plan)) =
      .ok (textDigest (.obj (impactArtifact caseHash plan))) :=
  canonicalHash_payload (by simp) (by simp [plan.toDict_writable])

lemma canonicalHash_finalPayload (decision runId : String) (status : CheckStatus) :
    canonicalHash (.obj (finalPayload decision runId status)) =
      .ok (textDigest (.obj (finalPayload decision runId status))) :=
  canonicalHash_payload (by simp) (by simp)

lemma canonicalHash_view (view : LegacyTeamRunView) :
    canonicalHash (.obj view.toDict) = .ok (textDigest (.obj view.toDict)) :=
  canonicalHash_payload
    (by simp [LegacyTeamRunView.items, AssuranceStates.items, outcomeItems]) view.items_writable

/-- **The constructor of the result refuses an event identifier with whitespace at an end**, and
of what the engine returns nothing else. -/
theorem validateLegacyTeamResult_eq_ok {case : Dict} {run : RunResult} (hrun : run.Evaluated) :
    validateLegacyTeamResult (teamResult case run) = .ok () ↔
      IsTrimmed run.caseId ∧ IsTrimmed ((case.dictAt "event").textAt "event_id") := by
  have hrunId := legacyRunId_hex run.caseHash run.assurance
  have hview := validateLegacyTeamRunView_eq_ok hrun
  obtain ⟨value, hvalue⟩ : ∃ value, value = teamResult case run := ⟨_, rfl⟩
  rw [← hvalue]
  simp only [validateLegacyTeamResult, bind_eq_ok, exists_unit,
    exactConstant_eq_ok, whenever_eq_ok, forEach_eq_ok, lowerHex_eq_ok, exactText_eq_ok,
    require_eq_ok, canonicalHash_view, canonicalHash_taskContext, canonicalHash_dispatchPlan,
    canonicalHash_impactArtifact, canonicalHash_managerOutput, canonicalHash_finalPayload,
    canonicalHash_impactPlan, Except.ok.injEq, exists_eq_left', validateTraceProfile,
    typeError_ne_ok, Option.some.injEq, imp_false, not_not]
  rw [hvalue]
  constructor
  · rintro ⟨hv, -, -, -, -, -, -, -, -, -, -, hevent, -⟩
    exact ⟨hview.mp hv, hevent⟩
  · rintro ⟨hcase, hevent⟩
    refine ⟨hview.mpr hcase, rfl, rfl, rfl, ?_, rfl, hcase, hrunId, hrun.ruleset, rfl,
      ⟨rfl, rfl, rfl, rfl⟩, hevent, rfl, rfl, rfl⟩
    intro entry hentry
    simp only [TeamArtifactHashes.items, List.mem_cons, List.not_mem_nil, or_false] at hentry
    rcases hentry with rfl | rfl | rfl | rfl
    all_goals exact textDigest_hex _

/-! ## The choreography -/

/-- What the orchestration reads of a case and of the engine's run of it. -/
structure RunsTo (case : Dict) (run : RunResult) : Prop where
  evaluated : run.Evaluated
  caseHash : canonicalHash (.obj case) = .ok run.caseHash
  plan : buildImpactPlan case = .ok run.impactPlan
  caseId : run.caseId = case.textAt "case_id"

lemma runsTo_of_evaluatePrepared {case : Dict} {source : CaseSourceAssurance}
    {reference : Option ReferenceContext} {validation : Option ValidationContext}
    {run : RunResult} (h : evaluatePrepared case source reference validation = .ok run)
    (hinit : run.postInit = .ok ()) :
    RunsTo case run ∧ run.caseSourceAssurance = source := by
  have hconstructed := run.constructed hinit
  obtain ⟨plan, hplan, f, printed, -, caseHash, hhash, runId, -, rfl⟩ := evaluatePrepared_eq_ok.mp h
  exact ⟨⟨⟨hconstructed, rfl, rfl⟩, hhash, hplan, rfl⟩, rfl⟩

lemma runCaseWithReferenceContext_eq_ok {case prepared : Dict}
    {reference : Option ReferenceContext} {validation : Option ValidationContext}
    {run : RunResult} (hp : prepareCase case = .ok prepared) :
    runCaseWithReferenceContext case reference validation = .ok run ↔
      evaluatePrepared prepared unboundCaseSourceAssurance reference validation = .ok run ∧
        run.postInit = .ok () := by
  simp only [runCaseWithReferenceContext, bind_eq_ok, exists_unit, evaluateCase_eq_ok, hp,
    Except.ok.injEq, exists_eq_left']
  constructor
  · rintro ⟨_, hrun, hinit, rfl⟩
    exact ⟨hrun, hinit⟩
  · rintro ⟨hrun, hinit⟩
    exact ⟨run, hrun, hinit, rfl⟩

/-- **When a team run of a serialized case returns**: the engine having returned, exactly when the
case identifier and the event identifier are trimmed. -/
theorem runAgentTeam_eq_ok {case prepared : Dict} {reference : Option ReferenceContext}
    {validation : Option ValidationContext} {run : RunResult} {result : TeamRunResult}
    (hcontexts : validation.isSome = true → reference.isSome = true)
    (hp : prepareCase case = .ok prepared)
    (hrun : runCaseWithReferenceContext case reference validation = .ok run) :
    runAgentTeam case reference validation = .ok result ↔
      (IsTrimmed (prepared.textAt "case_id") ∧
        IsTrimmed ((prepared.dictAt "event").textAt "event_id")) ∧
      result = teamResult prepared run := by
  have hagain : prepareCase prepared = .ok prepared :=
    prepareCase_current (prepareCase_eq_ok.mp hp).2
  have hprepared : runCaseWithReferenceContext prepared reference validation = .ok run :=
    (runCaseWithReferenceContext_eq_ok hagain).mpr ((runCaseWithReferenceContext_eq_ok hp).mp hrun)
  obtain ⟨hevaluate, hinit⟩ := (runCaseWithReferenceContext_eq_ok hp).mp hrun
  obtain ⟨hruns, hsource⟩ := runsTo_of_evaluatePrepared hevaluate hinit
  have hguard : ¬(reference.isNone = true ∧ validation.isSome = true) := by
    rintro ⟨hnone, hsome⟩
    rw [Option.isNone_iff_eq_none] at hnone
    rw [hnone] at hcontexts
    exact absurd (hcontexts hsome) (by simp)
  have htrace : mapEach (teamTraceEvent "legacy Team trace") (teamResult prepared run).trace =
      .ok (teamResult prepared run).trace := by
    refine mapEach_teamTraceEvent ?_ (by simp)
    simp only [List.forall_mem_cons, List.not_mem_nil, IsEmpty.forall_iff, implies_true, and_true]
    exact ⟨hruns.evaluated.constructed.caseHash, textDigest_hex _, textDigest_hex _,
      textDigest_hex _, textDigest_hex _⟩
  have hvalid : validateLegacyTeamResult (teamResult prepared run) = .ok () ↔ _ :=
    validateLegacyTeamResult_eq_ok hruns.evaluated
  simp only [runAgentTeam, bind_eq_ok, exists_unit, whenever_eq_ok, hguard, hp, hruns.caseHash,
    hruns.plan, hprepared, legacyTeamRunView_eq_ok hruns.evaluated hsource, canonicalHash_view,
    canonicalHash_taskContext, canonicalHash_dispatchPlan, canonicalHash_impactArtifact,
    canonicalHash_managerOutput, canonicalHash_finalPayload, canonicalHash_impactPlan,
    Except.ok.injEq, exists_eq_left', false_imp_iff, true_and]
  rw [← hruns.caseId]
  constructor
  · rintro ⟨view, ⟨hcase, rfl⟩, trace, hmap, hresult, rfl⟩
    obtain rfl : trace = (teamResult prepared run).trace := Except.ok.inj (hmap.symm.trans htrace)
    exact ⟨hvalid.mp hresult, rfl⟩
  · rintro ⟨htrimmed, rfl⟩
    exact ⟨teamView run, ⟨htrimmed.1, rfl⟩, _, htrace, hvalid.mpr htrimmed, rfl⟩

end Team

end QualityCI

import QualityCI.Loader.Identity

/-!
# Validation of a case

`validate_case` of `loader.py`, section by section and in its order, with the text of every error.
Loops that keep a set of the keys they have met carry it as their variable.

* `validateEvent` and its parts — links, validation plan, validation evidence, approvals.
* `validateDocument` and its parts — waiver, characteristics, risks, references.
* `validateCase` — the whole validator.
-/

namespace QualityCI

open Py

variable [PyUnicode]

/-! ## Shapes -/

/-- The required keys, listed in order, that a dictionary lacks. -/
def missingKeys (d : Dict) (required : List String) : List String :=
  required.filter fun key => !d.contains key

/-- `missing = sorted(required - set(d)); if missing: raise ValueError(prefix + missing)`. -/
def requireKeys (d : Dict) (required : List String) (label : String) : Result Unit :=
  require (missingKeys d required = [])
    s!"{label} missing required keys: {reprStrings (missingKeys d required)}"

/-- `isinstance(value, dict)`, returning the dictionary. -/
def requireDict (value : Json) (message : String) : Result Dict :=
  match value with
  | .obj d => .ok d
  | _ => valueError message

/-- `any(not isinstance(item, dict) for item in items)`, returning the dictionaries. -/
def requireDicts : List Json → String → Result (List Dict)
  | [], _ => .ok []
  | .obj d :: rest, message => do
      let ds ← requireDicts rest message
      .ok (d :: ds)
  | _ :: _, message => valueError message

/-- `if key in d and not isinstance(d[key], str): raise`. -/
def requireOptionalString (d : Dict) (key message : String) : Result Unit :=
  match d.get? key with
  | none => .ok ()
  | some v => require (v.isStr = true) message

/-- `if key in d: _require_iso_date(d[key], label)`. -/
def requireOptionalDate (d : Dict) (key label : String) : Result Unit :=
  match d.get? key with
  | none => .ok ()
  | some v => requireIsoDate v label

/-! ## Migration markers -/

/-- The `relationship_migration` marker. -/
def validateRelationshipMigration (marker : Json) : Result Unit := do
  let migration ← requireDict marker "relationship_migration must be an object"
  requireKeys migration ["source_schema_version", "status", "target_schema_version"]
    "relationship_migration"
  let source ← migration.getItem "source_schema_version"
  require (source = .str legacyCaseSchemaVersion)
    "relationship_migration has unsupported source_schema_version"
  let target ← migration.getItem "target_schema_version"
  require (target = .str relationshipCaseSchemaVersion)
    "relationship_migration target_schema_version is not v0.2"
  let status ← migration.getItem "status"
  let status ← requireEnum status "relationship_migration status" relationshipMigrationStatuses
  require (status = "DETERMINISTIC_1X1" →
      migration.get? "inference_scope" = some (.str "EVENT_SCOPE_ONLY"))
    "deterministic legacy migration must be explicitly limited to EVENT_SCOPE_ONLY"

/-- The `reference_migration` marker. -/
def validateReferenceMigration (marker : Json) : Result Unit := do
  let migration ← requireDict marker "reference_migration must be an object"
  requireKeys migration
    ["document_ids", "inference_scope", "source_schema_version", "status",
      "target_schema_version"]
    "reference_migration"
  let source ← migration.getItem "source_schema_version"
  require (source = .str relationshipCaseSchemaVersion)
    "reference_migration has unsupported source_schema_version"
  let target ← migration.getItem "target_schema_version"
  require (target = .str controlledReferenceCaseSchemaVersion)
    "reference_migration target_schema_version is not v0.3"
  let status ← migration.getItem "status"
  let _ ← requireEnum status "reference_migration status" referenceMigrationStatuses
  let scope ← migration.getItem "inference_scope"
  require (scope = .str "NONE") "legacy references must not infer identity"
  let ids ← migration.getItem "document_ids"
  let _ ← requireStringList ids "reference_migration document_ids" maxDocuments
  .ok ()

/-- The `validation_migration` marker. -/
def validateValidationMigration (marker : Json) : Result Unit := do
  let migration ← requireDict marker "validation_migration must be an object"
  requireKeys migration
    ["evidence_ids", "inference_scope", "source_schema_version", "status",
      "target_schema_version"]
    "validation_migration"
  let source ← migration.getItem "source_schema_version"
  let target ← migration.getItem "target_schema_version"
  require (source = .str controlledReferenceCaseSchemaVersion ∧ target = .str caseSchemaVersion)
    "validation_migration version chain must be v0.3 to v0.4"
  let status ← migration.getItem "status"
  let _ ← requireEnum status "validation_migration status" validationMigrationStatuses
  let scope ← migration.getItem "inference_scope"
  require (scope = .str "NONE") "legacy validation evidence must not infer a subject"
  let ids ← migration.getItem "evidence_ids"
  let _ ← requireStringList ids "validation_migration evidence_ids" maxValidationEvidenceItems
  .ok ()

/-- A marker that is there is checked. -/
def validateMarker (marker : Option Json) (check : Json → Result Unit) : Result Unit :=
  match marker with
  | some m => check m
  | none => .ok ()

/-! ## The event -/

/-- One affected link; `met` are the pairs of the links before it. -/
def validateLink (stepKeys characteristicKeys : List String) (index : ℕ)
    (met : List (String × String)) (link : Json) : Result (List (String × String)) := do
  let link ← requireDict link s!"event affected_links[{index}] must be an object"
  requireKeys link ["characteristic_id", "process_step_id"] s!"event affected_links[{index}]"
  let step ← link.getItem "process_step_id"
  let step ← requireNonemptyString step s!"event affected_links[{index}].process_step_id"
  let characteristic ← link.getItem "characteristic_id"
  let characteristic ← requireNonemptyString characteristic
    s!"event affected_links[{index}].characteristic_id"
  let key := relationshipKey step characteristic
  require (key ∉ met) "event affected_links contains duplicate normalized pairs"
  require (key.1 ∈ stepKeys ∧ key.2 ∈ characteristicKeys)
    ("event affected_links must reference identities declared in " ++
      "affected_process_steps and affected_characteristics")
  .ok (key :: met)

/-- `event["affected_links"]`. -/
def validateAffectedLinks (steps characteristics : List String) (links : Json) : Result Unit := do
  let links ← requireBoundedList links "event affected_links" maxEventAffectedItems
  let _ ← enumerateM
    (validateLink (steps.map normalizedIdentity) (characteristics.map normalizedIdentity))
    0 [] links
  .ok ()

/-- The keys of a required piece of evidence, in order. -/
def requirementKeys : List String :=
  ["claim", "evidence_id", "evidence_type", "issuer_id", "issuer_role", "valid_from",
    "valid_until"]

/-- One required piece of evidence; the variable collects the identities. -/
def validateRequirement (index : ℕ) (identities : List String) (requirement : Json) :
    Result (List String) := do
  let message := s!"validation_plan required_evidence[{index}] has unsupported shape"
  let requirement ← requireDict requirement message
  require (requirement.keys = requirementKeys) message
  forEach (fun key => do
    let v ← requirement.getItem key
    let _ ← requireNonemptyString v s!"validation_plan required_evidence[{index}].{key}"
    .ok ()) requirementKeys
  let id ← requirement.getItem "evidence_id"
  let id ← requireNonemptyString id s!"validation_plan required_evidence[{index}].evidence_id"
  let from' ← requirement.getItem "valid_from"
  let from' ← parseRfc3339Utc from' s!"validation_plan required_evidence[{index}].valid_from"
  let until' ← requirement.getItem "valid_until"
  let until' ← parseRfc3339Utc until' s!"validation_plan required_evidence[{index}].valid_until"
  require (from' ≤ until') "validation_plan valid_until precedes valid_from"
  .ok (id :: identities)

/-- `event["validation_plan"]`, which only a migrated case may lack. -/
def validateValidationPlan (plan validationMigration : Option Json) : Result Unit :=
  match plan with
  | none => require (validationMigration.isSome = true) "native v0.4 event requires validation_plan"
  | some plan => do
      let plan ← requireDict plan "event validation_plan has unsupported shape"
      require (plan.keys = ["contract_version", "required_evidence"])
        "event validation_plan has unsupported shape"
      let version ← plan.getItem "contract_version"
      require (version = .str "qualityci-validation-plan-0.1")
        "event validation_plan contract version is unsupported"
      let evidence ← plan.getItem "required_evidence"
      let evidence ← requireBoundedList evidence "event validation_plan required_evidence"
        maxValidationEvidenceItems
      require (evidence ≠ []) "event validation_plan required_evidence must not be empty"
      let identities ← enumerateM validateRequirement 0 [] evidence
      rejectNormalizedDuplicates identities.reverse "validation_plan required evidence_id"

/-- One piece of validation evidence; the variable collects the identities. -/
def validateEvidenceItem (index : ℕ) (identities : List String) (item : Dict) :
    Result (List String) := do
  requireKeys item ["evidence_id", "locator", "result"] s!"validation_evidence[{index}]"
  let id ← item.getItem "evidence_id"
  let id ← requireNonemptyString id s!"validation_evidence[{index}].evidence_id"
  let result ← item.getItem "result"
  let _ ← requireEnum result s!"validation_evidence[{index}].result" validationResults
  let locator ← item.getItem "locator"
  require (locator.isStr = true) s!"validation_evidence[{index}].locator must be a string"
  requireOptionalString item "summary" s!"validation_evidence[{index}].summary must be a string"
  .ok (id :: identities)

/-- `event["validation_evidence"]`. -/
def validateValidationEvidence (evidence : Json) : Result Unit := do
  let evidence ← requireBoundedList evidence "event validation_evidence"
    maxValidationEvidenceItems
  let items ← requireDicts evidence "event validation_evidence must be a list of objects"
  let identities ← enumerateM validateEvidenceItem 0 [] items
  rejectNormalizedDuplicates identities.reverse "duplicate validation evidence identity"

/-- One approval; `met` are the subjects, in raw spelling, of those before it. -/
def validateApproval (index : ℕ) (met : List (String × String)) (item : Dict) :
    Result (List (String × String)) := do
  requireKeys item ["decision", "event_revision", "role"] s!"event approvals[{index}]"
  let role ← item.getItem "role"
  let role ← requireNonemptyString role s!"event approvals[{index}].role"
  let decision ← item.getItem "decision"
  let _ ← requireEnum decision s!"event approvals[{index}].decision" approvalDecisions
  let revision ← item.getItem "event_revision"
  let revision ← requireNonemptyString revision s!"event approvals[{index}].event_revision"
  require ((role, revision) ∉ met)
    ("event approvals must have a unique role + event_revision subject: " ++
      s!"({strRepr role}, {strRepr revision})")
  requireOptionalDate item "approved_at" s!"event approvals[{index}].approved_at"
  requireOptionalString item "comment" s!"event approvals[{index}].comment must be a string"
  .ok ((role, revision) :: met)

/-- `event["approvals"]`. -/
def validateApprovals (approvals : Json) : Result Unit := do
  let approvals ← requireBoundedList approvals "event approvals" maxApprovalItems
  let items ← requireDicts approvals "event approvals must be a list of objects"
  let _ ← enumerateM validateApproval 0 [] items
  .ok ()

/-- A list of identities of the event's scope. -/
def validateScope (event : Dict) (key : String) : Result (List String) := do
  let v ← event.getItem key
  let items ← requireStringList v s!"event {key}" maxEventAffectedItems
  rejectNormalizedDuplicates items s!"event {key}"
  .ok items

/-- `case["event"]`. -/
def validateEvent (event : Json) (validationMigration : Option Json) : Result Unit := do
  let event ← requireDict event "event must be an object"
  requireKeys event
    ["affected_characteristics", "affected_process_steps", "event_id", "event_type", "revision",
      "risk_level"]
    "event"
  let id ← event.getItem "event_id"
  let _ ← requireNonemptyString id "event_id"
  let revision ← event.getItem "revision"
  let _ ← requireNonemptyString revision "event revision"
  let type ← event.getItem "event_type"
  let _ ← requireEnum type "event_type" eventTypes
  let risk ← event.getItem "risk_level"
  let _ ← requireEnum risk "risk_level" riskLevels
  let steps ← validateScope event "affected_process_steps"
  let characteristics ← validateScope event "affected_characteristics"
  validateMarker (event.present? "affected_links") (validateAffectedLinks steps characteristics)
  requireOptionalDate event "approved_at" "event approved_at"
  requireOptionalString event "change_summary" "event change_summary must be a string"
  validateValidationPlan (event.present? "validation_plan") validationMigration
  validateMarker (event.present? "validation_evidence") validateValidationEvidence
  validateMarker (event.present? "approvals") validateApprovals

/-! ## Documents -/

/-- The roles of a waiver, when it names them. -/
def validateWaiverRoles (documentId : String) : Option Json → Result Unit
  | none => .ok ()
  | some (.arr roles) =>
      require (∀ role ∈ roles, role.isStr = true)
        s!"{documentId} waiver approved_roles must be a list of strings"
  | some _ => valueError s!"{documentId} waiver approved_roles must be a list of strings"

/-- A document's `approved_waiver`. -/
def validateWaiver (documentId : String) (waiver : Json) : Result Unit := do
  let waiver ← requireDict waiver s!"{documentId} approved_waiver must be an object"
  forEach (fun key =>
      requireOptionalString waiver key s!"{documentId} waiver {key} must be a string")
    ["waiver_id", "document_id", "event_revision", "scope", "locator"]
  validateWaiverRoles documentId (waiver.get? "approved_roles")
  forEach (fun key => requireOptionalDate waiver key s!"{documentId} waiver {key}")
    ["valid_from", "valid_until"]

/-- The keys of the characteristic rows met so far. -/
structure CharacteristicKeys where
  relationships : List (String × String)
  controls : List String

/-- The control of a control-plan row; rows of other documents have none. -/
def validateControl (documentId label : String) (isControlPlan : Bool) (met : List String)
    (item : Dict) : Result (List String) :=
  if isControlPlan = true then do
    let control ← requireNonemptyString (item.getD "control_id" .null) s!"{label}.control_id"
    require (normalizedIdentity control ∉ met)
      s!"{documentId} contains duplicate normalized control_id values"
    .ok (normalizedIdentity control :: met)
  else .ok met

/-- A characteristic row that names its process step. -/
def validateBoundCharacteristic (documentId label : String) (isControlPlan : Bool)
    (processStepKeys : List String) (met : CharacteristicKeys) (item : Dict)
    (characteristic : String) : Result CharacteristicKeys := do
  let step ← requireNonemptyString (item.getD "process_step_id" .null) s!"{label}.process_step_id"
  let key := relationshipKey step characteristic
  require (key ∉ met.relationships)
    (s!"{documentId} contains duplicate characteristic_id " ++
      "relationship pairs after normalized process_step_id + characteristic_id")
  require (key.1 ∈ processStepKeys)
    (s!"{documentId} characteristic relationship references a " ++
      "process_step_id absent from that document's process_steps")
  let controls ← validateControl documentId label isControlPlan met.controls item
  .ok ⟨key :: met.relationships, controls⟩

/-- One characteristic row.  A migrated case may leave the process step out, and then nothing
else of the row's keys is checked. -/
def validateCharacteristic (documentId : String) (isControlPlan allowLegacyMissing : Bool)
    (processStepKeys : List String) (index : ℕ) (met : CharacteristicKeys) (item : Dict) :
    Result CharacteristicKeys := do
  let label := s!"{documentId} characteristics[{index}]"
  let characteristic ← requireNonemptyString (item.getD "characteristic_id" .null)
    s!"{label}.characteristic_id"
  if item.getD "process_step_id" .null = .null ∧ allowLegacyMissing = true then .ok met
  else
    validateBoundCharacteristic documentId label isControlPlan processStepKeys met item
      characteristic

/-- `math.isfinite` of a number that is no boolean; an integer beyond the floats raises. -/
def requireFiniteNumber (value : Json) (message : String) : Result Unit :=
  match value with
  | .int n =>
      if n.natAbs < overflowBound then .ok ()
      else .error ⟨.overflowError, "int too large to convert to float"⟩
  | .float x => require (x.isFinite = true) message
  | _ => valueError message

/-- A characteristic row's `specification`. -/
def validateSpecification (documentId : String) (specification : Json) : Result Unit := do
  let specification ← requireDict specification s!"{documentId} specification must be an object"
  forEach (fun key =>
      match specification.get? key with
      | some v =>
          requireFiniteNumber v s!"{documentId} specification {key} must be a finite number"
      | none => .ok ())
    ["target", "minimum", "maximum"]
  requireOptionalString specification "unit" s!"{documentId} specification unit must be a string"

/-- The remaining fields of a characteristic row. -/
def validateCharacteristicFields (documentId : String) (item : Dict) : Result Unit := do
  let characteristic ← item.getItem "characteristic_id"
  let _ ← requireNonemptyString (item.getD "locator" .null)
    s!"{documentId} characteristic {characteristic.toStr} locator"
  validateMarker (item.present? "specification") (validateSpecification documentId)
  forEach (fun key =>
      requireOptionalString item key s!"{documentId} characteristic {key} must be a string")
    ["control_method", "frequency", "reaction_plan"]

/-- The process step of a risk row, which a migrated case may leave out. -/
def validateRiskStep (documentId label : String) (allowLegacyMissing : Bool)
    (processStepKeys : List String) (step : Json) : Result Unit :=
  if step = .null ∧ allowLegacyMissing = true then .ok ()
  else do
    let step ← requireNonemptyString step s!"{label}.process_step_id"
    require (normalizedIdentity step ∈ processStepKeys)
      (s!"{documentId} risk relationship references a " ++
        "process_step_id absent from that document's process_steps")

/-- One risk row; `met` are the failure modes of those before it. -/
def validateRisk (documentId : String) (allowLegacyMissing : Bool)
    (processStepKeys : List String) (index : ℕ) (met : List String) (risk : Dict) :
    Result (List String) := do
  let label := s!"{documentId} risks[{index}]"
  requireKeys risk ["characteristic_id", "failure_mode_id", "locator", "special_characteristic"]
    label
  forEach (fun key => do
      let v ← risk.getItem key
      let _ ← requireNonemptyString v s!"{label}.{key}"
      .ok ())
    ["failure_mode_id", "characteristic_id", "locator"]
  let failureMode ← risk.getItem "failure_mode_id"
  let failureMode ← requireNonemptyString failureMode s!"{label}.failure_mode_id"
  require (normalizedIdentity failureMode ∉ met)
    s!"{documentId} contains duplicate normalized failure_mode_id values"
  validateRiskStep documentId label allowLegacyMissing processStepKeys
    (risk.getD "process_step_id" .null)
  let special ← risk.getItem "special_characteristic"
  require (special = .bool true ∨ special = .bool false)
    s!"{label}.special_characteristic must be boolean"
  requireOptionalString risk "effect" s!"{label}.effect must be a string"
  .ok (normalizedIdentity failureMode :: met)

/-- The references of a migrated document: roles and revisions only. -/
def validateLegacyReferences (documentId : String) (revisionOnly : Json) : Result Unit := do
  let message :=
    s!"{documentId} LEGACY_UNATTESTED references must map roles to non-empty revision strings"
  let revisions ← requireDict revisionOnly message
  require (∀ e ∈ revisions, isBlank e.1 = false ∧ IsNonemptyString e.2) message
  rejectNormalizedDuplicates revisions.keys s!"{documentId} legacy reference roles"

/-- One native reference: an exact document identity. -/
def validateNativeReference (documentId : String) (entry : String × Json) : Result Unit := do
  let label := s!"{documentId} native reference {entry.1}"
  let identity ← requireDict entry.2 s!"{label} must be an identity object"
  require (identity.keys = referenceIdentityKeys)
    s!"{label} must contain exactly {reprStrings referenceIdentityKeys}"
  forEach (fun key => do
      let v ← identity.getItem key
      let _ ← requireNonemptyString v s!"{documentId} reference {entry.1}.{key}"
      .ok ())
    referenceIdentityKeys
  let hash ← identity.getItem "source_hash"
  require (isLowercaseSha256 (hash.str?.getD "") = true)
    s!"{documentId} reference {entry.1}.source_hash must be a lowercase SHA-256"

/-- A document's `references`. -/
def validateReferences (documentId : String) (referenceMigration : Option Json)
    (references : Json) : Result Unit := do
  let references ← requireDict references s!"{documentId} references must be an object"
  require (∀ role ∈ references.keys, isBlank role = false)
    s!"{documentId} reference roles must be non-empty strings"
  rejectNormalizedDuplicates references.keys s!"{documentId} reference roles"
  if references.keys = ["LEGACY_UNATTESTED"] then do
    require (referenceMigration.isSome = true)
      (s!"{documentId} LEGACY_UNATTESTED references require " ++
        "an explicit reference_migration marker")
    let revisionOnly ← references.getItem "LEGACY_UNATTESTED"
    validateLegacyReferences documentId revisionOnly
  else do
    require ("LEGACY_UNATTESTED" ∉ references.keys)
      s!"{documentId} references cannot mix legacy and native identities"
    forEach (validateNativeReference documentId) references

/-- The process steps of a document, none when it lists none. -/
def validateProcessSteps (documentId : String) : Option Json → Result (List String)
  | none => .ok []
  | some v => do
      let steps ← requireStringList v s!"{documentId} process_steps" maxProcessStepsPerDocument
      rejectNormalizedDuplicates steps s!"{documentId} process_steps"
      .ok steps

/-- The rows under `fields`. -/
def validateFields (documentId documentType : String) (allowLegacyMissing : Bool)
    (fields : Dict) : Result Unit := do
  let processSteps ← validateProcessSteps documentId (fields.present? "process_steps")
  let processStepKeys := processSteps.map normalizedIdentity
  let characteristics ← requireBoundedList (fields.getD "characteristics" (.arr []))
    s!"{documentId} characteristics" maxCharacteristicsPerDocument
  let characteristics ← requireDicts characteristics
    s!"{documentId} characteristics must be a list of objects"
  let _ ← enumerateM
    (validateCharacteristic documentId (documentType = "CONTROL_PLAN") allowLegacyMissing
      processStepKeys) 0 ⟨[], []⟩ characteristics
  forEach (validateCharacteristicFields documentId) characteristics
  let risks ← requireBoundedList (fields.getD "risks" (.arr [])) s!"{documentId} risks"
    maxRisksPerDocument
  let risks ← requireDicts risks s!"{documentId} risks must be a list of objects"
  let _ ← enumerateM (validateRisk documentId allowLegacyMissing processStepKeys) 0 [] risks
  .ok ()

/-- The contract version of a document's references: the inspection record's, and no other's. -/
def validateReferenceVersion (documentId documentType : String) (version : Option Json) :
    Result Unit :=
  if documentType = "INSPECTION_RECORD" then
    require (version = some (.str controlledReferenceContractVersion))
      (s!"{documentId} reference_contract_version must be " ++
        strRepr controlledReferenceContractVersion)
  else
    require (version = none)
      s!"{documentId} reference_contract_version is only valid for INSPECTION_RECORD"

/-- The keys every document has, in order. -/
def documentKeys : List String :=
  ["document_id", "document_type", "fields", "owner", "revision", "revision_date", "source_hash",
    "status"]

/-- One document. -/
def validateDocument (migration referenceMigration : Option Json) (doc : Dict) :
    Result Unit := do
  requireKeys doc documentKeys (doc.getD "document_id" (.str "<missing>")).toStr
  let id ← doc.getItem "document_id"
  let documentId ← requireNonemptyString id "document document_id"
  let revision ← doc.getItem "revision"
  let _ ← requireNonemptyString revision "document revision"
  let owner ← doc.getItem "owner"
  let _ ← requireNonemptyString owner "document owner"
  let hash ← doc.getItem "source_hash"
  let hash ← requireNonemptyString hash s!"{documentId} source_hash"
  require (hash.length ≤ maxSourceAnchorCharacters)
    s!"{documentId} source_hash exceeds maximum of {maxSourceAnchorCharacters} characters"
  let date ← doc.getItem "revision_date"
  requireIsoDate date s!"{documentId} revision_date"
  let type ← doc.getItem "document_type"
  let documentType ← requireEnum type "document_type" requiredDocumentTypes
  let status ← doc.getItem "status"
  let _ ← requireEnum status "document status" documentStatuses
  let fields ← doc.getItem "fields"
  let fields ← requireDict fields s!"{documentId} fields must be an object"
  validateMarker (doc.get? "approved_waiver") (validateWaiver documentId)
  validateFields documentId documentType migration.isSome fields
  validateReferenceVersion documentId documentType (doc.present? "reference_contract_version")
  validateMarker (fields.present? "references") (validateReferences documentId referenceMigration)

/-- Whether a document is the approved one of a type. -/
def isApprovedOf (documentType : String) (doc : Dict) : Bool :=
  doc.get? "document_type" = some (.str documentType) && doc.get? "status" = some (.str "APPROVED")

/-- `sum(doc["document_type"] == document_type and doc["status"] == "APPROVED" …)`. -/
def approvedCount (documents : List Dict) (documentType : String) : ℕ :=
  documents.countP (isApprovedOf documentType)

/-- One document's identity; the variable collects them. -/
def validateDocumentId (index : ℕ) (ids : List String) (doc : Dict) : Result (List String) := do
  let id ← requireNonemptyString (doc.getD "document_id" .null)
    s!"documents[{index}].document_id"
  .ok (id :: ids)

/-- `case["documents"]`. -/
def validateDocuments (documents : Json) (migration referenceMigration : Option Json) :
    Result Unit := do
  let documents ← requireBoundedList documents "documents" maxDocuments
  let documents ← requireDicts documents "every document must be an object"
  let ids ← enumerateM validateDocumentId 0 [] documents
  rejectNormalizedDuplicates ids.reverse "documents document_id"
  forEach (validateDocument migration referenceMigration) documents
  let invalid := requiredDocumentTypes.filter fun type => approvedCount documents type ≠ 1
  require (invalid = [])
    ("every required document_type must have exactly one APPROVED document: " ++
      (Json.obj (invalid.map fun type => (type, Json.int (approvedCount documents type)))).repr)

/-! ## The case -/

/-- `validate_case` of a dictionary. -/
def validateCaseDict (case : Dict) : Result Unit := do
  requireKeys case ["case_id", "documents", "event", "schema_version", "synthetic_for_competition"]
    "case"
  let version ← case.getItem "schema_version"
  require (version = .str caseSchemaVersion)
    (s!"case schema_version must be {strRepr caseSchemaVersion}; " ++
      "use migrate_legacy_relationships for a legacy case")
  let synthetic ← case.getItem "synthetic_for_competition"
  require (synthetic = .bool true)
    "v0.2 only accepts cases explicitly marked synthetic_for_competition=true"
  let id ← case.getItem "case_id"
  let _ ← requireNonemptyString id "case_id"
  let migration := case.present? "relationship_migration"
  validateMarker migration validateRelationshipMigration
  let referenceMigration := case.present? "reference_migration"
  validateMarker referenceMigration validateReferenceMigration
  let validationMigration := case.present? "validation_migration"
  validateMarker validationMigration validateValidationMigration
  let event ← case.getItem "event"
  validateEvent event validationMigration
  let documents ← case.getItem "documents"
  validateDocuments documents migration referenceMigration

/-- **`validate_case(case)`.** -/
def validateCase (case : Json) : Result Unit := do
  let case ← requireDict case "case must be an object"
  validateCaseDict case

end QualityCI

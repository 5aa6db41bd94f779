import QualityCI.Lib.PyRaises
import QualityCI.Loader.Accepted

/-!
# What the validator can raise

`validate_case` raises `ValueError`s, with one exception: a specification number is given to
`math.isfinite`, which raises an `OverflowError` for an integer beyond the floats.  Every other
access is behind a check of its key and its type.

* The `raisesOnly_…` lemmas of the field checks and of the validator's parts.
* `HasOversized`, `RowOversized`, `DocumentOversized`, `ReachesOversized` — the number is reached
  when every check the validator makes before it passes.
* **`raisesOnly_validateCase`** — the error contract of the validator.
-/

namespace QualityCI

open Py

/-! ## The field checks -/

section Checks

@[simp] lemma raisesOnly_getItem {d : Dict} {key : String} :
    RaisesOnly .valueError (d.getItem key) ↔ d.contains key = true := by
  unfold Dict.getItem Dict.contains
  cases d.get? key with
  | some v => simp
  | none => simp [keyError]

@[simp] lemma raisesOnly_requireDict {v : Json} {m : String} :
    RaisesOnly .valueError (requireDict v m) := by
  cases v <;> simp [requireDict]

@[simp] lemma raisesOnly_requireDicts {items : List Json} {m : String} :
    RaisesOnly .valueError (requireDicts items m) := by
  induction items with
  | nil => simp [requireDicts]
  | cons item rest ih => cases item <;> simp [requireDicts, ih]

@[simp] lemma raisesOnly_requireOptionalString {d : Dict} {key m : String} :
    RaisesOnly .valueError (requireOptionalString d key m) := by
  unfold requireOptionalString
  cases d.get? key <;> simp

@[simp] lemma raisesOnly_requireNonemptyString {v : Json} {label : String} :
    RaisesOnly .valueError (requireNonemptyString v label) := by
  cases v <;> simp [requireNonemptyString]

@[simp] lemma raisesOnly_requireIsoDate {v : Json} {label : String} :
    RaisesOnly .valueError (requireIsoDate v label) := by
  simp [requireIsoDate]

@[simp] lemma raisesOnly_requireOptionalDate {d : Dict} {key label : String} :
    RaisesOnly .valueError (requireOptionalDate d key label) := by
  unfold requireOptionalDate
  cases d.get? key <;> simp

@[simp] lemma raisesOnly_parseRfc3339Utc {v : Json} {label : String} :
    RaisesOnly .valueError (parseRfc3339Utc v label) := by
  cases v with
  | str s =>
      unfold parseRfc3339Utc
      cases h : parseTimestamp s <;> simp [h]
  | _ => simp [parseRfc3339Utc]

@[simp] lemma raisesOnly_requireBoundedList {v : Json} {label : String} {maximum : ℕ} :
    RaisesOnly .valueError (requireBoundedList v label maximum) := by
  cases v <;> simp [requireBoundedList]

@[simp] lemma raisesOnly_requireStringList {v : Json} {label : String} {maximum : ℕ} :
    RaisesOnly .valueError (requireStringList v label maximum) := by
  cases v <;> simp [requireStringList]

variable [PyUnicode]

lemma requireKeys_contains {d : Dict} {required : List String} {label : String} {u : Unit} :
    requireKeys d required label = .ok u ↔ ∀ key ∈ required, d.contains key = true := by
  simp [requireKeys, missingKeys, List.filter_eq_nil_iff]

@[simp] lemma raisesOnly_requireKeys {d : Dict} {required : List String} {label : String} :
    RaisesOnly .valueError (requireKeys d required label) := by
  simp [requireKeys]

@[simp] lemma raisesOnly_requireEnum {v : Json} {label : String} {allowed : List String} :
    RaisesOnly .valueError (requireEnum v label allowed) := by
  cases v <;> simp [requireEnum]

@[simp] lemma raisesOnly_rejectNormalizedDuplicates {values : List String} {label : String} :
    RaisesOnly .valueError (rejectNormalizedDuplicates values label) := by
  simp [rejectNormalizedDuplicates]

omit [PyUnicode] in
lemma raisesOnly_validateMarker {marker : Option Json} {check : Json → Result Unit}
    (h : ∀ m, RaisesOnly .valueError (check m)) :
    RaisesOnly .valueError (validateMarker marker check) := by
  cases marker with
  | none => simp [validateMarker]
  | some m => exact h m

end Checks

section Validator

variable [PyUnicode]

lemma raisesOnly_relationshipMigration {m : Json} :
    RaisesOnly .valueError (validateRelationshipMigration m) := by
  simp +contextual [validateRelationshipMigration, requireKeys_contains]

lemma raisesOnly_referenceMigration {m : Json} :
    RaisesOnly .valueError (validateReferenceMigration m) := by
  simp +contextual [validateReferenceMigration, requireKeys_contains]

lemma raisesOnly_validationMigration {m : Json} :
    RaisesOnly .valueError (validateValidationMigration m) := by
  simp +contextual [validateValidationMigration, requireKeys_contains]

lemma raisesOnly_validateLink {steps characteristics : List String} {index : ℕ}
    {met : List (String × String)} {link : Json} :
    RaisesOnly .valueError (validateLink steps characteristics index met link) := by
  simp +contextual [validateLink, requireKeys_contains]

lemma raisesOnly_affectedLinks {steps characteristics : List String} {links : Json} :
    RaisesOnly .valueError (validateAffectedLinks steps characteristics links) := by
  simp only [validateAffectedLinks, raisesOnly_bind, raisesOnly_requireBoundedList, raisesOnly_ok,
    implies_true, and_true, true_and]
  exact fun links _ => .enumerateM fun _ _ _ _ => raisesOnly_validateLink

omit [PyUnicode] in
/-- A field of a dictionary whose keys have been checked is a non-empty string or the check
raises. -/
lemma raisesOnly_requireField {d : Dict} {key label : String} (h : d.contains key = true) :
    RaisesOnly .valueError (do
      let v ← d.getItem key
      let _ ← requireNonemptyString v label
      .ok ()) := by
  simp [h]

omit [PyUnicode] in
lemma raisesOnly_validateRequirement {index : ℕ} {identities : List String} {item : Json} :
    RaisesOnly .valueError (validateRequirement index identities item) := by
  simp only [validateRequirement, raisesOnly_bind, raisesOnly_requireDict, raisesOnly_require,
    requireDict_eq_ok, require_eq_ok, true_and]
  rintro requirement rfl _ hkeys
  have hfield : ∀ key ∈ requirementKeys, requirement.contains key = true := by
    intro key hkey
    rw [← Dict.mem_keys_iff, hkeys]
    exact hkey
  refine ⟨.forEach fun key hkey => raisesOnly_requireField (hfield key hkey), fun _ _ => ?_⟩
  simp [hfield "evidence_id" (by decide), hfield "valid_from" (by decide),
    hfield "valid_until" (by decide)]

lemma raisesOnly_validationPlan {plan migration : Option Json} :
    RaisesOnly .valueError (validateValidationPlan plan migration) := by
  cases plan with
  | none => simp [validateValidationPlan]
  | some plan =>
      simp only [validateValidationPlan, raisesOnly_bind, raisesOnly_requireDict,
        raisesOnly_require, requireDict_eq_ok, require_eq_ok, raisesOnly_getItem,
        raisesOnly_requireBoundedList, raisesOnly_rejectNormalizedDuplicates, implies_true,
        and_true, true_and]
      rintro plan rfl _ hkeys
      have hfield : ∀ key ∈ ["contract_version", "required_evidence"],
          plan.contains key = true := by
        intro key hkey
        rw [← Dict.mem_keys_iff, hkeys]
        exact hkey
      refine ⟨hfield _ (by decide), fun version _ _ _ => ⟨hfield _ (by decide), ?_⟩⟩
      exact fun _ _ _ _ _ _ => .enumerateM fun _ _ _ _ => raisesOnly_validateRequirement

lemma raisesOnly_validateEvidenceItem {index : ℕ} {identities : List String} {item : Dict} :
    RaisesOnly .valueError (validateEvidenceItem index identities item) := by
  simp +contextual [validateEvidenceItem, requireKeys_contains]

lemma raisesOnly_validationEvidence {evidence : Json} :
    RaisesOnly .valueError (validateValidationEvidence evidence) := by
  simp only [validateValidationEvidence, raisesOnly_bind, raisesOnly_requireBoundedList,
    raisesOnly_requireDicts, raisesOnly_rejectNormalizedDuplicates, implies_true, and_true,
    true_and]
  exact fun _ _ _ _ => .enumerateM fun _ _ _ _ => raisesOnly_validateEvidenceItem

lemma raisesOnly_validateApproval {index : ℕ} {met : List (String × String)} {item : Dict} :
    RaisesOnly .valueError (validateApproval index met item) := by
  simp +contextual [validateApproval, requireKeys_contains]

lemma raisesOnly_validateApprovals {approvals : Json} :
    RaisesOnly .valueError (validateApprovals approvals) := by
  simp only [validateApprovals, raisesOnly_bind, raisesOnly_requireBoundedList,
    raisesOnly_requireDicts, raisesOnly_ok, implies_true, and_true, true_and]
  exact fun _ _ _ _ => .enumerateM fun _ _ _ _ => raisesOnly_validateApproval

lemma raisesOnly_validateEvent {event : Json} {migration : Option Json} :
    RaisesOnly .valueError (validateEvent event migration) := by
  simp +contextual [validateEvent, validateScope, requireKeys_contains,
    raisesOnly_validateMarker, raisesOnly_affectedLinks, raisesOnly_validationPlan,
    raisesOnly_validationEvidence, raisesOnly_validateApprovals]

/-! ## Documents -/

omit [PyUnicode] in
lemma raisesOnly_waiverRoles {documentId : String} {roles : Option Json} :
    RaisesOnly .valueError (validateWaiverRoles documentId roles) := by
  cases roles with
  | none => simp [validateWaiverRoles]
  | some roles => cases roles <;> simp [validateWaiverRoles]

omit [PyUnicode] in
lemma raisesOnly_validateWaiver {documentId : String} {waiver : Json} :
    RaisesOnly .valueError (validateWaiver documentId waiver) := by
  simp [validateWaiver, RaisesOnly.forEach, raisesOnly_waiverRoles]

lemma raisesOnly_validateCharacteristic {documentId : String} {isControlPlan legacy : Bool}
    {stepKeys : List String} {index : ℕ} {met : CharacteristicKeys} {item : Dict} :
    RaisesOnly .valueError
      (validateCharacteristic documentId isControlPlan legacy stepKeys index met item) := by
  simp only [validateCharacteristic, validateBoundCharacteristic, validateControl]
  split_ifs <;> simp

lemma raisesOnly_validateRiskStep {documentId label : String} {legacy : Bool}
    {stepKeys : List String} {step : Json} :
    RaisesOnly .valueError (validateRiskStep documentId label legacy stepKeys step) := by
  unfold validateRiskStep
  split_ifs <;> simp

lemma raisesOnly_validateRisk {documentId : String} {legacy : Bool} {stepKeys : List String}
    {index : ℕ} {met : List String} {risk : Dict} :
    RaisesOnly .valueError (validateRisk documentId legacy stepKeys index met risk) := by
  simp only [validateRisk, raisesOnly_bind, raisesOnly_requireKeys, requireKeys_contains, true_and]
  intro _ hkeys
  refine ⟨.forEach fun key hkey => raisesOnly_requireField (hkeys key ?_), fun _ _ => ?_⟩
  · simp only [List.mem_cons, List.not_mem_nil, or_false] at hkey ⊢
    tauto
  · simp [hkeys "failure_mode_id" (by decide), hkeys "special_characteristic" (by decide),
      raisesOnly_validateRiskStep]

lemma raisesOnly_legacyReferences {documentId : String} {revisionOnly : Json} :
    RaisesOnly .valueError (validateLegacyReferences documentId revisionOnly) := by
  simp [validateLegacyReferences]

lemma raisesOnly_nativeReference {documentId : String} {entry : String × Json} :
    RaisesOnly .valueError (validateNativeReference documentId entry) := by
  simp only [validateNativeReference, raisesOnly_bind, raisesOnly_requireDict,
    raisesOnly_require, requireDict_eq_ok, require_eq_ok, true_and]
  intro identity _ _ hkeys
  have hfield : ∀ key ∈ referenceIdentityKeys, identity.contains key = true := by
    intro key hkey
    rw [← Dict.mem_keys_iff, hkeys]
    exact hkey
  refine ⟨.forEach fun key hkey => raisesOnly_requireField (hfield key hkey), fun _ _ => ?_⟩
  simp [hfield "source_hash" (by decide)]

lemma raisesOnly_validateReferences {documentId : String} {migration : Option Json}
    {references : Json} :
    RaisesOnly .valueError (validateReferences documentId migration references) := by
  simp only [validateReferences, raisesOnly_bind, raisesOnly_requireDict, raisesOnly_require,
    raisesOnly_rejectNormalizedDuplicates, true_and]
  intro references _ _ _ _ _
  split_ifs with hlegacy
  · have hkey : references.contains "LEGACY_UNATTESTED" = true := by
      rw [← Dict.mem_keys_iff, hlegacy]
      exact List.mem_cons_self
    simp [hkey, raisesOnly_legacyReferences]
  · simp [RaisesOnly.forEach, raisesOnly_nativeReference]

lemma raisesOnly_processSteps {documentId : String} {steps : Option Json} :
    RaisesOnly .valueError (validateProcessSteps documentId steps) := by
  cases steps <;> simp [validateProcessSteps]

lemma raisesOnly_referenceVersion {documentId documentType : String} {version : Option Json} :
    RaisesOnly .valueError (validateReferenceVersion documentId documentType version) := by
  unfold validateReferenceVersion
  split_ifs <;> simp

omit [PyUnicode] in
lemma raisesOnly_validateDocumentId {index : ℕ} {ids : List String} {doc : Dict} :
    RaisesOnly .valueError (validateDocumentId index ids doc) := by
  simp [validateDocumentId]

/-! ## Specification numbers -/

/-- An integer that no float is near. -/
def Oversized (v : Json) : Prop := ∃ n : ℤ, v = .int n ∧ overflowBound ≤ n.natAbs

/-- The numbers of a specification, in the order in which they are checked. -/
def specificationNumbers : List String := ["target", "minimum", "maximum"]

/-- A specification with an oversized number, the ones before it being finite. -/
def HasOversized (specification : Dict) : Prop :=
  ∃ before key after, specificationNumbers = before ++ key :: after ∧
    (∀ k ∈ before, ∀ v, specification.get? k = some v → IsFiniteNumber v) ∧
    ∃ v, specification.get? key = some v ∧ Oversized v

/-- A row that is checked up to an oversized number. -/
def RowOversized (row : Dict) : Prop :=
  IsNonemptyString (row.getD "locator" .null) ∧
    ∃ specification, row.get? "specification" = some (.obj specification) ∧
      HasOversized specification

omit [PyUnicode] in
lemma requireFiniteNumber_iff {v : Json} {m : String} :
    requireFiniteNumber v m = .ok () ↔ IsFiniteNumber v := by
  refine ⟨requireFiniteNumber_eq_ok, fun h => ?_⟩
  cases v with
  | int n =>
      simp only [requireFiniteNumber]
      exact if_pos h
  | float x => simpa [requireFiniteNumber, IsFiniteNumber] using h
  | _ => simp [IsFiniteNumber] at h

omit [PyUnicode] in
lemma raisesOnly_requireFiniteNumber {v : Json} {m : String} :
    RaisesOnly .valueError (requireFiniteNumber v m) ↔ ¬Oversized v := by
  cases v with
  | int n =>
      simp only [requireFiniteNumber, Oversized, Json.int.injEq, exists_eq_left', not_le]
      split_ifs with h <;> simp [h]
  | _ => simp [requireFiniteNumber, Oversized]

omit [PyUnicode] in
/-- A specification's numbers are checked up to the first that is oversized. -/
lemma raisesOnly_specificationNumbers {documentId : String} {specification : Dict} :
    RaisesOnly .valueError (forEach (fun key =>
      match specification.get? key with
      | some v =>
          requireFiniteNumber v s!"{documentId} specification {key} must be a finite number"
      | none => .ok ()) specificationNumbers) ↔ ¬HasOversized specification := by
  rw [raisesOnly_forEach]
  simp only [HasOversized, not_exists, not_and]
  refine forall_congr' fun before => forall_congr' fun key => forall_congr' fun after =>
    imp_congr_right fun _ => imp_congr (forall_congr' fun k => imp_congr_right fun _ => ?_) ?_
  · cases specification.get? k <;> simp [requireFiniteNumber_iff]
  · cases specification.get? key <;> simp [raisesOnly_requireFiniteNumber]

omit [PyUnicode] in
lemma raisesOnly_validateSpecification {documentId : String} {specification : Json} :
    RaisesOnly .valueError (validateSpecification documentId specification) ↔
      ∀ d, specification = .obj d → ¬HasOversized d := by
  simp only [validateSpecification, raisesOnly_bind, raisesOnly_requireDict, requireDict_eq_ok,
    raisesOnly_requireOptionalString, implies_true, and_true, true_and]
  exact forall_congr' fun d => imp_congr_right fun _ => raisesOnly_specificationNumbers

/-- A characteristic row with an identity is checked up to its oversized number, if it has one. -/
lemma raisesOnly_characteristicFields {documentId : String} {row : Dict}
    (h : row.contains "characteristic_id" = true) :
    RaisesOnly .valueError (validateCharacteristicFields documentId row) ↔ ¬RowOversized row := by
  have hmarker : RaisesOnly .valueError
      (validateMarker (row.present? "specification") (validateSpecification documentId)) ↔
      ∀ d, row.get? "specification" = some (.obj d) → ¬HasOversized d := by
    unfold Dict.present? validateMarker
    cases row.get? "specification" with
    | none => simp
    | some v => cases v <;> simp [raisesOnly_validateSpecification]
  simp only [validateCharacteristicFields, raisesOnly_bind, raisesOnly_getItem, h,
    raisesOnly_requireNonemptyString, hmarker, RaisesOnly.forEach, raisesOnly_requireOptionalString,
    implies_true, and_true, true_and, RowOversized, not_and, not_exists]
  constructor
  · rintro hall ⟨s, hs, hblank⟩
    obtain ⟨v, hv⟩ := Option.isSome_iff_exists.mp h
    exact hall v (Dict.getItem_eq_ok.mpr hv) s (requireNonemptyString_eq_ok.mpr ⟨hs, hblank⟩)
  · rintro hall v _ s hs
    exact hall ⟨s, requireNonemptyString_eq_ok.mp hs⟩

/-! ## The validator up to its rows -/

/-- What `validate_case` holds of a document when it comes to the fields of its rows. -/
structure DocumentHead where
  documentId : String
  documentType : String
  fields : Dict
  processStepKeys : List String
  rows : List Dict

/-- `validate_case` of a document up to the fields of its characteristic rows. -/
def checkDocumentHead (migration : Option Json) (doc : Dict) : Result DocumentHead := do
  requireKeys doc documentKeys (doc.getD "document_id" (.str "<missing>")).toStr
  let id ← doc.getItem "document_id"
  let documentId ← requireNonemptyString id "document document_id"
  let revision ← doc.getItem "revision"
  let _ ← requireNonemptyString revision "document revision"
  let owner ← doc.getItem "owner"
  let _ ← requireNonemptyString owner "document owner"
  let hash ← doc.getItem "source_hash"
  let hash ← requireNonemptyString hash s!"{documentId} source_hash"
  require (hash.length ≤ maxSourceAnchorCharacters)
    s!"{documentId} source_hash exceeds maximum of {maxSourceAnchorCharacters} characters"
  let date ← doc.getItem "revision_date"
  requireIsoDate date s!"{documentId} revision_date"
  let type ← doc.getItem "document_type"
  let documentType ← requireEnum type "document_type" requiredDocumentTypes
  let status ← doc.getItem "status"
  let _ ← requireEnum status "document status" documentStatuses
  let fields ← doc.getItem "fields"
  let fields ← requireDict fields s!"{documentId} fields must be an object"
  validateMarker (doc.get? "approved_waiver") (validateWaiver documentId)
  let processSteps ← validateProcessSteps documentId (fields.present? "process_steps")
  let characteristics ← requireBoundedList (fields.getD "characteristics" (.arr []))
    s!"{documentId} characteristics" maxCharacteristicsPerDocument
  let characteristics ← requireDicts characteristics
    s!"{documentId} characteristics must be a list of objects"
  let _ ← enumerateM
    (validateCharacteristic documentId (documentType = "CONTROL_PLAN") migration.isSome
      (processSteps.map normalizedIdentity)) 0 ⟨[], []⟩ characteristics
  .ok ⟨documentId, documentType, fields, processSteps.map normalizedIdentity, characteristics⟩

/-- `validate_case` of a document from its risks on. -/
def checkDocumentRest (migration referenceMigration : Option Json) (doc : Dict)
    (head : DocumentHead) : Result Unit := do
  let risks ← requireBoundedList (head.fields.getD "risks" (.arr []))
    s!"{head.documentId} risks" maxRisksPerDocument
  let risks ← requireDicts risks s!"{head.documentId} risks must be a list of objects"
  let _ ← enumerateM (validateRisk head.documentId migration.isSome head.processStepKeys) 0 []
    risks
  validateReferenceVersion head.documentId head.documentType
    (doc.present? "reference_contract_version")
  validateMarker (head.fields.present? "references")
    (validateReferences head.documentId referenceMigration)

lemma validateDocument_split {migration referenceMigration : Option Json} {doc : Dict} :
    validateDocument migration referenceMigration doc = (do
      let head ← checkDocumentHead migration doc
      forEach (validateCharacteristicFields head.documentId) head.rows
      checkDocumentRest migration referenceMigration doc head) := by
  simp only [validateDocument, validateFields, checkDocumentHead, checkDocumentRest, bind_assoc,
    ok_bind]

lemma raisesOnly_documentHead {migration : Option Json} {doc : Dict} :
    RaisesOnly .valueError (checkDocumentHead migration doc) := by
  simp only [checkDocumentHead, raisesOnly_bind, raisesOnly_requireKeys, requireKeys_contains,
    true_and]
  intro _ hkeys
  have hfield : ∀ key ∈ documentKeys, doc.contains key = true := hkeys
  simp [hfield "document_id" (by decide), hfield "revision" (by decide),
    hfield "owner" (by decide), hfield "source_hash" (by decide),
    hfield "revision_date" (by decide), hfield "document_type" (by decide),
    hfield "status" (by decide), hfield "fields" (by decide), raisesOnly_validateMarker,
    raisesOnly_validateWaiver, raisesOnly_processSteps, RaisesOnly.enumerateM,
    raisesOnly_validateCharacteristic]

lemma raisesOnly_documentRest {migration referenceMigration : Option Json} {doc : Dict}
    {head : DocumentHead} :
    RaisesOnly .valueError (checkDocumentRest migration referenceMigration doc head) := by
  simp [checkDocumentRest, RaisesOnly.enumerateM, raisesOnly_validateRisk,
    raisesOnly_referenceVersion, raisesOnly_validateMarker, raisesOnly_validateReferences]

/-- The rows of a document that are checked up to an oversized number. -/
def RowsOversized (head : DocumentHead) : Prop :=
  ∃ before row after, head.rows = before ++ row :: after ∧
    (∀ r ∈ before, validateCharacteristicFields head.documentId r = .ok ()) ∧ RowOversized row

/-- A document that is checked up to an oversized number. -/
def DocumentOversized (migration : Option Json) (doc : Dict) : Prop :=
  ∃ head, checkDocumentHead migration doc = .ok head ∧ RowsOversized head

/-- The rows that come to the check of their fields have an identity. -/
lemma documentHead_identified {migration : Option Json} {doc : Dict} {head : DocumentHead}
    (h : checkDocumentHead migration doc = .ok head) :
    ∀ row ∈ head.rows, row.contains "characteristic_id" = true := by
  simp only [checkDocumentHead, bind_eq_ok, exists_unit, Except.ok.injEq] at h
  obtain ⟨-, _, -, _, -, _, -, _, -, _, -, _, -, _, -, _, -, -, _, -, -, _, -, _, -, _, -, _, -,
    _, -, fields, -, -, steps, -, _, -, rows, -, _, hrows, rfl⟩ := h
  refine (enumerateM_distinct (fun _ => ([] : List Unit)) (fun _ => none)
    (fun row : Dict => row.contains "characteristic_id" = true) ?_ hrows).1
  intro i met row met' hrow
  refine ⟨?_, rfl, by simp⟩
  simp only [validateCharacteristic, bind_eq_ok, requireNonemptyString_eq_ok] at hrow
  obtain ⟨s, ⟨hs, -⟩, -⟩ := hrow
  unfold Dict.getD at hs
  unfold Dict.contains
  cases hget : row.get? "characteristic_id" with
  | some v => rfl
  | none => simp [hget] at hs

/-- **One document.**  It raises something else than a `ValueError` exactly when it is checked up
to an oversized number. -/
lemma raisesOnly_validateDocument {migration referenceMigration : Option Json} {doc : Dict} :
    RaisesOnly .valueError (validateDocument migration referenceMigration doc) ↔
      ¬DocumentOversized migration doc := by
  rw [validateDocument_split]
  simp only [raisesOnly_bind, raisesOnly_documentHead, raisesOnly_documentRest, implies_true,
    and_true, true_and, DocumentOversized, not_exists, not_and]
  refine forall_congr' fun head => imp_congr_right fun hhead => ?_
  simp only [raisesOnly_forEach, RowsOversized, not_exists, not_and]
  refine forall_congr' fun before => forall_congr' fun row => forall_congr' fun after =>
    imp_congr_right fun hrows => imp_congr_right fun _ => ?_
  exact raisesOnly_characteristicFields
    (documentHead_identified hhead row (by rw [hrows]; simp))

/-- `validate_case` up to the loop over the documents: the documents. -/
def checkCaseHead (case : Dict) : Result (List Dict) := do
  requireKeys case ["case_id", "documents", "event", "schema_version", "synthetic_for_competition"]
    "case"
  let version ← case.getItem "schema_version"
  require (version = .str caseSchemaVersion)
    (s!"case schema_version must be {strRepr caseSchemaVersion}; " ++
      "use migrate_legacy_relationships for a legacy case")
  let synthetic ← case.getItem "synthetic_for_competition"
  require (synthetic = .bool true)
    "v0.2 only accepts cases explicitly marked synthetic_for_competition=true"
  let id ← case.getItem "case_id"
  let _ ← requireNonemptyString id "case_id"
  validateMarker (case.present? "relationship_migration") validateRelationshipMigration
  validateMarker (case.present? "reference_migration") validateReferenceMigration
  validateMarker (case.present? "validation_migration") validateValidationMigration
  let event ← case.getItem "event"
  validateEvent event (case.present? "validation_migration")
  let documents ← case.getItem "documents"
  let documents ← requireBoundedList documents "documents" maxDocuments
  let documents ← requireDicts documents "every document must be an object"
  let ids ← enumerateM validateDocumentId 0 [] documents
  rejectNormalizedDuplicates ids.reverse "documents document_id"
  .ok documents

/-- `validate_case` after the loop over the documents. -/
def checkCaseRest (documents : List Dict) : Result Unit :=
  let invalid := requiredDocumentTypes.filter fun type => approvedCount documents type ≠ 1
  require (invalid = [])
    ("every required document_type must have exactly one APPROVED document: " ++
      (Json.obj (invalid.map fun type => (type, Json.int (approvedCount documents type)))).repr)

lemma validateCase_split {case : Dict} :
    validateCaseDict case = (do
      let documents ← checkCaseHead case
      forEach (validateDocument (case.present? "relationship_migration")
        (case.present? "reference_migration")) documents
      checkCaseRest documents) := by
  simp only [validateCaseDict, validateDocuments, checkCaseHead, checkCaseRest, bind_assoc,
    ok_bind]

lemma raisesOnly_caseHead {case : Dict} : RaisesOnly .valueError (checkCaseHead case) := by
  simp only [checkCaseHead, raisesOnly_bind, raisesOnly_requireKeys, requireKeys_contains,
    true_and]
  intro _ hkeys
  simp [hkeys "schema_version" (by decide), hkeys "synthetic_for_competition" (by decide),
    hkeys "case_id" (by decide), hkeys "event" (by decide), hkeys "documents" (by decide),
    raisesOnly_validateMarker, raisesOnly_relationshipMigration, raisesOnly_referenceMigration,
    raisesOnly_validationMigration, raisesOnly_validateEvent, RaisesOnly.enumerateM,
    raisesOnly_validateDocumentId]

/-- A case that is checked up to an oversized number: every check ahead of it passes, in the order
in which the validator makes them. -/
def ReachesOversized (case : Dict) : Prop :=
  ∃ documents, checkCaseHead case = .ok documents ∧
    ∃ before document after, documents = before ++ document :: after ∧
      (∀ d ∈ before, validateDocument (case.present? "relationship_migration")
        (case.present? "reference_migration") d = .ok ()) ∧
      DocumentOversized (case.present? "relationship_migration") document

/-- **The validator.** -/
theorem raisesOnly_validateCase {case : Dict} :
    RaisesOnly .valueError (validateCaseDict case) ↔ ¬ReachesOversized case := by
  rw [validateCase_split]
  simp only [raisesOnly_bind, raisesOnly_caseHead, checkCaseRest, raisesOnly_require, implies_true,
    and_true, true_and, ReachesOversized, not_exists, not_and]
  refine forall_congr' fun documents => imp_congr_right fun _ => ?_
  simp only [raisesOnly_forEach, raisesOnly_validateDocument]

end Validator

end QualityCI

import QualityCI.Authorization.Records
import QualityCI.Lib.JsonRoundTrip

/-!
# Approval subjects

`approval_subject.py` up to the subject: the facts that an approval is of, fixed before it is
given, and their hash.  A subject of the second version also names the source of its case.

* `validateCaseSourceAssurancePayload` — the source a subject names.
* `validateApprovalSubject` — what a subject has to be.
* `approvalSubjectHash` — the hash that assertions are bound to.
* **`acceptedSubject_of_validate`** — what a validated subject is.
-/

namespace QualityCI

open Py

/-! ## Constants -/

def legacyApprovalSubjectContractVersion : String := "qualityci-approval-subject-0.1"
def sourceApprovalSubjectContractVersion : String := "qualityci-approval-subject-0.2"
def approvalAssertionContractVersion : String := "qualityci-approval-assertion-0.1"
def approvalPolicyVersion : String := "qualityci-approval-policy-0.1"
def approvalPurposeCode : String := "APPLY_APPROVED_RESOLUTION"
def approvalScopeCode : String := "EXACT_SUBJECT"
def approvalUsePolicy : String := "SINGLE_REPLAY"

/-- `sorted(APPROVAL_REQUIRED_ROLE_CLAIMS)`. -/
def approvalRequiredRoleClaims : List String := ["PROCESS_OWNER", "QUALITY_MANAGER"]

def subjectDomain : String := "QualityCI/approval-subject/v1\x00"
def sourceSubjectDomain : String := "QualityCI/approval-subject/v2\x00"
def textDomain : String := "QualityCI/approval-text/v1\x00"

/-- The fields of a subject that are hashes. -/
def subjectHashFields : List String :=
  ["purpose_text_hash", "resolution_description_hash", "operations_hash", "pre_case_subject_hash",
   "artifact_subject_hash", "controlled_reference_policy_hash", "validation_approval_policy_hash"]

/-- The fields of a subject that are texts. -/
def subjectTextFields : List String :=
  ["contract_version", "purpose_code", "scope_code", "purpose_text", "resolution_id", "case_id",
   "event_id", "event_revision", "approval_policy_version", "use_policy", "execution_nonce"] ++
    subjectHashFields

def approvalSubjectKeys : List String := "required_role_claims" :: subjectTextFields
def sourceApprovalSubjectKeys : List String := "pre_case_source" :: approvalSubjectKeys

def forbiddenSubjectPostFactKeys : List String :=
  ["approval_subject_hash", "approval_assertion", "approval_assertions", "assertion_hash",
   "assertion_hashes", "authorization_record_hash", "before", "after", "before_run", "after_run",
   "run_id", "run_hash", "source_validation_evidence_set_hash",
   "resolved_validation_evidence_set_hash", "validation_evidence_pair_hash", "baseline",
   "replay_admission_hash", "replay_ledger_hash", "consumption", "consumption_hash", "signature"]

/-! ## Checks -/

/-- `_exact_nonempty`. -/
def exactNonempty (value : Json) (label : String) : Result String :=
  match value with
  | .str s => do
      require (isBlank s = false) s!"{label} must be an exact non-empty string"
      .ok s
  | _ => valueError s!"{label} must be an exact non-empty string"

/-- `_lower_sha` of this module, which trims nothing. -/
def approvalLowerSha (value : Json) (label : String) : Result String := do
  let text ← exactNonempty value label
  require (isLowerSha text = true) s!"{label} must be a lowercase SHA-256"
  .ok text

/-- `_exact_nonempty(d[key], …)`. -/
def nonemptyField (d : Dict) (subject key : String) : Result Unit := do
  let value ← d.getItem key
  let _ ← exactNonempty value (subject ++ " " ++ key)
  .ok ()

/-- `_lower_sha(d[key], …)`. -/
def shaField (d : Dict) (key label : String) : Result Unit := do
  let value ← d.getItem key
  let _ ← approvalLowerSha value label
  .ok ()

/-- `hashlib.sha256(domain + _canonical_bytes(value)).hexdigest()`. -/
def approvalDomainHash (domain : String) (value : Json) : Result String := do
  let text ← dumps value
  .ok (sha256Hex (domain ++ text))

/-- `json.loads(_canonical_bytes(value))`. -/
def canonicalCopy (value : Json) : Result Json := do
  let text ← dumps value
  loads ⟨false⟩ text

/-! ## The source of a case -/

def caseSourcePackContractVersion : String := "qualityci-case-source-pack-0.1"
def caseSourceSetContractVersion : String := "qualityci-case-source-set-0.1"
def caseSourceLineageContractVersion : String := "qualityci-case-source-lineage-0.1"
def caseSourceUnboundState : String := "UNBOUND_SERIALIZED_CASE"
def caseSourceBoundState : String := "BOUND_RAW_SOURCE_CASE"
def caseSourceDerivedState : String := "SOURCE_ROOTED_DERIVATION"

/-- The fields of a source besides its state. -/
def caseSourceIdentityFields : List String :=
  ["case_source_pack_contract_version", "case_source_set_contract_version", "case_source_set_hash",
   "case_source_binding_hash", "case_source_lineage_contract_version", "case_source_lineage_hash"]

def caseSourceAssuranceKeys : List String :=
  "case_source_assurance_state" :: caseSourceIdentityFields

/-- `_lower_hash` of `case_source_assurance.py`, of a value under a key. -/
def lowerHashAt (d : Dict) (key label : String) : Result Unit :=
  require (d.get? key = some (.str (d.textAt key)) ∧ (d.textAt key).toList.length = 64 ∧
      ∀ c ∈ (d.textAt key).toList, c ∈ "0123456789abcdef".toList)
    s!"{label} must be one lowercase SHA-256 value"

/-- `validate_case_source_assurance_payload`. -/
def validateCaseSourceAssurancePayload (value : Json) : Result Dict :=
  match value with
  | .obj source => do
      require (HasExactKeys source caseSourceAssuranceKeys)
        "case source assurance must contain the exact field set"
      let state := Dict.textAt source "case_source_assurance_state"
      require (Dict.get? source "case_source_assurance_state" = some (.str state) ∧
          state ∈ [caseSourceUnboundState, caseSourceBoundState, caseSourceDerivedState])
        "case source assurance state is unsupported"
      if state = caseSourceUnboundState then
        require (∀ key ∈ caseSourceIdentityFields, Dict.get? source key = some .null)
          "unbound Case source assurance requires null identities"
      else do
        require (Dict.get? source "case_source_pack_contract_version" =
          some (.str caseSourcePackContractVersion)) "case source pack version is inconsistent"
        require (Dict.get? source "case_source_set_contract_version" =
          some (.str caseSourceSetContractVersion)) "case source set version is inconsistent"
        lowerHashAt source "case_source_set_hash" "case source set hash"
        lowerHashAt source "case_source_binding_hash" "case source binding hash"
        if state = caseSourceBoundState then
          require (Dict.get? source "case_source_lineage_contract_version" = some .null ∧
              Dict.get? source "case_source_lineage_hash" = some .null)
            "bound root Case cannot claim a lineage"
        else do
          require (Dict.get? source "case_source_lineage_contract_version" =
            some (.str caseSourceLineageContractVersion))
            "derived Case requires the lineage contract"
          lowerHashAt source "case_source_lineage_hash" "case source lineage hash"
      .ok source
  | _ => valueError "case source assurance must contain the exact field set"

/-! ## Subjects -/

variable [PyUnicode]

/-- The key set of a subject of a version. -/
def subjectKeysOf (version : Option Json) : Result (List String) :=
  if version = some (.str legacyApprovalSubjectContractVersion) then .ok approvalSubjectKeys
  else if version = some (.str sourceApprovalSubjectContractVersion) then
    .ok sourceApprovalSubjectKeys
  else valueError "unsupported approval subject contract_version"

/-- The forbidden keys of a subject. -/
def forbiddenKeys (subject : Dict) : List String :=
  subject.keys.filter fun key =>
    decide (key ∉ sourceApprovalSubjectKeys ∧ key ∈ forbiddenSubjectPostFactKeys)

/-- The source that a subject of the second version names. -/
def validateSubjectSource (subject : Dict) : Result Unit := do
  let value ← subject.getItem "pre_case_source"
  match value with
  | .obj source => do
      let source ← validateCaseSourceAssurancePayload (.obj source)
      require (source.textAt "case_source_assurance_state" ∈
          [caseSourceBoundState, caseSourceDerivedState])
        "approval subject pre_case_source must be BOUND or SOURCE_ROOTED"
  | _ => valueError "approval subject pre_case_source must be an exact object"

/-- The roles that a subject requires. -/
def validateSubjectRoles (value : Json) : Result Unit :=
  match value with
  | .arr items => do
      let roles := items.filterMap Json.str?
      require (items = roles.map .str ∧ ∀ role ∈ roles, isBlank role = false)
        "required_role_claims must be an exact string array"
      require (roles = KeySort.sortBy recordOrder roles ∧ (roles.map normalizedIdentity).Nodup)
        "required_role_claims must be canonical and unique"
      require (roles = approvalRequiredRoleClaims)
        "required_role_claims must exactly match the approval policy roles"
  | _ => valueError "required_role_claims must be an exact string array"

/-- `validate_approval_subject(subject)`. -/
def validateApprovalSubject (subject : Json) : Result Dict :=
  match subject with
  | .obj subject => do
      let version := Dict.get? subject "contract_version"
      let expectedKeys ← subjectKeysOf version
      require (forbiddenKeys subject = [])
        ("approval subject contains forbidden post-fact keys: " ++
          reprStrings (KeySort.sortBy (fun key => [key]) (forbiddenKeys subject)))
      require (HasExactKeys subject expectedKeys)
        "approval subject must contain the exact versioned key set"
      forEach (nonemptyField subject "approval subject") subjectTextFields
      forEach (fun key => shaField subject key ("approval subject " ++ key)) subjectHashFields
      whenever (version = some (.str sourceApprovalSubjectContractVersion))
        (validateSubjectSource subject)
      require (Dict.textAt subject "purpose_code" = approvalPurposeCode)
        "unsupported approval purpose_code"
      require (Dict.textAt subject "scope_code" = approvalScopeCode)
        "unsupported approval scope_code"
      require (Dict.textAt subject "approval_policy_version" = approvalPolicyVersion)
        "unsupported approval_policy_version"
      require (Dict.textAt subject "use_policy" = approvalUsePolicy)
        "unsupported approval use_policy"
      let roles ← Dict.getItem subject "required_role_claims"
      validateSubjectRoles roles
      let textHash := sha256Hex (textDomain ++ Dict.textAt subject "purpose_text")
      require (Dict.textAt subject "purpose_text_hash" = textHash ∧
          Dict.textAt subject "resolution_description_hash" = textHash)
        "approval subject captured purpose text hash mismatch"
      let copy ← canonicalCopy (.obj subject)
      .ok (copy.obj?.getD [])
  | _ => valueError "approval subject must be an exact object"

/-- `approval_subject_hash`. -/
def approvalSubjectHash (subject : Json) : Result String := do
  let value ← validateApprovalSubject subject
  let domain := if value.get? "contract_version" = some (.str legacyApprovalSubjectContractVersion)
    then subjectDomain else sourceSubjectDomain
  approvalDomainHash domain (.obj value)

/-! ## What the checks establish -/

omit [PyUnicode] in
lemma canonicalCopy_eq_ok {v w : Json} (hwf : v.WF) :
    canonicalCopy v = .ok w ↔ v.isFinite = true ∧ w = v := by
  simp only [canonicalCopy, bind_eq_ok]
  constructor
  · rintro ⟨text, htext, hload⟩
    rw [loads_dumps ⟨false⟩ hwf htext] at hload
    exact ⟨(dumps_eq_ok.mp htext).1, (Except.ok.inj hload).symm⟩
  · rintro ⟨hfinite, rfl⟩
    have htext := dumps_eq_ok.mpr ⟨hfinite, rfl⟩
    exact ⟨_, htext, loads_dumps ⟨false⟩ hwf htext⟩

/-- A validated subject is the subject itself, with its purpose, its scope and its roles. -/
structure AcceptedSubject (subject : Dict) : Prop where
  purpose : subject.textAt "purpose_code" = approvalPurposeCode
  scope : subject.textAt "scope_code" = approvalScopeCode
  roles : subject.textsAt "required_role_claims" = approvalRequiredRoleClaims
  finite : (Json.obj subject).isFinite = true

theorem acceptedSubject_of_validate {subject : Json} {value : Dict} (hwf : subject.WF)
    (h : validateApprovalSubject subject = .ok value) :
    subject = .obj value ∧ AcceptedSubject value := by
  cases subject with
  | obj d =>
      simp only [validateApprovalSubject, bind_eq_ok, exists_unit, require_eq_ok,
        Dict.getItem_eq_ok, canonicalCopy_eq_ok hwf, Except.ok.injEq] at h
      obtain ⟨keys, -, -, -, -, -, -, hpurpose, hscope, -, -, roles, hget, hroles, -, copy,
        ⟨hfinite, rfl⟩, rfl⟩ := h
      refine ⟨rfl, hpurpose, hscope, ?_, hfinite⟩
      cases roles with
      | arr items =>
          simp only [validateSubjectRoles, bind_eq_ok, exists_unit, require_eq_ok] at hroles
          obtain ⟨⟨hitems, -⟩, -, hrequired⟩ := hroles
          rw [hrequired] at hitems
          rw [hitems] at hget
          exact Dict.textsAt_eq hget
      | _ => exact absurd hroles valueError_ne_ok
  | _ => exact absurd h valueError_ne_ok

/-- A validated subject is validated again, and has a hash. -/
lemma approvalSubjectHash_of_validate {subject : Json} {value : Dict} (hwf : subject.WF)
    (h : validateApprovalSubject subject = .ok value) :
    approvalSubjectHash subject = approvalSubjectHash (.obj value) := by
  rw [(acceptedSubject_of_validate hwf h).1]

end QualityCI

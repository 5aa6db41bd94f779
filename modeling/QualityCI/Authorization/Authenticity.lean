import QualityCI.Authorization.Records
import QualityCI.Lib.PyRaises

/-!
# Authenticity of authorization records

`authorization_authenticity.py`: a record set is joined with a trust snapshot under one fixed
policy.  The verdict is reached by early exits, first over the snapshot, then over the roles, then
record by record; a context seals the verdict.  Ed25519 is a parameter.

* `snapshotValue`, `signedRecordValue` — the two signed objects, read from their canonical bytes.
* `judgeRecord`, `judgeRecords` — one record, and the loop over all of them.
* `prepareAuthorizationAuthenticityContext` — the sealed verdict.
* `sampleTrust` — the trust snapshot of the fixtures, with the keys of the small pack's issuers.
* **`KeyTexts.accepted`**, **`SamplePack.sealed`** — its keys are accepted, and the verdict on a
  small pack is sealed.
-/

namespace QualityCI

open Py

/-- Ed25519 verification of a signature over a message by a public key. -/
class Ed25519 where
  verify : (publicKey signature message : Bytes) → Bool

/-! ## Constants -/

inductive AuthenticityState
  | pass | contradicted | unverifiable
  deriving DecidableEq, Repr

/-- The string a state is. -/
def AuthenticityState.text : AuthenticityState → String
  | .pass => "PASS"
  | .contradicted => "CONTRADICTED"
  | .unverifiable => "UNVERIFIABLE"

def legacyUnsignedAuthorization : String := "LEGACY_UNSIGNED_AUTHORIZATION"
def authorizationTrustSnapshotContractVersion : String :=
  "qualityci-authorization-trust-snapshot-0.1"
def authorizationTrustPolicyVersion : String := "qualityci-authorization-trust-policy-0.1"
def authorizationAuthenticityContextVersion : String :=
  "qualityci-authorization-authenticity-context-0.1"

def maxAuthorizationTrustSnapshotBytes : ℕ := 256 * 1024
def maxAuthorizationTrustJsonDepth : ℕ := 16

/-- The two roles whose approval a resolution needs. -/
def requiredRoleClaims : List String := ["PROCESS_OWNER", "QUALITY_MANAGER"]

/-- `_FIXED_POLICY`. -/
def fixedPolicy : Dict := Dict.ofList
  [("anchor_id", .str "QUALITYCI_SYNTHETIC_ROOT_2026"),
   ("anchor_public_key", .str "DiGh7dlGivcJqWZ4xpdviGh3cAenSoAPMFUSGqiGamo="),
   ("contract_version", .str authorizationTrustPolicyVersion),
   ("minimum_snapshot_sequence", .int 1), ("required_role_claims", .arr (requiredRoleClaims.map .str)),
   ("signature_algorithm", .str "ED25519"), ("snapshot_id", .str "QCI-SYNTHETIC-TRUST-2026-001"),
   ("trust_domain", .str "QUALITYCI_SYNTHETIC_LOCAL_V1")]

/-- The fields a snapshot shares with the policy. -/
def policyFields : List String := ["anchor_id", "signature_algorithm", "snapshot_id", "trust_domain"]

def snapshotKeys : List String :=
  ["anchor_id", "contract_version", "issued_at", "issuer_keys", "signature", "signature_algorithm",
   "snapshot_id", "snapshot_sequence", "trust_domain"]

def snapshotTextFields : List String :=
  ["snapshot_id", "issued_at", "trust_domain", "anchor_id", "signature_algorithm", "signature"]

def issuerKeyKeys : List String :=
  ["allowed_purpose_codes", "allowed_role_claims", "allowed_scope_codes", "effective_from",
   "expires_at", "issuer_id", "public_key", "revocation_status", "revoked_at",
   "verification_key_id"]

def issuerKeyTextFields : List String :=
  ["issuer_id", "verification_key_id", "public_key", "effective_from", "expires_at",
   "revocation_status"]

def revocationStatuses : List String := ["ACTIVE", "REVOKED", "UNKNOWN"]

/-! ## Reading the signed objects -/

/-- `_strict_base64` of this module. -/
def trustBase64 (value : Json) (label : String) (expectedSize : ℕ) : Result Bytes :=
  base64Field value label expectedSize s!"{label} is not canonical base64"
    s!"{label} has invalid encoded size"

/-- `strict_json_loads(raw.decode("utf-8"))`, whose failures all become one message. -/
def strictUtf8Json (raw : Bytes) (message : String) : Result Json :=
  match decodeUtf8 raw with
  | some text =>
      match parseText ⟨true⟩ text.toList with
      | some value => .ok value
      | none => valueError message
  | none => valueError message

section Readers

variable [PyUnicode]

/-- `_exact_sorted_strings`. -/
def exactSortedStrings (value : Json) (label : String) (allowed : List String) :
    Result (List String) :=
  match value with
  | .arr items => do
      require (items ≠ [] ∧ ∀ item ∈ items, item.isStr = true)
        s!"{label} must be a non-empty exact array"
      let texts ← mapEach (fun item => exactString item label) items
      require (texts = KeySort.sortBy recordOrder texts ∧ (texts.map normalizedIdentity).Nodup)
        s!"{label} must be unique and canonical"
      require (∀ text ∈ texts, text ∈ allowed) s!"{label} contains unsupported capability"
      .ok texts
  | _ => valueError s!"{label} must be a non-empty exact array"

/-- One key of the snapshot, in the loop over them. -/
def validateIssuerKey (snapshotIssuedAt : ℕ) (item : Dict) : Result Unit := do
  forEach (fun field => exactField item field s!"authorization issuer key {field}")
    issuerKeyTextFields
  let publicKey ← item.getItem "public_key"
  let _ ← trustBase64 publicKey "authorization issuer public_key" 32
  let roles ← item.getItem "allowed_role_claims"
  let _ ← exactSortedStrings roles "authorization issuer allowed_role_claims" requiredRoleClaims
  let purposes ← item.getItem "allowed_purpose_codes"
  let _ ← exactSortedStrings purposes "authorization issuer allowed_purpose_codes"
    [authorizationPurposeCode]
  let scopes ← item.getItem "allowed_scope_codes"
  let _ ← exactSortedStrings scopes "authorization issuer allowed_scope_codes"
    [authorizationScopeCode]
  let effective ← item.getItem "effective_from"
  let effective ← parseRfc3339Utc effective "authorization issuer key effective_from"
  let expires ← item.getItem "expires_at"
  let expires ← parseRfc3339Utc expires "authorization issuer key expires_at"
  require (effective ≤ expires) "authorization issuer key static UTC window is reversed"
  require (item.textAt "revocation_status" ∈ revocationStatuses)
    "authorization issuer key revocation_status is unsupported"
  let revokedAt ← item.getItem "revoked_at"
  if item.textAt "revocation_status" = "REVOKED" then do
    let revoked ← parseRfc3339Utc revokedAt "authorization issuer key revoked_at"
    require (revoked ≤ snapshotIssuedAt) "authorization issuer revocation occurs after snapshot"
  else
    require (revokedAt = .null) "non-revoked authorization issuer key must have null revoked_at"

/-- An entry of the snapshot's keys. -/
def IsIssuerKey (item : Json) : Prop := ∃ d, item = .obj d ∧ HasExactKeys d issuerKeyKeys

instance (item : Json) : Decidable (IsIssuerKey item) :=
  match item with
  | .obj d => decidable_of_iff (HasExactKeys d issuerKeyKeys) (by simp [IsIssuerKey])
  | .null | .bool _ | .int _ | .float _ | .arr _ | .str _ => isFalse (by simp [IsIssuerKey])

/-- `_snapshot_value`. -/
def snapshotValue (raw : Bytes) : Result Dict := do
  require (raw ≠ [] ∧ raw.length ≤ maxAuthorizationTrustSnapshotBytes)
    "authorization trust snapshot requires bounded exact immutable bytes"
  let value ← strictUtf8Json raw "authorization trust snapshot is not strict UTF-8 JSON"
  match value with
  | .obj snapshot => do
      require (HasExactKeys snapshot snapshotKeys)
        "authorization trust snapshot has unsupported root shape"
      require (jsonDepth (.obj snapshot) ≤ maxAuthorizationTrustJsonDepth)
        "authorization trust snapshot exceeds JSON depth limit"
      let canonical ← canonicalBytes (.obj snapshot)
      require (raw = canonical) "authorization trust snapshot must be canonical JSON"
      require (Dict.get? snapshot "contract_version" =
          some (.str authorizationTrustSnapshotContractVersion))
        "unsupported authorization trust snapshot contract_version"
      forEach (fun field => exactField snapshot field s!"authorization trust snapshot {field}")
        snapshotTextFields
      let sequence ← Dict.getItem snapshot "snapshot_sequence"
      let _ ← exactPositiveInt sequence "authorization trust snapshot_sequence"
      let issuedAt ← Dict.getItem snapshot "issued_at"
      let issuedAt ← parseRfc3339Utc issuedAt "authorization trust snapshot issued_at"
      require (Dict.textAt snapshot "signature_algorithm" = "ED25519")
        "authorization trust snapshot signature_algorithm is unsupported"
      let signature ← Dict.getItem snapshot "signature"
      let _ ← trustBase64 signature "authorization trust snapshot signature" 64
      let items ← Dict.getItem snapshot "issuer_keys"
      match items with
      | .arr items => do
          require (items.length = 2 ∧ ∀ item ∈ items, IsIssuerKey item)
            "authorization trust snapshot issuer_keys has unsupported shape"
          forEach (validateIssuerKey issuedAt) (items.filterMap Json.obj?)
          .ok snapshot
      | _ => valueError "authorization trust snapshot issuer_keys has unsupported shape"
  | _ => valueError "authorization trust snapshot has unsupported root shape"

omit [PyUnicode] in
/-- `_signed_record_value`. -/
def signedRecordValue (raw : Bytes) : Result Dict := do
  let value ← strictUtf8Json raw "signed authorization record is not strict UTF-8 JSON"
  match value with
  | .obj record => do
      require (HasExactKeys record signedRecordKeys)
        "signed authorization record has unsupported root shape"
      let canonical ← canonicalBytes (.obj record)
      require (raw = canonical) "signed authorization record must be canonical JSON"
      forEach (fun field => exactField record field s!"signed authorization record {field}")
        signedRecordKeys
      require (Dict.textAt record "contract_version" = signedAuthorizationRecordContractVersion)
        "unsupported signed authorization record contract_version"
      require (Dict.textAt record "signature_algorithm" = "ED25519")
        "signed authorization record signature_algorithm is unsupported"
      let signature ← Dict.getItem record "signature"
      let _ ← trustBase64 signature "signed authorization record signature" 64
      .ok record
  | _ => valueError "signed authorization record has unsupported root shape"

/-! ## Signatures -/

omit [PyUnicode] in
/-- `_verify_ed25519`. -/
def verifyEd25519 [Ed25519] (publicKey signature : Json) (message : Bytes) : Result Bool := do
  let publicKey ← trustBase64 publicKey "authorization public_key" 32
  let signature ← trustBase64 signature "authorization signature" 64
  .ok (Ed25519.verify publicKey signature message)

omit [PyUnicode] in
/-- A domain and the canonical bytes of an object without its signature. -/
def signedMessage (domain : String) (value : Dict) : Result Bytes := do
  let canonical ← canonicalBytes (.obj (value.erase "signature"))
  .ok (encodeUtf8 domain ++ canonical)

def snapshotDomain : String := "QualityCI/authorization-trust-snapshot/v1\x00"
def recordSignatureDomain : String := "QualityCI/signed-authorization-record/v1\x00"

/-! ## The verdict -/

/-- The state with what supports it. -/
structure AuthenticityVerdict where
  state : AuthenticityState
  reasonCode : String
  authenticated : List AuthorizationRecordClaim := []
  issued : List (String × String) := []
  deriving DecidableEq

/-- `sealed(CONTRADICTED, reason)`. -/
def contradictedFor (reasonCode : String) : AuthenticityVerdict where
  state := .contradicted
  reasonCode := reasonCode

/-- What one pass of the loop over the records finds. -/
inductive RecordOutcome
  | contradicted (reasonCode : String)
  | pending (reasonCode : String)
  | authentic (issuedAt : String)
  deriving DecidableEq

/-- The issuer and key that an object names. -/
def signerOf (value : Dict) : String × String :=
  (value.textAt "issuer_id", value.textAt "verification_key_id")

/-- The keys of a snapshot. -/
def issuerKeysOf (snapshot : Dict) : List Dict := snapshot.rowsAt "issuer_keys"

/-- `keys.get(…)`, the last key of an identity winning. -/
def issuerKeyOf (snapshot : Dict) (signer : String × String) : Option Dict :=
  ((issuerKeysOf snapshot).filter fun key => decide (signerOf key = signer)).getLast?

omit [PyUnicode] in
/-- One pass of the loop over the records. -/
def judgeRecord [Ed25519] (snapshot : Dict) (recordId : String) (value : Dict) :
    Result RecordOutcome :=
  if value.textAt "record_id" ≠ recordId ∨
      value.textAt "trust_domain" ≠ snapshot.textAt "trust_domain" then
    .ok (.contradicted "AUTHORIZATION_RECORD_TRUST_JOIN_MISMATCH")
  else
    match issuerKeyOf snapshot (signerOf value) with
    | none => .ok (.pending "AUTHORIZATION_ISSUER_KEY_NOT_FOUND")
    | some key =>
        if key.textAt "revocation_status" = "REVOKED" then
          .ok (.contradicted "AUTHORIZATION_ISSUER_KEY_REVOKED")
        else if key.textAt "revocation_status" = "UNKNOWN" then
          .ok (.pending "AUTHORIZATION_ISSUER_KEY_STATUS_UNKNOWN")
        else if value.textAt "role_claim" ∉ key.textsAt "allowed_role_claims" ∨
            value.textAt "purpose_code" ∉ key.textsAt "allowed_purpose_codes" ∨
            value.textAt "scope_code" ∉ key.textsAt "allowed_scope_codes" then
          .ok (.contradicted "AUTHORIZATION_ISSUER_CAPABILITY_MISMATCH")
        else do
          let keyFrom ← parseRfc3339Utc (key.getD "effective_from" .null) "issuer effective_from"
          let keyUntil ← parseRfc3339Utc (key.getD "expires_at" .null) "issuer expires_at"
          let recordFrom ←
            parseRfc3339Utc (value.getD "effective_from" .null) "record effective_from"
          let recordIssued ← parseRfc3339Utc (value.getD "issued_at" .null) "record issued_at"
          let recordUntil ← parseRfc3339Utc (value.getD "expires_at" .null) "record expires_at"
          if ¬(keyFrom ≤ recordFrom ∧ recordFrom ≤ recordIssued ∧ recordIssued ≤ recordUntil ∧
              recordUntil ≤ keyUntil) then
            .ok (.contradicted "AUTHORIZATION_STATIC_WINDOW_MISMATCH")
          else do
            let message ← signedMessage recordSignatureDomain value
            let valid ← verifyEd25519 (key.getD "public_key" .null) (value.getD "signature" .null)
              message
            if valid = false then .ok (.contradicted "AUTHORIZATION_RECORD_SIGNATURE_INVALID")
            else .ok (.authentic (value.textAt "issued_at"))

/-- The loop over the records: a contradiction ends it, what is pending is kept to the end. -/
def judgeRecords [Ed25519] (snapshot : Dict) (authenticated : List AuthorizationRecordClaim) :
    List (String × Dict) → Option String → List (String × String) → Result AuthenticityVerdict
  | [], some reasonCode, _ => .ok ⟨.unverifiable, reasonCode, [], []⟩
  | [], none, issued =>
      .ok ⟨.pass, AuthenticityState.pass.text, authenticated,
        KeySort.sortBy (fun pair => [pair.1, pair.2]) issued⟩
  | (recordId, value) :: rest, pending, issued => do
      match ← judgeRecord snapshot recordId value with
      | .contradicted reasonCode => .ok (contradictedFor reasonCode)
      | .pending reasonCode => judgeRecords snapshot authenticated rest (some reasonCode) issued
      | .authentic issuedAt =>
          judgeRecords snapshot authenticated rest pending (issued ++ [(recordId, issuedAt)])

/-- The signers of the snapshot's keys, under both readings. -/
def DistinctSigners (snapshot : Dict) : Prop :=
  ((issuerKeysOf snapshot).map signerOf).Nodup ∧
    ((issuerKeysOf snapshot).map fun key =>
      (normalizedIdentity (signerOf key).1, normalizedIdentity (signerOf key).2)).Nodup

instance (snapshot : Dict) : Decidable (DistinctSigners snapshot) :=
  inferInstanceAs (Decidable (_ ∧ _))

/-- The early exits of `prepare_authorization_authenticity_context` for a signed set. -/
def authenticityVerdict [Ed25519] (bundle : AuthorizationRecordBundle)
    (records : List AuthorizationRecordClaim) (snapshot : Dict) : Result AuthenticityVerdict :=
  if ∃ field ∈ policyFields, snapshot.textAt field ≠ fixedPolicy.textAt field then
    .ok (contradictedFor "TRUST_SNAPSHOT_POLICY_MISMATCH")
  else if intAt snapshot "snapshot_sequence" < intAt fixedPolicy "minimum_snapshot_sequence" then
    .ok (contradictedFor "TRUST_SNAPSHOT_SEQUENCE_MISMATCH")
  else if ¬DistinctSigners snapshot then
    .ok (contradictedFor "TRUST_SNAPSHOT_ISSUER_IDENTITY_CONFLICT")
  else do
    let message ← signedMessage snapshotDomain snapshot
    let anchored ← verifyEd25519 (fixedPolicy.getD "anchor_public_key" .null)
      (snapshot.getD "signature" .null) message
    if anchored = false then .ok (contradictedFor "TRUST_SNAPSHOT_SIGNATURE_INVALID")
    else do
      -- the members' identities are distinct, so the dictionary of their values is this list
      let values ← mapEach (fun member => signedRecordValue member.rawBytes) bundle.members
      if KeySort.sortBy recordOrder (values.map fun value => value.textAt "role_claim") ≠
          fixedPolicy.textsAt "required_role_claims" then
        .ok (contradictedFor "AUTHORIZATION_ROLE_SET_MISMATCH")
      else
        judgeRecords snapshot records
          ((bundle.members.map AuthorizationRecordMember.recordId).zip values) none []

/-! ## The context -/

structure AuthorizationTrustSnapshotBundle where
  canonicalSnapshotBytes : Bytes
  deriving DecidableEq

structure AuthorizationAuthenticityContext where
  contractVersion : String
  state : AuthenticityState
  reasonCode : String
  recordContext : AuthorizationRecordContext
  trustSnapshotHash : String
  trustSnapshotContractVersion : String
  trustPolicyHash : String
  trustPolicyVersion : String
  authorizationAuthenticityContextHash : String
  authenticatedRecords : List AuthorizationRecordClaim
  signedIssuedAt : List (String × String)
  deriving DecidableEq

/-- The subject of a context's hash. -/
def authenticitySubject (verdict : AuthenticityVerdict)
    (recordContext : AuthorizationRecordContext) (policyHash snapshotHash : String) : Dict :=
  Dict.ofList
    [("authorization_record_set_contract_version", .str recordContext.contractVersion),
     ("authorization_record_set_hash", .str recordContext.recordSetHash),
     ("contract_version", .str authorizationAuthenticityContextVersion),
     ("reason_code", .str verdict.reasonCode), ("state", .str verdict.state.text),
     ("trust_policy_hash", .str policyHash),
     ("trust_policy_version", .str authorizationTrustPolicyVersion),
     ("trust_snapshot_contract_version", .str authorizationTrustSnapshotContractVersion),
     ("trust_snapshot_hash", .str snapshotHash)]

/-- `AuthorizationAuthenticityContext(…)`. -/
def sealAuthenticity (verdict : AuthenticityVerdict) (recordContext : AuthorizationRecordContext)
    (snapshotHash : String) : Result AuthorizationAuthenticityContext := do
  require (isLowerSha snapshotHash = true) "trust_snapshot_hash must be a lowercase SHA-256"
  let policy ← dumps (.obj fixedPolicy)
  let policyHash := sha256Hex ("QualityCI/authorization-trust-policy/v1\x00" ++ policy)
  let subject ← dumps (.obj (authenticitySubject verdict recordContext policyHash snapshotHash))
  .ok
    { contractVersion := authorizationAuthenticityContextVersion
      state := verdict.state
      reasonCode := verdict.reasonCode
      recordContext := recordContext
      trustSnapshotHash := snapshotHash
      trustSnapshotContractVersion := authorizationTrustSnapshotContractVersion
      trustPolicyHash := policyHash
      trustPolicyVersion := authorizationTrustPolicyVersion
      authorizationAuthenticityContextHash :=
        sha256Hex ("QualityCI/authorization-authenticity-context/v1\x00" ++ subject)
      authenticatedRecords := verdict.authenticated
      signedIssuedAt := verdict.issued }

/-- `prepare_authorization_authenticity_context`. -/
def prepareAuthorizationAuthenticityContext [Ed25519] (bundle : AuthorizationRecordBundle)
    (trustSnapshot : AuthorizationTrustSnapshotBundle) :
    Result AuthorizationAuthenticityContext := do
  let recordContext ← prepareAuthorizationRecordContext bundle
  let snapshot ← snapshotValue trustSnapshot.canonicalSnapshotBytes
  let snapshotHash := sha256Bytes
    (encodeUtf8 "QualityCI/authorization-trust-snapshot-hash/v1\x00" ++
      trustSnapshot.canonicalSnapshotBytes)
  if recordContext.contractVersion = authorizationRecordSetVersion then
    sealAuthenticity ⟨.unverifiable, legacyUnsignedAuthorization, [], []⟩ recordContext snapshotHash
  else do
    require (recordContext.contractVersion = signedAuthorizationRecordSetVersion)
      "unsupported authorization record set at authenticity boundary"
    let verdict ← authenticityVerdict bundle recordContext.records snapshot
    sealAuthenticity verdict recordContext snapshotHash

end Readers

/-! ## The trust snapshot of the small pack -/

open Json

lemma strictUtf8Json_textOf {d : Dict} (hwf : (Json.obj d).WF)
    (hfinite : (Json.obj d).isFinite = true) (message : String) :
    strictUtf8Json (encodeUtf8 (textOf d)) message = .ok (.obj d) := by
  have hload := loads_dumps ⟨true⟩ hwf (dumps_textOf hfinite)
  rw [strictUtf8Json, decodeUtf8_encodeUtf8]
  unfold loads at hload
  split at hload
  · rename_i v hv
    simp only [hv]
    exact hload
  · exact absurd hload valueError_ne_ok

namespace RecordTexts

variable (t : RecordTexts)

/-- The record as the trust layer reads it. -/
theorem signed : signedRecordValue (encodeUtf8 (textOf t.record)) = .ok t.record := by
  obtain ⟨raw, hraw⟩ : ∃ raw, trustBase64 (.str t.signature)
    "signed authorization record signature" 64 = .ok raw :=
      base64Field_succeeds t.signature_wire t.decodes ..
  have hget := t.get?
  simp only [List.forall_mem_cons, List.not_mem_nil, false_implies, implies_true, and_true] at hget
  simp only [signedRecordValue, bind_eq_ok]
  refine ⟨_, strictUtf8Json_textOf t.wf t.finite _, ?_⟩
  simp only [bind_eq_ok, exists_unit, require_eq_ok, canonicalBytes_textOf t.finite,
    Except.ok.injEq, exists_eq_left', forEach_eq_ok, exactField_eq_ok, Dict.getItem_eq_ok,
    Dict.textAt, hget, Option.some.injEq, Option.bind_some, Json.str?, Option.getD_some, hraw]
  exact ⟨t.exactKeys, trivial, t.texts, trivial, trivial, trivial⟩

end RecordTexts

/-- The key of an issuer for one role. -/
def sampleKey (role issuer publicKey keyId : String) : Dict := Dict.ofList
  [("allowed_purpose_codes", .arr [.str authorizationPurposeCode]),
   ("allowed_role_claims", .arr [.str role]),
   ("allowed_scope_codes", .arr [.str authorizationScopeCode]),
   ("effective_from", .str "2023-01-01T00:00:00Z"), ("expires_at", .str "2030-01-01T00:00:00Z"),
   ("issuer_id", .str issuer), ("public_key", .str publicKey),
   ("revocation_status", .str "ACTIVE"), ("revoked_at", .null), ("verification_key_id", .str keyId)]

def ownerKey : Dict :=
  sampleKey "PROCESS_OWNER" "ISSUER-QCI-SYN-PO" "zfR2PV810FNhWir85vMNLApO5CgxElsEX3yhlO9CL7E="
    "KEY-QCI-SYN-PO-001"

def managerKey : Dict :=
  sampleKey "QUALITY_MANAGER" "ISSUER-QCI-SYN-QM" "cEMo82wH5hrLJgC5Pc98k59mPk0z3/CFD6nYlsjiOy0="
    "KEY-QCI-SYN-QM-001"

def sampleSnapshot : Dict := Dict.ofList
  [("anchor_id", .str "QUALITYCI_SYNTHETIC_ROOT_2026"),
   ("contract_version", .str authorizationTrustSnapshotContractVersion),
   ("issued_at", .str "2024-02-02T00:00:00Z"),
   ("issuer_keys", .arr [.obj ownerKey, .obj managerKey]),
   ("signature", .str <|
     "ezLwhIAl8MYCFgO8kKEgRmIOhiBTdyaaLPwwXK3abSaM8tji/uXiYgwFyTlukG5JIKQOb9j9ODQnqmTPvHj4Bg=="),
   ("signature_algorithm", .str "ED25519"), ("snapshot_id", .str "QCI-SYNTHETIC-TRUST-2026-001"),
   ("snapshot_sequence", .int 1), ("trust_domain", .str "QUALITYCI_SYNTHETIC_LOCAL_V1")]

def sampleTrust : AuthorizationTrustSnapshotBundle where
  canonicalSnapshotBytes := encodeUtf8 (textOf sampleSnapshot)

/-- The texts of an issuer's key: wire texts, among them the role's and 32 bytes in base64. -/
structure KeyTexts where
  role : String
  issuer : String
  publicKey : String
  keyId : String
  wire : ∀ text ∈ [role, issuer, publicKey, keyId], IsWireText text
  required : role ∈ requiredRoleClaims
  decodes : (base64Decode publicKey).map (fun raw => (raw.length, base64Encode raw)) =
    some (32, publicKey)

/-- The times of a key are times, in their order, and its status is a wire text. -/
lemma sampleKey_window : (parseTimestamp "2023-01-01T00:00:00Z").isSome = true ∧
    (parseTimestamp "2030-01-01T00:00:00Z").isSome = true ∧
    timeOf "2023-01-01T00:00:00Z" ≤ timeOf "2030-01-01T00:00:00Z" ∧
    IsWireText "2023-01-01T00:00:00Z" ∧ IsWireText "2030-01-01T00:00:00Z" ∧
    IsWireText "ACTIVE" := by
  decide +kernel

lemma exactSortedStrings_singleton [PyUnicode] {text label : String} {allowed : List String}
    (hwire : IsWireText text) (hallowed : text ∈ allowed) :
    exactSortedStrings (.arr [.str text]) label allowed = .ok [text] := by
  have hread : mapEach (fun item => exactString item label) [.str text] = .ok [text] :=
    mapEach_eq_ok.mpr (List.Forall₂.cons (exactString_eq_ok.mpr ⟨rfl, hwire⟩) List.Forall₂.nil)
  simp only [exactSortedStrings, hread, bind_eq_ok, exists_unit, require_eq_ok, Except.ok.injEq,
    exists_eq_left']
  simp [KeySort.sortBy, hallowed, Json.isStr]

namespace KeyTexts

/-- The key with these texts. -/
def key (t : KeyTexts) : Dict := sampleKey t.role t.issuer t.publicKey t.keyId

variable (t : KeyTexts)

lemma wf : (obj t.key).WF := wf_ofList (by simp [WF, ItemsWF])

lemma finite : (obj t.key).isFinite = true :=
  isFinite_ofList (by simp [Json.isFinite, Json.itemsFinite])

lemma depth : jsonDepth (obj t.key) ≤ 4 := jsonDepth_ofList_le (by simp [jsonDepth, itemsDepth])

lemma get? : ∀ e ∈
    [("allowed_purpose_codes", Json.arr [.str authorizationPurposeCode]),
     ("allowed_role_claims", .arr [.str t.role]),
     ("allowed_scope_codes", .arr [.str authorizationScopeCode]),
     ("effective_from", .str "2023-01-01T00:00:00Z"), ("expires_at", .str "2030-01-01T00:00:00Z"),
     ("issuer_id", .str t.issuer), ("public_key", .str t.publicKey),
     ("revocation_status", .str "ACTIVE"), ("revoked_at", .null),
     ("verification_key_id", .str t.keyId)],
    t.key.get? e.1 = some e.2 := by
  intro e he
  rw [key, sampleKey, Dict.get?_ofList (by simp)]
  simp only [List.mem_cons, List.not_mem_nil, or_false] at he
  rcases he with rfl | rfl | rfl | rfl | rfl | rfl | rfl | rfl | rfl | rfl
  all_goals simp [List.lookup_cons]

lemma exactKeys : HasExactKeys t.key issuerKeyKeys :=
  hasExactKeys_ofList (by simp) fun _ => Iff.rfl

lemma signer : signerOf t.key = (t.issuer, t.keyId) := by
  have hget := t.get?
  simp only [List.forall_mem_cons, List.not_mem_nil, false_implies, implies_true, and_true] at hget
  simp [signerOf, Dict.textAt, hget, Json.str?]

lemma accepted [PyUnicode] {snapshotIssuedAt : ℕ} :
    validateIssuerKey snapshotIssuedAt t.key = .ok () := by
  have hwire := t.wire
  have hget := t.get?
  have hfixed := sampleRecord_fixed
  simp only [List.forall_mem_cons, List.not_mem_nil, false_implies, implies_true, and_true]
    at hget hwire hfixed
  obtain ⟨hfrom, huntil, hwindow, hfromText, huntilText, hstatus⟩ := sampleKey_window
  obtain ⟨raw, hraw⟩ : ∃ raw, trustBase64 (.str t.publicKey) "authorization issuer public_key" 32 =
    .ok raw := base64Field_succeeds hwire.2.2.1 t.decodes ..
  have htexts : ∀ field ∈ issuerKeyTextFields, HasWireText t.key field := by
    simp [issuerKeyTextFields, HasWireText, Dict.textAt, hget, Json.str?, hwire, hfromText,
      huntilText, hstatus]
  simp only [validateIssuerKey, bind_eq_ok, exists_unit, require_eq_ok, forEach_eq_ok,
    exactField_eq_ok, Dict.getItem_eq_ok, Dict.textAt, hget, Option.some.injEq, exists_eq_left',
    Option.bind_some, Json.str?, Option.getD_some, hraw, parseRfc3339Utc_str, hfrom, huntil]
  refine ⟨htexts, raw, rfl, _, exactSortedStrings_singleton hwire.1 t.required, _,
    exactSortedStrings_singleton hfixed.2.1 (by simp), _,
    exactSortedStrings_singleton hfixed.2.2.1 (by simp), _, rfl, _, rfl, hwindow,
    by simp [revocationStatuses], ?_⟩
  rw [if_neg (by simp)]
  exact require_eq_ok.mpr trivial

end KeyTexts

def ownerKeyTexts : KeyTexts where
  role := "PROCESS_OWNER"
  issuer := "ISSUER-QCI-SYN-PO"
  publicKey := "zfR2PV810FNhWir85vMNLApO5CgxElsEX3yhlO9CL7E="
  keyId := "KEY-QCI-SYN-PO-001"
  wire := by decide +kernel
  required := by simp [requiredRoleClaims]
  decodes := by decide +kernel

def managerKeyTexts : KeyTexts where
  role := "QUALITY_MANAGER"
  issuer := "ISSUER-QCI-SYN-QM"
  publicKey := "cEMo82wH5hrLJgC5Pc98k59mPk0z3/CFD6nYlsjiOy0="
  keyId := "KEY-QCI-SYN-QM-001"
  wire := by decide +kernel
  required := by simp [requiredRoleClaims]
  decodes := by decide +kernel

lemma ownerKeyTexts_key : ownerKeyTexts.key = ownerKey := rfl

lemma managerKeyTexts_key : managerKeyTexts.key = managerKey := rfl

lemma wf_sampleSnapshot : (obj sampleSnapshot).WF := by
  have howner : (obj ownerKey).WF := ownerKeyTexts.wf
  have hmanager : (obj managerKey).WF := managerKeyTexts.wf
  refine wf_ofList ?_
  simpa [WF, ItemsWF] using And.intro howner hmanager

lemma sampleSnapshot_finite : (obj sampleSnapshot).isFinite = true := by
  refine isFinite_ofList ?_
  simp only [List.forall_mem_cons, List.not_mem_nil, false_implies, implies_true, and_true,
    isFinite_arr]
  exact ⟨rfl, rfl, rfl, ⟨ownerKeyTexts.finite, managerKeyTexts.finite⟩, rfl, rfl, rfl, rfl, rfl⟩

lemma sampleSnapshot_depth : jsonDepth (obj sampleSnapshot) ≤ 6 := by
  have hkeys : jsonDepth (.arr [.obj ownerKey, .obj managerKey]) ≤ 5 := by
    have howner : jsonDepth (.obj ownerKey) ≤ 4 := ownerKeyTexts.depth
    have hmanager : jsonDepth (.obj managerKey) ≤ 4 := managerKeyTexts.depth
    rw [jsonDepth, itemsDepth, itemsDepth, itemsDepth]
    omega
  refine jsonDepth_ofList_le ?_
  simp only [List.forall_mem_cons, List.not_mem_nil, false_implies, implies_true, and_true, hkeys]
  simp [jsonDepth]

lemma sampleSnapshot_get? : ∀ e ∈
    [("anchor_id", Json.str "QUALITYCI_SYNTHETIC_ROOT_2026"),
     ("contract_version", .str authorizationTrustSnapshotContractVersion),
     ("issued_at", .str "2024-02-02T00:00:00Z"),
     ("issuer_keys", .arr [.obj ownerKey, .obj managerKey]),
     ("signature", .str <|
      "ezLwhIAl8MYCFgO8kKEgRmIOhiBTdyaaLPwwXK3abSaM8tji/uXiYgwFyTlukG5JIKQOb9j9ODQnqmTPvHj4Bg=="),
     ("signature_algorithm", .str "ED25519"), ("snapshot_id", .str "QCI-SYNTHETIC-TRUST-2026-001"),
     ("snapshot_sequence", .int 1), ("trust_domain", .str "QUALITYCI_SYNTHETIC_LOCAL_V1")],
    sampleSnapshot.get? e.1 = some e.2 := by
  intro e he
  rw [sampleSnapshot, Dict.get?_ofList (by simp)]
  simp only [List.mem_cons, List.not_mem_nil, or_false] at he
  rcases he with rfl | rfl | rfl | rfl | rfl | rfl | rfl | rfl | rfl
  all_goals simp [List.lookup_cons]

lemma sampleSnapshot_keys : HasExactKeys sampleSnapshot snapshotKeys :=
  hasExactKeys_ofList (by simp) fun _ => Iff.rfl

/-- The snapshot's signature. -/
def snapshotSignature : {text : String // IsWireText text ∧
    (base64Decode text).map (fun raw => (raw.length, base64Encode raw)) = some (64, text)} :=
  ⟨"ezLwhIAl8MYCFgO8kKEgRmIOhiBTdyaaLPwwXK3abSaM8tji/uXiYgwFyTlukG5JIKQOb9j9ODQnqmTPvHj4Bg==",
    by decide +kernel⟩

/-- The key of the anchor. -/
def anchorKey : {text : String // IsWireText text ∧
    (base64Decode text).map (fun raw => (raw.length, base64Encode raw)) = some (32, text)} :=
  ⟨"DiGh7dlGivcJqWZ4xpdviGh3cAenSoAPMFUSGqiGamo=", by decide +kernel⟩

/-- The snapshot's own texts are wire texts, and its time is a time. -/
lemma snapshotTexts_wire : (∀ text ∈ ["QUALITYCI_SYNTHETIC_ROOT_2026", "2024-02-02T00:00:00Z",
    "QCI-SYNTHETIC-TRUST-2026-001"], IsWireText text) ∧
    (parseTimestamp "2024-02-02T00:00:00Z").isSome = true := by
  decide +kernel

lemma sampleSnapshot_bounded :
    0 < (encodeUtf8 (textOf sampleSnapshot)).length ∧
      (encodeUtf8 (textOf sampleSnapshot)).length ≤ maxAuthorizationTrustSnapshotBytes := by
  rw [length_encodeUtf8_textOf]
  decide +kernel

lemma sampleSnapshot_read [PyUnicode] {raw : Bytes}
    (hraw : encodeUtf8 (textOf sampleSnapshot) = raw) : snapshotValue raw = .ok sampleSnapshot := by
  have hbounded := sampleSnapshot_bounded
  have hread := strictUtf8Json_textOf wf_sampleSnapshot sampleSnapshot_finite
    "authorization trust snapshot is not strict UTF-8 JSON"
  have hcanonical := canonicalBytes_textOf sampleSnapshot_finite
  rw [hraw] at hbounded hread hcanonical
  have hget := sampleSnapshot_get?
  have hfixed := sampleRecord_fixed
  have hmanager := managerTexts.wire
  obtain ⟨htexts, hissued⟩ := snapshotTexts_wire
  have hsign := snapshotSignature.2.1
  simp only [List.forall_mem_cons, List.not_mem_nil, false_implies, implies_true, and_true,
    managerTexts, snapshotSignature] at hget hfixed hmanager htexts hsign
  have hwire : ∀ field ∈ snapshotTextFields, HasWireText sampleSnapshot field := by
    simp [snapshotTextFields, HasWireText, Dict.textAt, hget, Json.str?, htexts, hfixed, hmanager,
      hsign]
  obtain ⟨signature, hsignature⟩ := base64Field_succeeds snapshotSignature.2.1 snapshotSignature.2.2
    "authorization trust snapshot signature"
    "authorization trust snapshot signature is not canonical base64"
    "authorization trust snapshot signature has invalid encoded size"
  have hsequence : exactPositiveInt (.int 1) "authorization trust snapshot_sequence" = .ok 1 := rfl
  refine bind_eq_ok.mpr ⟨(), require_eq_ok.mpr ⟨List.ne_nil_of_length_pos hbounded.1,
    hbounded.2⟩, bind_eq_ok.mpr ⟨_, hread, ?_⟩⟩
  simp only [bind_eq_ok, exists_unit, require_eq_ok, hcanonical, Except.ok.injEq, exists_eq_left',
    forEach_eq_ok, exactField_eq_ok, Dict.getItem_eq_ok, Dict.textAt, hget, Option.some.injEq,
    Option.bind_some, Json.str?, Option.getD_some, hsequence, parseRfc3339Utc_str, hissued]
  refine ⟨sampleSnapshot_keys,
    sampleSnapshot_depth.trans (by simp [maxAuthorizationTrustJsonDepth]), trivial, trivial,
    hwire, trivial, signature, hsignature, ⟨rfl, ?_⟩, ?_, trivial⟩
  · exact List.forall_mem_cons.mpr ⟨⟨_, rfl, ownerKeyTexts.exactKeys⟩,
      List.forall_mem_singleton.mpr ⟨_, rfl, managerKeyTexts.exactKeys⟩⟩
  · exact List.forall_mem_cons.mpr ⟨ownerKeyTexts.accepted,
      List.forall_mem_singleton.mpr managerKeyTexts.accepted⟩

section Ascii

attribute [local instance] asciiUnicode

lemma SamplePack.ownerMember_signed (p : SamplePack) :
    signedRecordValue p.ownerMember.rawBytes = .ok p.owner := by
  have hraw : p.ownerMember.rawBytes = encodeUtf8 (textOf p.owner) := by rw [ownerMember]
  rw [hraw, ← p.ownerTexts_record]
  exact p.ownerTexts.signed

lemma managerMember_signed : signedRecordValue managerMember.rawBytes = .ok managerRecord := by
  have hraw : managerMember.rawBytes = encodeUtf8 (textOf managerRecord) := by rw [managerMember]
  rw [hraw, ← managerTexts_record]
  exact managerTexts.signed

/-- Every signature verifies. -/
@[reducible] def acceptingEd25519 : Ed25519 where
  verify _ _ _ := true

attribute [local instance] acceptingEd25519

/-- A key and a signature that decode verify. -/
lemma verifyEd25519_accepts {publicKey signature : String} (hkeyWire : IsWireText publicKey)
    (hkey : (base64Decode publicKey).map (fun raw => (raw.length, base64Encode raw)) =
      some (32, publicKey)) (hsignatureWire : IsWireText signature)
    (hsignature : (base64Decode signature).map (fun raw => (raw.length, base64Encode raw)) =
      some (64, signature)) (message : Bytes) :
    verifyEd25519 (.str publicKey) (.str signature) message = .ok true := by
  obtain ⟨key, hkey⟩ := base64Field_succeeds hkeyWire hkey
    "authorization public_key" "authorization public_key is not canonical base64"
    "authorization public_key has invalid encoded size"
  obtain ⟨raw, hraw⟩ := base64Field_succeeds hsignatureWire hsignature "authorization signature"
    "authorization signature is not canonical base64"
    "authorization signature has invalid encoded size"
  exact bind_eq_ok.mpr ⟨key, hkey, bind_eq_ok.mpr ⟨raw, hraw, rfl⟩⟩

lemma fixedPolicy_get? : ∀ e ∈
    [("anchor_id", Json.str "QUALITYCI_SYNTHETIC_ROOT_2026"),
     ("anchor_public_key", .str "DiGh7dlGivcJqWZ4xpdviGh3cAenSoAPMFUSGqiGamo="),
     ("minimum_snapshot_sequence", .int 1),
     ("required_role_claims", .arr (requiredRoleClaims.map .str)),
     ("signature_algorithm", .str "ED25519"), ("snapshot_id", .str "QCI-SYNTHETIC-TRUST-2026-001"),
     ("trust_domain", .str "QUALITYCI_SYNTHETIC_LOCAL_V1")],
    fixedPolicy.get? e.1 = some e.2 := by
  intro e he
  rw [fixedPolicy, Dict.get?_ofList (by simp)]
  simp only [List.mem_cons, List.not_mem_nil, or_false] at he
  rcases he with rfl | rfl | rfl | rfl | rfl | rfl | rfl
  all_goals simp [List.lookup_cons]

lemma sampleSnapshot_anchored (message : Bytes) :
    verifyEd25519 (fixedPolicy.getD "anchor_public_key" .null)
      (sampleSnapshot.getD "signature" .null) message = .ok true := by
  have hpolicy := fixedPolicy_get?
  have hget := sampleSnapshot_get?
  simp only [List.forall_mem_cons, List.not_mem_nil, false_implies, implies_true, and_true]
    at hpolicy hget
  simp only [Dict.getD, hpolicy, hget, Option.getD_some]
  exact verifyEd25519_accepts anchorKey.2.1 anchorKey.2.2 snapshotSignature.2.1
    snapshotSignature.2.2 message

/-- The issuers of the two keys differ as normalized texts, the roles of the records are the
required ones in their order, and the windows of the keys hold those of the records. -/
lemma sampleTexts_agree :
    normalizedIdentity "ISSUER-QCI-SYN-PO" ≠ normalizedIdentity "ISSUER-QCI-SYN-QM" ∧
      KeySort.sortBy recordOrder ["PROCESS_OWNER", "QUALITY_MANAGER"] = requiredRoleClaims ∧
      timeOf "2023-01-01T00:00:00Z" ≤ timeOf "2024-01-01T00:00:00Z" ∧
      timeOf "2025-01-01T00:00:00Z" ≤ timeOf "2030-01-01T00:00:00Z" := by
  decide +kernel

lemma sampleSnapshot_keysOf :
    issuerKeysOf sampleSnapshot = [ownerKeyTexts.key, managerKeyTexts.key] :=
  Dict.rowsAt_eq (sampleSnapshot_get? ("issuer_keys", _)
    (by simp [ownerKeyTexts_key, managerKeyTexts_key]))

lemma sampleSnapshot_signers : DistinctSigners sampleSnapshot := by
  rw [DistinctSigners, sampleSnapshot_keysOf]
  simp [KeyTexts.signer, ownerKeyTexts, managerKeyTexts, sampleTexts_agree.1]

/-! ### The verdict -/

/-- The verdict on a small pack is that of the loop over its records. -/
lemma SamplePack.verdict_eq (p : SamplePack) (claims : List AuthorizationRecordClaim) :
    authenticityVerdict p.bundle claims sampleSnapshot = judgeRecords sampleSnapshot claims
      [("AUTH-PO-2024-A", p.owner), ("AUTH-QM-2024-A", managerRecord)] none [] := by
  have hpolicy := fixedPolicy_get?
  have hget := sampleSnapshot_get?
  have howner := p.ownerTexts.get?
  have hmanager := managerTexts.get?
  rw [p.ownerTexts_record] at howner
  rw [managerTexts_record] at hmanager
  simp only [List.forall_mem_cons, List.not_mem_nil, false_implies, implies_true, and_true,
    SamplePack.ownerTexts, managerTexts] at hpolicy hget howner hmanager
  have hfields : ¬∃ field ∈ policyFields,
      sampleSnapshot.textAt field ≠ fixedPolicy.textAt field := by
    simp [policyFields, Dict.textAt, hget, hpolicy]
  have hsequence : ¬intAt sampleSnapshot "snapshot_sequence" <
      intAt fixedPolicy "minimum_snapshot_sequence" := by
    simp [intAt, hget, hpolicy]
  have hfinite : (obj (sampleSnapshot.erase "signature")).isFinite = true :=
    isFinite_obj.mpr fun e he =>
      isFinite_obj.mp sampleSnapshot_finite e (List.mem_of_mem_filter he)
  have hvalues : mapEach (fun member => signedRecordValue member.rawBytes) p.bundle.members =
      .ok [p.owner, managerRecord] :=
    mapEach_eq_ok.mpr (List.Forall₂.cons p.ownerMember_signed
      (List.Forall₂.cons managerMember_signed List.Forall₂.nil))
  have hroles : [p.owner, managerRecord].map (fun value => value.textAt "role_claim") =
      ["PROCESS_OWNER", "QUALITY_MANAGER"] := by
    simp [Dict.textAt, howner, hmanager, Json.str?]
  have hrequired : fixedPolicy.textsAt "required_role_claims" = requiredRoleClaims :=
    Dict.textsAt_eq hpolicy.2.2.2.1
  rw [authenticityVerdict, if_neg hfields, if_neg hsequence,
    if_neg (not_not.mpr sampleSnapshot_signers), signedMessage, canonicalBytes_textOf hfinite,
    ok_bind, ok_bind, sampleSnapshot_anchored, ok_bind, if_neg (by simp), hvalues, ok_bind, hroles,
    hrequired, if_neg (not_not.mpr sampleTexts_agree.2.1)]
  rfl

/-- A record of a foreign trust domain contradicts the set before its key is looked at. -/
lemma foreignVerdict (claims : List AuthorizationRecordClaim) :
    authenticityVerdict foreignPack.bundle claims sampleSnapshot =
      .ok (contradictedFor "AUTHORIZATION_RECORD_TRUST_JOIN_MISMATCH") := by
  have hget := sampleSnapshot_get?
  have howner := foreignPack.ownerTexts.get?
  rw [foreignPack.ownerTexts_record] at howner
  simp only [List.forall_mem_cons, List.not_mem_nil, false_implies, implies_true, and_true,
    SamplePack.ownerTexts, foreignPack] at hget howner
  have hdomain : foreignPack.owner.textAt "trust_domain" ≠
      sampleSnapshot.textAt "trust_domain" := by
    simp [foreignPack, Dict.textAt, howner, hget, Json.str?]
  have hjudged : judgeRecord sampleSnapshot "AUTH-PO-2024-A" foreignPack.owner =
      .ok (.contradicted "AUTHORIZATION_RECORD_TRUST_JOIN_MISMATCH") := if_pos (.inr hdomain)
  rw [SamplePack.verdict_eq, judgeRecords, hjudged]
  rfl

/-- A record whose issuer's key is in the snapshot, for its role, is authentic. -/
lemma judgeRecord_authentic {t : RecordTexts} {k : KeyTexts}
    (hdomain : t.trustDomain = "QUALITYCI_SYNTHETIC_LOCAL_V1") (hrole : k.role = t.role)
    (hkey : issuerKeyOf sampleSnapshot (t.issuer, t.keyId) = some k.key) :
    judgeRecord sampleSnapshot t.recordId t.record = .ok (.authentic "2024-01-15T00:00:00Z") := by
  have hget := t.get?
  have hkeyGet := k.get?
  have hsnapshot := sampleSnapshot_get?
  simp only [List.forall_mem_cons, List.not_mem_nil, false_implies, implies_true, and_true]
    at hget hkeyGet hsnapshot
  obtain ⟨hfrom, hissued, huntil, hfirst, hlast⟩ := sampleRecord_window
  obtain ⟨hkeyFrom, hkeyUntil, -⟩ := sampleKey_window
  obtain ⟨-, -, hopens, hcloses⟩ := sampleTexts_agree
  have hsigner : signerOf t.record = (t.issuer, t.keyId) := by
    simp [signerOf, Dict.textAt, hget, Json.str?]
  have hfinite : (obj (t.record.erase "signature")).isFinite = true :=
    isFinite_obj.mpr fun e he => isFinite_obj.mp t.finite e (List.mem_of_mem_filter he)
  have hwire := k.wire
  simp only [List.forall_mem_cons, List.not_mem_nil, false_implies, implies_true, and_true]
    at hwire
  have hjoined : ¬(t.record.textAt "record_id" ≠ t.recordId ∨
      t.record.textAt "trust_domain" ≠ sampleSnapshot.textAt "trust_domain") := by
    simp [Dict.textAt, hget, hsnapshot, Json.str?, hdomain]
  have hactive : k.key.textAt "revocation_status" = "ACTIVE" := by
    simp [Dict.textAt, hkeyGet, Json.str?]
  have hcapable : ¬(t.record.textAt "role_claim" ∉ k.key.textsAt "allowed_role_claims" ∨
      t.record.textAt "purpose_code" ∉ k.key.textsAt "allowed_purpose_codes" ∨
      t.record.textAt "scope_code" ∉ k.key.textsAt "allowed_scope_codes") := by
    simp [Dict.textAt, Dict.textsAt, hget, hkeyGet, Json.str?, Json.arr?, hrole]
  rw [judgeRecord, if_neg hjoined, hsigner, hkey]
  simp only [hactive, if_neg hcapable, Dict.getD, hget, hkeyGet, Option.getD_some,
    parseRfc3339Utc_str, hfrom, hissued, huntil, hkeyFrom, hkeyUntil, ok_bind]
  rw [if_neg (by decide), if_neg (by decide),
    if_neg (not_not.mpr ⟨hopens, hfirst, hlast, hcloses⟩), signedMessage,
    canonicalBytes_textOf hfinite, ok_bind, ok_bind,
    verifyEd25519_accepts hwire.2.2.1 k.decodes t.signature_wire t.decodes, ok_bind,
    if_neg (by decide)]
  simp [Dict.textAt, hget, Json.str?]

lemma fixtureOwner_authentic :
    judgeRecord sampleSnapshot "AUTH-PO-2024-A" fixturePack.owner =
      .ok (.authentic "2024-01-15T00:00:00Z") := by
  have hkey : issuerKeyOf sampleSnapshot ("ISSUER-QCI-SYN-PO", "KEY-QCI-SYN-PO-001") =
      some ownerKeyTexts.key := by
    simp [issuerKeyOf, sampleSnapshot_keysOf, KeyTexts.signer, ownerKeyTexts, managerKeyTexts]
  exact judgeRecord_authentic (t := fixturePack.ownerTexts) rfl rfl hkey

lemma managerRecord_authentic :
    judgeRecord sampleSnapshot "AUTH-QM-2024-A" managerRecord =
      .ok (.authentic "2024-01-15T00:00:00Z") := by
  have hkey : issuerKeyOf sampleSnapshot ("ISSUER-QCI-SYN-QM", "KEY-QCI-SYN-QM-001") =
      some managerKeyTexts.key := by
    simp [issuerKeyOf, sampleSnapshot_keysOf, KeyTexts.signer, ownerKeyTexts, managerKeyTexts]
  exact judgeRecord_authentic (t := managerTexts) rfl rfl hkey

/-- The pack of the fixtures passes, with the signed times of its records. -/
lemma fixtureVerdict (claims : List AuthorizationRecordClaim) :
    authenticityVerdict fixturePack.bundle claims sampleSnapshot =
      .ok ⟨.pass, AuthenticityState.pass.text, claims,
        [("AUTH-PO-2024-A", "2024-01-15T00:00:00Z"),
         ("AUTH-QM-2024-A", "2024-01-15T00:00:00Z")]⟩ := by
  have hsorted : KeySort.sortBy (fun pair : String × String => [pair.1, pair.2])
      [("AUTH-PO-2024-A", "2024-01-15T00:00:00Z"), ("AUTH-QM-2024-A", "2024-01-15T00:00:00Z")] =
      [("AUTH-PO-2024-A", "2024-01-15T00:00:00Z"), ("AUTH-QM-2024-A", "2024-01-15T00:00:00Z")] := by
    decide +kernel
  rw [SamplePack.verdict_eq, judgeRecords, fixtureOwner_authentic, ok_bind]
  simp only [judgeRecords, managerRecord_authentic, ok_bind, List.nil_append, List.cons_append,
    hsorted]

/-! ### The sealed context -/

/-- A small pack whose verdict is known is sealed with it. -/
theorem SamplePack.sealed {p : SamplePack} {verdict : AuthenticityVerdict}
    (hverdict : authenticityVerdict p.bundle (sortClaims p.claims) sampleSnapshot = .ok verdict) :
    ∃ context, prepareAuthorizationAuthenticityContext p.bundle sampleTrust = .ok context ∧
      context.recordContext.contractVersion = signedAuthorizationRecordSetVersion ∧
      context.recordContext.records = sortClaims p.claims ∧ context.state = verdict.state ∧
      context.authenticatedRecords = verdict.authenticated ∧
      context.signedIssuedAt = verdict.issued := by
  obtain ⟨recordContext, hcontext, hsigned, hrecords⟩ := p.prepared
  have hsnapshot : snapshotValue sampleTrust.canonicalSnapshotBytes = .ok sampleSnapshot :=
    sampleSnapshot_read (by rw [sampleTrust])
  have hunsigned : recordContext.contractVersion ≠ authorizationRecordSetVersion := by
    rw [hsigned]
    decide
  obtain ⟨hlength, hhex⟩ := sha256Bytes_chars
    (encodeUtf8 "QualityCI/authorization-trust-snapshot-hash/v1\x00" ++
      sampleTrust.canonicalSnapshotBytes)
  have hpolicy : (Json.obj fixedPolicy).isFinite = true := isFinite_ofList <| by
    simp [Json.isFinite, requiredRoleClaims, Json.itemsFinite]
  have hsubject : ∀ policyHash snapshotHash, (Json.obj (authenticitySubject verdict
      recordContext policyHash snapshotHash)).isFinite = true :=
    fun _ _ => isFinite_ofList (by simp [Json.isFinite])
  have hseal : ∃ context, sealAuthenticity verdict recordContext
      (sha256Bytes (encodeUtf8 "QualityCI/authorization-trust-snapshot-hash/v1\x00" ++
        sampleTrust.canonicalSnapshotBytes)) = .ok context ∧
        context.recordContext = recordContext ∧ context.state = verdict.state ∧
        context.authenticatedRecords = verdict.authenticated ∧
        context.signedIssuedAt = verdict.issued := by
    simp only [sealAuthenticity, bind_eq_ok, exists_unit, require_eq_ok]
    exact ⟨_, ⟨isLowerSha_of_hex hlength hhex, _, dumps_textOf hpolicy, _,
      dumps_textOf (hsubject _ _), rfl⟩, rfl, rfl, rfl, rfl⟩
  obtain ⟨context, hseal, rfl, hsealed⟩ := hseal
  refine ⟨context, ?_, hsigned, hrecords, hsealed⟩
  simp only [prepareAuthorizationAuthenticityContext, bind_eq_ok]
  refine ⟨_, hcontext, _, hsnapshot, ?_⟩
  rw [if_neg hunsigned]
  refine bind_eq_ok.mpr ⟨(), require_eq_ok.mpr hsigned, bind_eq_ok.mpr ⟨_, ?_, hseal⟩⟩
  rw [hrecords]
  exact hverdict

end Ascii

end QualityCI

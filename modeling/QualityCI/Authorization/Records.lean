import QualityCI.Lib.Bytes
import QualityCI.Lib.JsonRoundTrip
import QualityCI.Lib.KeySort
import QualityCI.Loader.Accepted

/-!
# Authorization records

`authorization_records.py`: a manifest and its members are read from their canonical bytes, and the
declarations they make are sealed in a context.  Only a value that `prepareAuthorizationRecordContext`
has returned counts as a sealed context.

* `AuthorizationRecordBundle` — the raw material.
* `validateBundle`, `validateRecord` — what a manifest and a record have to be.
* `prepareAuthorizationRecordContext` — the declarations, in the order of their identities.
* **`recordContext_of_prepare`** — what a prepared context holds.
* `strictJsonBytes_textOf` — an object is read from its canonical bytes.
* `SamplePack`, `fixturePack`, `foreignPack` — the small pack of the fixtures, and the one whose
  process owner is of another trust domain.
* **`RecordTexts.accepted`**, **`SamplePack.prepared`** — its records are accepted, and it is
  prepared.
-/

namespace QualityCI

open Py

/-! ## Constants -/

def authorizationRecordContractVersion : String := "qualityci-authorization-record-0.1"
def authorizationRecordPackVersion : String := "qualityci-authorization-record-pack-0.1"
def authorizationRecordSetVersion : String := "qualityci-authorization-record-set-0.1"
def signedAuthorizationRecordContractVersion : String := "qualityci-authorization-record-0.2"
def signedAuthorizationRecordPackVersion : String := "qualityci-authorization-record-pack-0.2"
def signedAuthorizationRecordSetVersion : String := "qualityci-authorization-record-set-0.2"
def authorizationPurposeCode : String := "APPLY_APPROVED_RESOLUTION"
def authorizationScopeCode : String := "EXACT_SUBJECT"
def authorizationRoleClaims : List String := ["QUALITY_MANAGER", "PROCESS_OWNER"]

def maxAuthorizationMembers : ℕ := 128
def maxAuthorizationMemberBytes : ℤ := 256 * 1024
def maxAuthorizationTotalBytes : ℤ := 4 * 1024 * 1024
def maxAuthorizationJsonDepth : ℕ := 16

def manifestKeys : List String := ["contract_version", "bundle_id", "members"]

def memberKeys : List String :=
  ["record_id", "source_path", "content_hash", "size_bytes", "format"]

/-- The fields of a record that are texts, besides its version. -/
def recordTextFields : List String :=
  ["record_id", "approver_id_claim", "role_claim", "purpose_code", "scope_code", "effective_from",
   "expires_at"]

/-- The further text fields of a signed record. -/
def signedTextFields : List String :=
  ["trust_domain", "issuer_id", "verification_key_id", "issued_at", "signature_algorithm",
   "signature"]

def recordKeys : List String := "contract_version" :: recordTextFields

def signedRecordKeys : List String := recordKeys ++ signedTextFields

/-! ## Strict wire values -/

/-- `set(d) == set(keys)`. -/
def HasExactKeys (d : Dict) (keys : List String) : Prop :=
  (∀ key ∈ d.keys, key ∈ keys) ∧ ∀ key ∈ keys, key ∈ d.keys

instance (d : Dict) (keys : List String) : Decidable (HasExactKeys d keys) :=
  inferInstanceAs (Decidable (_ ∧ _))

/-- `_canonical_bytes`. -/
def canonicalBytes (value : Json) : Result Bytes := do
  let text ← dumps value
  .ok (encodeUtf8 text)

/-- `_exact_string`. -/
def exactString (value : Json) (label : String) : Result String :=
  match value with
  | .str s => do
      require (s ≠ "" ∧ s = strip s) s!"{label} must be an exact non-empty trimmed string"
      require (∀ c ∈ s.toList, 32 ≤ c.toNat) s!"{label} contains control characters"
      .ok s
  | _ => valueError s!"{label} must be an exact non-empty trimmed string"

/-- `_lower_sha`. -/
def lowerSha (value : Json) (label : String) : Result String := do
  let text ← exactString value label
  require (isLowerSha text = true) s!"{label} must be a lowercase SHA-256"
  .ok text

/-- `_exact_positive_int`. -/
def exactPositiveInt (value : Json) (label : String) : Result ℤ :=
  match value with
  | .int n => do
      require (0 < n) s!"{label} must be an exact positive integer"
      .ok n
  | _ => valueError s!"{label} must be an exact positive integer"

/-- The base64 text of a number of bytes, with the messages for text that is not base64 and for
text of another size. -/
def base64Field (value : Json) (label : String) (expectedSize : ℕ)
    (encodingMessage sizeMessage : String) : Result Bytes := do
  let text ← exactString value label
  match base64Decode text with
  | some raw => do
      require (raw.length = expectedSize ∧ base64Encode raw = text) sizeMessage
      .ok raw
  | none => valueError encodingMessage

/-- `_strict_base64`. -/
def strictBase64 (value : Json) (label : String) (expectedSize : ℕ) : Result Bytes :=
  base64Field value label expectedSize s!"{label} must be canonical base64"
    s!"{label} must encode exactly {expectedSize} bytes"

/-- `_canonical_pack_path`. -/
def canonicalPackPath (value : Json) : Result String := do
  let path ← exactString value "authorization source_path"
  require ('\\' ∉ path.toList) "authorization source_path must use canonical '/' separators"
  require (isAbsolutePath path = false ∧ path ∉ [".", ".."] ∧ pathParts path ≠ [] ∧
      (∀ part ∈ pathParts path, part ∉ ["", ".", ".."]) ∧ asPosix path = path)
    "authorization source_path must be a canonical pack-relative path"
  .ok path

mutual

/-- How deep a value nests, a scalar being one level. -/
def jsonDepth : Json → ℕ
  | .arr items => itemsDepth items + 1
  | .obj entries => entriesDepth entries + 1
  | .null | .bool _ | .int _ | .float _ | .str _ => 1

/-- The depth of the deepest member of a list. -/
def itemsDepth : List Json → ℕ
  | [] => 0
  | x :: xs => max (jsonDepth x) (itemsDepth xs)

/-- The depth of the deepest value of a dictionary. -/
def entriesDepth : List (String × Json) → ℕ
  | [] => 0
  | (_, x) :: xs => max (jsonDepth x) (entriesDepth xs)

end

lemma entriesDepth_le {d : Dict} {n : ℕ} : entriesDepth d ≤ n ↔ ∀ e ∈ d, jsonDepth e.2 ≤ n := by
  induction d with
  | nil => simp [entriesDepth]
  | cons e d ih => simp [entriesDepth, ih]

/-- The depth of the dictionary of a literal. -/
lemma jsonDepth_ofList_le {entries : List (String × Json)} {n : ℕ}
    (h : ∀ e ∈ entries, jsonDepth e.2 ≤ n) : jsonDepth (.obj (Dict.ofList entries)) ≤ n + 1 := by
  have hentries : entriesDepth (Dict.ofList entries) ≤ n :=
    entriesDepth_le.mpr fun e he => h e (Dict.mem_ofList he)
  rw [jsonDepth]
  omega

/-- `_strict_json_bytes`. -/
def strictJsonBytes (raw : Bytes) (label : String) : Result Json :=
  match decodeUtf8 raw with
  | some text => do
      let value ← loads ⟨true⟩ text
      require (jsonDepth value ≤ maxAuthorizationJsonDepth)
        s!"{label} JSON nesting exceeds {maxAuthorizationJsonDepth} levels"
      let canonical ← canonicalBytes value
      require (raw = canonical) s!"{label} is not canonical JSON"
      .ok value
  | none => valueError s!"{label} is not UTF-8 JSON"

section Packs

variable [PyUnicode]

/-- `_normalized_unique`. -/
def normalizedUnique (values : List String) (label : String) : Result Unit :=
  require (values.map normalizedIdentity).Nodup s!"duplicate normalized authorization {label}"

/-- The key by which records are ordered. -/
def recordOrder (recordId : String) : List String := [normalizedIdentity recordId, recordId]

/-! ## Bundles and contexts -/

structure AuthorizationRecordMember where
  recordId : String
  filename : String
  contentHash : String
  sizeBytes : ℤ
  rawBytes : Bytes
  deriving DecidableEq

structure AuthorizationRecordBundle where
  canonicalManifestBytes : Bytes
  members : List AuthorizationRecordMember
  deriving DecidableEq

structure AuthorizationRecordClaim where
  recordId : String
  contentHash : String
  approverIdClaim : String
  roleClaim : String
  purposeCode : String
  scopeCode : String
  effectiveFrom : String
  expiresAt : String
  deriving DecidableEq

structure AuthorizationRecordContext where
  contractVersion : String
  bundleId : String
  recordSetHash : String
  records : List AuthorizationRecordClaim
  deriving DecidableEq

/-! ## Validation -/

/-- `record[field]`, an exact string. -/
def exactField (record : Dict) (field label : String) : Result Unit := do
  let value ← record.getItem field
  let _ ← exactString value label
  .ok ()

/-- `_validate_record`. -/
def validateRecord (raw : Bytes) (expectedRecordId expectedContractVersion : String) :
    Result Dict := do
  let value ← strictJsonBytes raw s!"authorization record {expectedRecordId}"
  let expectedKeys := if expectedContractVersion = signedAuthorizationRecordContractVersion then
    signedRecordKeys else recordKeys
  match value with
  | .obj record => do
      require (HasExactKeys record expectedKeys) "authorization record has unsupported claim shape"
      require (Dict.get? record "contract_version" = some (.str expectedContractVersion))
        "unsupported authorization record version"
      forEach (fun field => exactField record field s!"authorization record {field}")
        recordTextFields
      whenever (expectedContractVersion = signedAuthorizationRecordContractVersion) do
        forEach (fun field => exactField record field s!"authorization record {field}")
          signedTextFields
        require (Dict.textAt record "signature_algorithm" = "ED25519")
          "authorization record signature_algorithm is unsupported"
        let signature ← Dict.getItem record "signature"
        let _ ← strictBase64 signature "authorization record signature" 64
        .ok ()
      require (Dict.textAt record "record_id" = expectedRecordId)
        "authorization record_id differs from manifest foreign key"
      require (Dict.textAt record "role_claim" ∈ authorizationRoleClaims)
        "authorization record role_claim is unsupported"
      require (Dict.textAt record "purpose_code" = authorizationPurposeCode)
        "authorization record purpose_code is unsupported"
      require (Dict.textAt record "scope_code" = authorizationScopeCode)
        "authorization record scope_code is unsupported"
      let effectiveFrom ← Dict.getItem record "effective_from"
      let effectiveFrom ← parseRfc3339Utc effectiveFrom "authorization record effective_from"
      let expiresAt ← Dict.getItem record "expires_at"
      let expiresAt ← parseRfc3339Utc expiresAt "authorization record expires_at"
      require (effectiveFrom ≤ expiresAt) "authorization record static UTC window is reversed"
      whenever (expectedContractVersion = signedAuthorizationRecordContractVersion) do
        let issuedAt ← Dict.getItem record "issued_at"
        let issuedAt ← parseRfc3339Utc issuedAt "authorization record issued_at"
        require (effectiveFrom ≤ issuedAt ∧ issuedAt ≤ expiresAt)
          "authorization record issued_at is outside its static UTC window"
      .ok record
  | _ => valueError "authorization record has unsupported claim shape"

/-- The version of the records of a pack. -/
def recordVersionOf (packVersion : String) : String :=
  if packVersion = signedAuthorizationRecordPackVersion then
    signedAuthorizationRecordContractVersion
  else authorizationRecordContractVersion

/-- The version of the set that a pack makes. -/
def setVersionOf (packVersion : String) : String :=
  if packVersion = signedAuthorizationRecordPackVersion then signedAuthorizationRecordSetVersion
  else authorizationRecordSetVersion

/-- An entry of a manifest's members. -/
def IsMemberSpec (spec : Json) : Prop := ∃ d, spec = .obj d ∧ HasExactKeys d memberKeys

instance (spec : Json) : Decidable (IsMemberSpec spec) :=
  match spec with
  | .obj d => decidable_of_iff (HasExactKeys d memberKeys) (by simp [IsMemberSpec])
  | .null | .bool _ | .int _ | .float _ | .arr _ | .str _ => isFalse (by simp [IsMemberSpec])

/-- One entry of the manifest, in the loop over them. -/
def validateSpec (spec : Dict) : Result Unit := do
  exactField spec "record_id" "authorization manifest record_id"
  let path ← spec.getItem "source_path"
  let _ ← canonicalPackPath path
  let hash ← spec.getItem "content_hash"
  let _ ← lowerSha hash "authorization manifest content_hash"
  let size ← spec.getItem "size_bytes"
  let size ← exactPositiveInt size "authorization manifest size_bytes"
  require (size ≤ maxAuthorizationMemberBytes) "authorization manifest member exceeds byte limit"
  require (spec.get? "format" = some (.str "JSON"))
    "authorization manifest member format is unsupported"

/-- `value[key]` of an integer. -/
def intAt (d : Dict) (key : String) : ℤ :=
  match d.get? key with
  | some (.int n) => n
  | _ => 0

/-- One member against its entry of the manifest. -/
def validateMember (members : List AuthorizationRecordMember) (recordVersion : String)
    (spec : Dict) : Result Unit :=
  match members.find? fun member => member.recordId = spec.textAt "record_id" with
  | some member => do
      require (member.filename = spec.textAt "source_path" ∧
          member.contentHash = spec.textAt "content_hash" ∧
          member.sizeBytes = intAt spec "size_bytes")
        "authorization member identity differs from manifest"
      let _ ← validateRecord member.rawBytes (spec.textAt "record_id") recordVersion
      .ok ()
  | none => keyError (spec.textAt "record_id")

/-- `_validate_bundle`. -/
def validateBundle (bundle : AuthorizationRecordBundle) : Result Dict := do
  let value ← strictJsonBytes bundle.canonicalManifestBytes "authorization manifest"
  match value with
  | .obj manifest => do
      require (HasExactKeys manifest manifestKeys)
        "authorization manifest has unsupported root shape"
      let packVersion := Dict.textAt manifest "contract_version"
      require (Dict.get? manifest "contract_version" = some (.str packVersion) ∧
          packVersion ∈ [authorizationRecordPackVersion, signedAuthorizationRecordPackVersion])
        "unsupported authorization record pack version"
      exactField manifest "bundle_id" "authorization manifest bundle_id"
      let items ← Dict.getItem manifest "members"
      match items with
      | .arr items => do
          require (items ≠ [] ∧ items.length ≤ maxAuthorizationMembers ∧
              ∀ spec ∈ items, IsMemberSpec spec)
            "authorization manifest members have unsupported shape"
          let specs := items.filterMap Json.obj?
          forEach validateSpec specs
          require ((specs.map fun spec => intAt spec "size_bytes").sum ≤ maxAuthorizationTotalBytes)
            "authorization manifest exceeds total byte limit"
          normalizedUnique (specs.map fun spec => spec.textAt "record_id") "manifest record_id"
          normalizedUnique (specs.map fun spec => spec.textAt "source_path") "manifest source_path"
          let sorted := KeySort.sortBy (fun spec => recordOrder (Dict.textAt spec "record_id")) specs
          let canonical : Dict := Dict.ofList
            [("bundle_id", Dict.getD manifest "bundle_id" .null),
             ("contract_version", .str packVersion), ("members", .arr (sorted.map .obj))]
          let canonicalText ← canonicalBytes (.obj canonical)
          require (bundle.canonicalManifestBytes = canonicalText)
            "authorization manifest is not canonical"
          let recordIds := bundle.members.map AuthorizationRecordMember.recordId
          require (recordIds.Nodup ∧ (∀ id ∈ recordIds, id ∈ specs.map (Dict.textAt · "record_id")) ∧
              ∀ spec ∈ specs, spec.textAt "record_id" ∈ recordIds)
            "authorization members differ from manifest"
          normalizedUnique recordIds "member record_id"
          normalizedUnique (bundle.members.map AuthorizationRecordMember.filename)
            "member source_path"
          forEach (validateMember bundle.members (recordVersionOf packVersion)) specs
          .ok canonical
      | _ => valueError "authorization manifest members have unsupported shape"
  | _ => valueError "authorization manifest has unsupported root shape"

/-! ## The context -/

/-- What one member declares. -/
def claimOf (member : AuthorizationRecordMember) (record : Dict) : AuthorizationRecordClaim where
  recordId := record.textAt "record_id"
  contentHash := member.contentHash
  approverIdClaim := record.textAt "approver_id_claim"
  roleClaim := record.textAt "role_claim"
  purposeCode := record.textAt "purpose_code"
  scopeCode := record.textAt "scope_code"
  effectiveFrom := record.textAt "effective_from"
  expiresAt := record.textAt "expires_at"

/-- One pass of the loop over the members. -/
def memberClaim (manifest : Dict) (recordVersion : String) (member : AuthorizationRecordMember) :
    Result AuthorizationRecordClaim := do
  let record ← validateRecord member.rawBytes member.recordId recordVersion
  match (manifest.rowsAt "members").find? fun spec => spec.textAt "record_id" = member.recordId with
  | some spec => do
      require (member.contentHash = spec.textAt "content_hash" ∧
          member.sizeBytes = intAt spec "size_bytes")
        "authorization captured bytes differ from manifest"
      .ok (claimOf member record)
  | none => keyError member.recordId

/-- The claims in the order of their identities. -/
def sortClaims (claims : List AuthorizationRecordClaim) : List AuthorizationRecordClaim :=
  KeySort.sortBy (fun claim => recordOrder claim.recordId) claims

/-- The subject of a record set's hash. -/
def recordSetSubject (manifest : Dict) (packVersion : String)
    (claims : List AuthorizationRecordClaim) : Dict :=
  Dict.ofList
    [("bundle_id", manifest.getD "bundle_id" .null),
     ("contract_version", .str (setVersionOf packVersion)),
     ("members", .arr (claims.map fun claim => .obj (Dict.ofList
       [("content_hash", .str claim.contentHash), ("record_id", .str claim.recordId)]))),
     ("pack_contract_version", .str packVersion),
     ("record_contract_version", .str (recordVersionOf packVersion))]

/-- `prepare_authorization_record_context`. -/
def prepareAuthorizationRecordContext (bundle : AuthorizationRecordBundle) :
    Result AuthorizationRecordContext := do
  let manifest ← validateBundle bundle
  let packVersion := manifest.textAt "contract_version"
  let claims ← mapEach (memberClaim manifest (recordVersionOf packVersion)) bundle.members
  let claims := sortClaims claims
  let subject ← dumps (.obj (recordSetSubject manifest packVersion claims))
  .ok
    { contractVersion := setVersionOf packVersion
      bundleId := manifest.textAt "bundle_id"
      recordSetHash := sha256Hex ("QualityCI/authorization-record-set/v1\x00" ++ subject)
      records := claims }

/-! ## What the checks establish -/

/-- A text that the wire admits: nothing around it, no control characters in it. -/
structure IsWireText (s : String) : Prop where
  nonempty : s ≠ ""
  stripped : s = strip s
  printable : ∀ c ∈ s.toList, 32 ≤ c.toNat

instance (s : String) : Decidable (IsWireText s) :=
  decidable_of_iff (s ≠ "" ∧ s = strip s ∧ ∀ c ∈ s.toList, 32 ≤ c.toNat)
    ⟨fun h => ⟨h.1, h.2.1, h.2.2⟩, fun h => ⟨h.nonempty, h.stripped, h.printable⟩⟩

/-- The moment a text names. -/
def timeOf (text : String) : ℕ := ((parseTimestamp text).map instantOrder).getD 0

/-- The field holds a wire text. -/
def HasWireText (d : Dict) (key : String) : Prop :=
  d.get? key = some (.str (d.textAt key)) ∧ IsWireText (d.textAt key)

omit [PyUnicode] in
@[simp] lemma exactString_eq_ok {v : Json} {label s : String} :
    exactString v label = .ok s ↔ v = .str s ∧ IsWireText s := by
  cases v with
  | str t =>
      simp only [exactString, seq_eq_ok, require_eq_ok, Except.ok.injEq, Json.str.injEq]
      constructor
      · rintro ⟨⟨hne, hstrip⟩, hchars, rfl⟩
        exact ⟨rfl, hne, hstrip, hchars⟩
      · rintro ⟨rfl, hne, hstrip, hchars⟩
        exact ⟨⟨hne, hstrip⟩, hchars, rfl⟩
  | _ => simp [exactString]

omit [PyUnicode] in
@[simp] lemma lowerSha_eq_ok {v : Json} {label s : String} :
    lowerSha v label = .ok s ↔ v = .str s ∧ IsWireText s ∧ isLowerSha s = true := by
  simp only [lowerSha, bind_eq_ok, exists_unit, exactString_eq_ok, require_eq_ok, Except.ok.injEq]
  constructor
  · rintro ⟨t, ⟨rfl, ht⟩, hsha, rfl⟩
    exact ⟨rfl, ht, hsha⟩
  · rintro ⟨rfl, ht, hsha⟩
    exact ⟨s, ⟨rfl, ht⟩, hsha, rfl⟩

omit [PyUnicode] in
lemma exactField_eq_ok {d : Dict} {field label : String} {u : Unit} :
    exactField d field label = .ok u ↔ HasWireText d field := by
  simp only [exactField, bind_eq_ok, Dict.getItem_eq_ok, exactString_eq_ok, and_true,
    HasWireText]
  constructor
  · rintro ⟨_, hget, s, rfl, hs⟩
    rw [Dict.textAt_eq hget]
    exact ⟨hget, hs⟩
  · rintro ⟨hget, hs⟩
    exact ⟨_, hget, _, rfl, hs⟩

omit [PyUnicode] in
/-- A moment read from a field that holds a text. -/
lemma parseField_eq_ok {d : Dict} {field label : String} {v : Json} {n : ℕ}
    (hget : d.get? field = some v) (h : parseRfc3339Utc v label = .ok n) :
    n = timeOf (d.textAt field) := by
  obtain ⟨s, t, rfl, ht, rfl⟩ := parseRfc3339Utc_eq_ok.mp h
  rw [timeOf, Dict.textAt_eq hget, ht]
  rfl

omit [PyUnicode] in
/-- A moment read with a default. -/
lemma parseGetD_eq_ok {d : Dict} {field label : String} {n : ℕ}
    (h : parseRfc3339Utc (d.getD field .null) label = .ok n) : n = timeOf (d.textAt field) := by
  obtain ⟨s, t, hs, -⟩ := parseRfc3339Utc_eq_ok.mp h
  rw [Dict.getD] at hs
  cases hget : d.get? field with
  | none => simp [hget] at hs
  | some v =>
      rw [Dict.getD, hget, Option.getD_some] at h
      exact parseField_eq_ok hget h

omit [PyUnicode] in
/-- A text that names a moment is read as it. -/
lemma parseRfc3339Utc_str {text label : String} (h : (parseTimestamp text).isSome = true) :
    parseRfc3339Utc (.str text) label = .ok (timeOf text) := by
  obtain ⟨t, ht⟩ := Option.isSome_iff_exists.mp h
  exact parseRfc3339Utc_eq_ok.mpr ⟨text, t, rfl, ht, by simp [timeOf, ht]⟩

/-- A record that `_validate_record` has accepted. -/
structure AcceptedRecord (version recordId : String) (record : Dict) : Prop where
  declares : record.get? "contract_version" = some (.str version)
  texts : ∀ field ∈ recordTextFields, HasWireText record field
  signedTexts : version = signedAuthorizationRecordContractVersion →
    ∀ field ∈ signedTextFields, HasWireText record field
  recordId : record.textAt "record_id" = recordId
  role : record.textAt "role_claim" ∈ authorizationRoleClaims
  purpose : record.textAt "purpose_code" = authorizationPurposeCode
  scope : record.textAt "scope_code" = authorizationScopeCode
  window : timeOf (record.textAt "effective_from") ≤ timeOf (record.textAt "expires_at")
  issued : version = signedAuthorizationRecordContractVersion →
    timeOf (record.textAt "effective_from") ≤ timeOf (record.textAt "issued_at") ∧
      timeOf (record.textAt "issued_at") ≤ timeOf (record.textAt "expires_at")

omit [PyUnicode] in
theorem acceptedRecord_of_validate {raw : Bytes} {recordId version : String} {record : Dict}
    (h : validateRecord raw recordId version = .ok record) :
    strictJsonBytes raw s!"authorization record {recordId}" = .ok (.obj record) ∧
      AcceptedRecord version recordId record := by
  simp only [validateRecord, bind_eq_ok] at h
  obtain ⟨value, hvalue, h⟩ := h
  cases value with
  | obj d =>
      simp only [bind_eq_ok, exists_unit, require_eq_ok, whenever_eq_ok, forEach_eq_ok,
        exactField_eq_ok, Dict.getItem_eq_ok, Except.ok.injEq] at h
      obtain ⟨-, hversion, htexts, hsigned, hid, hrole, hpurpose, hscope, vfrom, hfrom, nfrom,
        hnfrom, vuntil, huntil, nuntil, hnuntil, hwindow, hissued, rfl⟩ := h
      obtain rfl := parseField_eq_ok hfrom hnfrom
      obtain rfl := parseField_eq_ok huntil hnuntil
      refine ⟨hvalue, hversion, htexts, fun hv => (hsigned hv).1, hid, hrole, hpurpose, hscope,
        hwindow, fun hv => ?_⟩
      obtain ⟨v, hget, n, hn, hchain⟩ := hissued hv
      obtain rfl := parseField_eq_ok hget hn
      exact hchain
  | _ => exact absurd h valueError_ne_ok

/-- What `_validate_bundle` has established of the manifest it returns and of the members. -/
structure AcceptedBundle (bundle : AuthorizationRecordBundle) (manifest : Dict) : Prop where
  version : manifest.textAt "contract_version" ∈
    [authorizationRecordPackVersion, signedAuthorizationRecordPackVersion]
  distinct : (bundle.members.map AuthorizationRecordMember.recordId).Nodup
  normalizedDistinct :
    ((bundle.members.map AuthorizationRecordMember.recordId).map normalizedIdentity).Nodup

theorem acceptedBundle_of_validate {bundle : AuthorizationRecordBundle} {manifest : Dict}
    (h : validateBundle bundle = .ok manifest) : AcceptedBundle bundle manifest := by
  simp only [validateBundle, bind_eq_ok] at h
  obtain ⟨value, -, h⟩ := h
  cases value with
  | obj d =>
      simp only [bind_eq_ok, exists_unit, require_eq_ok] at h
      obtain ⟨-, ⟨-, hversion⟩, -, items, -, h⟩ := h
      cases items with
      | arr items =>
          simp only [bind_eq_ok, exists_unit, require_eq_ok, normalizedUnique, Except.ok.injEq] at h
          obtain ⟨-, -, -, -, -, -, -, -, ⟨hnodup, -⟩, hnormalized, -, -, rfl⟩ := h
          refine ⟨?_, hnodup, hnormalized⟩
          have hget : Dict.textAt (Dict.ofList
              [("bundle_id", Dict.getD d "bundle_id" .null),
               ("contract_version", .str (Dict.textAt d "contract_version")),
               ("members", .arr ((KeySort.sortBy
                 (fun spec => recordOrder (Dict.textAt spec "record_id"))
                 (items.filterMap Json.obj?)).map .obj))]) "contract_version" =
              Dict.textAt d "contract_version" := by
            refine Dict.textAt_eq ?_
            simp [Dict.ofList, Dict.get?_set]
          rw [hget]
          exact hversion
      | _ => exact absurd h valueError_ne_ok
  | _ => exact absurd h valueError_ne_ok

/-- **What a prepared context holds**: one claim for each member, read from its own bytes, in the
order of the identities, which are distinct. -/
theorem recordContext_of_prepare {bundle : AuthorizationRecordBundle}
    {context : AuthorizationRecordContext}
    (h : prepareAuthorizationRecordContext bundle = .ok context) :
    ∃ packVersion ∈ [authorizationRecordPackVersion, signedAuthorizationRecordPackVersion],
      context.contractVersion = setVersionOf packVersion ∧
      (bundle.members.map AuthorizationRecordMember.recordId).Nodup ∧
      ((bundle.members.map AuthorizationRecordMember.recordId).map normalizedIdentity).Nodup ∧
      ∃ claims : List AuthorizationRecordClaim, context.records = sortClaims claims ∧
        List.Forall₂ (fun member claim => ∃ record,
          validateRecord member.rawBytes member.recordId (recordVersionOf packVersion) =
            .ok record ∧ claim = claimOf member record) bundle.members claims := by
  simp only [prepareAuthorizationRecordContext, bind_eq_ok, Except.ok.injEq] at h
  obtain ⟨manifest, hmanifest, claims, hclaims, subject, -, rfl⟩ := h
  have hbundle := acceptedBundle_of_validate hmanifest
  refine ⟨_, hbundle.version, rfl, hbundle.distinct, hbundle.normalizedDistinct, claims, rfl, ?_⟩
  refine (mapEach_eq_ok.mp hclaims).imp fun member claim hclaim => ?_
  simp only [memberClaim, bind_eq_ok] at hclaim
  obtain ⟨record, hrecord, hclaim⟩ := hclaim
  split at hclaim
  · simp only [bind_eq_ok, exists_unit, Except.ok.injEq] at hclaim
    exact ⟨record, hrecord, hclaim.2.symm⟩
  · exact absurd hclaim keyError_ne_ok

end Packs

/-! ## Canonical bytes -/

open Json

/-- The text of an object. -/
def textOf (d : Dict) : String := String.ofList (jsonText (.obj d))

lemma dumps_textOf {d : Dict} (hfinite : (Json.obj d).isFinite = true) :
    dumps (.obj d) = .ok (textOf d) := dumps_eq_ok.mpr ⟨hfinite, rfl⟩

lemma canonicalBytes_textOf {d : Dict} (hfinite : (Json.obj d).isFinite = true) :
    canonicalBytes (.obj d) = .ok (encodeUtf8 (textOf d)) := by
  rw [canonicalBytes, dumps_textOf hfinite]
  rfl

/-- An object is read from its canonical bytes. -/
lemma strictJsonBytes_textOf {d : Dict} (hwf : (Json.obj d).WF)
    (hfinite : (Json.obj d).isFinite = true) (hdepth : jsonDepth (.obj d) ≤ 16) (label : String) :
    strictJsonBytes (encodeUtf8 (textOf d)) label = .ok (.obj d) := by
  have hload := loads_dumps ⟨true⟩ hwf (dumps_textOf hfinite)
  rw [strictJsonBytes, decodeUtf8_encodeUtf8]
  simp only [bind_eq_ok, exists_unit, require_eq_ok, Except.ok.injEq]
  exact ⟨_, hload, hdepth, _, canonicalBytes_textOf hfinite, rfl, rfl⟩

lemma length_encodeUtf8_textOf (d : Dict) :
    (encodeUtf8 (textOf d)).length = ((jsonText (.obj d)).flatMap utf8Char).length := by
  rw [encodeUtf8, List.length_map, utf8, textOf, String.toList_ofList]

/-! ## The records of a small pack

The two signed records of a pack and its manifest.  What a particular question varies is the trust
domain of the process owner's record, with the hash and the size its bytes then have.
-/

/-- A signed record. -/
def sampleRecord (approver issuer recordId role signature trustDomain keyId : String) : Dict :=
  Dict.ofList
    [("approver_id_claim", .str approver),
     ("contract_version", .str signedAuthorizationRecordContractVersion),
     ("effective_from", .str "2024-01-01T00:00:00Z"), ("expires_at", .str "2025-01-01T00:00:00Z"),
     ("issued_at", .str "2024-01-15T00:00:00Z"), ("issuer_id", .str issuer),
     ("purpose_code", .str authorizationPurposeCode), ("record_id", .str recordId),
     ("role_claim", .str role), ("scope_code", .str authorizationScopeCode),
     ("signature", .str signature), ("signature_algorithm", .str "ED25519"),
     ("trust_domain", .str trustDomain), ("verification_key_id", .str keyId)]

def ownerSignature : String :=
  "NiQWKQRmH+4g82tEKJQZKMO0cz1qQUn68FwSl3bQ73egdiJAxxFKUvflkDEHJmQ4epnmTz29uc+RfTdxA6I2Dg=="

def ownerRecord (trustDomain : String) : Dict :=
  sampleRecord "SYN-PO-BOB" "ISSUER-QCI-SYN-PO" "AUTH-PO-2024-A" "PROCESS_OWNER" ownerSignature
    trustDomain "KEY-QCI-SYN-PO-001"

def managerRecord : Dict :=
  sampleRecord "SYN-QM-ALICE" "ISSUER-QCI-SYN-QM" "AUTH-QM-2024-A" "QUALITY_MANAGER"
    "rlkcSHWhBKmm2+VuNmQlSvVlGr1nqP2vLDLW9+GTOQ4H4XL82u56vq8q1t+KQ+0tkSFkeURyI8+MHdTbPwscBw=="
    "QUALITYCI_SYNTHETIC_LOCAL_V1" "KEY-QCI-SYN-QM-001"

def managerHash : String := "fcd9a915826e529f69fb84855a3044618d4ad69c78177f15c2d0b8fb94d6f422"

/-- The entry of a member in the manifest. -/
def sampleSpec (hash recordId : String) (size : ℤ) (path : String) : Dict := Dict.ofList
  [("content_hash", .str hash), ("format", .str "JSON"), ("record_id", .str recordId),
   ("size_bytes", .int size), ("source_path", .str path)]

def sampleManifest (hash : String) (size : ℤ) : Dict := Dict.ofList
  [("bundle_id", .str "AUTH-SYNTHETIC-A06-001"),
   ("contract_version", .str signedAuthorizationRecordPackVersion),
   ("members", .arr [.obj (sampleSpec hash "AUTH-PO-2024-A" size "process_owner.json"),
     .obj (sampleSpec managerHash "AUTH-QM-2024-A" 591 "quality_manager.json")])]

/-- A field of a dictionary whose values are wire texts. -/
lemma hasWireText_of_values {d : Dict} (h : ∀ e ∈ d, ∃ s, e.2 = .str s ∧ IsWireText s)
    {field : String} (hfield : field ∈ d.keys) : HasWireText d field := by
  obtain ⟨v, hv⟩ := Option.isSome_iff_exists.mp (Dict.mem_keys_iff.mp hfield)
  obtain ⟨s, rfl, hwire⟩ := h _ (Dict.get?_eq_some_mem hv)
  rw [HasWireText, Dict.textAt_eq hv]
  exact ⟨hv, hwire⟩

/-- The keys of a literal are those that its entries have. -/
lemma hasExactKeys_ofList {entries : List (String × Json)} {keys : List String}
    (hnodup : (entries.map Prod.fst).Nodup)
    (h : ∀ key, key ∈ entries.map Prod.fst ↔ key ∈ keys) :
    HasExactKeys (Dict.ofList entries) keys := by
  constructor
  · intro key hkey
    exact (h key).mp ((Dict.mem_keys_ofList hnodup key).mp hkey)
  · intro key hkey
    exact (Dict.mem_keys_ofList hnodup key).mpr ((h key).mpr hkey)

/-- A field is read when its text is a wire text and encodes as many bytes as it has to. -/
lemma base64Field_succeeds {text : String} {size : ℕ} (hwire : IsWireText text)
    (hdecode : (base64Decode text).map (fun raw => (raw.length, base64Encode raw)) =
      some (size, text)) (label encodingMessage sizeMessage : String) :
    ∃ raw, base64Field (.str text) label size encodingMessage sizeMessage = .ok raw := by
  obtain ⟨raw, hraw, hsize⟩ := Option.map_eq_some_iff.mp hdecode
  obtain ⟨hlength, hencode⟩ := Prod.mk.inj hsize
  refine ⟨raw, bind_eq_ok.mpr ⟨text, exactString_eq_ok.mpr ⟨rfl, hwire⟩, ?_⟩⟩
  simp only [hraw, bind_eq_ok, exists_unit, require_eq_ok]
  exact ⟨⟨hlength, hencode⟩, trivial⟩

/-- The fixed texts of a record are wire texts. -/
lemma sampleRecord_fixed : ∀ text ∈ [signedAuthorizationRecordContractVersion,
    authorizationPurposeCode, authorizationScopeCode, "2024-01-01T00:00:00Z",
    "2025-01-01T00:00:00Z", "2024-01-15T00:00:00Z", "ED25519"], IsWireText text := by
  decide +kernel

/-- The times of a record are times, in their order. -/
lemma sampleRecord_window : (parseTimestamp "2024-01-01T00:00:00Z").isSome = true ∧
    (parseTimestamp "2024-01-15T00:00:00Z").isSome = true ∧
    (parseTimestamp "2025-01-01T00:00:00Z").isSome = true ∧
    timeOf "2024-01-01T00:00:00Z" ≤ timeOf "2024-01-15T00:00:00Z" ∧
    timeOf "2024-01-15T00:00:00Z" ≤ timeOf "2025-01-01T00:00:00Z" := by
  decide +kernel

/-- The texts of a signed record: wire texts, among them the role's and 64 bytes in base64. -/
structure RecordTexts where
  approver : String
  issuer : String
  recordId : String
  role : String
  signature : String
  trustDomain : String
  keyId : String
  wire : ∀ text ∈ [approver, issuer, recordId, role, signature, trustDomain, keyId],
    IsWireText text
  known : role ∈ authorizationRoleClaims
  decodes : (base64Decode signature).map (fun raw => (raw.length, base64Encode raw)) =
    some (64, signature)

namespace RecordTexts

/-- The record with these texts. -/
def record (t : RecordTexts) : Dict :=
  sampleRecord t.approver t.issuer t.recordId t.role t.signature t.trustDomain t.keyId

variable (t : RecordTexts)

lemma wf : (obj t.record).WF := wf_ofList (by simp)

lemma finite : (obj t.record).isFinite = true := isFinite_ofList (by simp [Json.isFinite])

lemma depth : jsonDepth (obj t.record) ≤ 2 := jsonDepth_ofList_le (by simp [jsonDepth])

lemma exactKeys : HasExactKeys t.record signedRecordKeys := by
  refine hasExactKeys_ofList (by simp) fun key => ?_
  simp only [List.map_cons, List.map_nil, List.mem_cons, List.not_mem_nil, or_false,
    signedRecordKeys, recordKeys, recordTextFields, signedTextFields, List.cons_append,
    List.nil_append]
  tauto

lemma texts : ∀ field ∈ signedRecordKeys, HasWireText t.record field := by
  have hwire := t.wire
  have hfixed := sampleRecord_fixed
  simp only [List.forall_mem_cons, List.not_mem_nil, false_implies, implies_true, and_true]
    at hwire hfixed
  intro field hfield
  refine hasWireText_of_values (fun e he => ?_) (t.exactKeys.2 field hfield)
  have hentry := Dict.mem_ofList he
  simp only [List.mem_cons, List.not_mem_nil, or_false] at hentry
  rcases hentry with rfl | rfl | rfl | rfl | rfl | rfl | rfl | rfl | rfl | rfl | rfl | rfl | rfl |
    rfl
  all_goals exact ⟨_, rfl, by simp only [hwire, hfixed]⟩

/-- The fields that a reader of the record asks for. -/
lemma get? : ∀ e ∈
    [("approver_id_claim", Json.str t.approver),
     ("contract_version", .str signedAuthorizationRecordContractVersion),
     ("effective_from", .str "2024-01-01T00:00:00Z"), ("expires_at", .str "2025-01-01T00:00:00Z"),
     ("issued_at", .str "2024-01-15T00:00:00Z"), ("issuer_id", .str t.issuer),
     ("purpose_code", .str authorizationPurposeCode), ("record_id", .str t.recordId),
     ("role_claim", .str t.role), ("scope_code", .str authorizationScopeCode),
     ("signature", .str t.signature), ("signature_algorithm", .str "ED25519"),
     ("trust_domain", .str t.trustDomain), ("verification_key_id", .str t.keyId)],
    t.record.get? e.1 = some e.2 := by
  intro e he
  rw [record, sampleRecord, Dict.get?_ofList (by simp)]
  simp only [List.mem_cons, List.not_mem_nil, or_false] at he
  rcases he with rfl | rfl | rfl | rfl | rfl | rfl | rfl | rfl | rfl | rfl | rfl | rfl | rfl | rfl
  all_goals simp [List.lookup_cons]

lemma signature_wire : IsWireText t.signature := t.wire _ (by simp)

/-- **A signed record is accepted.** -/
theorem accepted : validateRecord (encodeUtf8 (textOf t.record)) t.recordId
    signedAuthorizationRecordContractVersion = .ok t.record := by
  obtain ⟨hfrom, hissued, huntil, hfirst, hlast⟩ := sampleRecord_window
  obtain ⟨raw, hraw⟩ : ∃ raw, strictBase64 (.str t.signature) "authorization record signature" 64 =
    .ok raw := base64Field_succeeds t.signature_wire t.decodes ..
  have hget := t.get?
  simp only [List.forall_mem_cons, List.not_mem_nil, false_implies, implies_true, and_true] at hget
  have htext : ∀ field ∈ recordTextFields, HasWireText t.record field :=
    fun field hfield => t.texts field (List.mem_append_left _ (List.mem_cons_of_mem _ hfield))
  have hsigned : ∀ field ∈ signedTextFields, HasWireText t.record field :=
    fun field hfield => t.texts field (List.mem_append_right _ hfield)
  simp only [validateRecord, bind_eq_ok]
  refine ⟨_, strictJsonBytes_textOf t.wf t.finite (t.depth.trans (by omega)) _, ?_⟩
  simp only [bind_eq_ok, exists_unit, require_eq_ok, whenever_eq_ok, forEach_eq_ok,
    exactField_eq_ok, Dict.getItem_eq_ok, Dict.textAt, hget, Option.some.injEq, exists_eq_left',
    Option.bind_some, Json.str?, Option.getD_some, parseRfc3339Utc_str, hfrom, hissued, huntil,
    hraw, Except.ok.injEq, hfirst, hlast, hfirst.trans hlast, t.known, ↓reduceIte]
  exact ⟨t.exactKeys, trivial, htext, fun _ => ⟨hsigned, trivial, trivial⟩, trivial, trivial,
    trivial, trivial, trivial, fun _ => ⟨trivial, trivial⟩, trivial⟩

end RecordTexts

/-! ## Entries of the manifest -/

/-- What an entry of the manifest says of its member. -/
structure EntryTexts where
  hash : String
  recordId : String
  size : ℤ
  path : String
  wire : ∀ text ∈ [hash, recordId], IsWireText text
  sha : isLowerSha hash = true
  canonical : (canonicalPackPath (.str path)).toOption.isSome = true
  bounded : 0 < size ∧ size ≤ maxAuthorizationMemberBytes

namespace EntryTexts

/-- The entry with these texts. -/
def spec (t : EntryTexts) : Dict := sampleSpec t.hash t.recordId t.size t.path

variable (t : EntryTexts)

lemma get? : ∀ e ∈
    [("content_hash", Json.str t.hash), ("format", .str "JSON"), ("record_id", .str t.recordId),
     ("size_bytes", .int t.size), ("source_path", .str t.path)],
    t.spec.get? e.1 = some e.2 := by
  intro e he
  rw [spec, sampleSpec, Dict.get?_ofList (by simp)]
  simp only [List.mem_cons, List.not_mem_nil, or_false] at he
  rcases he with rfl | rfl | rfl | rfl | rfl
  all_goals simp [List.lookup_cons]

/-- What the loops over the entries read. -/
lemma reads : t.spec.textAt "record_id" = t.recordId ∧ t.spec.textAt "source_path" = t.path ∧
    t.spec.textAt "content_hash" = t.hash ∧ intAt t.spec "size_bytes" = t.size := by
  have hget := t.get?
  simp only [List.forall_mem_cons, List.not_mem_nil, false_implies, implies_true, and_true] at hget
  simp only [Dict.textAt, intAt, hget, Option.bind_some, Json.str?, Option.getD_some, and_self]

lemma member : IsMemberSpec (obj t.spec) := by
  refine ⟨_, rfl, hasExactKeys_ofList (by simp) fun key => ?_⟩
  simp only [List.map_cons, List.map_nil, List.mem_cons, List.not_mem_nil, or_false, memberKeys]
  tauto

lemma accepted : validateSpec t.spec = .ok () := by
  obtain ⟨canonical, hcanonical⟩ := exists_ok_of_isSome t.canonical
  have hget := t.get?
  have hwire := t.wire
  simp only [List.forall_mem_cons, List.not_mem_nil, false_implies, implies_true, and_true]
    at hget hwire
  have hpositive : exactPositiveInt (.int t.size) "authorization manifest size_bytes" =
      .ok t.size := bind_eq_ok.mpr ⟨(), require_eq_ok.mpr t.bounded.1, rfl⟩
  simp only [validateSpec, bind_eq_ok, exists_unit, require_eq_ok, exactField_eq_ok,
    Dict.getItem_eq_ok, HasWireText, Dict.textAt, hget, Option.some.injEq, exists_eq_left',
    Option.bind_some, Json.str?, Option.getD_some, hcanonical, lowerSha_eq_ok, Json.str.injEq,
    hpositive, Except.ok.injEq, hwire]
  exact ⟨⟨trivial, trivial⟩, t.hash, ⟨rfl, hwire.1, t.sha⟩, t.bounded.2, trivial⟩

end EntryTexts

/-! ## The pack -/

/-- What a question varies in the small pack: the trust domain of the process owner's record, with
the hash and the size that its bytes then have. -/
structure SamplePack where
  trustDomain : String
  hash : String
  size : ℤ
  wire : IsWireText trustDomain ∧ IsWireText hash
  sha : isLowerSha hash = true
  bounded : 0 < size ∧ size ≤ maxAuthorizationMemberBytes

/-- The texts of the quality manager's record. -/
def managerTexts : RecordTexts where
  approver := "SYN-QM-ALICE"
  issuer := "ISSUER-QCI-SYN-QM"
  recordId := "AUTH-QM-2024-A"
  role := "QUALITY_MANAGER"
  signature :=
    "rlkcSHWhBKmm2+VuNmQlSvVlGr1nqP2vLDLW9+GTOQ4H4XL82u56vq8q1t+KQ+0tkSFkeURyI8+MHdTbPwscBw=="
  trustDomain := "QUALITYCI_SYNTHETIC_LOCAL_V1"
  keyId := "KEY-QCI-SYN-QM-001"
  wire := by decide +kernel
  known := by simp [authorizationRoleClaims]
  decodes := by decide +kernel

lemma managerTexts_record : managerTexts.record = managerRecord := rfl

lemma managerRecord_accepted : validateRecord (encodeUtf8 (textOf managerRecord)) "AUTH-QM-2024-A"
    signedAuthorizationRecordContractVersion = .ok managerRecord := by
  rw [← managerTexts_record]
  exact managerTexts.accepted

def managerSpec : Dict := sampleSpec managerHash "AUTH-QM-2024-A" 591 "quality_manager.json"

def managerMember : AuthorizationRecordMember :=
  ⟨"AUTH-QM-2024-A", "quality_manager.json", managerHash, 591, encodeUtf8 (textOf managerRecord)⟩

def managerEntry : EntryTexts where
  hash := managerHash
  recordId := "AUTH-QM-2024-A"
  size := 591
  path := "quality_manager.json"
  wire := by decide +kernel
  sha := by decide +kernel
  canonical := by decide +kernel
  bounded := by simp [maxAuthorizationMemberBytes]

lemma managerEntry_spec : managerEntry.spec = managerSpec := rfl

/-- The fixed texts of the process owner's record and its entry. -/
lemma ownerTexts_fixed : (∀ text ∈ ["SYN-PO-BOB", "ISSUER-QCI-SYN-PO", "AUTH-PO-2024-A",
      "PROCESS_OWNER", ownerSignature, "KEY-QCI-SYN-PO-001"], IsWireText text) ∧
    (base64Decode ownerSignature).map (fun raw => (raw.length, base64Encode raw)) =
      some (64, ownerSignature) ∧
    (canonicalPackPath (.str "process_owner.json")).toOption.isSome = true := by
  decide +kernel

lemma manifest_wire : IsWireText "AUTH-SYNTHETIC-A06-001" := by decide +kernel

namespace SamplePack

variable (p : SamplePack)

def owner : Dict := ownerRecord p.trustDomain

def manifest : Dict := sampleManifest p.hash p.size

def ownerSpec : Dict := sampleSpec p.hash "AUTH-PO-2024-A" p.size "process_owner.json"

def ownerMember : AuthorizationRecordMember :=
  ⟨"AUTH-PO-2024-A", "process_owner.json", p.hash, p.size, encodeUtf8 (textOf p.owner)⟩

/-- The raw material. -/
def bundle : AuthorizationRecordBundle where
  canonicalManifestBytes := encodeUtf8 (textOf p.manifest)
  members := [p.ownerMember, managerMember]

/-- What the two members declare. -/
def claims : List AuthorizationRecordClaim :=
  [claimOf p.ownerMember p.owner, claimOf managerMember managerRecord]

/-- The texts of the process owner's record. -/
def ownerTexts : RecordTexts where
  approver := "SYN-PO-BOB"
  issuer := "ISSUER-QCI-SYN-PO"
  recordId := "AUTH-PO-2024-A"
  role := "PROCESS_OWNER"
  signature := ownerSignature
  trustDomain := p.trustDomain
  keyId := "KEY-QCI-SYN-PO-001"
  wire := by
    have hfixed := ownerTexts_fixed.1
    simp only [List.forall_mem_cons, List.not_mem_nil, false_implies, implies_true, and_true]
      at hfixed ⊢
    exact ⟨hfixed.1, hfixed.2.1, hfixed.2.2.1, hfixed.2.2.2.1, hfixed.2.2.2.2.1, p.wire.1,
      hfixed.2.2.2.2.2⟩
  known := by simp [authorizationRoleClaims]
  decodes := ownerTexts_fixed.2.1

lemma ownerTexts_record : p.ownerTexts.record = p.owner := rfl

lemma owner_accepted : validateRecord (encodeUtf8 (textOf p.owner)) "AUTH-PO-2024-A"
    signedAuthorizationRecordContractVersion = .ok p.owner := by
  rw [← ownerTexts_record]
  exact p.ownerTexts.accepted

/-- The process owner's entry in the manifest. -/
def ownerEntry : EntryTexts where
  hash := p.hash
  recordId := "AUTH-PO-2024-A"
  size := p.size
  path := "process_owner.json"
  wire := by
    have hfixed := ownerTexts_fixed.1
    simp only [List.forall_mem_cons, List.not_mem_nil, false_implies, implies_true, and_true]
      at hfixed ⊢
    exact ⟨p.wire.2, hfixed.2.2.1⟩
  sha := p.sha
  canonical := ownerTexts_fixed.2.2
  bounded := p.bounded

lemma ownerEntry_spec : p.ownerEntry.spec = p.ownerSpec := rfl

/-! ### The manifest -/

lemma wf_manifest : (obj p.manifest).WF := by
  have hspec : ∀ hash recordId size path, (obj (sampleSpec hash recordId size path)).WF :=
    fun _ _ _ _ => wf_ofList (by simp [WF])
  exact wf_ofList (by simp [hspec])

lemma manifest_finite : (obj p.manifest).isFinite = true := by
  have hspec : ∀ hash recordId size path,
      (obj (sampleSpec hash recordId size path)).isFinite = true :=
    fun _ _ _ _ => isFinite_ofList (by simp [Json.isFinite])
  refine isFinite_ofList ?_
  simp only [List.forall_mem_cons, List.not_mem_nil, false_implies, implies_true, and_true,
    isFinite_arr, hspec]
  exact ⟨rfl, rfl⟩

lemma manifest_depth : jsonDepth (obj p.manifest) ≤ 4 := by
  have hspec : ∀ hash recordId size path,
      jsonDepth (obj (sampleSpec hash recordId size path)) ≤ 2 :=
    fun _ _ _ _ => jsonDepth_ofList_le (by simp [jsonDepth])
  refine jsonDepth_ofList_le fun e he => ?_
  simp only [List.mem_cons, List.not_mem_nil, or_false] at he
  rcases he with rfl | rfl | rfl
  · simp [jsonDepth]
  · simp [jsonDepth]
  · have howner := hspec p.hash "AUTH-PO-2024-A" p.size "process_owner.json"
    have hmanager := hspec managerHash "AUTH-QM-2024-A" 591 "quality_manager.json"
    simp only [jsonDepth, itemsDepth] at howner hmanager ⊢
    omega

lemma manifest_get? : ∀ e ∈
    [("bundle_id", Json.str "AUTH-SYNTHETIC-A06-001"),
     ("contract_version", .str signedAuthorizationRecordPackVersion),
     ("members", .arr [.obj p.ownerSpec, .obj managerSpec])],
    p.manifest.get? e.1 = some e.2 := by
  intro e he
  rw [manifest, sampleManifest, Dict.get?_ofList (by simp)]
  simp only [List.mem_cons, List.not_mem_nil, or_false] at he
  rcases he with rfl | rfl | rfl
  all_goals simp [List.lookup_cons, ownerSpec, managerSpec]

lemma manifest_keys : HasExactKeys p.manifest manifestKeys := by
  refine hasExactKeys_ofList (by simp) fun key => ?_
  simp only [List.map_cons, List.map_nil, List.mem_cons, List.not_mem_nil, or_false, manifestKeys]
  tauto

section Ascii

attribute [local instance] asciiUnicode

/-- The identities and the paths of the members differ as normalized texts. -/
lemma members_distinct :
    normalizedIdentity "AUTH-PO-2024-A" ≠ normalizedIdentity "AUTH-QM-2024-A" ∧
      normalizedIdentity "process_owner.json" ≠ normalizedIdentity "quality_manager.json" ∧
      recordOrder "AUTH-PO-2024-A" ≤ recordOrder "AUTH-QM-2024-A" := by
  decide +kernel

lemma manifest_canonical : Dict.ofList
    [("bundle_id", p.manifest.getD "bundle_id" .null),
     ("contract_version", .str signedAuthorizationRecordPackVersion),
     ("members", .arr ((KeySort.sortBy (fun spec => recordOrder (Dict.textAt spec "record_id"))
       [p.ownerSpec, managerSpec]).map .obj))] = p.manifest := by
  have hbundle : p.manifest.getD "bundle_id" .null = .str "AUTH-SYNTHETIC-A06-001" := by
    rw [Dict.getD, p.manifest_get? ("bundle_id", .str "AUTH-SYNTHETIC-A06-001") (by simp)]
    rfl
  have horder : recordOrder (p.ownerSpec.textAt "record_id") ≤
      recordOrder (managerSpec.textAt "record_id") := by
    rw [← ownerEntry_spec, ← managerEntry_spec, p.ownerEntry.reads.1, managerEntry.reads.1]
    exact members_distinct.2.2
  have hsorted : KeySort.sortBy (fun spec => recordOrder (Dict.textAt spec "record_id"))
      [p.ownerSpec, managerSpec] = [p.ownerSpec, managerSpec] := by
    simp [KeySort.sortBy, horder]
  rw [hsorted, hbundle]
  rfl

/-! ### The members -/

/-- Both members are what the manifest says of them. -/
lemma members_accepted : ∀ spec ∈ [p.ownerSpec, managerSpec],
    validateMember [p.ownerMember, managerMember] signedAuthorizationRecordContractVersion spec =
      .ok () := by
  intro spec hspec
  have howner := p.ownerEntry.reads
  have hmanager := managerEntry.reads
  rw [ownerEntry_spec, ownerEntry] at howner
  rw [managerEntry_spec, managerEntry] at hmanager
  rcases List.mem_cons.mp hspec with rfl | hspec
  · simp only [validateMember, howner, List.find?, ownerMember, decide_true,
      bind_eq_ok, owner_accepted]
    exact ⟨(), require_eq_ok.mpr ⟨trivial, trivial, trivial⟩, _, rfl, trivial⟩
  · obtain rfl := List.mem_singleton.mp hspec
    have hne : decide ("AUTH-PO-2024-A" = "AUTH-QM-2024-A") = false := by simp
    simp only [validateMember, hmanager, List.find?, ownerMember, managerMember, hne,
      decide_true, bind_eq_ok, managerRecord_accepted]
    exact ⟨(), require_eq_ok.mpr ⟨trivial, trivial, trivial⟩, _, rfl, trivial⟩

/-- **The pack is accepted.** -/
theorem accepted : validateBundle p.bundle = .ok p.manifest := by
  have hget := p.manifest_get?
  simp only [List.forall_mem_cons, List.not_mem_nil, false_implies, implies_true, and_true] at hget
  have howner := p.ownerEntry.reads
  have hmanager := managerEntry.reads
  rw [ownerEntry_spec, ownerEntry] at howner
  rw [managerEntry_spec, managerEntry] at hmanager
  obtain ⟨hid, hpath, -⟩ := members_distinct
  have hversion : p.manifest.textAt "contract_version" =
      signedAuthorizationRecordPackVersion := Dict.textAt_eq hget.2.1
  have hbundle : HasWireText p.manifest "bundle_id" := by
    rw [HasWireText, Dict.textAt_eq hget.1]
    exact ⟨hget.1, manifest_wire⟩
  simp only [validateBundle, bind_eq_ok, bundle]
  refine ⟨_, strictJsonBytes_textOf p.wf_manifest p.manifest_finite
    (p.manifest_depth.trans (by omega)) _, ?_⟩
  simp only [bind_eq_ok, exists_unit, require_eq_ok, exactField_eq_ok, Dict.getItem_eq_ok,
    normalizedUnique]
  refine ⟨p.manifest_keys, ⟨hversion ▸ hget.2.1, by simp [hversion]⟩, hbundle, _, hget.2.2, ?_⟩
  have hspecs : [obj p.ownerSpec, obj managerSpec].filterMap Json.obj? =
      [p.ownerSpec, managerSpec] := rfl
  have hrecord : recordVersionOf signedAuthorizationRecordPackVersion =
      signedAuthorizationRecordContractVersion := if_pos rfl
  simp only [bind_eq_ok, exists_unit, require_eq_ok, hspecs, hversion, manifest_canonical,
    canonicalBytes_textOf p.manifest_finite, Except.ok.injEq, exists_eq_left', hrecord,
    forEach_eq_ok]
  refine ⟨⟨by simp, by simp [maxAuthorizationMembers], ?_⟩, ?_, ?_, ?_, ?_, trivial, ⟨?_, ?_, ?_⟩,
    ?_, ?_, p.members_accepted, trivial⟩
  · exact List.forall_mem_cons.mpr ⟨p.ownerEntry.member, List.forall_mem_singleton.mpr
      managerEntry.member⟩
  · exact List.forall_mem_cons.mpr ⟨p.ownerEntry.accepted, List.forall_mem_singleton.mpr
      managerEntry.accepted⟩
  · have hsize := p.bounded.2
    simp only [maxAuthorizationMemberBytes] at hsize
    simp only [List.map_cons, List.map_nil, howner, hmanager, List.sum_cons, List.sum_nil,
      maxAuthorizationTotalBytes]
    omega
  · simp [howner, hmanager, hid]
  · simp [howner, hmanager, hpath]
  · simp [ownerMember, managerMember]
  · simp [ownerMember, managerMember, howner, hmanager]
  · simp [ownerMember, managerMember, howner, hmanager]
  · simp [ownerMember, managerMember, hid]
  · simp [ownerMember, managerMember, hpath]

lemma claims_read :
    mapEach (memberClaim p.manifest signedAuthorizationRecordContractVersion)
      p.bundle.members = .ok p.claims := by
  have hspecs : p.manifest.rowsAt "members" = [p.ownerSpec, managerSpec] :=
    Dict.rowsAt_eq (p.manifest_get? ("members", _) (by simp))
  have howner := p.ownerEntry.reads
  have hmanager := managerEntry.reads
  rw [ownerEntry_spec, ownerEntry] at howner
  rw [managerEntry_spec, managerEntry] at hmanager
  refine mapEach_eq_ok.mpr (List.Forall₂.cons ?_ (List.Forall₂.cons ?_ List.Forall₂.nil))
  · simp only [memberClaim, bind_eq_ok, hspecs, ownerMember, List.find?, howner, decide_true]
    exact ⟨_, p.owner_accepted, (), require_eq_ok.mpr ⟨trivial, trivial⟩, rfl⟩
  · have hne : decide ("AUTH-PO-2024-A" = "AUTH-QM-2024-A") = false := by simp
    simp only [memberClaim, bind_eq_ok, hspecs, managerMember, List.find?,
      howner, hmanager, hne, decide_true]
    exact ⟨_, managerRecord_accepted, (), require_eq_ok.mpr ⟨trivial, trivial⟩, rfl⟩

/-- **The pack is prepared** as a signed set of its claims. -/
theorem prepared : ∃ context,
    prepareAuthorizationRecordContext p.bundle = .ok context ∧
      context.contractVersion = signedAuthorizationRecordSetVersion ∧
      context.records = sortClaims p.claims := by
  have hversion : p.manifest.textAt "contract_version" =
      signedAuthorizationRecordPackVersion :=
    Dict.textAt_eq (p.manifest_get? ("contract_version", _) (by simp))
  have hbundle : p.manifest.getD "bundle_id" .null = .str "AUTH-SYNTHETIC-A06-001" := by
    rw [Dict.getD, p.manifest_get? ("bundle_id", .str "AUTH-SYNTHETIC-A06-001") (by simp)]
    rfl
  have hfinite : (obj (recordSetSubject p.manifest signedAuthorizationRecordPackVersion
      (sortClaims p.claims))).isFinite = true := by
    refine isFinite_ofList ?_
    simp only [List.forall_mem_cons, List.not_mem_nil, false_implies, implies_true, and_true,
      hbundle, isFinite_arr, List.forall_mem_map]
    exact ⟨rfl, rfl, fun claim _ => isFinite_ofList (by simp [Json.isFinite]), rfl, rfl⟩
  have hclaims : mapEach (memberClaim p.manifest
      (recordVersionOf signedAuthorizationRecordPackVersion)) p.bundle.members =
        .ok p.claims := by
    rw [recordVersionOf, if_pos rfl]
    exact p.claims_read
  have hprepared : ∃ context, prepareAuthorizationRecordContext p.bundle = .ok context ∧
      context.contractVersion = setVersionOf signedAuthorizationRecordPackVersion ∧
      context.records = sortClaims p.claims := by
    simp only [prepareAuthorizationRecordContext, bind_eq_ok]
    rw [← hversion] at hclaims hfinite ⊢
    refine ⟨_, ⟨_, p.accepted, _, hclaims, _, dumps_textOf hfinite, rfl⟩, ?_, ?_⟩
    · rfl
    · dsimp only
  rw [setVersionOf, if_pos rfl] at hprepared
  exact hprepared

end Ascii

end SamplePack

/-- The pack of the fixtures. -/
def fixturePack : SamplePack where
  trustDomain := "QUALITYCI_SYNTHETIC_LOCAL_V1"
  hash := "54cf9da8b974c89e244a84bb7611c43bff1055f08d8930d0565c1b24a7ead20c"
  size := 587
  wire := by decide +kernel
  sha := by decide +kernel
  bounded := by simp [maxAuthorizationMemberBytes]

/-- The pack whose process owner's record is of another trust domain. -/
def foreignPack : SamplePack where
  trustDomain := "OTHER_DOMAIN"
  hash := "c703c6a545b34fb5f117ea3592b44023c9443ec1f905c38d329f1a5d64bc0885"
  size := 571
  wire := by decide +kernel
  sha := by decide +kernel
  bounded := by simp [maxAuthorizationMemberBytes]

example : (encodeUtf8 (textOf fixturePack.owner)).length = 587 := by
  rw [length_encodeUtf8_textOf]
  decide +kernel

end QualityCI

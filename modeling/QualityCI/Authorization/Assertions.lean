import QualityCI.Authorization.Authenticity
import QualityCI.Authorization.Subject
import Mathlib.Data.List.Perm.Basic

/-!
# Approval assertions

An assertion says that one approver, in one role, approves one subject on the strength of one
authorization record.  The assertions of a list are checked one after the other against a record
context, which keeps what it has seen, and then as a set against an authenticity context.

* `validateApprovalAssertionShape` — one assertion alone.
* `checkAssertion`, `validateApprovalAssertions` — the list against the subject and the records.
* `requireAuthenticatedAssertionRecords` — the list against the authenticated records.
* **`validateApprovalAssertions_eq_ok`**, **`requireAuthenticated_eq_ok`** — what the two accept,
  in no order.
-/

namespace QualityCI

open Py

/-! ## One assertion -/

def assertionDomain : String := "QualityCI/approval-assertion/v1\x00"
def assertionSetDomain : String := "QualityCI/approval-assertion-set/v1\x00"

def approvalAssertionKeys : List String :=
  ["assertion_contract_version", "approval_id", "approval_subject_hash", "decision",
   "approver_id_claim", "role_claim", "authorization_record_id", "authorization_record_hash",
   "issued_at", "effective_from", "expires_at"]

/-- `validate_approval_assertion_shape`. -/
def validateApprovalAssertionShape (assertion : Json) : Result Dict :=
  match assertion with
  | .obj assertion => do
      require (HasExactKeys assertion approvalAssertionKeys)
        "approval assertion must contain the exact versioned key set"
      forEach (nonemptyField assertion "approval assertion") approvalAssertionKeys
      require (Dict.textAt assertion "assertion_contract_version" =
          approvalAssertionContractVersion)
        "unsupported approval assertion contract_version"
      require (Dict.textAt assertion "decision" = "APPROVED")
        "approval assertion decision must be APPROVED"
      require (Dict.textAt assertion "role_claim" ∈ approvalRequiredRoleClaims)
        "approval assertion role_claim is unsupported"
      shaField assertion "approval_subject_hash" "approval assertion subject hash"
      shaField assertion "authorization_record_hash" "approval assertion authorization record hash"
      let effective ← Dict.getItem assertion "effective_from"
      let effective ← parseRfc3339Utc effective "approval assertion effective_from"
      let issued ← Dict.getItem assertion "issued_at"
      let issued ← parseRfc3339Utc issued "approval assertion issued_at"
      let expires ← Dict.getItem assertion "expires_at"
      let expires ← parseRfc3339Utc expires "approval assertion expires_at"
      require (effective ≤ issued ∧ issued ≤ expires)
        "approval assertion static time window mismatch"
      let copy ← canonicalCopy (.obj assertion)
      .ok (copy.obj?.getD [])
  | _ => valueError "approval assertion must contain the exact versioned key set"

/-- `approval_assertion_hash`. -/
def approvalAssertionHash (assertion : Json) : Result String := do
  let value ← validateApprovalAssertionShape assertion
  approvalDomainHash assertionDomain (.obj value)

/-! ## The list against the subject -/

/-- What the loop over the assertions has seen. -/
structure SeenAssertions where
  approvalIds : List String := []
  roles : List String := []
  hashes : List String := []
  deriving DecidableEq

structure StatelessApprovalValidation where
  approvalSubjectHash : String
  assertionHashes : List String
  approvedRoles : List String
  authorizationRecordSetHash : String
  authorizationRecordSetContractVersion : String
  singleUseStatus : String := "GLOBAL_SINGLE_USE_UNVERIFIED"
  globalSingleUseVerified : Bool := false
  deriving DecidableEq

/-- The comparison that both checks make, the one with the record's identity apart. -/
def ComparesWith (assertion : Dict) (record : AuthorizationRecordClaim) : Prop :=
  assertion.textAt "authorization_record_hash" = record.contentHash ∧
    assertion.textAt "approver_id_claim" = record.approverIdClaim ∧
    assertion.textAt "role_claim" = record.roleClaim ∧
    assertion.textAt "effective_from" = record.effectiveFrom ∧
    assertion.textAt "expires_at" = record.expiresAt

instance (assertion : Dict) (record : AuthorizationRecordClaim) :
    Decidable (ComparesWith assertion record) :=
  inferInstanceAs (Decidable (_ ∧ _))

variable [PyUnicode]

/-- `records.get(key)`. -/
def recordAt (records : List AuthorizationRecordClaim) (key : String) :
    Option AuthorizationRecordClaim :=
  records.find? fun record => normalizedIdentity record.recordId = key

/-- One pass of the loop over the assertions. -/
def checkAssertion (subject : Dict) (subjectHash : String)
    (records : List AuthorizationRecordClaim) (seen : SeenAssertions) (raw : Json) :
    Result SeenAssertions := do
  let assertion ← validateApprovalAssertionShape raw
  let approvalKey := normalizedIdentity (assertion.textAt "approval_id")
  require (approvalKey ∉ seen.approvalIds)
    "approval assertions contain normalized duplicate approval_id"
  require (assertion.textAt "approval_subject_hash" = subjectHash)
    "approval assertion is bound to a different subject"
  let role := assertion.textAt "role_claim"
  require (role ∈ subject.textsAt "required_role_claims")
    "approval assertion role is not required by the subject"
  require (role ∉ seen.roles) "approval assertions contain duplicate role claims"
  match recordAt records (normalizedIdentity (assertion.textAt "authorization_record_id")) with
  | none => valueError "approval assertion authorization record is missing"
  | some record => do
      require (assertion.textAt "authorization_record_id" = record.recordId ∧
          ComparesWith assertion record ∧
          record.purposeCode = subject.textAt "purpose_code" ∧
          record.scopeCode = subject.textAt "scope_code")
        "approval assertion authorization record join mismatch"
      let hash ← approvalAssertionHash (.obj assertion)
      .ok ⟨seen.approvalIds ++ [approvalKey], seen.roles ++ [role], seen.hashes ++ [hash]⟩

/-- The loop over the assertions. -/
def checkAssertions (subject : Dict) (subjectHash : String)
    (records : List AuthorizationRecordClaim) : SeenAssertions → List Json → Result SeenAssertions
  | seen, [] => .ok seen
  | seen, raw :: rest => do
      let seen ← checkAssertion subject subjectHash records seen raw
      checkAssertions subject subjectHash records seen rest

/-- `validate_approval_assertions`. -/
def validateApprovalAssertions (subject : Json) (assertions : List Json)
    (context : AuthorizationRecordContext) : Result StatelessApprovalValidation := do
  let subjectValue ← validateApprovalSubject subject
  let subjectHash ← approvalSubjectHash (.obj subjectValue)
  require (assertions ≠ []) "native approval requires explicit assertions"
  require ((context.records.map fun record => normalizedIdentity record.recordId).Nodup)
    "authorization records contain normalized duplicate IDs"
  let seen ← checkAssertions subjectValue subjectHash context.records {} assertions
  let required := subjectValue.textsAt "required_role_claims"
  require ((∀ role ∈ seen.roles, role ∈ required) ∧ ∀ role ∈ required, role ∈ seen.roles)
    ("native approval is missing required role assertions: " ++
      reprStrings (KeySort.sortBy (fun role => [role])
        (required.filter fun role => decide (role ∉ seen.roles))))
  require seen.hashes.Nodup "approval assertions contain duplicate hashes"
  .ok
    { approvalSubjectHash := subjectHash
      assertionHashes := KeySort.sortBy (fun hash => [hash]) seen.hashes
      approvedRoles := KeySort.sortBy (fun role => [role]) seen.roles
      authorizationRecordSetHash := context.recordSetHash
      authorizationRecordSetContractVersion := context.contractVersion }

/-- `_approval_assertion_set_hash`. -/
def approvalAssertionSetHash (validation : StatelessApprovalValidation) : Result String :=
  approvalDomainHash assertionSetDomain
    (.arr ((KeySort.sortBy (fun hash => [hash]) validation.assertionHashes).map .str))

/-! ## The list against the authenticated records -/

/-- One pass of the loop over the authenticated records. -/
def checkAuthenticated (validated : List Dict) (signedIssuedAt : List (String × String))
    (record : AuthorizationRecordClaim) : Result Unit :=
  -- among assertions of distinct records the last of a record is the only one
  match validated.find? fun item => item.textAt "authorization_record_id" = record.recordId with
  | none => valueError "approval assertion differs from authenticated authorization record"
  | some assertion => do
      require (ComparesWith assertion record)
        "approval assertion differs from authenticated authorization record"
      let issued ← parseRfc3339Utc (assertion.getD "issued_at" .null) "approval assertion issued_at"
      match signedIssuedAt.lookup record.recordId with
      | none => keyError record.recordId
      | some signed => do
          let signed ← parseRfc3339Utc (.str signed) "signed authorization record issued_at"
          require (signed ≤ issued) "approval assertion predates signed authorization record"

omit [PyUnicode] in
/-- `require_authenticated_assertion_records`. -/
def requireAuthenticatedAssertionRecords (assertions : List Json)
    (context : AuthorizationAuthenticityContext) : Result (List AuthorizationRecordClaim) := do
  require (context.state = .pass)
    s!"authorization authenticity is not PASS: {context.state.text}"
  if ∀ item ∈ assertions, item.isDict = true then do
    let validated ← mapEach validateApprovalAssertionShape assertions
    require (validated.length = context.authenticatedRecords.length)
      "approval assertions differ from authenticated authorization records"
    require ((validated.map fun item => item.textAt "authorization_record_id").Nodup)
      "approval assertions contain duplicate authorization record references"
    forEach (checkAuthenticated validated context.signedIssuedAt) context.authenticatedRecords
    .ok context.authenticatedRecords
  else typeError "approval assertions require exact list/tuple objects"

/-! ## What one assertion is -/

omit [PyUnicode] in
lemma exactNonempty_eq_ok {v : Json} {label s : String} :
    exactNonempty v label = .ok s ↔ v = .str s ∧ isBlank s = false := by
  cases v with
  | str t =>
      simp only [exactNonempty, bind_eq_ok, exists_unit, require_eq_ok, Except.ok.injEq,
        Json.str.injEq]
      constructor
      · rintro ⟨hblank, rfl⟩
        exact ⟨rfl, hblank⟩
      · rintro ⟨rfl, hblank⟩
        exact ⟨hblank, rfl⟩
  | _ => simp [exactNonempty]

omit [PyUnicode] in
/-- A field that holds a moment. -/
def HasMoment (d : Dict) (key : String) : Prop :=
  d.get? key = some (.str (d.textAt key)) ∧ (parseTimestamp (d.textAt key)).isSome = true

omit [PyUnicode] in
lemma hasMoment_of_parse {d : Dict} {key label : String} {v : Json} {n : ℕ}
    (hget : d.get? key = some v) (h : parseRfc3339Utc v label = .ok n) :
    HasMoment d key ∧ n = timeOf (d.textAt key) := by
  have htime := parseField_eq_ok hget h
  obtain ⟨s, t, rfl, ht, -⟩ := parseRfc3339Utc_eq_ok.mp h
  rw [HasMoment, Dict.textAt_eq hget, ht]
  exact ⟨⟨hget, rfl⟩, Dict.textAt_eq hget ▸ htime⟩

/-- A validated assertion. -/
structure AcceptedAssertion (assertion : Dict) : Prop where
  decision : assertion.textAt "decision" = "APPROVED"
  effective : HasMoment assertion "effective_from"
  issued : HasMoment assertion "issued_at"
  expires : HasMoment assertion "expires_at"
  window : timeOf (assertion.textAt "effective_from") ≤ timeOf (assertion.textAt "issued_at") ∧
    timeOf (assertion.textAt "issued_at") ≤ timeOf (assertion.textAt "expires_at")
  finite : (Json.obj assertion).isFinite = true

omit [PyUnicode] in
theorem acceptedAssertion_of_validate {raw : Json} {value : Dict} (hwf : raw.WF)
    (h : validateApprovalAssertionShape raw = .ok value) :
    raw = .obj value ∧ AcceptedAssertion value := by
  cases raw with
  | obj d =>
      simp only [validateApprovalAssertionShape, bind_eq_ok, exists_unit, require_eq_ok,
        Dict.getItem_eq_ok, canonicalCopy_eq_ok hwf, Except.ok.injEq] at h
      obtain ⟨-, -, -, hdecision, -, -, -, vfrom, hfrom, nfrom, hnfrom, vissued, hissued, nissued,
        hnissued, vuntil, huntil, nuntil, hnuntil, hwindow, copy, ⟨hfinite, rfl⟩, rfl⟩ := h
      obtain ⟨hmfrom, rfl⟩ := hasMoment_of_parse hfrom hnfrom
      obtain ⟨hmissued, rfl⟩ := hasMoment_of_parse hissued hnissued
      obtain ⟨hmuntil, rfl⟩ := hasMoment_of_parse huntil hnuntil
      exact ⟨rfl, hdecision, hmfrom, hmissued, hmuntil, hwindow, hfinite⟩
  | _ => exact absurd h valueError_ne_ok

omit [PyUnicode] in
/-- The hash of a validated assertion. -/
def assertionHashOf (assertion : Dict) : String :=
  sha256Hex (assertionDomain ++ String.ofList (jsonText (.obj assertion)))

omit [PyUnicode] in
lemma approvalAssertionHash_eq_ok {assertion : Dict} {hash : String}
    (hwf : (Json.obj assertion).WF)
    (h : validateApprovalAssertionShape (.obj assertion) = .ok assertion) :
    approvalAssertionHash (.obj assertion) = .ok hash ↔ hash = assertionHashOf assertion := by
  have hfinite := (acceptedAssertion_of_validate hwf h).2.finite
  simp only [approvalAssertionHash, approvalDomainHash, h, bind_eq_ok, Except.ok.injEq,
    exists_eq_left', dumps_eq_ok, hfinite, true_and, exists_eq_left, assertionHashOf]
  exact eq_comm

/-! ## What the loop accepts -/

/-- The identity under which an assertion may not be repeated. -/
def approvalKeyOf (assertion : Dict) : String :=
  normalizedIdentity (assertion.textAt "approval_id")

/-- What is asked of an assertion whatever else is in the list. -/
structure AssertionJoins (subject : Dict) (subjectHash : String)
    (records : List AuthorizationRecordClaim) (assertion : Dict) : Prop where
  shape : validateApprovalAssertionShape (.obj assertion) = .ok assertion
  bound : assertion.textAt "approval_subject_hash" = subjectHash
  role : assertion.textAt "role_claim" ∈ subject.textsAt "required_role_claims"
  joined : ∃ record,
    recordAt records (normalizedIdentity (assertion.textAt "authorization_record_id")) =
      some record ∧
    assertion.textAt "authorization_record_id" = record.recordId ∧ ComparesWith assertion record ∧
    record.purposeCode = subject.textAt "purpose_code" ∧
    record.scopeCode = subject.textAt "scope_code"

/-- What has been seen once an assertion is checked. -/
def SeenAssertions.push (seen : SeenAssertions) (assertion : Dict) : SeenAssertions where
  approvalIds := seen.approvalIds ++ [approvalKeyOf assertion]
  roles := seen.roles ++ [assertion.textAt "role_claim"]
  hashes := seen.hashes ++ [assertionHashOf assertion]

lemma checkAssertion_eq_ok {subject : Dict} {subjectHash : String}
    {records : List AuthorizationRecordClaim} {seen seen' : SeenAssertions} {raw : Json}
    (hwf : raw.WF) :
    checkAssertion subject subjectHash records seen raw = .ok seen' ↔
      ∃ assertion : Dict, raw = .obj assertion ∧ AssertionJoins subject subjectHash records assertion ∧
        approvalKeyOf assertion ∉ seen.approvalIds ∧
        assertion.textAt "role_claim" ∉ seen.roles ∧ seen' = seen.push assertion := by
  simp only [checkAssertion, bind_eq_ok, exists_unit, require_eq_ok]
  constructor
  · rintro ⟨assertion, hshape, hkey, hbound, hrole, hnew, h⟩
    obtain ⟨rfl, -⟩ := acceptedAssertion_of_validate hwf hshape
    refine ⟨assertion, rfl, ?_⟩
    cases hrecord : recordAt records
        (normalizedIdentity (assertion.textAt "authorization_record_id")) with
    | none => simp [hrecord] at h
    | some record =>
        simp only [hrecord, bind_eq_ok, exists_unit, require_eq_ok, Except.ok.injEq,
          approvalAssertionHash_eq_ok hwf hshape, exists_eq_left] at h
        obtain ⟨hjoin, rfl⟩ := h
        exact ⟨⟨hshape, hbound, hrole, record, hrecord, hjoin⟩, hkey, hnew, rfl⟩
  · rintro ⟨assertion, rfl, hjoins, hkey, hnew, rfl⟩
    obtain ⟨record, hrecord, hjoin⟩ := hjoins.joined
    refine ⟨assertion, hjoins.shape, hkey, hjoins.bound, hjoins.role, hnew, ?_⟩
    simp only [hrecord, bind_eq_ok, exists_unit, require_eq_ok,
      approvalAssertionHash_eq_ok hwf hjoins.shape, exists_eq_left]
    exact ⟨hjoin, rfl⟩

/-- **The loop.**  By induction on the list: each assertion joins on its own, and no identity and
no role comes twice. -/
theorem checkAssertions_eq_ok {subject : Dict} {subjectHash : String}
    {records : List AuthorizationRecordClaim} {seen seen' : SeenAssertions} {raws : List Json}
    (hwf : ∀ raw ∈ raws, raw.WF) (hids : seen.approvalIds.Nodup) (hroles : seen.roles.Nodup) :
    checkAssertions subject subjectHash records seen raws = .ok seen' ↔
      ∃ assertions : List Dict, raws = assertions.map .obj ∧
        (∀ assertion ∈ assertions, AssertionJoins subject subjectHash records assertion) ∧
        (seen.approvalIds ++ assertions.map approvalKeyOf).Nodup ∧
        (seen.roles ++ assertions.map fun a => a.textAt "role_claim").Nodup ∧
        seen' =
          { approvalIds := seen.approvalIds ++ assertions.map approvalKeyOf
            roles := seen.roles ++ assertions.map fun a => a.textAt "role_claim"
            hashes := seen.hashes ++ assertions.map assertionHashOf } := by
  induction raws generalizing seen with
  | nil =>
      simp only [checkAssertions, Except.ok.injEq]
      constructor
      · rintro rfl
        exact ⟨[], by simp, by simp, by simpa, by simpa, by simp⟩
      · rintro ⟨assertions, hnil, -, -, -, rfl⟩
        obtain rfl : assertions = [] := by simpa using hnil.symm
        simp
  | cons raw rest ih =>
      obtain ⟨hraw, hrest⟩ := List.forall_mem_cons.mp hwf
      simp only [checkAssertions, bind_eq_ok, checkAssertion_eq_ok hraw]
      have hpush : ∀ {assertion : Dict}, approvalKeyOf assertion ∉ seen.approvalIds →
          assertion.textAt "role_claim" ∉ seen.roles →
          (seen.push assertion).approvalIds.Nodup ∧ (seen.push assertion).roles.Nodup :=
        fun hkey hrole => ⟨by simpa [SeenAssertions.push] using hids.concat hkey,
          by simpa [SeenAssertions.push] using hroles.concat hrole⟩
      constructor
      · rintro ⟨_, ⟨assertion, rfl, hjoins, hkey, hrole, rfl⟩, h⟩
        obtain ⟨hids', hroles'⟩ := hpush hkey hrole
        obtain ⟨assertions, rfl, hall, hi, hr, rfl⟩ := (ih hrest hids' hroles').mp h
        refine ⟨assertion :: assertions, rfl, List.forall_mem_cons.mpr ⟨hjoins, hall⟩, ?_, ?_, ?_⟩
        · simpa [SeenAssertions.push] using hi
        · simpa [SeenAssertions.push] using hr
        · simp [SeenAssertions.push]
      · rintro ⟨assertions, hcons, hall, hi, hr, rfl⟩
        obtain ⟨assertion, assertions, rfl⟩ : ∃ a as, assertions = a :: as := by
          cases assertions with
          | nil => simp at hcons
          | cons a as => exact ⟨a, as, rfl⟩
        obtain ⟨rfl, rfl⟩ := List.cons.inj hcons
        obtain ⟨hjoins, hall⟩ := List.forall_mem_cons.mp hall
        have hkey : approvalKeyOf assertion ∉ seen.approvalIds := fun hin =>
          (List.nodup_append.mp hi).2.2 _ hin _ (by simp) rfl
        have hrole : assertion.textAt "role_claim" ∉ seen.roles := fun hin =>
          (List.nodup_append.mp hr).2.2 _ hin _ (by simp) rfl
        obtain ⟨hids', hroles'⟩ := hpush hkey hrole
        refine ⟨_, ⟨assertion, rfl, hjoins, hkey, hrole, rfl⟩, (ih hrest hids' hroles').mpr
          ⟨assertions, rfl, hall, ?_, ?_, ?_⟩⟩
        · simpa [SeenAssertions.push] using hi
        · simpa [SeenAssertions.push] using hr
        · simp [SeenAssertions.push]

/-! ## What the two checks accept -/

/-- What the first check asks of a list of assertions. -/
structure AssertionsAccepted (subject : Dict) (subjectHash : String)
    (records : List AuthorizationRecordClaim) (assertions : List Dict) : Prop where
  joins : ∀ assertion ∈ assertions, AssertionJoins subject subjectHash records assertion
  approvalIds : (assertions.map approvalKeyOf).Nodup
  roles : (assertions.map fun a => a.textAt "role_claim").Nodup
  covered : ∀ role ∈ approvalRequiredRoleClaims,
    role ∈ assertions.map fun a => a.textAt "role_claim"
  hashes : (assertions.map assertionHashOf).Nodup

lemma AssertionsAccepted.of_perm {subject : Dict} {subjectHash : String}
    {records : List AuthorizationRecordClaim} {assertions assertions' : List Dict}
    (h : AssertionsAccepted subject subjectHash records assertions)
    (hperm : assertions.Perm assertions') :
    AssertionsAccepted subject subjectHash records assertions' where
  joins := fun a ha => h.joins a (hperm.mem_iff.mpr ha)
  approvalIds := (hperm.map _).nodup_iff.mp h.approvalIds
  roles := (hperm.map _).nodup_iff.mp h.roles
  covered := fun role hrole => (hperm.map _).mem_iff.mp (h.covered role hrole)
  hashes := (hperm.map _).nodup_iff.mp h.hashes

/-- What the first check returns of the assertions it accepts. -/
def validationOf (subjectHash : String) (context : AuthorizationRecordContext)
    (assertions : List Dict) : StatelessApprovalValidation where
  approvalSubjectHash := subjectHash
  assertionHashes := KeySort.sortBy (fun hash => [hash]) (assertions.map assertionHashOf)
  approvedRoles := KeySort.sortBy (fun role => [role])
    (assertions.map fun a => a.textAt "role_claim")
  authorizationRecordSetHash := context.recordSetHash
  authorizationRecordSetContractVersion := context.contractVersion

/-- **The first check**, of a list in whatever order. -/
theorem validateApprovalAssertions_eq_ok {subject : Json} {raws : List Json}
    {context : AuthorizationRecordContext} {validation : StatelessApprovalValidation}
    (hsubject : subject.WF) (hraws : ∀ raw ∈ raws, raw.WF) :
    validateApprovalAssertions subject raws context = .ok validation ↔
      ∃ value subjectHash, validateApprovalSubject subject = .ok value ∧
        approvalSubjectHash subject = .ok subjectHash ∧
        (context.records.map fun record => normalizedIdentity record.recordId).Nodup ∧
        ∃ assertions : List Dict, raws = assertions.map .obj ∧
          AssertionsAccepted value subjectHash context.records assertions ∧
          validation = validationOf subjectHash context assertions := by
  simp only [validateApprovalAssertions, bind_eq_ok, exists_unit, require_eq_ok, Except.ok.injEq]
  constructor
  · rintro ⟨value, hvalue, subjectHash, hhash, -, hrecords, seen, hseen, hcovered, hhashes, rfl⟩
    obtain ⟨-, haccepted⟩ := acceptedSubject_of_validate hsubject hvalue
    rw [checkAssertions_eq_ok hraws List.nodup_nil List.nodup_nil] at hseen
    obtain ⟨assertions, rfl, hjoins, hids, hroles, rfl⟩ := hseen
    rw [haccepted.roles] at hcovered
    refine ⟨value, subjectHash, hvalue, ?_, hrecords, assertions, rfl,
      ⟨hjoins, by simpa using hids, by simpa using hroles, by simpa using hcovered.2,
        by simpa using hhashes⟩, by simp [validationOf]⟩
    rw [approvalSubjectHash_of_validate hsubject hvalue]
    exact hhash
  · rintro ⟨value, subjectHash, hvalue, hhash, hrecords, assertions, rfl, h, rfl⟩
    obtain ⟨-, haccepted⟩ := acceptedSubject_of_validate hsubject hvalue
    rw [approvalSubjectHash_of_validate hsubject hvalue] at hhash
    have hrole : ∀ role ∈ assertions.map fun a => Dict.textAt a "role_claim",
        role ∈ approvalRequiredRoleClaims := by
      intro role hrole
      obtain ⟨a, ha, rfl⟩ := List.mem_map.mp hrole
      exact haccepted.roles ▸ (h.joins a ha).role
    have hne : assertions.map Json.obj ≠ [] := by
      intro hnil
      have hcovered := h.covered "PROCESS_OWNER" (by decide)
      simp [List.map_eq_nil_iff.mp hnil] at hcovered
    refine ⟨value, hvalue, subjectHash, hhash, hne, hrecords, _,
      (checkAssertions_eq_ok hraws List.nodup_nil List.nodup_nil).mpr
        ⟨assertions, rfl, h.joins, by simpa using h.approvalIds, by simpa using h.roles, rfl⟩, ?_⟩
    rw [haccepted.roles]
    exact ⟨⟨by simpa using hrole, by simpa using h.covered⟩, by simpa using h.hashes,
      by simp [validationOf]⟩

/-- What the second check asks of one authenticated record. -/
structure RecordAsserted (signedIssuedAt : List (String × String)) (assertions : List Dict)
    (record : AuthorizationRecordClaim) (assertion : Dict) (signed : String) : Prop where
  mem : assertion ∈ assertions
  recordId : assertion.textAt "authorization_record_id" = record.recordId
  compares : ComparesWith assertion record
  signedAt : signedIssuedAt.lookup record.recordId = some signed
  moment : (parseTimestamp signed).isSome = true
  after : timeOf signed ≤ timeOf (assertion.textAt "issued_at")

/-- What the second check asks of a list of assertions. -/
structure AssertionsAuthenticated (context : AuthorizationAuthenticityContext)
    (assertions : List Dict) : Prop where
  shapes : ∀ assertion ∈ assertions,
    validateApprovalAssertionShape (.obj assertion) = .ok assertion
  length : assertions.length = context.authenticatedRecords.length
  distinct : (assertions.map fun a => a.textAt "authorization_record_id").Nodup
  asserted : ∀ record ∈ context.authenticatedRecords, ∃ assertion signed,
    RecordAsserted context.signedIssuedAt assertions record assertion signed

omit [PyUnicode] in
lemma AssertionsAuthenticated.of_perm {context : AuthorizationAuthenticityContext}
    {assertions assertions' : List Dict} (h : AssertionsAuthenticated context assertions)
    (hperm : assertions.Perm assertions') : AssertionsAuthenticated context assertions' where
  shapes := fun a ha => h.shapes a (hperm.mem_iff.mpr ha)
  length := hperm.length_eq ▸ h.length
  distinct := (hperm.map _).nodup_iff.mp h.distinct
  asserted := fun record hrecord => by
    obtain ⟨assertion, signed, hone⟩ := h.asserted record hrecord
    exact ⟨assertion, signed, { hone with mem := hperm.mem_iff.mp hone.mem }⟩

omit [PyUnicode] in
lemma mapEach_shapes {raws : List Json} {assertions : List Dict} (hwf : ∀ raw ∈ raws, raw.WF) :
    mapEach validateApprovalAssertionShape raws = .ok assertions ↔
      raws = assertions.map .obj ∧ ∀ assertion ∈ assertions,
        validateApprovalAssertionShape (.obj assertion) = .ok assertion := by
  induction raws generalizing assertions with
  | nil =>
      simp only [mapEach, Except.ok.injEq]
      constructor
      · rintro rfl
        exact ⟨rfl, by simp⟩
      · rintro ⟨hnil, -⟩
        exact (List.map_eq_nil_iff.mp hnil.symm).symm
  | cons raw rest ih =>
      obtain ⟨hraw, hrest⟩ := List.forall_mem_cons.mp hwf
      simp only [mapEach, bind_eq_ok, Except.ok.injEq, ih hrest]
      constructor
      · rintro ⟨a, ha, as, ⟨rfl, has⟩, rfl⟩
        obtain ⟨rfl, -⟩ := acceptedAssertion_of_validate hraw ha
        exact ⟨rfl, List.forall_mem_cons.mpr ⟨ha, has⟩⟩
      · rintro ⟨hcons, hall⟩
        cases assertions with
        | nil => simp at hcons
        | cons a as =>
            obtain ⟨rfl, rfl⟩ := List.cons.inj hcons
            obtain ⟨ha, has⟩ := List.forall_mem_cons.mp hall
            exact ⟨a, ha, as, ⟨rfl, has⟩, rfl⟩

omit [PyUnicode] in
/-- The loop over the records, for assertions of distinct records. -/
lemma checkAuthenticated_eq_ok {assertions : List Dict} {signedIssuedAt : List (String × String)}
    {record : AuthorizationRecordClaim} {u : Unit}
    (hwf : ∀ assertion ∈ assertions, (Json.obj assertion).WF)
    (hshapes : ∀ assertion ∈ assertions,
      validateApprovalAssertionShape (.obj assertion) = .ok assertion)
    (hdistinct : (assertions.map fun a => a.textAt "authorization_record_id").Nodup) :
    checkAuthenticated assertions signedIssuedAt record = .ok u ↔
      ∃ assertion signed, RecordAsserted signedIssuedAt assertions record assertion signed := by
  have hmoment : ∀ assertion ∈ assertions, HasMoment assertion "issued_at" := fun a ha =>
    (acceptedAssertion_of_validate (hwf a ha) (hshapes a ha)).2.issued
  unfold checkAuthenticated
  constructor
  · intro h
    cases hfind : assertions.find?
        fun item => item.textAt "authorization_record_id" = record.recordId with
    | none => simp [hfind] at h
    | some assertion =>
        simp only [hfind, bind_eq_ok, exists_unit, require_eq_ok] at h
        obtain ⟨hcompares, issued, hissued, h⟩ := h
        obtain rfl := parseGetD_eq_ok hissued
        cases hlookup : signedIssuedAt.lookup record.recordId with
        | none => simp [hlookup] at h
        | some signed =>
            simp only [hlookup, bind_eq_ok, require_eq_ok] at h
            obtain ⟨n, hn, hle⟩ := h
            obtain ⟨s, t, hs, ht, rfl⟩ := parseRfc3339Utc_eq_ok.mp hn
            obtain rfl := Json.str.inj hs
            have hid : assertion.textAt "authorization_record_id" = record.recordId := by
              simpa using List.find?_some hfind
            refine ⟨assertion, signed, List.mem_of_find?_eq_some hfind, hid, hcompares, hlookup,
              by simp [ht], ?_⟩
            simpa [timeOf, ht] using hle
  · rintro ⟨assertion, signed, hone⟩
    have hfind : assertions.find?
        (fun item => item.textAt "authorization_record_id" = record.recordId) = some assertion := by
      obtain ⟨found, hfound⟩ : ∃ found, assertions.find?
          (fun item => item.textAt "authorization_record_id" = record.recordId) = some found := by
        rw [← Option.isSome_iff_exists, List.find?_isSome]
        exact ⟨assertion, hone.mem, by simpa using hone.recordId⟩
      have hid : found.textAt "authorization_record_id" = record.recordId := by
        simpa using List.find?_some hfound
      rw [hfound, List.inj_on_of_nodup_map hdistinct (List.mem_of_find?_eq_some hfound) hone.mem
        (hid.trans hone.recordId.symm)]
    have hget := hmoment assertion hone.mem
    have hissued : parseRfc3339Utc (assertion.getD "issued_at" .null)
        "approval assertion issued_at" = .ok (timeOf (assertion.textAt "issued_at")) := by
      rw [Dict.getD, hget.1, Option.getD_some]
      exact parseRfc3339Utc_str hget.2
    simp only [hfind, bind_eq_ok, exists_unit, require_eq_ok, hissued, hone.signedAt,
      parseRfc3339Utc_str hone.moment, Except.ok.injEq, exists_eq_left']
    exact ⟨hone.compares, hone.after⟩

omit [PyUnicode] in
/-- **The second check**, of a list in whatever order. -/
theorem requireAuthenticated_eq_ok {raws : List Json} {context : AuthorizationAuthenticityContext}
    {records : List AuthorizationRecordClaim} (hraws : ∀ raw ∈ raws, raw.WF) :
    requireAuthenticatedAssertionRecords raws context = .ok records ↔
      context.state = .pass ∧ records = context.authenticatedRecords ∧
        ∃ assertions : List Dict, raws = assertions.map .obj ∧
          AssertionsAuthenticated context assertions := by
  simp only [requireAuthenticatedAssertionRecords, bind_eq_ok, exists_unit, require_eq_ok]
  constructor
  · rintro ⟨hstate, h⟩
    split_ifs at h with hdicts
    swap
    · exact absurd h typeError_ne_ok
    simp only [bind_eq_ok, exists_unit, require_eq_ok, mapEach_shapes hraws, forEach_eq_ok,
      Except.ok.injEq] at h
    obtain ⟨assertions, ⟨rfl, hshapes⟩, hlength, hdistinct, hchecked, rfl⟩ := h
    have hwf : ∀ assertion ∈ assertions, (Json.obj assertion).WF := fun a ha =>
      hraws _ (List.mem_map_of_mem ha)
    exact ⟨hstate, rfl, assertions, rfl, hshapes, hlength, hdistinct, fun record hrecord =>
      (checkAuthenticated_eq_ok hwf hshapes hdistinct).mp (hchecked record hrecord)⟩
  · rintro ⟨hstate, rfl, assertions, rfl, h⟩
    have hwf : ∀ assertion ∈ assertions, (Json.obj assertion).WF := fun a ha =>
      hraws _ (List.mem_map_of_mem ha)
    have hdicts : ∀ item ∈ assertions.map Json.obj, item.isDict = true := by
      simp [Json.isDict]
    refine ⟨hstate, ?_⟩
    rw [if_pos hdicts]
    simp only [bind_eq_ok, exists_unit, require_eq_ok, mapEach_shapes hraws, forEach_eq_ok]
    exact ⟨assertions, ⟨rfl, h.shapes⟩, h.length, h.distinct, fun record hrecord =>
      (checkAuthenticated_eq_ok hwf h.shapes h.distinct).mpr (h.asserted record hrecord), trivial⟩

end QualityCI

import QualityCI.Authorization.Assertions
import QualityCI.Authorization.State
import QualityCI.Lib.FieldUpdate
import QualityCI.Lib.Sha256Eval

/-!
# Soundness of approval

A list of assertions that both checks accept is two assertions, one of each role, each resting on
its own authenticated record.  The order of the list plays no part.

* `JoinedTo` — an assertion, the record it rests on and the signed time of that record.
* `SoundlyApproved` — the two assertions and their records.
* **`signedIssuedAt_of_pass`** — the signed times of an authentic set are its records' own.
* **`approval_sound`** — what both checks accept is soundly approved, in every order alike.
* `sampleSubject`, `ownerAssertion`, `managerAssertion` — a subject, and an assertion of each role on
  the strength of the records of the fixtures.
-/

namespace QualityCI

open Py

section Checks

variable [PyUnicode]

/-- An assertion rests on a record: it is bound to the subject, it repeats the record, and it was
issued in the record's window and no earlier than the record. -/
structure JoinedTo (subjectHash : String) (assertion : Dict) (record : AuthorizationRecordClaim)
    (signed : String) : Prop where
  bound : assertion.textAt "approval_subject_hash" = subjectHash
  approved : assertion.textAt "decision" = "APPROVED"
  recordId : assertion.textAt "authorization_record_id" = record.recordId
  compares : ComparesWith assertion record
  moments : ∀ text ∈ [record.effectiveFrom, assertion.textAt "issued_at", record.expiresAt, signed],
    (parseTimestamp text).isSome = true
  window : timeOf record.effectiveFrom ≤ timeOf (assertion.textAt "issued_at") ∧
    timeOf (assertion.textAt "issued_at") ≤ timeOf record.expiresAt
  after : timeOf signed ≤ timeOf (assertion.textAt "issued_at")

/-- The signed record of an identity, read from its member's bytes, was issued at a time. -/
def SignedAt (bundle : AuthorizationRecordBundle) (recordId signed : String) : Prop :=
  ∃ member ∈ bundle.members, ∃ record, member.recordId = recordId ∧
    validateRecord member.rawBytes member.recordId signedAuthorizationRecordContractVersion =
      .ok record ∧ record.textAt "issued_at" = signed

/-- The approval of a subject by its two roles on the strength of the two records of a set. -/
def SoundlyApproved (subjectHash : String) (bundle : AuthorizationRecordBundle)
    (records : List AuthorizationRecordClaim) (assertions : List Json) : Prop :=
  ∃ (owner manager : Dict) (ownerClaim managerClaim : AuthorizationRecordClaim)
    (ownerSigned managerSigned : String),
    assertions.Perm [.obj owner, .obj manager] ∧
    records.Perm [ownerClaim, managerClaim] ∧ ownerClaim.recordId ≠ managerClaim.recordId ∧
    approvalKeyOf owner ≠ approvalKeyOf manager ∧
    owner.textAt "role_claim" = "PROCESS_OWNER" ∧
    manager.textAt "role_claim" = "QUALITY_MANAGER" ∧
    JoinedTo subjectHash owner ownerClaim ownerSigned ∧
    SignedAt bundle ownerClaim.recordId ownerSigned ∧
    JoinedTo subjectHash manager managerClaim managerSigned ∧
    SignedAt bundle managerClaim.recordId managerSigned

/-! ## The signed times -/

section Authentic

variable [Ed25519]

omit [PyUnicode] in
/-- The loop over the records leaves the pairs it was given and those of the records it passes. -/
lemma judgeRecords_issued {snapshot : Dict} {claims : List AuthorizationRecordClaim}
    (hdistinct : ((issuerKeysOf snapshot).map signerOf).Nodup)
    (hstatus : ∀ key ∈ issuerKeysOf snapshot, key.textAt "revocation_status" ∈ revocationStatuses)
    {records : List Dict} {pending : Option String} {issued : List (String × String)}
    {verdict : AuthenticityVerdict}
    (h : judgeRecords snapshot claims
      ((records.map fun record => record.textAt "record_id").zip records) pending issued =
        .ok verdict) (hpass : verdict.state = .pass) :
    verdict.authenticated = claims ∧ verdict.issued.Perm (issued ++ records.map fun record =>
      (record.textAt "record_id", record.textAt "issued_at")) := by
  induction records generalizing pending issued with
  | nil =>
      cases pending with
      | none =>
          obtain rfl := Except.ok.inj h
          exact ⟨rfl, by simpa using KeySort.sortBy_perm issued⟩
      | some reason =>
          obtain rfl := Except.ok.inj h
          exact absurd hpass (by simp)
  | cons record rest ih =>
      simp only [List.map_cons, List.zip_cons_cons, judgeRecords, bind_eq_ok] at h
      obtain ⟨outcome, houtcome, h⟩ := h
      have hmeans := judgeRecord_spec hdistinct hstatus houtcome
      cases outcome with
      | contradicted reason =>
          obtain rfl := Except.ok.inj h
          exact absurd hpass (by simp [contradictedFor])
      | pending reason =>
          -- what is pending stays so, and the set does not pass
          have hrest := judgeRecords_state hdistinct hstatus rfl h
          rw [hpass] at hrest
          exact absurd (by simp) hrest.1
      | authentic issuedAt =>
          obtain ⟨hclaims, hissued⟩ := ih h
          obtain ⟨-, rfl⟩ := hmeans
          exact ⟨hclaims, by simpa using hissued⟩

/-- The early exits of a set that passes. -/
lemma authenticityVerdict_issued {bundle : AuthorizationRecordBundle}
    {claims : List AuthorizationRecordClaim} {snapshot : Dict} {records : List Dict}
    {verdict : AuthenticityVerdict} (hrecords : SignedRecords bundle records)
    (hstatus : ∀ key ∈ issuerKeysOf snapshot, key.textAt "revocation_status" ∈ revocationStatuses)
    (h : authenticityVerdict bundle claims snapshot = .ok verdict)
    (hpass : verdict.state = .pass) :
    verdict.authenticated = claims ∧ verdict.issued.Perm (records.map fun record =>
      (record.textAt "record_id", record.textAt "issued_at")) := by
  have hno : ∀ reason, verdict ≠ contradictedFor reason := by
    rintro reason rfl
    exact absurd hpass (by simp [contradictedFor])
  unfold authenticityVerdict at h
  split_ifs at h with hpolicy hsequence hsigners
  · exact absurd (Except.ok.inj h).symm (hno _)
  · exact absurd (Except.ok.inj h).symm (hno _)
  · simp only [bind_eq_ok] at h
    obtain ⟨-, -, anchored, -, h⟩ := h
    split_ifs at h with hanchored
    · exact absurd (Except.ok.inj h).symm (hno _)
    · simp only [bind_eq_ok] at h
      obtain ⟨values, hvalues, h⟩ := h
      obtain rfl := hrecords.values_eq hvalues
      split_ifs at h with hroles
      · exact absurd (Except.ok.inj h).symm (hno _)
      · rw [hrecords.recordIds] at h
        simpa using judgeRecords_issued hsigners.1 hstatus h hpass
  · exact absurd (Except.ok.inj h).symm (hno _)

/-- **The signed times of an authentic set** are those of its records. -/
theorem signedIssuedAt_of_pass {bundle : AuthorizationRecordBundle}
    {trust : AuthorizationTrustSnapshotBundle} {context : AuthorizationAuthenticityContext}
    (h : prepareAuthorizationAuthenticityContext bundle trust = .ok context)
    (hpass : context.state = .pass) :
    (context.authenticatedRecords.map AuthorizationRecordClaim.recordId).Nodup ∧
      ∀ pair ∈ context.signedIssuedAt, SignedAt bundle pair.1 pair.2 := by
  simp only [prepareAuthorizationAuthenticityContext, bind_eq_ok] at h
  obtain ⟨recordContext, hcontext, snapshot, hsnapshot, h⟩ := h
  split_ifs at h with hunsigned
  · rw [(sealAuthenticity_eq_ok h).1] at hpass
    exact absurd hpass (by simp)
  · simp only [bind_eq_ok, exists_unit, require_eq_ok] at h
    obtain ⟨hsigned, verdict, hverdict, h⟩ := h
    obtain ⟨hstate, -, hauthenticated, hissued⟩ := sealAuthenticity_eq_ok h
    obtain ⟨records, hrecords⟩ := signedRecords_of_prepare hcontext hsigned
    obtain ⟨hclaims, hperm⟩ := authenticityVerdict_issued hrecords
      (revocationStatus_of_snapshot hsnapshot) hverdict (hstate ▸ hpass)
    refine ⟨?_, fun pair hpair => ?_⟩
    · obtain ⟨_, -, -, hdistinct, -, claims, hsorted, hmembers⟩ := recordContext_of_prepare hcontext
      rw [hauthenticated, hclaims, hsorted]
      have hids : claims.map AuthorizationRecordClaim.recordId =
          bundle.members.map AuthorizationRecordMember.recordId := by
        clear hsorted hdistinct
        generalize bundle.members = members at hmembers
        induction hmembers with
        | nil => rfl
        | cons hclaim _ ih =>
            obtain ⟨record, hrecord, rfl⟩ := hclaim
            rw [List.map_cons, List.map_cons, ih]
            exact congrArg (· :: _) (acceptedRecord_of_validate hrecord).2.recordId
      rw [sortClaims, ((KeySort.sortBy_perm claims).map _).nodup_iff, hids]
      exact hdistinct
    · rw [hissued, hperm.mem_iff] at hpair
      obtain ⟨record, hrecord, rfl⟩ := List.mem_map.mp hpair
      obtain ⟨member, hmember, hvalid⟩ := forall₂_exists_right hrecords.flip hrecord
      exact ⟨member, hmember, record, (acceptedRecord_of_validate hvalid).2.recordId.symm, hvalid,
        rfl⟩

end Authentic

/-! ## Two assertions, two records -/

omit [PyUnicode] in
lemma mem_of_signer {pairs : List (String × String)} {key value : String}
    (h : pairs.lookup key = some value) : (key, value) ∈ pairs := by
  obtain ⟨before, after, rfl, -⟩ := List.lookup_eq_some_iff.mp h
  simp

/-- Distinct roles that cover the two required ones are these two. -/
lemma AssertionsAccepted.eq_pair {subject : Dict} {subjectHash : String}
    {records : List AuthorizationRecordClaim} {assertions : List Dict}
    (h : AssertionsAccepted subject subjectHash records assertions)
    (hroles : subject.textsAt "required_role_claims" = approvalRequiredRoleClaims) :
    ∃ owner manager : Dict, assertions.Perm [owner, manager] ∧
      owner.textAt "role_claim" = "PROCESS_OWNER" ∧
      manager.textAt "role_claim" = "QUALITY_MANAGER" := by
  have hperm : (assertions.map fun a => Dict.textAt a "role_claim").Perm
      approvalRequiredRoleClaims := by
    rw [List.perm_ext_iff_of_nodup h.roles (by decide)]
    intro role
    refine ⟨fun hrole => ?_, h.covered role⟩
    obtain ⟨a, ha, rfl⟩ := List.mem_map.mp hrole
    exact hroles ▸ (h.joins a ha).role
  obtain ⟨x, y, rfl⟩ := List.length_eq_two.mp (by simpa [approvalRequiredRoleClaims] using
    hperm.length_eq : assertions.length = 2)
  have howner := hperm.mem_iff.mpr (by decide : "PROCESS_OWNER" ∈ approvalRequiredRoleClaims)
  have hmanager := hperm.mem_iff.mpr (by decide : "QUALITY_MANAGER" ∈ approvalRequiredRoleClaims)
  simp only [List.map_cons, List.map_nil, List.mem_cons, List.not_mem_nil, or_false] at howner
  simp only [List.map_cons, List.map_nil, List.mem_cons, List.not_mem_nil, or_false] at hmanager
  rcases howner with hx | hy
  · rcases hmanager with hx' | hy'
    · exact absurd (hx.trans hx'.symm) (by decide)
    · exact ⟨x, y, .refl _, hx.symm, hy'.symm⟩
  · rcases hmanager with hx' | hy'
    · exact ⟨y, x, .swap _ _ _, hy.symm, hx'.symm⟩
    · exact absurd (hy.trans hy'.symm) (by decide)

/-- An assertion that both checks accept rests on the record it names. -/
lemma joinedTo_of_checks {subject : Dict} {subjectHash : String}
    {records : List AuthorizationRecordClaim} {assertions : List Dict}
    {signedIssuedAt : List (String × String)} {record : AuthorizationRecordClaim}
    {assertion : Dict} {signed : String}
    (hwf : (Json.obj assertion).WF) (hjoins : AssertionJoins subject subjectHash records assertion)
    (h : RecordAsserted signedIssuedAt assertions record assertion signed) :
    JoinedTo subjectHash assertion record signed := by
  obtain ⟨-, haccepted⟩ := acceptedAssertion_of_validate hwf hjoins.shape
  obtain ⟨-, -, -, hfrom, huntil⟩ := h.compares
  refine ⟨hjoins.bound, haccepted.decision, h.recordId, h.compares, ?_, ?_, h.after⟩
  · rw [← hfrom, ← huntil]
    simp [haccepted.effective.2, haccepted.issued.2, haccepted.expires.2, h.moment]
  · rw [← hfrom, ← huntil]
    exact haccepted.window

omit [PyUnicode] in
/-- The two assertions have the two records to themselves. -/
lemma records_eq_pair {context : AuthorizationAuthenticityContext} {owner manager : Dict}
    (hids : (context.authenticatedRecords.map AuthorizationRecordClaim.recordId).Nodup)
    (h : AssertionsAuthenticated context [owner, manager]) :
    ∃ ownerClaim managerClaim ownerSigned managerSigned,
      context.authenticatedRecords.Perm [ownerClaim, managerClaim] ∧
      ownerClaim.recordId ≠ managerClaim.recordId ∧
      RecordAsserted context.signedIssuedAt [owner, manager] ownerClaim owner ownerSigned ∧
      RecordAsserted context.signedIssuedAt [owner, manager] managerClaim manager
        managerSigned := by
  obtain ⟨first, second, hrecords⟩ := List.length_eq_two.mp h.length.symm
  rw [hrecords] at hids ⊢
  obtain ⟨a, s, ha⟩ := h.asserted first (by simp [hrecords])
  obtain ⟨b, t, hb⟩ := h.asserted second (by simp [hrecords])
  have hne : first.recordId ≠ second.recordId := by simpa using hids
  -- one assertion names one record, so the records cannot share an assertion
  have hab : a ≠ b := by
    rintro rfl
    exact hne (ha.recordId.symm.trans hb.recordId)
  rcases List.mem_pair.mp ha.mem with rfl | rfl
  · rcases List.mem_pair.mp hb.mem with rfl | rfl
    · exact absurd rfl hab
    · exact ⟨first, second, s, t, .refl _, hne, ha, hb⟩
  · rcases List.mem_pair.mp hb.mem with rfl | rfl
    · exact ⟨second, first, t, s, .swap _ _ _, hne.symm, hb, ha⟩
    · exact absurd rfl hab

/-- What both checks accept is soundly approved. -/
lemma soundlyApproved_of_checks {bundle : AuthorizationRecordBundle}
    {context : AuthorizationAuthenticityContext} {subject : Dict} {subjectHash : String}
    {records : List AuthorizationRecordClaim} {assertions : List Dict}
    (hids : (context.authenticatedRecords.map AuthorizationRecordClaim.recordId).Nodup)
    (hsigned : ∀ pair ∈ context.signedIssuedAt, SignedAt bundle pair.1 pair.2)
    (hroles : subject.textsAt "required_role_claims" = approvalRequiredRoleClaims)
    (hwf : ∀ assertion ∈ assertions, (Json.obj assertion).WF)
    (haccepted : AssertionsAccepted subject subjectHash records assertions)
    (hauthentic : AssertionsAuthenticated context assertions) :
    SoundlyApproved subjectHash bundle context.authenticatedRecords (assertions.map .obj) := by
  obtain ⟨owner, manager, hperm, howner, hmanager⟩ := haccepted.eq_pair hroles
  have haccepted' := haccepted.of_perm hperm
  obtain ⟨ownerClaim, managerClaim, ownerSigned, managerSigned, hrecords, hne, ho, hm⟩ :=
    records_eq_pair hids (hauthentic.of_perm hperm)
  have hkeys : approvalKeyOf owner ≠ approvalKeyOf manager := by
    simpa using haccepted'.approvalIds
  have hjoined : ∀ {record assertion signed},
      RecordAsserted context.signedIssuedAt [owner, manager] record assertion signed →
        JoinedTo subjectHash assertion record signed := fun hone =>
    joinedTo_of_checks (hwf _ (hperm.mem_iff.mpr hone.mem)) (haccepted'.joins _ hone.mem) hone
  exact ⟨owner, manager, ownerClaim, managerClaim, ownerSigned, managerSigned, hperm.map _,
    hrecords, hne, hkeys, howner, hmanager, hjoined ho, hsigned _ (mem_of_signer ho.signedAt),
    hjoined hm, hsigned _ (mem_of_signer hm.signedAt)⟩

/-! ## The order of the list -/

/-- The first check returns the same of a list in another order. -/
lemma validationOf_perm {subjectHash : String} {context : AuthorizationRecordContext}
    {assertions assertions' : List Dict} {subject : Dict}
    (h : AssertionsAccepted subject subjectHash context.records assertions)
    (hperm : assertions.Perm assertions') :
    validationOf subjectHash context assertions = validationOf subjectHash context assertions' := by
  have hsorted : ∀ {texts texts' : List String}, texts.Nodup → texts.Perm texts' →
      KeySort.sortBy (fun text => [text]) texts = KeySort.sortBy (fun text => [text]) texts' :=
    fun hnodup hperm => KeySort.sortBy_eq_of_perm
      (hnodup.map fun _ _ h => List.singleton_injective h) hperm
  have hhashes := hsorted h.hashes (hperm.map assertionHashOf)
  have hroles := hsorted h.roles (hperm.map fun a => Dict.textAt a "role_claim")
  rw [validationOf, validationOf, hhashes, hroles]

omit [PyUnicode] in
lemma map_obj_perm {raws : List Json} {assertions : List Dict}
    (h : (assertions.map Json.obj).Perm raws) :
    ∃ assertions' : List Dict, raws = assertions'.map .obj ∧ assertions.Perm assertions' := by
  refine ⟨raws.filterMap Json.obj?, ?_, ?_⟩
  · have hall : ∀ raw ∈ raws, ∃ d, raw = .obj d := by
      intro raw hraw
      obtain ⟨d, -, hd⟩ := List.mem_map.mp (h.mem_iff.mpr hraw)
      exact ⟨d, hd.symm⟩
    clear h
    induction raws with
    | nil => rfl
    | cons raw rest ih =>
        obtain ⟨d, rfl⟩ := hall raw (by simp)
        rw [List.filterMap_cons_some (by rfl), List.map_cons,
          ← ih fun raw hraw => hall raw (List.mem_cons_of_mem _ hraw)]
  · have hfilter := h.filterMap Json.obj?
    have hobj : Json.obj? ∘ Json.obj = some := rfl
    rwa [List.filterMap_map, hobj, List.filterMap_some] at hfilter

lemma validateApprovalAssertions_of_perm {subject : Json} {raws raws' : List Json}
    {context : AuthorizationRecordContext} {validation : StatelessApprovalValidation}
    (hsubject : subject.WF) (hraws : ∀ raw ∈ raws, raw.WF) (hperm : raws.Perm raws')
    (h : validateApprovalAssertions subject raws context = .ok validation) :
    validateApprovalAssertions subject raws' context = .ok validation := by
  have hraws' : ∀ raw ∈ raws', raw.WF := fun raw hraw => hraws raw (hperm.mem_iff.mpr hraw)
  obtain ⟨value, subjectHash, hvalue, hhash, hrecords, assertions, rfl, haccepted, rfl⟩ :=
    (validateApprovalAssertions_eq_ok hsubject hraws).mp h
  obtain ⟨assertions', rfl, hperm'⟩ := map_obj_perm hperm
  exact (validateApprovalAssertions_eq_ok hsubject hraws').mpr
    ⟨value, subjectHash, hvalue, hhash, hrecords, assertions', rfl, haccepted.of_perm hperm',
      validationOf_perm haccepted hperm'⟩

omit [PyUnicode] in
lemma requireAuthenticated_of_perm {raws raws' : List Json}
    {context : AuthorizationAuthenticityContext} {records : List AuthorizationRecordClaim}
    (hraws : ∀ raw ∈ raws, raw.WF) (hperm : raws.Perm raws')
    (h : requireAuthenticatedAssertionRecords raws context = .ok records) :
    requireAuthenticatedAssertionRecords raws' context = .ok records := by
  have hraws' : ∀ raw ∈ raws', raw.WF := fun raw hraw => hraws raw (hperm.mem_iff.mpr hraw)
  obtain ⟨hstate, hrecords, assertions, rfl, hauthentic⟩ :=
    (requireAuthenticated_eq_ok hraws).mp h
  obtain ⟨assertions', rfl, hperm'⟩ := map_obj_perm hperm
  exact (requireAuthenticated_eq_ok hraws').mpr
    ⟨hstate, hrecords, assertions', rfl, hauthentic.of_perm hperm'⟩

/-! ## Approval soundness -/

section Sound

variable [Ed25519]

/-- **Approval is sound.**  A list that both checks accept is one approval of each role, bound to
the subject and resting on its own record of the authenticated set, which the two exhaust; every
order of the list is judged alike, with one result and one identity of its set. -/
theorem approval_sound {bundle : AuthorizationRecordBundle}
    {trust : AuthorizationTrustSnapshotBundle} {context : AuthorizationAuthenticityContext}
    (hcontext : prepareAuthorizationAuthenticityContext bundle trust = .ok context)
    {subject : Json} {raws : List Json} (hsubject : subject.WF) (hraws : ∀ raw ∈ raws, raw.WF)
    (recordContext : AuthorizationRecordContext) :
    (∀ validation records, validateApprovalAssertions subject raws recordContext = .ok validation →
      requireAuthenticatedAssertionRecords raws context = .ok records →
      records = context.authenticatedRecords ∧
        approvalSubjectHash subject = .ok validation.approvalSubjectHash ∧
        validation.approvedRoles = ["PROCESS_OWNER", "QUALITY_MANAGER"] ∧
        SoundlyApproved validation.approvalSubjectHash bundle records raws) ∧
    ∀ raws', raws.Perm raws' →
      (∀ validation, validateApprovalAssertions subject raws recordContext = .ok validation ↔
        validateApprovalAssertions subject raws' recordContext = .ok validation) ∧
      (∀ identity, (do
          let validation ← validateApprovalAssertions subject raws recordContext
          approvalAssertionSetHash validation) = .ok identity ↔ (do
          let validation ← validateApprovalAssertions subject raws' recordContext
          approvalAssertionSetHash validation) = .ok identity) ∧
      ∀ records, requireAuthenticatedAssertionRecords raws context = .ok records ↔
        requireAuthenticatedAssertionRecords raws' context = .ok records := by
  constructor
  · intro validation records hvalidation hrecords
    obtain ⟨value, subjectHash, hvalue, hhash, -, assertions, rfl, haccepted, rfl⟩ :=
      (validateApprovalAssertions_eq_ok hsubject hraws).mp hvalidation
    obtain ⟨hpass, rfl, assertions', hsame, hauthentic⟩ :=
      (requireAuthenticated_eq_ok hraws).mp hrecords
    obtain rfl : assertions = assertions' :=
      List.map_injective_iff.mpr (fun _ _ h => Json.obj.inj h) hsame
    obtain ⟨hids, hsigned⟩ := signedIssuedAt_of_pass hcontext hpass
    obtain ⟨-, hvalid⟩ := acceptedSubject_of_validate hsubject hvalue
    refine ⟨rfl, hhash, ?_, soundlyApproved_of_checks hids hsigned hvalid.roles
      (fun a ha => hraws _ (List.mem_map_of_mem ha)) haccepted hauthentic⟩
    obtain ⟨owner, manager, hperm, howner, hmanager⟩ := haccepted.eq_pair hvalid.roles
    rw [validationOf_perm haccepted hperm]
    simp only [validationOf, List.map_cons, List.map_nil, howner, hmanager]
    decide
  · intro raws' hperm
    have hraws' : ∀ raw ∈ raws', raw.WF := fun raw hraw => hraws raw (hperm.mem_iff.mpr hraw)
    have hvalidations : ∀ validation,
        validateApprovalAssertions subject raws recordContext = .ok validation ↔
          validateApprovalAssertions subject raws' recordContext = .ok validation := fun validation =>
      ⟨validateApprovalAssertions_of_perm hsubject hraws hperm,
        validateApprovalAssertions_of_perm hsubject hraws' hperm.symm⟩
    exact ⟨hvalidations, fun identity => by simp only [bind_eq_ok, hvalidations],
      fun records => ⟨requireAuthenticated_of_perm hraws hperm,
        requireAuthenticated_of_perm hraws' hperm.symm⟩⟩

end Sound

end Checks

/-! ## The fixtures -/

section Sample

attribute [local instance] asciiUnicode acceptingEd25519

/-- The hash of a text of another field. -/
def emptyDigest : String := "e3b0c44298fc1c149afbf4c8996fb92427ae41e4649b934ca495991b7852b855"

/-- The hash of the subject's purpose. -/
def purposeDigest : String := "34dbc56b1c0ada99a9dd2f0929b22ba0f94760ee482dcb59b552ec1ba5a49e81"

/-- A subject of the first version. -/
def sampleSubject : Dict := Dict.ofList
  [("approval_policy_version", .str approvalPolicyVersion),
   ("artifact_subject_hash", .str emptyDigest), ("case_id", .str "CASE-1"),
   ("contract_version", .str legacyApprovalSubjectContractVersion),
   ("controlled_reference_policy_hash", .str emptyDigest), ("event_id", .str "EV-1"),
   ("event_revision", .str "2"), ("execution_nonce", .str "N-1"),
   ("operations_hash", .str emptyDigest), ("pre_case_subject_hash", .str emptyDigest),
   ("purpose_code", .str approvalPurposeCode), ("purpose_text", .str "apply the resolution"),
   ("purpose_text_hash", .str purposeDigest),
   ("required_role_claims", .arr (approvalRequiredRoleClaims.map .str)),
   ("resolution_description_hash", .str purposeDigest), ("resolution_id", .str "R-1"),
   ("scope_code", .str approvalScopeCode), ("use_policy", .str approvalUsePolicy),
   ("validation_approval_policy_hash", .str emptyDigest)]

def sampleSubjectHash : String :=
  "31bf558fc1e5c4219e585783c25ef49fe4eb47005813d69c599c17fa4781a768"

/-- An assertion of a role on the strength of a record. -/
def sampleAssertion (approvalId approver role recordId recordHash : String) : Dict := Dict.ofList
  [("approval_id", .str approvalId), ("approval_subject_hash", .str sampleSubjectHash),
   ("approver_id_claim", .str approver),
   ("assertion_contract_version", .str approvalAssertionContractVersion),
   ("authorization_record_hash", .str recordHash), ("authorization_record_id", .str recordId),
   ("decision", .str "APPROVED"), ("effective_from", .str "2024-01-01T00:00:00Z"),
   ("expires_at", .str "2025-01-01T00:00:00Z"), ("issued_at", .str "2024-02-01T00:00:00Z"),
   ("role_claim", .str role)]

def ownerAssertion : Dict :=
  sampleAssertion "A-1" "SYN-PO-BOB" "PROCESS_OWNER" "AUTH-PO-2024-A" fixturePack.hash

def managerAssertion : Dict :=
  sampleAssertion "A-2" "SYN-QM-ALICE" "QUALITY_MANAGER" "AUTH-QM-2024-A" managerHash

lemma wf_sampleSubject : (Json.obj sampleSubject).WF :=
  Json.wf_ofList (by simp [Json.WF, Json.ItemsWF, approvalRequiredRoleClaims])

lemma sampleSubject_finite : (Json.obj sampleSubject).isFinite = true :=
  isFinite_ofList (by simp [Json.isFinite, Json.itemsFinite, approvalRequiredRoleClaims])

lemma wf_sampleAssertion (approvalId approver role recordId recordHash : String) :
    (Json.obj (sampleAssertion approvalId approver role recordId recordHash)).WF :=
  Json.wf_ofList (by simp [Json.WF])

lemma sampleAssertion_finite (approvalId approver role recordId recordHash : String) :
    (Json.obj (sampleAssertion approvalId approver role recordId recordHash)).isFinite = true :=
  isFinite_ofList (by simp [Json.isFinite])

/-! ### The digests -/

lemma sample_digests : sha256Hex (textDomain ++ "apply the resolution") = purposeDigest ∧
    sha256Hex (subjectDomain ++ textOf sampleSubject) = sampleSubjectHash ∧
    assertionHashOf ownerAssertion =
      "6e179f6d07e99fa002a804ea42f78def9fdf0fdfd6c80e115f1b223dcf8dbd14" ∧
    assertionHashOf managerAssertion =
      "c1d52c4bc154c6c9f3f574987a74a5b1ab65a2e0c92c1e37359a1efe3a6ad525" :=
  ⟨sha256Hex_of_eval (evalUtf8_eq _).symm (by decide +kernel),
    sha256Hex_of_eval (utf8_tagged_jsonText _ _) (by decide +kernel),
    sha256Hex_of_eval (utf8_tagged_jsonText _ _) (by decide +kernel),
    sha256Hex_of_eval (utf8_tagged_jsonText _ _) (by decide +kernel)⟩

/-! ### What the checks read -/

/-- A subject of the first version, field by field. -/
lemma validateApprovalSubject_legacy [PyUnicode] {d : Dict} (hwf : (Json.obj d).WF)
    (hfinite : (Json.obj d).isFinite = true) (hforbidden : forbiddenKeys d = [])
    (hkeys : HasExactKeys d approvalSubjectKeys)
    (htexts : ∀ key ∈ subjectTextFields, nonemptyField d "approval subject" key = .ok ())
    (hhashes : ∀ key ∈ subjectHashFields,
      shaField d key ("approval subject " ++ key) = .ok ())
    (hversion : d.get? "contract_version" = some (.str legacyApprovalSubjectContractVersion))
    (hcodes : d.textAt "purpose_code" = approvalPurposeCode ∧
      d.textAt "scope_code" = approvalScopeCode ∧
      d.textAt "approval_policy_version" = approvalPolicyVersion ∧
      d.textAt "use_policy" = approvalUsePolicy)
    (hroles : d.get? "required_role_claims" = some (.arr (approvalRequiredRoleClaims.map .str)))
    (hrequired : validateSubjectRoles (.arr (approvalRequiredRoleClaims.map .str)) = .ok ())
    (htext : d.textAt "purpose_text_hash" = sha256Hex (textDomain ++ d.textAt "purpose_text") ∧
      d.textAt "resolution_description_hash" =
        sha256Hex (textDomain ++ d.textAt "purpose_text")) :
    validateApprovalSubject (.obj d) = .ok d := by
  have hexpected : subjectKeysOf (d.get? "contract_version") = .ok approvalSubjectKeys := by
    simp [hversion, subjectKeysOf]
  have hlegacy : ¬d.get? "contract_version" = some (.str sourceApprovalSubjectContractVersion) := by
    simp [hversion, legacyApprovalSubjectContractVersion, sourceApprovalSubjectContractVersion]
  simp only [validateApprovalSubject, hexpected, ok_bind, bind_eq_ok, exists_unit, require_eq_ok,
    forEach_eq_ok, whenever_eq_ok, canonicalCopy_eq_ok hwf, Dict.getItem_eq_ok]
  exact ⟨hforbidden, hkeys, htexts, hhashes, fun h => absurd h hlegacy, hcodes.1, hcodes.2.1,
    hcodes.2.2.1, hcodes.2.2.2, _, hroles, hrequired, htext, _, ⟨hfinite, rfl⟩, rfl⟩

lemma sampleSubject_accepted : sampleSubject.get? "contract_version" =
      some (.str legacyApprovalSubjectContractVersion) ∧
    validateApprovalSubject (.obj sampleSubject) = .ok sampleSubject := by
  have hversion : sampleSubject.get? "contract_version" =
      some (.str legacyApprovalSubjectContractVersion) := by decide +kernel
  have hpurpose : sampleSubject.textAt "purpose_text" = "apply the resolution" ∧
      sampleSubject.textAt "purpose_text_hash" = purposeDigest ∧
      sampleSubject.textAt "resolution_description_hash" = purposeDigest := by
    decide +kernel
  refine ⟨hversion, validateApprovalSubject_legacy wf_sampleSubject sampleSubject_finite
    (by decide +kernel) (by decide +kernel) (by decide +kernel) (by decide +kernel) hversion
    (by decide +kernel) (by decide +kernel) (by decide +kernel) ?_⟩
  rw [hpurpose.1, sample_digests.1]
  exact hpurpose.2

lemma sampleSubject_hash : approvalSubjectHash (.obj sampleSubject) = .ok sampleSubjectHash := by
  obtain ⟨hversion, haccepted⟩ := sampleSubject_accepted
  rw [approvalSubjectHash, haccepted, ok_bind, if_pos hversion, approvalDomainHash,
    dumps_textOf sampleSubject_finite, ok_bind, sample_digests.2.1]

/-- The fields of both assertions, and their time of issue. -/
lemma sampleAssertion_fields : (∀ d ∈ [ownerAssertion, managerAssertion],
    HasExactKeys d approvalAssertionKeys ∧
    (∀ key ∈ approvalAssertionKeys, nonemptyField d "approval assertion" key = .ok ()) ∧
    d.textAt "assertion_contract_version" = approvalAssertionContractVersion ∧
    d.textAt "decision" = "APPROVED" ∧ d.textAt "role_claim" ∈ approvalRequiredRoleClaims ∧
    shaField d "approval_subject_hash" "approval assertion subject hash" = .ok () ∧
    shaField d "authorization_record_hash" "approval assertion authorization record hash" =
      .ok () ∧
    d.get? "effective_from" = some (.str "2024-01-01T00:00:00Z") ∧
    d.get? "issued_at" = some (.str "2024-02-01T00:00:00Z") ∧
    d.get? "expires_at" = some (.str "2025-01-01T00:00:00Z") ∧
    d.textAt "approval_subject_hash" = sampleSubjectHash) ∧
    (parseTimestamp "2024-02-01T00:00:00Z").isSome = true ∧
    timeOf "2024-01-15T00:00:00Z" ≤ timeOf "2024-02-01T00:00:00Z" ∧
    timeOf "2024-02-01T00:00:00Z" ≤ timeOf "2025-01-01T00:00:00Z" := by
  decide +kernel

lemma sampleAssertion_wf : ∀ d ∈ [ownerAssertion, managerAssertion], (Json.obj d).WF := by
  simp [ownerAssertion, managerAssertion, wf_sampleAssertion]

lemma sampleAssertion_shape : ∀ d ∈ [ownerAssertion, managerAssertion],
    validateApprovalAssertionShape (.obj d) = .ok d := by
  intro d hd
  obtain ⟨hkeys, htexts, hversion, hdecision, hrole, hsubject, hrecord, hfrom, hissued, huntil, -⟩ :=
    sampleAssertion_fields.1 d hd
  obtain ⟨hfromTime, -, huntilTime, hfirst, -⟩ := sampleRecord_window
  obtain ⟨-, hissuedTime, hafter, hbefore⟩ := sampleAssertion_fields
  have hfinite : (Json.obj d).isFinite = true := by
    rcases List.mem_pair.mp hd with rfl | rfl
    · exact sampleAssertion_finite ..
    · exact sampleAssertion_finite ..
  simp only [validateApprovalAssertionShape, bind_eq_ok, exists_unit, require_eq_ok, forEach_eq_ok,
    Dict.getItem_eq_ok, hfrom, hissued, huntil, Option.some.injEq, exists_eq_left',
    parseRfc3339Utc_str, hfromTime, hissuedTime, huntilTime, Except.ok.injEq,
    canonicalCopy_eq_ok (sampleAssertion_wf d hd)]
  exact ⟨hkeys, htexts, hversion, hdecision, hrole, hsubject, hrecord,
    ⟨hfirst.trans hafter, hbefore⟩, _, ⟨hfinite, rfl⟩, rfl⟩

/-! ### The records of the pack -/

def ownerClaim : AuthorizationRecordClaim where
  recordId := "AUTH-PO-2024-A"
  contentHash := fixturePack.hash
  approverIdClaim := "SYN-PO-BOB"
  roleClaim := "PROCESS_OWNER"
  purposeCode := approvalPurposeCode
  scopeCode := approvalScopeCode
  effectiveFrom := "2024-01-01T00:00:00Z"
  expiresAt := "2025-01-01T00:00:00Z"

def managerClaim : AuthorizationRecordClaim where
  recordId := "AUTH-QM-2024-A"
  contentHash := managerHash
  approverIdClaim := "SYN-QM-ALICE"
  roleClaim := "QUALITY_MANAGER"
  purposeCode := approvalPurposeCode
  scopeCode := approvalScopeCode
  effectiveFrom := "2024-01-01T00:00:00Z"
  expiresAt := "2025-01-01T00:00:00Z"

lemma sampleAssertions_compare : sortClaims fixturePack.claims = [ownerClaim, managerClaim] ∧
    ComparesWith ownerAssertion ownerClaim ∧
    ComparesWith managerAssertion managerClaim ∧
    ownerAssertion.textAt "authorization_record_id" = "AUTH-PO-2024-A" ∧
    managerAssertion.textAt "authorization_record_id" = "AUTH-QM-2024-A" ∧
    ownerAssertion.textAt "role_claim" = "PROCESS_OWNER" ∧
    managerAssertion.textAt "role_claim" = "QUALITY_MANAGER" ∧
    approvalKeyOf ownerAssertion ≠ approvalKeyOf managerAssertion ∧
    normalizedIdentity "AUTH-PO-2024-A" ≠ normalizedIdentity "AUTH-QM-2024-A" := by
  decide +kernel

lemma sampleAssertions_accepted : AssertionsAccepted sampleSubject sampleSubjectHash
    [ownerClaim, managerClaim] [ownerAssertion, managerAssertion] := by
  obtain ⟨-, howner, hmanager, hownerId, hmanagerId, hownerRole, hmanagerRole, hkeys, hids⟩ :=
    sampleAssertions_compare
  obtain ⟨-, -, hownerHash, hmanagerHash⟩ := sample_digests
  obtain ⟨-, hsubject⟩ := acceptedSubject_of_validate wf_sampleSubject sampleSubject_accepted.2
  have hjoins : ∀ d ∈ [ownerAssertion, managerAssertion],
      (∃ record, recordAt [ownerClaim, managerClaim]
          (normalizedIdentity (d.textAt "authorization_record_id")) = some record ∧
        d.textAt "authorization_record_id" = record.recordId ∧ ComparesWith d record ∧
        record.purposeCode = sampleSubject.textAt "purpose_code" ∧
        record.scopeCode = sampleSubject.textAt "scope_code") →
      AssertionJoins sampleSubject sampleSubjectHash [ownerClaim, managerClaim] d := fun d hd h =>
    ⟨sampleAssertion_shape d hd, (sampleAssertion_fields.1 d hd).2.2.2.2.2.2.2.2.2.2,
      hsubject.roles ▸ (sampleAssertion_fields.1 d hd).2.2.2.2.1, h⟩
  refine ⟨?_, by simpa using hkeys, by simp [hownerRole, hmanagerRole],
    by simp [hownerRole, hmanagerRole, approvalRequiredRoleClaims],
    by simp [hownerHash, hmanagerHash]⟩
  simp only [List.forall_mem_cons, List.not_mem_nil, false_implies, implies_true, and_true]
  refine ⟨hjoins _ (by simp) ⟨ownerClaim, ?_, hownerId, howner, hsubject.purpose.symm,
    hsubject.scope.symm⟩, hjoins _ (by simp) ⟨managerClaim, ?_, hmanagerId, hmanager,
    hsubject.purpose.symm, hsubject.scope.symm⟩⟩
  · simp [recordAt, hownerId, ownerClaim]
  · simp [recordAt, hmanagerId, ownerClaim, managerClaim, hids]

lemma sampleAssertions_authenticated {context : AuthorizationAuthenticityContext}
    (hrecords : context.authenticatedRecords = [ownerClaim, managerClaim])
    (hissued : context.signedIssuedAt = [("AUTH-PO-2024-A", "2024-01-15T00:00:00Z"),
      ("AUTH-QM-2024-A", "2024-01-15T00:00:00Z")]) :
    AssertionsAuthenticated context [ownerAssertion, managerAssertion] := by
  obtain ⟨-, howner, hmanager, hownerId, hmanagerId, -⟩ := sampleAssertions_compare
  obtain ⟨-, hsigned, -⟩ := sampleRecord_window
  have hafter : ∀ d ∈ [ownerAssertion, managerAssertion],
      timeOf "2024-01-15T00:00:00Z" ≤ timeOf (d.textAt "issued_at") := fun d hd => by
    rw [Dict.textAt_eq (sampleAssertion_fields.1 d hd).2.2.2.2.2.2.2.2.1]
    exact sampleAssertion_fields.2.2.1
  refine ⟨sampleAssertion_shape, by simp [hrecords], by simp [hownerId, hmanagerId], ?_⟩
  rw [hrecords, hissued]
  simp only [List.forall_mem_cons, List.not_mem_nil, false_implies, implies_true, and_true]
  exact ⟨⟨ownerAssertion, _, by simp, hownerId, howner, by simp [ownerClaim], hsigned,
    hafter _ (by simp)⟩, ⟨managerAssertion, _, by simp, hmanagerId, hmanager,
    by simp [managerClaim, List.lookup_cons], hsigned, hafter _ (by simp)⟩⟩

/-- **The pack of the fixtures and an assertion of each role** pass both checks, and are soundly
approved. -/
theorem approval_sound_fixture : ∃ context validation records,
    prepareAuthorizationAuthenticityContext fixturePack.bundle sampleTrust = .ok context ∧
    validateApprovalAssertions (.obj sampleSubject) [.obj ownerAssertion, .obj managerAssertion]
      context.recordContext = .ok validation ∧
    requireAuthenticatedAssertionRecords [.obj ownerAssertion, .obj managerAssertion] context =
      .ok records ∧
    validation.approvedRoles = ["PROCESS_OWNER", "QUALITY_MANAGER"] ∧
    SoundlyApproved validation.approvalSubjectHash fixturePack.bundle records
      [.obj ownerAssertion, .obj managerAssertion] ∧
    validateApprovalAssertions (.obj sampleSubject) [.obj managerAssertion, .obj ownerAssertion]
      context.recordContext = .ok validation := by
  obtain ⟨context, hcontext, -, hrecords, hstate, hauthenticated, hissued⟩ :=
    SamplePack.sealed (fixtureVerdict _)
  rw [sampleAssertions_compare.1] at hrecords hauthenticated
  have hraws : ∀ raw ∈ [Json.obj ownerAssertion, .obj managerAssertion], raw.WF := by
    simpa using sampleAssertion_wf
  have hvalidation := (validateApprovalAssertions_eq_ok wf_sampleSubject hraws).mpr
    ⟨sampleSubject, sampleSubjectHash, sampleSubject_accepted.2, sampleSubject_hash,
      by simp [hrecords, ownerClaim, managerClaim, sampleAssertions_compare.2.2.2.2.2.2.2.2],
      [ownerAssertion, managerAssertion], rfl, hrecords ▸ sampleAssertions_accepted, rfl⟩
  have hrequired := (requireAuthenticated_eq_ok hraws).mpr ⟨hstate, rfl,
    [ownerAssertion, managerAssertion], rfl, sampleAssertions_authenticated hauthenticated hissued⟩
  obtain ⟨hsound, hperm⟩ := approval_sound hcontext wf_sampleSubject hraws context.recordContext
  obtain ⟨-, -, hroles, happroved⟩ := hsound _ _ hvalidation hrequired
  exact ⟨context, _, _, hcontext, hvalidation, hrequired, hroles, happroved,
    ((hperm _ (.swap _ _ _)).1 _).mp hvalidation⟩

end Sample
end QualityCI

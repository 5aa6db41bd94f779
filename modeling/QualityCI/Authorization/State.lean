import QualityCI.Authorization.Authenticity

/-!
# The three states of authenticity

A signed record set is authentic when the snapshot is trusted, the records hold exactly the two
required roles and every record joins an active key; it is contradicted as soon as one of these is
refuted, whatever else is unknown and in whatever order the members come; otherwise it is
unverifiable.

* `SnapshotTrusted`, `RolesRequired` — the conditions on the snapshot and on the set of records.
* `RecordAuthentic`, `RecordContradicted`, `RecordPending` — the three ways a record may join.
* **`judgeRecord_spec`** — one pass of the loop tells these three apart.
* **`judgeRecords_state`** — the loop: one contradiction decides, else one pending record.
* **`authenticity_state`** — the state of a prepared context.
-/

namespace QualityCI

open Py

/-! ## Conditions -/

/-- The bytes a signature is over. -/
def messageOf (domain : String) (value : Dict) : Bytes :=
  encodeUtf8 domain ++ encodeUtf8 (String.ofList (jsonText (.obj (value.erase "signature"))))

/-- The signature in an object verifies under a key. -/
def Verifies [Ed25519] (publicKey domain : String) (value : Dict) : Prop :=
  ∃ key signature, base64Decode publicKey = some key ∧
    base64Decode (value.textAt "signature") = some signature ∧
    Ed25519.verify key signature (messageOf domain value) = true

/-- The key may sign for the record's role, purpose and scope. -/
def Capable (key record : Dict) : Prop :=
  record.textAt "role_claim" ∈ key.textsAt "allowed_role_claims" ∧
    record.textAt "purpose_code" ∈ key.textsAt "allowed_purpose_codes" ∧
    record.textAt "scope_code" ∈ key.textsAt "allowed_scope_codes"

/-- The record's window lies in the key's, and its issue in the record's window. -/
def WindowsNested (key record : Dict) : Prop :=
  timeOf (key.textAt "effective_from") ≤ timeOf (record.textAt "effective_from") ∧
    timeOf (record.textAt "effective_from") ≤ timeOf (record.textAt "issued_at") ∧
    timeOf (record.textAt "issued_at") ≤ timeOf (record.textAt "expires_at") ∧
    timeOf (record.textAt "expires_at") ≤ timeOf (key.textAt "expires_at")

instance (key record : Dict) : Decidable (Capable key record) :=
  inferInstanceAs (Decidable (_ ∧ _))

instance (key record : Dict) : Decidable (WindowsNested key record) :=
  inferInstanceAs (Decidable (_ ∧ _))

/-- The record names this key of the snapshot. -/
def NamesKey (snapshot record key : Dict) : Prop :=
  key ∈ issuerKeysOf snapshot ∧ signerOf key = signerOf record

/-- The record joins the key: the key is active and capable, the windows are nested and the
record's signature verifies. -/
structure JoinsKey [Ed25519] (snapshot record key : Dict) : Prop where
  named : NamesKey snapshot record key
  active : key.textAt "revocation_status" = "ACTIVE"
  capable : Capable key record
  nested : WindowsNested key record
  verifies : Verifies (key.textAt "public_key") recordSignatureDomain record

/-- The record is of the snapshot's trust domain. -/
def SameTrustDomain (snapshot record : Dict) : Prop :=
  record.textAt "trust_domain" = snapshot.textAt "trust_domain"

def RecordAuthentic [Ed25519] (snapshot record : Dict) : Prop :=
  SameTrustDomain snapshot record ∧ ∃ key, JoinsKey snapshot record key

/-- The trust domain is foreign, or the named key is revoked, or it is active and the record fails
its capabilities, its window or its signature. -/
def RecordContradicted [Ed25519] (snapshot record : Dict) : Prop :=
  ¬SameTrustDomain snapshot record ∨ ∃ key, NamesKey snapshot record key ∧
    (key.textAt "revocation_status" = "REVOKED" ∨
      key.textAt "revocation_status" = "ACTIVE" ∧ ¬JoinsKey snapshot record key)

/-- The snapshot has no key for the record, or does not know the key's status. -/
def RecordPending (snapshot record : Dict) : Prop :=
  SameTrustDomain snapshot record ∧ ((¬∃ key, NamesKey snapshot record key) ∨
    ∃ key, NamesKey snapshot record key ∧ key.textAt "revocation_status" = "UNKNOWN")

section Conditions

variable [PyUnicode] [Ed25519]

/-- The conditions on the snapshot alone. -/
structure SnapshotTrusted (snapshot : Dict) : Prop where
  policy : ∀ field ∈ policyFields, snapshot.textAt field = fixedPolicy.textAt field
  sequence : intAt fixedPolicy "minimum_snapshot_sequence" ≤ intAt snapshot "snapshot_sequence"
  signers : DistinctSigners snapshot
  anchored : Verifies (fixedPolicy.textAt "anchor_public_key") snapshotDomain snapshot

/-- The records hold exactly the required roles. -/
def RolesRequired (records : List Dict) : Prop :=
  (records.map fun record => record.textAt "role_claim").Perm requiredRoleClaims

/-- The members of a bundle with the signed records their bytes are. -/
def SignedRecords (bundle : AuthorizationRecordBundle) (records : List Dict) : Prop :=
  List.Forall₂ (fun member record => validateRecord member.rawBytes member.recordId
    signedAuthorizationRecordContractVersion = .ok record) bundle.members records

end Conditions

/-! ## Signatures -/

lemma base64Field_eq_ok {v : Json} {label m1 m2 : String} {size : ℕ} {raw : Bytes}
    (h : base64Field v label size m1 m2 = .ok raw) :
    ∃ s, v = .str s ∧ base64Decode s = some raw := by
  simp only [base64Field, bind_eq_ok, exactString_eq_ok] at h
  obtain ⟨s, ⟨rfl, -⟩, h⟩ := h
  cases hraw : base64Decode s with
  | none => simp [hraw] at h
  | some bytes =>
      simp only [hraw, bind_eq_ok, exists_unit, Except.ok.injEq] at h
      exact ⟨s, rfl, by rw [hraw, h.2]⟩

lemma signedMessage_eq_ok {domain : String} {value : Dict} {message : Bytes}
    (h : signedMessage domain value = .ok message) : message = messageOf domain value := by
  simp only [signedMessage, canonicalBytes, bind_eq_ok, Except.ok.injEq] at h
  obtain ⟨_, ⟨text, htext, rfl⟩, rfl⟩ := h
  rw [messageOf, (dumps_eq_ok.mp htext).2]

/-- A verification that returned says whether the signature verifies. -/
lemma verifyEd25519_iff [Ed25519] {key value : Dict} {keyField domain : String} {valid : Bool}
    {message : Bytes} (hmessage : signedMessage domain value = .ok message)
    (h : verifyEd25519 (key.getD keyField .null) (value.getD "signature" .null) message =
      .ok valid) :
    valid = true ↔ Verifies (key.textAt keyField) domain value := by
  have htext : ∀ {d : Dict} {field s : String}, d.getD field .null = .str s →
      d.textAt field = s := by
    intro d field s hd
    rw [Dict.getD] at hd
    cases hget : d.get? field with
    | none => simp [hget] at hd
    | some v =>
        rw [hget, Option.getD_some] at hd
        exact Dict.textAt_eq (hd ▸ hget)
  simp only [verifyEd25519, trustBase64, bind_eq_ok, Except.ok.injEq] at h
  obtain ⟨publicKey, hkey, signature, hsignature, rfl⟩ := h
  obtain ⟨k, hk, hkeyBytes⟩ := base64Field_eq_ok hkey
  obtain ⟨s, hs, hsignatureBytes⟩ := base64Field_eq_ok hsignature
  rw [signedMessage_eq_ok hmessage, Verifies, htext hk, htext hs]
  constructor
  · intro hvalid
    exact ⟨publicKey, signature, hkeyBytes, hsignatureBytes, hvalid⟩
  · rintro ⟨publicKey', signature', hk', hs', hvalid⟩
    rw [hkeyBytes] at hk'
    rw [hsignatureBytes] at hs'
    obtain rfl := Option.some.inj hk'
    obtain rfl := Option.some.inj hs'
    exact hvalid

/-! ## One record -/

/-- Among distinct signers the key of a record is the one it names. -/
lemma issuerKeyOf_eq_some {snapshot record key : Dict}
    (hdistinct : ((issuerKeysOf snapshot).map signerOf).Nodup) :
    issuerKeyOf snapshot (signerOf record) = some key ↔ NamesKey snapshot record key := by
  have hfilter : ∀ {k}, k ∈ (issuerKeysOf snapshot).filter
      (fun key => decide (signerOf key = signerOf record)) ↔ NamesKey snapshot record k := by
    intro k
    simp [NamesKey]
  constructor
  · intro h
    exact hfilter.mp (List.mem_of_getLast? h)
  · intro h
    have hmem := hfilter.mpr h
    -- every key of the record's signer is this one
    have hone : ∀ k ∈ (issuerKeysOf snapshot).filter
        (fun key => decide (signerOf key = signerOf record)), k = key := by
      intro k hk
      obtain ⟨hk, hsigner⟩ := hfilter.mp hk
      exact List.inj_on_of_nodup_map hdistinct hk h.1 (hsigner.trans h.2.symm)
    have hne := List.ne_nil_of_mem hmem
    rw [issuerKeyOf, List.getLast?_eq_some_getLast hne, hone _ (List.getLast_mem hne)]

lemma issuerKeyOf_eq_none {snapshot record : Dict}
    (hdistinct : ((issuerKeysOf snapshot).map signerOf).Nodup) :
    issuerKeyOf snapshot (signerOf record) = none ↔ ¬∃ key, NamesKey snapshot record key := by
  rw [Option.eq_none_iff_forall_not_mem]
  simp only [Option.mem_def, issuerKeyOf_eq_some hdistinct, not_exists]

section Judging

variable [Ed25519]

/-- What an outcome says of the record. -/
def RecordOutcome.Means (snapshot record : Dict) : RecordOutcome → Prop
  | .contradicted _ => RecordContradicted snapshot record
  | .pending _ => RecordPending snapshot record
  | .authentic issuedAt => RecordAuthentic snapshot record ∧ issuedAt = record.textAt "issued_at"

/-- **One pass of the loop** tells the three ways apart. -/
theorem judgeRecord_spec {snapshot record : Dict} {outcome : RecordOutcome}
    (hdistinct : ((issuerKeysOf snapshot).map signerOf).Nodup)
    (hstatus : ∀ key ∈ issuerKeysOf snapshot, key.textAt "revocation_status" ∈ revocationStatuses)
    (h : judgeRecord snapshot (record.textAt "record_id") record = .ok outcome) :
    outcome.Means snapshot record := by
  simp only [judgeRecord, ne_eq, not_true_eq_false, false_or] at h
  by_cases hdomain : SameTrustDomain snapshot record
  · have hsame : record.textAt "trust_domain" = snapshot.textAt "trust_domain" := hdomain
    rw [if_neg (not_not.mpr hsame)] at h
    cases hkey : issuerKeyOf snapshot (signerOf record) with
    | none =>
        rw [hkey] at h
        obtain rfl := Except.ok.inj h
        exact ⟨hdomain, Or.inl ((issuerKeyOf_eq_none hdistinct).mp hkey)⟩
    | some key =>
        have hnamed := (issuerKeyOf_eq_some hdistinct).mp hkey
        simp only [hkey] at h
        split_ifs at h with hrevoked hunknown hcapable
        · obtain rfl := Except.ok.inj h
          exact Or.inr ⟨key, hnamed, Or.inl hrevoked⟩
        · obtain rfl := Except.ok.inj h
          exact ⟨hdomain, Or.inr ⟨key, hnamed, hunknown⟩⟩
        · -- a capability is missing
          have hactive : key.textAt "revocation_status" = "ACTIVE" := by
            simpa [revocationStatuses, hrevoked, hunknown] using hstatus key hnamed.1
          obtain rfl := Except.ok.inj h
          refine Or.inr ⟨key, hnamed, Or.inr ⟨hactive, fun hjoin => ?_⟩⟩
          obtain ⟨hrole, hpurpose, hscope⟩ := hjoin.capable
          rcases hcapable with hc | hc | hc
          · exact hc hrole
          · exact hc hpurpose
          · exact hc hscope
        · have hactive : key.textAt "revocation_status" = "ACTIVE" := by
            simpa [revocationStatuses, hrevoked, hunknown] using hstatus key hnamed.1
          have hcan : Capable key record := by
            simp only [not_or, not_not] at hcapable
            exact hcapable
          simp only [bind_eq_ok] at h
          obtain ⟨keyFrom, hkeyFrom, keyUntil, hkeyUntil, recordFrom, hrecordFrom, recordIssued,
            hrecordIssued, recordUntil, hrecordUntil, h⟩ := h
          obtain rfl := parseGetD_eq_ok hkeyFrom
          obtain rfl := parseGetD_eq_ok hkeyUntil
          obtain rfl := parseGetD_eq_ok hrecordFrom
          obtain rfl := parseGetD_eq_ok hrecordIssued
          obtain rfl := parseGetD_eq_ok hrecordUntil
          split_ifs at h with hwindow
          · have hnested : WindowsNested key record := hwindow
            simp only [bind_eq_ok] at h
            obtain ⟨message, hmessage, valid, hvalid, h⟩ := h
            have hiff := verifyEd25519_iff hmessage hvalid
            split_ifs at h with hfalse
            · -- the signature does not verify
              obtain rfl := Except.ok.inj h
              refine Or.inr ⟨key, hnamed, Or.inr ⟨hactive, fun hjoin => ?_⟩⟩
              rw [hiff.mpr hjoin.verifies] at hfalse
              exact absurd hfalse (by decide)
            · obtain rfl := Except.ok.inj h
              have hverifies := hiff.mp (by simpa using hfalse)
              exact ⟨⟨hdomain, key, hnamed, hactive, hcan, hnested, hverifies⟩, rfl⟩
          · -- the windows are not nested
            obtain rfl := Except.ok.inj h
            exact Or.inr ⟨key, hnamed, Or.inr ⟨hactive, fun hjoin => hwindow hjoin.nested⟩⟩
  · have hforeign : ¬record.textAt "trust_domain" = snapshot.textAt "trust_domain" := hdomain
    rw [if_pos hforeign] at h
    obtain rfl := Except.ok.inj h
    exact Or.inl hdomain

omit [Ed25519] in
lemma NamesKey.unique {snapshot record key key' : Dict}
    (hdistinct : ((issuerKeysOf snapshot).map signerOf).Nodup)
    (h : NamesKey snapshot record key) (h' : NamesKey snapshot record key') : key = key' :=
  List.inj_on_of_nodup_map hdistinct h.1 h'.1 (h.2.trans h'.2.symm)

/-- An authentic record is not contradicted. -/
lemma RecordAuthentic.not_contradicted {snapshot record : Dict}
    (hdistinct : ((issuerKeysOf snapshot).map signerOf).Nodup)
    (h : RecordAuthentic snapshot record) : ¬RecordContradicted snapshot record := by
  obtain ⟨hdomain, key, hjoin⟩ := h
  rintro (hforeign | ⟨key', hnamed, hrevoked | ⟨-, hnot⟩⟩)
  · exact hforeign hdomain
  · rw [hnamed.unique hdistinct hjoin.named, hjoin.active] at hrevoked
    exact absurd hrevoked (by decide)
  · exact hnot (hnamed.unique hdistinct hjoin.named ▸ hjoin)

/-- A pending record is neither contradicted nor authentic. -/
lemma RecordPending.not_contradicted {snapshot record : Dict}
    (hdistinct : ((issuerKeysOf snapshot).map signerOf).Nodup)
    (h : RecordPending snapshot record) :
    ¬RecordContradicted snapshot record ∧ ¬RecordAuthentic snapshot record := by
  obtain ⟨hdomain, hnone | ⟨key, hnamed, hunknown⟩⟩ := h
  · constructor
    · rintro (hforeign | ⟨key, hnamed, -⟩)
      · exact hforeign hdomain
      · exact hnone ⟨key, hnamed⟩
    · rintro ⟨-, key, hjoin⟩
      exact hnone ⟨key, hjoin.named⟩
  · constructor
    · rintro (hforeign | ⟨key', hnamed', hrevoked | ⟨hactive, -⟩⟩)
      · exact hforeign hdomain
      · rw [hnamed'.unique hdistinct hnamed, hunknown] at hrevoked
        exact absurd hrevoked (by decide)
      · rw [hnamed'.unique hdistinct hnamed, hunknown] at hactive
        exact absurd hactive (by decide)
    · rintro ⟨-, key', hjoin⟩
      have hactive := hjoin.active
      rw [hjoin.named.unique hdistinct hnamed, hunknown] at hactive
      exact absurd hactive (by decide)

/-! ## All records -/

/-- The state that a loop over records leaves, `pending` telling whether one is pending already. -/
def StateOf (snapshot : Dict) (records : List Dict) (pending : Prop) :
    AuthenticityState → Prop
  | .contradicted => ∃ record ∈ records, RecordContradicted snapshot record
  | .pass => ¬pending ∧ ∀ record ∈ records, RecordAuthentic snapshot record
  | .unverifiable => (∀ record ∈ records, ¬RecordContradicted snapshot record) ∧
      (pending ∨ ∃ record ∈ records, RecordPending snapshot record)

/-- **The loop.**  By induction on the records: a contradiction ends it, a pending record is
remembered. -/
theorem judgeRecords_state {snapshot : Dict} {claims : List AuthorizationRecordClaim}
    (hdistinct : ((issuerKeysOf snapshot).map signerOf).Nodup)
    (hstatus : ∀ key ∈ issuerKeysOf snapshot, key.textAt "revocation_status" ∈ revocationStatuses)
    {records : List Dict} {ids : List String} {pending : Option String}
    {issued : List (String × String)} {verdict : AuthenticityVerdict}
    (hids : ids = records.map fun record => record.textAt "record_id")
    (h : judgeRecords snapshot claims (ids.zip records) pending issued = .ok verdict) :
    StateOf snapshot records (pending ≠ none) verdict.state := by
  subst hids
  induction records generalizing pending issued with
  | nil =>
      cases pending with
      | none =>
          obtain rfl := Except.ok.inj h
          exact ⟨by simp, by simp⟩
      | some reason =>
          obtain rfl := Except.ok.inj h
          exact ⟨by simp, Or.inl (by simp)⟩
  | cons record rest ih =>
      simp only [List.map_cons, List.zip_cons_cons, judgeRecords, bind_eq_ok] at h
      obtain ⟨outcome, houtcome, h⟩ := h
      have hmeans := judgeRecord_spec hdistinct hstatus houtcome
      cases outcome with
      | contradicted reason =>
          obtain rfl := Except.ok.inj h
          exact ⟨record, List.mem_cons_self, hmeans⟩
      | pending reason =>
          have hmeans : RecordPending snapshot record := hmeans
          have hrest := ih h
          revert hrest
          cases verdict.state with
          | contradicted =>
              rintro ⟨r, hr, hc⟩
              exact ⟨r, List.mem_cons_of_mem _ hr, hc⟩
          | pass =>
              rintro ⟨hnone, -⟩
              exact absurd (by simp) hnone
          | unverifiable =>
              rintro ⟨hall, -⟩
              exact ⟨List.forall_mem_cons.mpr ⟨(hmeans.not_contradicted hdistinct).1, hall⟩,
                Or.inr ⟨record, List.mem_cons_self, hmeans⟩⟩
      | authentic issuedAt =>
          have hmeans : RecordAuthentic snapshot record := hmeans.1
          have hrest := ih h
          revert hrest
          cases verdict.state with
          | contradicted =>
              rintro ⟨r, hr, hc⟩
              exact ⟨r, List.mem_cons_of_mem _ hr, hc⟩
          | pass =>
              rintro ⟨hnone, hall⟩
              exact ⟨hnone, List.forall_mem_cons.mpr ⟨hmeans, hall⟩⟩
          | unverifiable =>
              rintro ⟨hall, hpending⟩
              refine ⟨List.forall_mem_cons.mpr ⟨hmeans.not_contradicted hdistinct, hall⟩, ?_⟩
              rcases hpending with hp | ⟨r, hr, hp⟩
              · exact Or.inl hp
              · exact Or.inr ⟨r, List.mem_cons_of_mem _ hr, hp⟩

/-! ## The signed set -/

omit [Ed25519] in
/-- The value that canonical bytes are read as. -/
lemma parse_of_strictJsonBytes {raw : Bytes} {label : String} {v : Json}
    (h : strictJsonBytes raw label = .ok v) :
    ∃ text, decodeUtf8 raw = some text ∧ parseText ⟨true⟩ text.toList = some v := by
  unfold strictJsonBytes at h
  cases htext : decodeUtf8 raw with
  | none => simp [htext] at h
  | some text =>
      simp only [htext, bind_eq_ok, exists_unit, loads, Except.ok.injEq] at h
      obtain ⟨value, hvalue, -, -, -, -, rfl⟩ := h
      split at hvalue
      · rename_i w hw
        obtain rfl := Except.ok.inj hvalue
        exact ⟨text, rfl, hw⟩
      · exact absurd hvalue valueError_ne_ok

omit [Ed25519] in
lemma parse_of_strictUtf8Json {raw : Bytes} {message : String} {v : Json}
    (h : strictUtf8Json raw message = .ok v) :
    ∃ text, decodeUtf8 raw = some text ∧ parseText ⟨true⟩ text.toList = some v := by
  unfold strictUtf8Json at h
  cases htext : decodeUtf8 raw with
  | none => simp [htext] at h
  | some text =>
      simp only [htext] at h
      split at h
      · rename_i w hw
        obtain rfl := Except.ok.inj h
        exact ⟨text, rfl, hw⟩
      · exact absurd h valueError_ne_ok

omit [Ed25519] in
/-- The two readers of a record read the same value. -/
lemma signedRecordValue_eq {raw : Bytes} {recordId version : String} {record value : Dict}
    (hrecord : validateRecord raw recordId version = .ok record)
    (hvalue : signedRecordValue raw = .ok value) : value = record := by
  obtain ⟨text, htext, hparse⟩ :=
    parse_of_strictJsonBytes (acceptedRecord_of_validate hrecord).1
  simp only [signedRecordValue, bind_eq_ok] at hvalue
  obtain ⟨v, hv, hvalue⟩ := hvalue
  obtain ⟨text', htext', hparse'⟩ := parse_of_strictUtf8Json hv
  rw [htext] at htext'
  obtain rfl := Option.some.inj htext'
  rw [hparse] at hparse'
  obtain rfl := Option.some.inj hparse'
  simp only [bind_eq_ok, Except.ok.injEq] at hvalue
  obtain ⟨-, -, -, -, -, -, -, -, -, -, -, -, -, -, -, -, h⟩ := hvalue
  exact h.symm

omit [Ed25519] in
lemma SignedRecords.values_eq {bundle : AuthorizationRecordBundle} {records values : List Dict}
    (h : SignedRecords bundle records)
    (hvalues : mapEach (fun member => signedRecordValue member.rawBytes) bundle.members =
      .ok values) : values = records := by
  rw [mapEach_eq_ok] at hvalues
  unfold SignedRecords at h
  generalize bundle.members = members at h hvalues
  induction h generalizing values with
  | nil =>
      cases hvalues
      rfl
  | cons hrecord _ ih =>
      cases hvalues with
      | cons hvalue hrest => rw [signedRecordValue_eq hrecord hvalue, ih hrest]

omit [Ed25519] in
/-- The identities of the members are those of their records. -/
lemma SignedRecords.recordIds {bundle : AuthorizationRecordBundle} {records : List Dict}
    (h : SignedRecords bundle records) :
    bundle.members.map AuthorizationRecordMember.recordId =
      records.map fun record => record.textAt "record_id" := by
  unfold SignedRecords at h
  generalize bundle.members = members at h
  induction h with
  | nil => rfl
  | cons hrecord _ ih =>
      rw [List.map_cons, List.map_cons, ih, (acceptedRecord_of_validate hrecord).2.recordId]

section SignedSet

variable [PyUnicode]

omit [Ed25519] in
/-- The keys of an accepted snapshot have a known revocation status. -/
lemma revocationStatus_of_snapshot {raw : Bytes} {snapshot : Dict}
    (h : snapshotValue raw = .ok snapshot) :
    ∀ key ∈ issuerKeysOf snapshot, key.textAt "revocation_status" ∈ revocationStatuses := by
  simp only [snapshotValue, bind_eq_ok] at h
  obtain ⟨-, -, value, -, h⟩ := h
  cases value with
  | obj d =>
      simp only [bind_eq_ok, exists_unit, Dict.getItem_eq_ok] at h
      obtain ⟨-, -, -, -, -, -, -, -, -, -, -, -, -, issuedAt, -, -, -, -, -, -, items, hitems, h⟩ := h
      cases items with
      | arr items =>
          simp only [bind_eq_ok, exists_unit, forEach_eq_ok, Except.ok.injEq] at h
          obtain ⟨-, hkeys, rfl⟩ := h
          intro key hkey
          rw [issuerKeysOf, Dict.rowsAt, hitems] at hkey
          have hvalid := hkeys key hkey
          simp only [validateIssuerKey, bind_eq_ok, exists_unit, require_eq_ok] at hvalid
          obtain ⟨-, -, -, -, -, -, -, -, -, -, -, -, -, -, -, -, -, -, -, -, -, -, -, -, -, -, hstatus, -⟩ :=
            hvalid
          exact hstatus
      | _ => exact absurd h valueError_ne_ok
  | _ => exact absurd h valueError_ne_ok

omit [Ed25519] in
/-- The order in which the required roles are kept is their order as records are. -/
lemma recordOrder_requiredRoles [LawfulUnicode] :
    recordOrder "PROCESS_OWNER" ≤ recordOrder "QUALITY_MANAGER" := by
  have hprocess : normalizedIdentity "PROCESS_OWNER" = "process_owner" := by
    rw [normalizedIdentity, LawfulUnicode.nfkc_ascii _ (by decide),
      show join " " (splitWords (strip "PROCESS_OWNER")) = "PROCESS_OWNER" by decide +kernel,
      LawfulUnicode.casefold_ascii _ (by decide)]
    decide
  have hquality : normalizedIdentity "QUALITY_MANAGER" = "quality_manager" := by
    rw [normalizedIdentity, LawfulUnicode.nfkc_ascii _ (by decide),
      show join " " (splitWords (strip "QUALITY_MANAGER")) = "QUALITY_MANAGER" by decide +kernel,
      LawfulUnicode.casefold_ascii _ (by decide)]
    decide
  rw [recordOrder, recordOrder, hprocess, hquality]
  decide +kernel

omit [PyUnicode] [Ed25519] in
lemma recordOrder_injective [PyUnicode] : Function.Injective recordOrder := by
  intro r s h
  exact (List.cons.inj (List.cons.inj h).2).1

omit [Ed25519] in
/-- Sorted roles are the required ones exactly when the roles are. -/
lemma sortBy_requiredRoles [LawfulUnicode] {roles : List String} :
    KeySort.sortBy recordOrder roles = fixedPolicy.textsAt "required_role_claims" ↔
      roles.Perm requiredRoleClaims := by
  have hpolicy : fixedPolicy.textsAt "required_role_claims" = requiredRoleClaims := by
    decide +kernel
  have hsorted : KeySort.sortBy recordOrder requiredRoleClaims = requiredRoleClaims := by
    simp [KeySort.sortBy, requiredRoleClaims, recordOrder_requiredRoles]
  rw [hpolicy]
  constructor
  · intro h
    exact (h ▸ KeySort.sortBy_perm roles).symm
  · intro h
    have hnodup : roles.Nodup := h.nodup_iff.mpr (by decide)
    rw [KeySort.sortBy_eq_of_perm (hnodup.map recordOrder_injective) h, hsorted]

/-- The state of a signed set. -/
def SetState (snapshot : Dict) (records : List Dict) : AuthenticityState → Prop
  | .contradicted => ¬SnapshotTrusted snapshot ∨ ¬RolesRequired records ∨
      ∃ record ∈ records, RecordContradicted snapshot record
  | .pass => SnapshotTrusted snapshot ∧ RolesRequired records ∧
      ∀ record ∈ records, RecordAuthentic snapshot record
  | .unverifiable => SnapshotTrusted snapshot ∧ RolesRequired records ∧
      (∀ record ∈ records, ¬RecordContradicted snapshot record) ∧
      ∃ record ∈ records, RecordPending snapshot record

/-- No signed set has two states. -/
lemma SetState.unique {snapshot : Dict} {records : List Dict} {s t : AuthenticityState}
    (hs : SetState snapshot records s) (ht : SetState snapshot records t) : s = t := by
  have hpass : SetState snapshot records .pass → ¬SetState snapshot records .contradicted := by
    rintro ⟨htrusted, hroles, hall⟩ (h | h | ⟨r, hr, h⟩)
    · exact h htrusted
    · exact h hroles
    · exact (hall r hr).not_contradicted htrusted.signers.1 h
  have hunverifiable : SetState snapshot records .unverifiable →
      ¬SetState snapshot records .contradicted ∧ ¬SetState snapshot records .pass := by
    rintro ⟨htrusted, hroles, hall, r, hr, hpending⟩
    constructor
    · rintro (h | h | ⟨r, hr, h⟩)
      · exact h htrusted
      · exact h hroles
      · exact hall r hr h
    · rintro ⟨-, -, hauthentic⟩
      exact (hpending.not_contradicted htrusted.signers.1).2 (hauthentic r hr)
  cases s with
  | pass =>
      cases t with
      | pass => rfl
      | contradicted => exact absurd ht (hpass hs)
      | unverifiable => exact absurd hs (hunverifiable ht).2
  | contradicted =>
      cases t with
      | pass => exact absurd hs (hpass ht)
      | contradicted => rfl
      | unverifiable => exact absurd hs (hunverifiable ht).1
  | unverifiable =>
      cases t with
      | pass => exact absurd ht (hunverifiable hs).2
      | contradicted => exact absurd ht (hunverifiable hs).1
      | unverifiable => rfl

/-- **The early exits** lead to the set's state. -/
theorem authenticityVerdict_state [LawfulUnicode] {bundle : AuthorizationRecordBundle}
    {claims : List AuthorizationRecordClaim} {snapshot : Dict} {records : List Dict}
    {verdict : AuthenticityVerdict} (hrecords : SignedRecords bundle records)
    (hstatus : ∀ key ∈ issuerKeysOf snapshot, key.textAt "revocation_status" ∈ revocationStatuses)
    (h : authenticityVerdict bundle claims snapshot = .ok verdict) :
    SetState snapshot records verdict.state := by
  unfold authenticityVerdict at h
  split_ifs at h with hpolicy hsequence hsigners
  · -- a field differs from the policy
    obtain rfl := Except.ok.inj h
    obtain ⟨field, hfield, hne⟩ := hpolicy
    exact Or.inl fun htrusted => hne (htrusted.policy field hfield)
  · obtain rfl := Except.ok.inj h
    exact Or.inl fun htrusted => absurd htrusted.sequence (not_le.mpr hsequence)
  · have hfields : ∀ field ∈ policyFields, snapshot.textAt field = fixedPolicy.textAt field := by
      intro field hfield
      by_contra hne
      exact hpolicy ⟨field, hfield, hne⟩
    simp only [bind_eq_ok] at h
    obtain ⟨message, hmessage, anchored, hanchored, h⟩ := h
    have hiff : anchored = true ↔
        Verifies (fixedPolicy.textAt "anchor_public_key") snapshotDomain snapshot :=
      verifyEd25519_iff hmessage hanchored
    split_ifs at h with hfalse
    · -- the anchor does not sign the snapshot
      obtain rfl := Except.ok.inj h
      refine Or.inl fun htrusted => ?_
      rw [hiff.mpr htrusted.anchored] at hfalse
      exact absurd hfalse (by decide)
    · have htrusted : SnapshotTrusted snapshot :=
        ⟨hfields, not_lt.mp hsequence, hsigners, hiff.mp (by simpa using hfalse)⟩
      simp only [bind_eq_ok] at h
      obtain ⟨values, hvalues, h⟩ := h
      obtain rfl := hrecords.values_eq hvalues
      split_ifs at h with hroles
      · obtain rfl := Except.ok.inj h
        exact Or.inr (Or.inl fun hrequired => hroles (sortBy_requiredRoles.mpr hrequired))
      · have hrequired : RolesRequired values := sortBy_requiredRoles.mp (not_not.mp hroles)
        have hloop := judgeRecords_state hsigners.1 hstatus hrecords.recordIds h
        revert hloop
        cases verdict.state with
        | contradicted =>
            intro hc
            exact Or.inr (Or.inr hc)
        | pass =>
            rintro ⟨-, hall⟩
            exact ⟨htrusted, hrequired, hall⟩
        | unverifiable =>
            rintro ⟨hall, hp | hp⟩
            · exact absurd rfl hp
            · exact ⟨htrusted, hrequired, hall, hp⟩
  · -- two keys of one signer
    obtain rfl := Except.ok.inj h
    exact Or.inl fun htrusted => hsigners htrusted.signers

omit [PyUnicode] [Ed25519] in
lemma sealAuthenticity_eq_ok {verdict : AuthenticityVerdict}
    {recordContext : AuthorizationRecordContext} {snapshotHash : String}
    {context : AuthorizationAuthenticityContext}
    (h : sealAuthenticity verdict recordContext snapshotHash = .ok context) :
    context.state = verdict.state ∧ context.recordContext = recordContext ∧
      context.authenticatedRecords = verdict.authenticated ∧
      context.signedIssuedAt = verdict.issued := by
  simp only [sealAuthenticity, bind_eq_ok, Except.ok.injEq] at h
  obtain ⟨-, -, -, -, -, -, rfl⟩ := h
  exact ⟨rfl, rfl, rfl, rfl⟩

omit [Ed25519] in
/-- A signed set's records, as its members' bytes hold them. -/
lemma signedRecords_of_prepare {bundle : AuthorizationRecordBundle}
    {context : AuthorizationRecordContext}
    (h : prepareAuthorizationRecordContext bundle = .ok context)
    (hsigned : context.contractVersion = signedAuthorizationRecordSetVersion) :
    ∃ records, SignedRecords bundle records := by
  obtain ⟨packVersion, hpack, hversion, -, -, claims, -, hclaims⟩ := recordContext_of_prepare h
  have hpackSigned : packVersion = signedAuthorizationRecordPackVersion := by
    by_contra hne
    rw [hsigned, setVersionOf, if_neg hne] at hversion
    exact absurd hversion (by decide)
  rw [hpackSigned, recordVersionOf, if_pos rfl] at hclaims
  unfold SignedRecords
  clear hsigned hversion h
  generalize bundle.members = members at hclaims ⊢
  induction hclaims with
  | nil => exact ⟨[], List.Forall₂.nil⟩
  | cons hclaim _ ih =>
      obtain ⟨records, hrecords⟩ := ih
      obtain ⟨record, hrecord, -⟩ := hclaim
      exact ⟨record :: records, List.Forall₂.cons hrecord hrecords⟩

/-- **The state of authenticity.**  An unsigned set is unverifiable.  A signed set passes,
is contradicted or is unverifiable exactly under the conditions on its snapshot, on its roles and
on its records, in whatever order these come. -/
theorem authenticity_state [LawfulUnicode] {bundle : AuthorizationRecordBundle}
    {trust : AuthorizationTrustSnapshotBundle} {context : AuthorizationAuthenticityContext}
    (h : prepareAuthorizationAuthenticityContext bundle trust = .ok context) :
    (context.recordContext.contractVersion = authorizationRecordSetVersion ∧
      context.state = .unverifiable) ∨
    (context.recordContext.contractVersion = signedAuthorizationRecordSetVersion ∧
      ∃ snapshot records, snapshotValue trust.canonicalSnapshotBytes = .ok snapshot ∧
        SignedRecords bundle records ∧
        (context.state = .pass ↔ SnapshotTrusted snapshot ∧ RolesRequired records ∧
          ∀ record ∈ records, RecordAuthentic snapshot record) ∧
        (context.state = .contradicted ↔ ¬SnapshotTrusted snapshot ∨ ¬RolesRequired records ∨
          ∃ record ∈ records, RecordContradicted snapshot record) ∧
        (context.state = .unverifiable ↔ SnapshotTrusted snapshot ∧ RolesRequired records ∧
          (∀ record ∈ records, ¬RecordContradicted snapshot record) ∧
          ∃ record ∈ records, RecordPending snapshot record)) := by
  simp only [prepareAuthorizationAuthenticityContext, bind_eq_ok] at h
  obtain ⟨recordContext, hcontext, snapshot, hsnapshot, h⟩ := h
  split_ifs at h with hunsigned
  · obtain ⟨hstate, hrecordContext, -⟩ := sealAuthenticity_eq_ok h
    exact Or.inl ⟨hrecordContext ▸ hunsigned, hstate⟩
  · simp only [bind_eq_ok, exists_unit, require_eq_ok] at h
    obtain ⟨hsigned, verdict, hverdict, h⟩ := h
    obtain ⟨hstate, hrecordContext, -⟩ := sealAuthenticity_eq_ok h
    obtain ⟨records, hrecords⟩ := signedRecords_of_prepare hcontext hsigned
    have hset : SetState snapshot records context.state :=
      hstate ▸ authenticityVerdict_state hrecords (revocationStatus_of_snapshot hsnapshot) hverdict
    have hiff : ∀ s, context.state = s ↔ SetState snapshot records s := by
      intro s
      constructor
      · rintro rfl
        exact hset
      · intro hs
        exact hset.unique hs
    exact Or.inr ⟨hrecordContext ▸ hsigned, snapshot, records, hsnapshot, hrecords, hiff .pass,
      hiff .contradicted, hiff .unverifiable⟩

end SignedSet

end Judging

/-! ## The packs of the fixtures -/

section Packs

attribute [local instance] asciiUnicode acceptingEd25519

instance lawfulAsciiUnicode : LawfulUnicode where
  nfkc_ascii _ _ := rfl
  casefold_ascii _ _ := rfl

/-- The pack of the fixtures passes, and the one of another trust domain is contradicted. -/
theorem authenticity_state_fixture :
    (∃ context, prepareAuthorizationAuthenticityContext fixturePack.bundle sampleTrust =
        .ok context ∧ context.state = .pass ∧
      ∃ snapshot records, snapshotValue sampleTrust.canonicalSnapshotBytes = .ok snapshot ∧
        SignedRecords fixturePack.bundle records ∧ SnapshotTrusted snapshot ∧
        RolesRequired records ∧ ∀ record ∈ records, RecordAuthentic snapshot record) ∧
    ∃ context, prepareAuthorizationAuthenticityContext foreignPack.bundle sampleTrust =
        .ok context ∧ context.state = .contradicted ∧
      ∃ snapshot records, snapshotValue sampleTrust.canonicalSnapshotBytes = .ok snapshot ∧
        SignedRecords foreignPack.bundle records ∧ (¬SnapshotTrusted snapshot ∨
          ¬RolesRequired records ∨ ∃ record ∈ records, RecordContradicted snapshot record) := by
  have hsets : signedAuthorizationRecordSetVersion ≠ authorizationRecordSetVersion := by decide
  constructor
  · obtain ⟨context, hcontext, hsigned, -, hstate, -⟩ := SamplePack.sealed (fixtureVerdict _)
    rcases authenticity_state hcontext with ⟨hunsigned, -⟩ | ⟨-, snapshot, records, hread, hrecords,
      hpass, -⟩
    · exact absurd (hsigned.symm.trans hunsigned) hsets
    · exact ⟨context, hcontext, hstate, snapshot, records, hread, hrecords, hpass.mp hstate⟩
  · obtain ⟨context, hcontext, hsigned, -, hstate, -⟩ := SamplePack.sealed (foreignVerdict _)
    rcases authenticity_state hcontext with ⟨hunsigned, -⟩ | ⟨-, snapshot, records, hread, hrecords,
      -, hcontradicted, -⟩
    · exact absurd (hsigned.symm.trans hunsigned) hsets
    · exact ⟨context, hcontext, hstate, snapshot, records, hread, hrecords,
        hcontradicted.mp hstate⟩

/-- Where every signature verifies, one over texts that decode does. -/
lemma verifies_of_decode {publicKey domain : String} {value : Dict}
    (hkey : (base64Decode publicKey).isSome = true)
    (hsignature : (base64Decode (value.textAt "signature")).isSome = true) :
    Verifies publicKey domain value := by
  obtain ⟨key, hkey⟩ := Option.isSome_iff_exists.mp hkey
  obtain ⟨signature, hsignature⟩ := Option.isSome_iff_exists.mp hsignature
  exact ⟨key, signature, hkey, hsignature, rfl⟩

/-- The keys of the sample snapshot that the two records name. -/
lemma sampleKeys_join : ∀ record ∈ [foreignPack.owner, managerRecord],
    ∃ key, JoinsKey sampleSnapshot record key := by
  have hjoin : ∀ {record key : Dict}, key ∈ issuerKeysOf sampleSnapshot →
      signerOf key = signerOf record → key.textAt "revocation_status" = "ACTIVE" →
      Capable key record → WindowsNested key record →
      (base64Decode (key.textAt "public_key")).isSome = true →
      (base64Decode (record.textAt "signature")).isSome = true →
      ∃ key, JoinsKey sampleSnapshot record key :=
    fun hmem hsigner hactive hcapable hnested hkey hsignature =>
      ⟨_, ⟨hmem, hsigner⟩, hactive, hcapable, hnested, verifies_of_decode hkey hsignature⟩
  have hget : sampleSnapshot.get? "issuer_keys" =
      some (.arr ([ownerKey, managerKey].map .obj)) := by decide +kernel
  have hkeys : issuerKeysOf sampleSnapshot = [ownerKey, managerKey] := Dict.rowsAt_eq hget
  intro record hrecord
  rcases List.mem_cons.mp hrecord with rfl | hrecord
  · refine @hjoin _ ownerKey (by simp [hkeys]) ?_ ?_ ?_ ?_ ?_ ?_
    all_goals decide +kernel
  · obtain rfl := List.mem_singleton.mp hrecord
    refine @hjoin _ managerKey (by simp [hkeys]) ?_ ?_ ?_ ?_ ?_ ?_
    all_goals decide +kernel

/-- The conditions without the one on trust domains hold of the pack, and yet it does not pass. -/
theorem foreignDomain_not_pass : ∃ context,
    prepareAuthorizationAuthenticityContext foreignPack.bundle sampleTrust = .ok context ∧
    context.recordContext.contractVersion = signedAuthorizationRecordSetVersion ∧
    context.state ≠ .pass ∧
    snapshotValue sampleTrust.canonicalSnapshotBytes = .ok sampleSnapshot ∧
    SignedRecords foreignPack.bundle [foreignPack.owner, managerRecord] ∧
    SnapshotTrusted sampleSnapshot ∧ RolesRequired [foreignPack.owner, managerRecord] ∧
    ∀ record ∈ [foreignPack.owner, managerRecord], ∃ key, JoinsKey sampleSnapshot record key := by
  obtain ⟨context, hcontext, hsigned, -, hstate, -⟩ := SamplePack.sealed (foreignVerdict _)
  have hread : snapshotValue sampleTrust.canonicalSnapshotBytes = .ok sampleSnapshot :=
    sampleSnapshot_read (by rw [sampleTrust])
  have howner : validateRecord foreignPack.ownerMember.rawBytes foreignPack.ownerMember.recordId
      signedAuthorizationRecordContractVersion = .ok foreignPack.owner := by
    simp only [SamplePack.ownerMember]
    exact foreignPack.owner_accepted
  have hmanager : validateRecord managerMember.rawBytes managerMember.recordId
      signedAuthorizationRecordContractVersion = .ok managerRecord := by
    simp only [managerMember]
    exact managerRecord_accepted
  have hrecords : SignedRecords foreignPack.bundle [foreignPack.owner, managerRecord] :=
    List.Forall₂.cons howner (List.Forall₂.cons hmanager List.Forall₂.nil)
  have htrusted : SnapshotTrusted sampleSnapshot :=
    ⟨by decide +kernel, by decide +kernel, by decide +kernel,
      verifies_of_decode (by decide +kernel) (by decide +kernel)⟩
  have hroles : RolesRequired [foreignPack.owner, managerRecord] := by
    unfold RolesRequired
    decide +kernel
  exact ⟨context, hcontext, hsigned, by simp [hstate, contradictedFor], hread, hrecords, htrusted, hroles,
    sampleKeys_join⟩

end Packs

end QualityCI

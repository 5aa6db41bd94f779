import QualityCI.Lib.JsonQuotes
import QualityCI.Lib.SelfDelimiting
import QualityCI.Loader.ErrorContract
import QualityCI.Loader.Mutation
import QualityCI.Store.Cases

/-!
# The audit chain

Every business row is registered by an audit event, whose hash is taken over the previous hash, the
time, the header, the action and the payload, joined by bars.  Any of these texts but the previous
hash and the action may have bars in it.  The verifier computes the header of an event from its
action and the primary key in its payload, and looks the registered row up.

* `AuditTable`, `auditSeed` — the tables an event may name, and the text that is hashed.
* `StoredTables` — the other tables, as the verifier reads and checks them: whatever they hold and
  however they are checked.
* `verifyAuditChain` — the verifier.
* `AuditedRow`, `Chained` — what it has checked of the events.
* **`auditChain_binds_rows`** — two chains that pass with one last hash are the same, row by row.
-/

namespace QualityCI

open Py

/-! ## The events -/

/-- The tables whose rows are registered. -/
inductive AuditTable where
  | cases
  | runs
  | runReferenceSets
  | runValidationSets
  | approvals
  | baselines
  | artifactSets
  | controlledReferenceSets
  | validationEvidenceSets
  | caseSourceSets
  | caseLineageBindings
  | runCaseSourceSets
  | replayAdmissions
  | replayLedger
  | replayValidationBindings
  | authorizationRecordSets
  | authorizationTrustSnapshots
  | replayAuthorizationAuthenticityBindings
  | approvalSubjects
  | approvalAssertions
  | approvalConsumptions
  | replayApprovalExpectations
  | baselineApprovalBindings
  deriving DecidableEq

/-- The actions of audit events, and the tables they register rows of. -/
def auditActions : List (String × AuditTable) :=
  [("CASE_REGISTERED", .cases), ("CHECK_RUN_RECORDED", .runs),
   ("RUN_REFERENCE_SET_RECORDED", .runReferenceSets),
   ("RUN_VALIDATION_SET_RECORDED", .runValidationSets), ("APPROVAL_RECORDED", .approvals),
   ("BASELINE_CREATED", .baselines), ("ARTIFACT_SET_RECORDED", .artifactSets),
   ("CONTROLLED_REFERENCE_SET_RECORDED", .controlledReferenceSets),
   ("VALIDATION_EVIDENCE_SET_RECORDED", .validationEvidenceSets),
   ("CASE_SOURCE_SET_RECORDED", .caseSourceSets),
   ("CASE_LINEAGE_BINDING_RECORDED", .caseLineageBindings),
   ("RUN_CASE_SOURCE_SET_RECORDED", .runCaseSourceSets),
   ("REPLAY_ADMISSION_RECORDED", .replayAdmissions), ("REPLAY_LEDGER_RECORDED", .replayLedger),
   ("REPLAY_VALIDATION_BINDING_RECORDED", .replayValidationBindings),
   ("AUTHORIZATION_RECORD_SET_RECORDED", .authorizationRecordSets),
   ("AUTHORIZATION_TRUST_SNAPSHOT_RECORDED", .authorizationTrustSnapshots),
   ("REPLAY_AUTHORIZATION_AUTHENTICITY_BINDING_RECORDED",
    .replayAuthorizationAuthenticityBindings),
   ("APPROVAL_SUBJECT_RECORDED", .approvalSubjects),
   ("APPROVAL_ASSERTION_RECORDED", .approvalAssertions),
   ("APPROVAL_CONSUMPTION_RECORDED", .approvalConsumptions),
   ("REPLAY_APPROVAL_EXPECTATION_RECORDED", .replayApprovalExpectations),
   ("BASELINE_APPROVAL_BINDING_RECORDED", .baselineApprovalBindings)]

namespace AuditTable

/-- The tables there are without the case-source feature, and with it. -/
def all : List AuditTable := auditActions.map Prod.snd

/-- The tables of the case-source feature. -/
def caseSource : List AuditTable := [caseSourceSets, caseLineageBindings, runCaseSourceSets]

/-- The columns of the primary key. -/
def keyColumns : AuditTable → List String
  | cases => ["case_id", "case_hash"]
  | runs | runReferenceSets | runValidationSets | runCaseSourceSets => ["run_id"]
  | approvals => ["resolution_id", "case_id", "event_id", "event_revision", "approved_case_hash",
      "role"]
  | baselines => ["baseline_id"]
  | artifactSets => ["artifact_set_hash"]
  | controlledReferenceSets => ["reference_set_hash"]
  | validationEvidenceSets => ["evidence_set_hash"]
  | caseSourceSets => ["source_set_hash"]
  | caseLineageBindings => ["lineage_hash"]
  | replayAdmissions => ["replay_admission_hash"]
  | replayLedger => ["replay_ledger_hash"]
  | replayValidationBindings => ["validation_binding_hash"]
  | authorizationRecordSets => ["record_set_hash"]
  | authorizationTrustSnapshots => ["trust_snapshot_hash"]
  | replayAuthorizationAuthenticityBindings => ["replay_authorization_authenticity_binding_hash"]
  | approvalSubjects => ["approval_subject_hash"]
  | approvalAssertions => ["assertion_hash"]
  | approvalConsumptions => ["consumption_hash"]
  | replayApprovalExpectations => ["expectation_hash"]
  | baselineApprovalBindings => ["baseline_binding_hash"]

/-- The entity type in the header of its events. -/
def entityType : AuditTable → String
  | cases => "case"
  | runs => "run"
  | runReferenceSets => "run_reference_set"
  | runValidationSets => "run_validation_set"
  | approvals => "approval"
  | baselines => "baseline"
  | artifactSets => "artifact_set"
  | controlledReferenceSets => "controlled_reference_set"
  | validationEvidenceSets => "validation_evidence_set"
  | caseSourceSets => "case_source_set"
  | caseLineageBindings => "case_lineage_binding"
  | runCaseSourceSets => "run_case_source_set"
  | replayAdmissions => "replay_admission"
  | replayLedger => "replay_ledger"
  | replayValidationBindings => "replay_validation_binding"
  | authorizationRecordSets => "authorization_record_set"
  | authorizationTrustSnapshots => "authorization_trust_snapshot"
  | replayAuthorizationAuthenticityBindings => "replay_authorization_authenticity_binding"
  | approvalSubjects => "approval_subject"
  | approvalAssertions => "approval_assertion"
  | approvalConsumptions => "approval_consumption"
  | replayApprovalExpectations => "replay_approval_expectation"
  | baselineApprovalBindings => "baseline_approval_binding"

/-- The key of the row that an event registers. -/
def keyOf (table : AuditTable) (primaryKey : Dict) : List Json :=
  table.keyColumns.map fun column => primaryKey.getD column .null

end AuditTable

/-- A row of the table of audit events. -/
structure AuditRow extends AuditEvent where
  sequence : ℤ
  deriving DecidableEq

/-- The text that is hashed. -/
def auditSeed (row : AuditRow) : String :=
  "|".intercalate
    [row.previousHash, row.createdAt, row.entityType, row.entityId, row.action, row.payloadJson]

/-- The payload of an event, with its primary key and the fingerprint of the registered row. -/
def auditPayload (payloadJson : String) : Option (Json × Json) := do
  let payload ← (loadsAny payloadJson).toOption
  let payload ← payload.obj?
  let primaryKey ← payload.get? "primary_key"
  let fingerprint ← payload.get? "entity_fingerprint"
  some (primaryKey, fingerprint)

/-! ## The verifier -/

/-- The other tables, as the verifier reads and checks them. -/
structure StoredTables (Entity : Type) where
  /-- `feature_profile() == STORE_FEATURE_A08_0_1`. -/
  hasCaseSources : Bool
  /-- The entity under a primary key. -/
  entity : AuditTable → List Json → Result (Option Entity)
  /-- `_fingerprint`. -/
  fingerprint : Entity → Result String
  /-- The semantic check of an entity. -/
  isValid : AuditTable → Entity → Result Bool
  /-- `_business_keys`. -/
  businessKeys : AuditTable → List (List Json)
  /-- `_case_source_coverage_is_complete`. -/
  sourcesCovered : Result Bool
  /-- `_replay_admission_coverage_is_complete`. -/
  admissionsCovered : Result Bool
  /-- The check of the case payloads that were parsed meanwhile. -/
  payloadsExact : Result Bool

/-- Equality of keys, as tuples. -/
def sameKeys (key key' : List Json) : Bool :=
  key.length = key'.length && (key.zip key').all fun pair => sameKey pair.1 pair.2

/-- `key in keys`. -/
def memKeys (key : List Json) (keys : List (List Json)) : Bool := keys.any (sameKeys key)

/-- The keys that have been registered so far, table by table. -/
abbrev AuditedKeys := List (AuditTable × List Json)

/-- `audited_keys[table]`. -/
def AuditedKeys.of (audited : AuditedKeys) (table : AuditTable) : List (List Json) :=
  (audited.filter fun entry => entry.1 = table).map Prod.snd

/-- Going on where a condition holds; otherwise the chain is refused. -/
def passing {α : Type} (condition : Prop) [Decidable condition] (next : Result (Option α)) :
    Result (Option α) :=
  if condition then next else .ok none

section Verifying

variable [PyUnicode] {Entity : Type}

/-- The entity id in the header of an event. -/
def auditEntityId (key : List Json) : String := "@".intercalate (key.map Json.toStr)

/-- One event, in the loop of `_verify_audit_chain_impl`: the keys registered with it, or nothing
where the chain is refused. -/
def verifyEvent (tables : StoredTables Entity) (semantic : Bool) (sequence : ℤ)
    (previousHash : String) (audited : AuditedKeys) (row : AuditRow) :
    Result (Option AuditedKeys) :=
  passing (row.sequence = sequence ∧ row.previousHash = previousHash) <|
  passing (row.eventHash = sha256Hex (auditSeed row)) <|
  match auditPayload row.payloadJson, auditActions.lookup row.action with
  | some (primaryKey, expected), some table => do
      let primaryKey ← gettable primaryKey
      let key := table.keyOf primaryKey
      match ← tables.entity table key with
      | none => .ok none
      | some current =>
          passing (row.entityType = table.entityType ∧ row.entityId = auditEntityId key) <| do
            if table ∈ AuditTable.caseSource ∧ tables.hasCaseSources = false then
              keyError table.entityType
            else
              forEach requireHashable key
              passing (memKeys key (audited.of table) = false) <| do
                let fingerprint ← tables.fingerprint current
                passing (expected = .str fingerprint) <| do
                  let valid ← if semantic then tables.isValid table current else .ok true
                  passing (valid = true) (.ok (some ((table, key) :: audited)))
  | _, _ => .ok none

/-- The loop. -/
def verifyEvents (tables : StoredTables Entity) (semantic : Bool) :
    ℤ → String → AuditedKeys → List AuditRow → Result (Option AuditedKeys)
  | _, _, audited, [] => .ok (some audited)
  | sequence, previousHash, audited, row :: rows => do
      match ← verifyEvent tables semantic sequence previousHash audited row with
      | none => .ok none
      | some audited => verifyEvents tables semantic (sequence + 1) row.eventHash audited rows

/-- `audited_keys == self._business_keys()`. -/
def keysCovered (tables : StoredTables Entity) (audited : AuditedKeys) : Bool :=
  AuditTable.all.all fun table =>
    (audited.of table).all (memKeys · (tables.businessKeys table)) &&
      (tables.businessKeys table).all (memKeys · (audited.of table))

/-- **`verify_audit_chain`**, of the events in the order of their sequence numbers. -/
def verifyAuditChain (tables : StoredTables Entity) (semantic : Bool) (rows : List AuditRow) :
    Result Bool := do
  if rows = [] then .ok false
  else
    match ← verifyEvents tables semantic 1 "GENESIS" [] rows with
    | none => .ok false
    | some audited =>
        if keysCovered tables audited = false then .ok false
        else if semantic = false then .ok true
        else do
          let sourcesCovered ← tables.sourcesCovered
          let admissionsCovered ← if sourcesCovered then tables.admissionsCovered else .ok false
          if admissionsCovered then tables.payloadsExact else .ok false

/-! ## What has been checked -/

/-- What the verifier has checked of an event: where it stands, its hash, and that its header is
the one of its action and of the primary key in its payload. -/
structure AuditedRow (sequence : ℤ) (previousHash : String) (row : AuditRow) : Prop where
  sequence : row.sequence = sequence
  previous : row.previousHash = previousHash
  hash : row.eventHash = sha256Hex (auditSeed row)
  header : ∃ primaryKey expected table,
    auditPayload row.payloadJson = some (.obj primaryKey, expected) ∧
    auditActions.lookup row.action = some table ∧ row.entityType = table.entityType ∧
    row.entityId = auditEntityId (table.keyOf primaryKey)

omit [PyUnicode] in
lemma passing_eq_some {α : Type} {condition : Prop} [Decidable condition]
    {next : Result (Option α)} {a : α} :
    passing condition next = .ok (some a) ↔ condition ∧ next = .ok (some a) := by
  unfold passing
  split_ifs with h <;> simp [h]

omit [PyUnicode] in
lemma gettable_eq_ok {v : Json} {d : Dict} : gettable v = .ok d ↔ v = .obj d := by
  cases v <;> simp [gettable, attributeError]

lemma verifyEvent_audited {tables : StoredTables Entity} {semantic : Bool} {sequence : ℤ}
    {previousHash : String} {audited audited' : AuditedKeys} {row : AuditRow}
    (h : verifyEvent tables semantic sequence previousHash audited row = .ok (some audited')) :
    AuditedRow sequence previousHash row := by
  unfold verifyEvent at h
  obtain ⟨⟨hsequence, hprevious⟩, h⟩ := passing_eq_some.mp h
  obtain ⟨hhash, h⟩ := passing_eq_some.mp h
  split at h
  · rename_i primaryKey expected table hpayload haction
    simp only [bind_eq_ok] at h
    obtain ⟨primaryKey, hdict, entity, -, h⟩ := h
    have hobj : auditPayload row.payloadJson = some (.obj primaryKey, expected) := by
      rw [hpayload]
      rw [gettable_eq_ok.mp hdict]
    cases entity with
    | none => simp at h
    | some current =>
        obtain ⟨⟨htype, hid⟩, -⟩ := passing_eq_some.mp h
        exact ⟨hsequence, hprevious, hhash, primaryKey, expected, table, hobj, haction, htype, hid⟩
  · simp at h

/-- The events, one after the other. -/
def Chained : ℤ → String → List AuditRow → Prop
  | _, _, [] => True
  | sequence, previousHash, row :: rows =>
      AuditedRow sequence previousHash row ∧ Chained (sequence + 1) row.eventHash rows

lemma verifyEvents_chained {tables : StoredTables Entity} {semantic : Bool} {sequence : ℤ}
    {previousHash : String} {audited audited' : AuditedKeys} {rows : List AuditRow}
    (h : verifyEvents tables semantic sequence previousHash audited rows = .ok (some audited')) :
    Chained sequence previousHash rows := by
  induction rows generalizing sequence previousHash audited with
  | nil => trivial
  | cons row rows ih =>
      simp only [verifyEvents, bind_eq_ok] at h
      obtain ⟨step, hstep, h⟩ := h
      cases step with
      | none => simp at h
      | some audited₁ => exact ⟨verifyEvent_audited hstep, ih h⟩

/-- **A chain that passes** has been checked event by event. -/
lemma verifyAuditChain_chained {tables : StoredTables Entity} {semantic : Bool}
    {rows : List AuditRow} (h : verifyAuditChain tables semantic rows = .ok true) :
    Chained 1 "GENESIS" rows := by
  unfold verifyAuditChain at h
  by_cases hempty : rows = []
  · rw [hempty]
    trivial
  · rw [if_neg hempty, bind_eq_ok] at h
    obtain ⟨step, hstep, h⟩ := h
    cases step with
    | none => simp at h
    | some audited => exact verifyEvents_chained hstep

/-- The hash that the next event of a chain refers to. -/
def lastHash (previousHash : String) (rows : List AuditRow) : String :=
  (rows.getLast?.map fun row => row.eventHash).getD previousHash

lemma chained_append {sequence : ℤ} {previousHash : String} {rows : List AuditRow}
    {row : AuditRow} : Chained sequence previousHash (rows ++ [row]) ↔
      Chained sequence previousHash rows ∧
        AuditedRow (sequence + rows.length) (lastHash previousHash rows) row := by
  induction rows generalizing sequence previousHash with
  | nil => simp [Chained, lastHash]
  | cons first rows ih =>
      have hlast : lastHash previousHash (first :: rows) = lastHash first.eventHash rows := by
        cases rows with
        | nil => rfl
        | cons second rows =>
            rw [lastHash, lastHash, List.getLast?_cons_cons,
              List.getLast?_eq_some_getLast (List.cons_ne_nil second rows)]
            rfl
      rw [List.cons_append, Chained, Chained, ih, hlast, and_assoc, List.length_cons,
        Nat.cast_succ, add_assoc, add_comm 1]

/-! ## The text that is hashed -/

omit [PyUnicode] in
lemma auditSeed_toList (row : AuditRow) : (auditSeed row).toList =
    (row.previousHash.toList ++ '|' :: (row.createdAt.toList ++ '|' :: (row.entityType.toList ++
      '|' :: row.entityId.toList)) ++ '|' :: row.action.toList) ++ '|' :: row.payloadJson.toList := by
  simp [auditSeed, String.intercalate_cons_cons]

/-- A text without a bar. -/
def BarFree (text : String) : Prop := '|' ∉ text.toList

omit [PyUnicode] in
lemma barFree_sha256 (text : String) : BarFree (sha256Hex text) := by
  intro hbar
  rcases (sha256Hex_chars text).2 _ hbar with h | h
  · exact absurd h (by decide)
  · exact absurd h (by decide)

omit [PyUnicode] in
lemma barFree_action {action : String} {table : AuditTable}
    (h : auditActions.lookup action = some table) : BarFree action := by
  have hall : ∀ entry ∈ auditActions, BarFree entry.1 := by
    unfold BarFree
    decide +kernel
  obtain ⟨before, after, hactions, -⟩ := List.lookup_eq_some_iff.mp h
  exact hall (action, table) (by rw [hactions]; simp)

omit [PyUnicode] in
lemma auditPayload_closes {payloadJson : String} {parts : Json × Json}
    (h : auditPayload payloadJson = some parts) :
    readQuotes .outside payloadJson.toList = some .outside := by
  unfold auditPayload at h
  cases hload : loadsAny payloadJson with
  | error e => simp [hload, Except.toOption] at h
  | ok v => exact loadsAny_closes hload

/-- **The text determines the fields**: the payload is what follows the last bar outside a literal,
the action is the part before it, they determine the header, and the previous hash is what stands
before the first bar. -/
lemma auditSeed_injective {sequence sequence' : ℤ} {previousHash previousHash' : String}
    {row row' : AuditRow} (h : AuditedRow sequence previousHash row)
    (h' : AuditedRow sequence' previousHash' row') (hfree : BarFree previousHash)
    (hfree' : BarFree previousHash') (hseed : auditSeed row = auditSeed row') :
    row.toAuditEvent = row'.toAuditEvent := by
  obtain ⟨primaryKey, expected, table, hpayload, haction, htype, hid⟩ := h.header
  obtain ⟨primaryKey', expected', table', hpayload', haction', htype', hid'⟩ := h'.header
  have hchars := congrArg String.toList hseed
  rw [auditSeed_toList, auditSeed_toList] at hchars
  obtain ⟨hhead, hpayloads⟩ := suffix_unique (by decide) (by decide) (by decide)
    (auditPayload_closes hpayload) (auditPayload_closes hpayload') hchars
  obtain ⟨hhead, hactions⟩ := after_separator (barFree_action haction) (barFree_action haction')
    hhead
  have hactionEq : row.action = row'.action := String.toList_injective hactions
  have hpayloadEq : row.payloadJson = row'.payloadJson := String.toList_injective hpayloads
  rw [hpayloadEq, hpayload', Option.some.injEq, Prod.mk.injEq, Json.obj.injEq] at hpayload
  rw [hactionEq, haction', Option.some.injEq] at haction
  obtain ⟨rfl, rfl⟩ := hpayload
  subst haction
  have htypeEq : row.entityType = row'.entityType := htype.trans htype'.symm
  have hidEq : row.entityId = row'.entityId := hid.trans hid'.symm
  rw [h.previous, h'.previous] at hhead
  obtain ⟨hprevious, hcreated⟩ := before_separator hfree hfree' hhead
  rw [htypeEq, hidEq] at hcreated
  have hcreatedEq : row.createdAt = row'.createdAt :=
    String.toList_injective (List.append_cancel_right hcreated)
  have hpreviousEq : row.previousHash = row'.previousHash := by
    rw [h.previous, h'.previous]
    exact String.toList_injective hprevious
  have hhashEq : row.eventHash = row'.eventHash := by rw [h.hash, h'.hash, hseed]
  cases hevent : row.toAuditEvent
  cases hevent' : row'.toAuditEvent
  simp_all

/-! ## The chain -/

omit [PyUnicode] in
lemma genesis_ne_sha256 (text : String) : "GENESIS" ≠ sha256Hex text := by
  intro h
  have hlength := (sha256Hex_chars text).1
  rw [← h] at hlength
  exact absurd hlength (by decide)

/-- The hash that the next event refers to has no bar. -/
lemma Chained.barFree {sequence : ℤ} {rows : List AuditRow} (h : Chained sequence "GENESIS" rows) :
    BarFree (lastHash "GENESIS" rows) := by
  rcases List.eq_nil_or_concat rows with rfl | ⟨rows, row, rfl⟩
  · unfold BarFree
    decide
  · rw [List.concat_eq_append] at h ⊢
    rw [lastHash, List.getLast?_concat, Option.map_some, Option.getD_some,
      (chained_append.mp h).2.hash]
    exact barFree_sha256 _

/-- **The chain determines its rows**, from the last one back to the first. -/
theorem chained_unique {rows rows' : List AuditRow} (h : Chained 1 "GENESIS" rows)
    (h' : Chained 1 "GENESIS" rows')
    (hsha : ∀ row ∈ rows, ∀ row' ∈ rows',
      sha256Hex (auditSeed row) = sha256Hex (auditSeed row') → auditSeed row = auditSeed row')
    (hlast : lastHash "GENESIS" rows = lastHash "GENESIS" rows') : rows = rows' := by
  induction rows using List.reverseRecOn generalizing rows' with
  | nil =>
      rcases List.eq_nil_or_concat rows' with rfl | ⟨rows', row', rfl⟩
      · rfl
      · rw [List.concat_eq_append] at h' hlast
        rw [lastHash, lastHash, List.getLast?_concat, Option.map_some, Option.getD_some,
          (chained_append.mp h').2.hash] at hlast
        exact absurd hlast (genesis_ne_sha256 _)
  | append_singleton rows row ih =>
      obtain ⟨hrows, hrow⟩ := chained_append.mp h
      rcases List.eq_nil_or_concat rows' with rfl | ⟨rows', row', rfl⟩
      · rw [lastHash, lastHash, List.getLast?_concat, Option.map_some, Option.getD_some,
          hrow.hash] at hlast
        exact absurd hlast.symm (genesis_ne_sha256 _)
      · rw [List.concat_eq_append] at h' hlast hsha ⊢
        obtain ⟨hrows', hrow'⟩ := chained_append.mp h'
        simp only [lastHash, List.getLast?_concat, Option.map_some, Option.getD_some] at hlast
        have hseed : auditSeed row = auditSeed row' := by
          refine hsha row (by simp) row' (by simp) ?_
          rw [← hrow.hash, ← hrow'.hash, hlast]
        have hevent := auditSeed_injective hrow hrow' hrows.barFree hrows'.barFree hseed
        have hprevious : lastHash "GENESIS" rows = lastHash "GENESIS" rows' := by
          rw [← hrow.previous, ← hrow'.previous, hevent]
        have hinit : rows = rows' := by
          refine ih hrows hrows' (fun r hr r' hr' => ?_) hprevious
          exact hsha r (List.mem_append_left _ hr) r' (List.mem_append_left _ hr')
        subst hinit
        have hsequence : row.sequence = row'.sequence := by
          rw [hrow.sequence, hrow'.sequence]
        have hequal : row = row' := by
          cases row
          cases row'
          simp_all
        rw [hequal]

/-- **The audit chain binds its rows.**  Whatever the other tables of two stores hold and however
they are checked: if both chains pass, and SHA-256 tells the texts they hash apart, then one last
hash makes the chains the same, row by row and field by field. -/
theorem auditChain_binds_rows {Entity' : Type} (tables : StoredTables Entity)
    (tables' : StoredTables Entity') (semantic semantic' : Bool) (rows rows' : List AuditRow)
    (hpass : verifyAuditChain tables semantic rows = .ok true)
    (hpass' : verifyAuditChain tables' semantic' rows' = .ok true)
    (hsha : ∀ row ∈ rows, ∀ row' ∈ rows',
      sha256Hex (auditSeed row) = sha256Hex (auditSeed row') → auditSeed row = auditSeed row')
    (hlast : rows.getLast?.map (fun row => row.eventHash) =
      rows'.getLast?.map fun row => row.eventHash) : rows = rows' := by
  refine chained_unique (verifyAuditChain_chained hpass) (verifyAuditChain_chained hpass') hsha ?_
  rw [lastHash, lastHash, hlast]

end Verifying

section Ascii

attribute [local instance] asciiUnicode

/-- The registrations of two cases, with bars in their times, in their ids and in a payload. -/
def sampleChain : List AuditRow :=
  [{ sequence := 1
     createdAt := "|case|"
     entityType := "case"
     entityId := "A|B@H"
     action := "CASE_REGISTERED"
     payloadJson := "\x7b\"entity_fingerprint\":\"F\",\"note\":\"|\",\"primary_key\":" ++
       "\x7b\"case_hash\":\"H\",\"case_id\":\"A|B\"\x7d\x7d"
     previousHash := "GENESIS"
     eventHash := "2e004de4da2ebd76d56bb9d10e6d4a2445e3f428378814133f2f26a0eb747ea6" },
   { sequence := 2
     createdAt := "case|"
     entityType := "case"
     entityId := "|@H"
     action := "CASE_REGISTERED"
     payloadJson := "\x7b\"entity_fingerprint\":\"F\",\"primary_key\":" ++
       "\x7b\"case_hash\":\"H\",\"case_id\":\"|\"\x7d\x7d"
     previousHash := "2e004de4da2ebd76d56bb9d10e6d4a2445e3f428378814133f2f26a0eb747ea6"
     eventHash := "b0900ecff49b7777da51d6ab388f2c88638d8afe52db78b3d85af7758f135367" }]

/-- The tables with these cases, and one fingerprint for every entity. -/
def sampleTables : StoredTables Unit where
  hasCaseSources := false
  entity _ _ := .ok (some ())
  fingerprint _ := .ok "F"
  isValid _ _ := .ok true
  businessKeys table :=
    if table = .cases then [[.str "|", .str "H"], [.str "A|B", .str "H"]] else []
  sourcesCovered := .ok true
  admissionsCovered := .ok true
  payloadsExact := .ok true

lemma sampleChain_passes : verifyAuditChain sampleTables true sampleChain = .ok true := by
  decide +kernel

/-- The two texts that are hashed have different hashes. -/
lemma sampleChain_distinct : ∀ row ∈ sampleChain, ∀ row' ∈ sampleChain,
    sha256Hex (auditSeed row) = sha256Hex (auditSeed row') → auditSeed row = auditSeed row' := by
  have hhash : ∀ row ∈ sampleChain, row.eventHash = sha256Hex (auditSeed row) := by
    obtain ⟨hfirst, hsecond, -⟩ := verifyAuditChain_chained sampleChain_passes
    simp only [sampleChain, List.forall_mem_cons]
    exact ⟨hfirst.hash, hsecond.hash, List.forall_mem_nil _⟩
  have hsame : ∀ row ∈ sampleChain, ∀ row' ∈ sampleChain,
      row.eventHash = row'.eventHash → row = row' := by
    decide
  intro row hrow row' hrow' h
  rw [← hhash row hrow, ← hhash row' hrow'] at h
  rw [hsame row hrow row' hrow' h]

/-- The chain of the two cases, against itself. -/
theorem auditChain_binds_rows_sample :
    verifyAuditChain sampleTables true sampleChain = .ok true ∧ sampleChain = sampleChain :=
  ⟨sampleChain_passes, auditChain_binds_rows _ _ true true _ _ sampleChain_passes
    sampleChain_passes sampleChain_distinct rfl⟩

end Ascii

end QualityCI

import QualityCI.Lib.PyRaises
import QualityCI.Lib.Sha256Eval
import QualityCI.Engine.Aligned

/-!
# Saving a case

`save_case` registers a prepared case under its identity and the hash of its projection, which does
not look at the order of the unordered arrays.  The payload it stores, and the fingerprint it
compares when the key is taken, are those of the case as it was given.

* `CaseRow`, `AuditEvent`, `Store` — the tables it reads and writes.
* `saveCase` — the call as one transaction: what raises leaves the tables as they were.
* `Reached` — the stores that public writes lead to, with `Reached.sound`: every row holds the text
  of an accepted case.
* **`saveCase_idempotent_iff`** — saving under a taken key is without effect exactly when the stored
  payload reads back as the case that is saved.
-/

namespace QualityCI

open Py

/-! ## The tables -/

/-- A row of the table of cases. -/
structure CaseRow where
  caseId : String
  caseHash : String
  synthetic : ℕ
  payloadJson : String
  deriving DecidableEq

/-- `_case_entity`. -/
def CaseRow.entity (row : CaseRow) : Dict :=
  Dict.ofList
    [("case_id", .str row.caseId), ("case_hash", .str row.caseHash),
     ("synthetic", .int row.synthetic), ("payload_json", .str row.payloadJson)]

/-- A row of the audit chain. -/
structure AuditEvent where
  createdAt : String
  entityType : String
  entityId : String
  action : String
  payloadJson : String
  previousHash : String
  eventHash : String
  deriving DecidableEq

/-- The store: the cases, the audit chain in its order, and the tables a saved case leaves alone. -/
structure Store (Tables : Type) where
  cases : List CaseRow
  auditEvents : List AuditEvent
  tables : Tables

/-- The row under a primary key. -/
def Store.case? {Tables : Type} (s : Store Tables) (caseId caseHash : String) : Option CaseRow :=
  s.cases.find? fun row => row.caseId = caseId && row.caseHash = caseHash

/-- `_append_audit` at a time. -/
def appendAudit (now : String) (events : List AuditEvent) (entityType entityId action : String)
    (payload : Json) : Result (List AuditEvent) := do
  let previousHash := (events.getLast?.map AuditEvent.eventHash).getD "GENESIS"
  let payloadJson ← dumps payload
  let eventHash := sha256Hex
    ("|".intercalate [previousHash, now, entityType, entityId, action, payloadJson])
  if eventHash ∈ events.map AuditEvent.eventHash then
    .error ⟨.integrityError, "UNIQUE constraint failed: audit_events.event_hash"⟩
  else
    .ok (events ++
      [⟨now, entityType, entityId, action, payloadJson, previousHash, eventHash⟩])

/-! ## Saving -/

section Saving

variable [PyUnicode] {Tables : Type}

/-- `_fingerprint` of an entity without bytes. -/
def fingerprint (entity : Dict) : Result String := canonicalHash (.obj entity)

/-- The row of a prepared case. -/
def caseRow (prepared : Dict) : Result CaseRow := do
  let payloadJson ← dumps (.obj prepared)
  let id ← prepared.getItem "case_id"
  let caseHash ← canonicalHash (.obj prepared)
  let synthetic := if prepared.get? "synthetic_for_competition" = some (.bool true) then 1 else 0
  .ok ⟨id.toStr, caseHash, synthetic, payloadJson⟩

/-- `_save_case`: whether the case was inserted, and the store. -/
def saveCaseRow (now : String) (case : Dict) (s : Store Tables) : Result (Bool × Store Tables) := do
  let prepared ← prepareCase case
  let row ← caseRow prepared
  match s.case? row.caseId row.caseHash with
  | none => do
      let entityFingerprint ← fingerprint row.entity
      let events ← appendAudit now s.auditEvents "case" s!"{row.caseId}@{row.caseHash}"
        "CASE_REGISTERED" <| .obj <| Dict.ofList
          [("primary_key", .obj <| Dict.ofList
             [("case_id", .str row.caseId), ("case_hash", .str row.caseHash)]),
           ("entity_fingerprint", .str entityFingerprint)]
      .ok (true, { s with cases := s.cases ++ [row], auditEvents := events })
  | some stored => do
      let storedFingerprint ← fingerprint stored.entity
      let entityFingerprint ← fingerprint row.entity
      require (storedFingerprint = entityFingerprint)
        "case primary key conflicts with different stored content"
      .ok (false, s)

/-- **`save_case(case)`**, in one transaction. -/
def saveCase (now : String) (case : Dict) (s : Store Tables) : Result Bool × Store Tables :=
  match saveCaseRow now case s with
  | .ok (inserted, s') => (.ok inserted, s')
  | .error e => (.error e, s)

/-- The stores that public writes lead to.  Only `_save_case` writes the table of cases; every other
write is a change of the audit chain and of the other tables. -/
inductive Reached : Store Tables → Prop
  | new (tables : Tables) : Reached ⟨[], [], tables⟩
  | saved {s s' : Store Tables} {now : String} {case : Dict} {inserted : Bool} (hs : Reached s)
      (hwf : (Json.obj case).WF) (h : saveCase now case s = (.ok inserted, s')) : Reached s'
  | elsewhere {s : Store Tables} (hs : Reached s) (events : List AuditEvent) (tables : Tables) :
      Reached { s with auditEvents := events, tables := tables }

/-! ## What is stored -/

/-- A row holds the text of a well-formed case. -/
def CaseRow.Sound (row : CaseRow) : Prop :=
  ∃ prepared : Dict, (Json.obj prepared).WF ∧ caseRow prepared = .ok row

lemma caseRow_payload {prepared : Dict} {row : CaseRow} (h : caseRow prepared = .ok row) :
    dumps (.obj prepared) = .ok row.payloadJson := by
  simp only [caseRow, bind_eq_ok, Except.ok.injEq] at h
  obtain ⟨payload, hpayload, _, -, _, -, rfl⟩ := h
  exact hpayload

/-- A sound row reads back as the case it was made of. -/
lemma loads_payload {prepared : Dict} {row : CaseRow} (hwf : (Json.obj prepared).WF)
    (h : caseRow prepared = .ok row) (mode : LoadMode) :
    loads mode row.payloadJson = .ok (.obj prepared) :=
  loads_dumps mode hwf (caseRow_payload h)

/-- What a call that returns has done. -/
lemma saveCase_eq_ok {now : String} {case : Dict} {s s' : Store Tables} {inserted : Bool}
    (h : saveCase now case s = (.ok inserted, s')) :
    ∃ prepared row, prepareCase case = .ok prepared ∧ caseRow prepared = .ok row ∧
      ((inserted = true ∧ s.case? row.caseId row.caseHash = none ∧ s'.cases = s.cases ++ [row]) ∨
        (inserted = false ∧ s' = s)) := by
  unfold saveCase at h
  cases hrow : saveCaseRow now case s with
  | error e =>
      rw [hrow] at h
      simp at h
  | ok result =>
      obtain ⟨inserted', after⟩ := result
      rw [hrow] at h
      simp only [Prod.mk.injEq, Except.ok.injEq] at h
      obtain ⟨rfl, rfl⟩ := h
      simp only [saveCaseRow, bind_eq_ok] at hrow
      obtain ⟨prepared, hprepared, row, hcase, hrow⟩ := hrow
      refine ⟨prepared, row, hprepared, hcase, ?_⟩
      cases hfind : s.case? row.caseId row.caseHash with
      | none =>
          simp only [hfind, bind_eq_ok, Except.ok.injEq, Prod.mk.injEq] at hrow
          obtain ⟨_, -, events, -, rfl, rfl⟩ := hrow
          exact Or.inl ⟨rfl, rfl, rfl⟩
      | some stored =>
          simp only [hfind, bind_eq_ok, exists_unit, require_eq_ok, Except.ok.injEq,
            Prod.mk.injEq] at hrow
          obtain ⟨_, -, _, -, -, rfl, rfl⟩ := hrow
          exact Or.inr ⟨rfl, rfl⟩

/-- **Every row is sound**, however the store was reached. -/
theorem Reached.sound {s : Store Tables} (h : Reached s) : ∀ row ∈ s.cases, row.Sound := by
  induction h with
  | new tables => simp
  | saved hs hwf hsave ih =>
      obtain ⟨prepared, row, hprepared, hrow, hresult⟩ := saveCase_eq_ok hsave
      rcases hresult with ⟨-, -, hcases⟩ | ⟨-, rfl⟩
      · rw [hcases]
        intro r hr
        rcases List.mem_append.mp hr with hr | hr
        · exact ih r hr
        · obtain rfl := List.mem_singleton.mp hr
          exact ⟨prepared, prepareCase_wf hwf hprepared, hrow⟩
      · exact ih
  | elsewhere hs events tables ih => exact ih

/-! ## The fingerprint of a row -/

omit [PyUnicode] in
lemma entity_get? (row : CaseRow) (key : String) :
    row.entity.get? key = List.lookup key
      [("case_id", .str row.caseId), ("case_hash", .str row.caseHash),
       ("synthetic", .int row.synthetic), ("payload_json", .str row.payloadJson)] :=
  Dict.get?_ofList (by simp) key

/-- The bytes of the text of a row's entity, from those of its columns. -/
def evalEntity (caseId caseHash payloadJson : List ℕ) (synthetic : ℤ) : List ℕ :=
  123 :: (evalJoin
    [evalString (evalUtf8 "case_hash") ++ 58 :: evalString caseHash,
     evalString (evalUtf8 "case_id") ++ 58 :: evalString caseId,
     evalString (evalUtf8 "payload_json") ++ 58 :: evalString payloadJson,
     evalString (evalUtf8 "synthetic") ++ 58 :: evalJson (.int synthetic)] ++ [125])

omit [PyUnicode] in
lemma utf8_entity (row : CaseRow) : utf8 (String.ofList (jsonText (.obj row.entity))) =
    evalEntity (utf8 row.caseId) (utf8 row.caseHash) (utf8 row.payloadJson) row.synthetic := by
  have hsorted : row.entity =
      [("case_hash", .str row.caseHash), ("case_id", .str row.caseId),
       ("payload_json", .str row.payloadJson), ("synthetic", .int row.synthetic)] := by
    have h1 : "case_hash" < "case_id" := by decide
    have h2 : ¬"synthetic" < "case_hash" := by decide
    have h3 : ¬"synthetic" < "case_id" := by decide
    have h4 : ¬"payload_json" < "case_hash" := by decide
    have h5 : ¬"payload_json" < "case_id" := by decide
    have h6 : "payload_json" < "synthetic" := by decide
    simp [CaseRow.entity, Dict.ofList, Dict.set, h1, h2, h3, h4, h5, h6]
  simp only [utf8_jsonText, hsorted, evalJson, evalEntries, evalUtf8_eq, evalEntity]

/-- A row's fingerprint is the hash of its text: it is no case. -/
lemma fingerprint_entity (row : CaseRow) :
    fingerprint row.entity = .ok (sha256Hex (String.ofList (jsonText (.obj row.entity)))) := by
  have hversion : row.entity.get? "schema_version" = none := by
    rw [entity_get?]
    rfl
  have hfinite : (Json.obj row.entity).isFinite = true := by
    simp only [Json.isFinite, entriesFinite_iff]
    intro e he
    have hentry := Dict.mem_ofList he
    simp only [List.mem_cons, List.not_mem_nil, or_false] at hentry
    rcases hentry with rfl | rfl | rfl | rfl <;> rfl
  simp only [fingerprint, canonicalHash, hashedValue, hashedDict, hversion, ok_bind]
  rw [dumps_eq_ok.mpr ⟨hfinite, rfl⟩, ok_bind]

/-- Two rows that differ and have one fingerprint: their texts collide under SHA-256. -/
def FingerprintCollision (a b : CaseRow) : Prop :=
  a ≠ b ∧ fingerprint a.entity = fingerprint b.entity

/-- Under a taken key, saving compares the fingerprints. -/
lemma saveCase_taken {s : Store Tables} {case prepared : Dict}
    (hprepared : prepareCase case = .ok prepared) {row stored : CaseRow}
    (hrow : caseRow prepared = .ok row) (hstored : s.case? row.caseId row.caseHash = some stored)
    (now : String) :
    saveCase now case s = (.ok false, s) ↔
      fingerprint stored.entity = fingerprint row.entity := by
  simp only [saveCase, saveCaseRow, hprepared, hrow, ok_bind, hstored, fingerprint_entity,
    Except.ok.injEq]
  by_cases h : sha256Hex (String.ofList (jsonText (.obj stored.entity))) =
      sha256Hex (String.ofList (jsonText (.obj row.entity)))
  · simp [require, h, ok_bind]
  · simp [require, h, valueError, bind, Except.bind]

/-- Whether it raises or not, it leaves the store as it was. -/
lemma saveCase_taken_store {s : Store Tables} {case prepared : Dict}
    (hprepared : prepareCase case = .ok prepared) {row stored : CaseRow}
    (hrow : caseRow prepared = .ok row) (hstored : s.case? row.caseId row.caseHash = some stored)
    (now : String) : (saveCase now case s).2 = s := by
  simp only [saveCase, saveCaseRow, hprepared, hrow, ok_bind, hstored, fingerprint_entity]
  by_cases h : sha256Hex (String.ofList (jsonText (.obj stored.entity))) =
      sha256Hex (String.ofList (jsonText (.obj row.entity)))
  · simp [require, h, ok_bind]
  · simp [require, h, valueError, bind, Except.bind]

omit [PyUnicode] in
/-- The first event of a chain. -/
lemma appendAudit_first {now entityType entityId action : String} {payload : Json}
    (h : payload.isFinite = true) :
    ∃ events, appendAudit now [] entityType entityId action payload = .ok events := by
  simp only [appendAudit, dumps_eq_ok.mpr ⟨h, rfl⟩, ok_bind, List.map_nil, List.not_mem_nil,
    ↓reduceIte]
  exact ⟨_, rfl⟩

/-- Saving into a store without cases and events. -/
lemma saveCase_first {tables : Tables} {case prepared : Dict} {now : String}
    (hprepared : prepareCase case = .ok prepared) {row : CaseRow}
    (hrow : caseRow prepared = .ok row) :
    ∃ s' : Store Tables, saveCase now case ⟨[], [], tables⟩ = (.ok true, s') ∧
      s'.cases = [row] := by
  have hfree : (⟨[], [], tables⟩ : Store Tables).case? row.caseId row.caseHash = none := rfl
  have hfinite : (Json.obj (Dict.ofList
      [("primary_key", .obj (Dict.ofList
         [("case_id", .str row.caseId), ("case_hash", .str row.caseHash)])),
       ("entity_fingerprint",
        .str (sha256Hex (String.ofList (jsonText (.obj row.entity)))))])).isFinite = true := by
    simp only [Json.isFinite, entriesFinite_iff]
    intro e he
    have hentry := Dict.mem_ofList he
    simp only [List.mem_cons, List.not_mem_nil, or_false] at hentry
    rcases hentry with rfl | rfl
    · simp only [Json.isFinite, entriesFinite_iff]
      intro e he
      have hentry := Dict.mem_ofList he
      simp only [List.mem_cons, List.not_mem_nil, or_false] at hentry
      rcases hentry with rfl | rfl <;> rfl
    · rfl
  obtain ⟨events, hevents⟩ := appendAudit_first hfinite
  refine ⟨⟨[row], events, tables⟩, ?_, rfl⟩
  simp only [saveCase, saveCaseRow, hprepared, hrow, hfree, fingerprint_entity, ok_bind]
  rw [hevents]
  rfl

/-- **Saving under a taken key.**  It returns `False` and leaves the store as it was exactly when
the stored payload reads back as the prepared case, the order of the arrays included and that of
the keys not, or when two different rows collide under SHA-256. -/
theorem saveCase_idempotent_iff {s : Store Tables} (hs : Reached s) {case prepared : Dict}
    (hwf : (Json.obj case).WF) (hprepared : prepareCase case = .ok prepared)
    {row stored : CaseRow} (hrow : caseRow prepared = .ok row)
    (hstored : s.case? row.caseId row.caseHash = some stored) (now : String) :
    saveCase now case s = (.ok false, s) ↔
      loads ⟨true⟩ stored.payloadJson = .ok (.obj prepared) ∨ FingerprintCollision stored row := by
  have hpreparedWF := prepareCase_wf hwf hprepared
  rw [saveCase_taken hprepared hrow hstored]
  constructor
  · intro hprint
    by_cases heq : stored = row
    · rw [heq]
      exact Or.inl (loads_payload hpreparedWF hrow ⟨true⟩)
    · exact Or.inr ⟨heq, hprint⟩
  · rintro (hread | ⟨-, hprint⟩)
    · obtain ⟨original, horiginal, hsound⟩ := hs.sound stored (List.mem_of_find?_eq_some hstored)
      rw [loads_payload horiginal hsound ⟨true⟩] at hread
      obtain rfl : original = prepared := Json.obj.inj (Except.ok.inj hread)
      have heq : stored = row := Except.ok.inj (hsound.symm.trans hrow)
      rw [heq]
    · exact hprint

end Saving

/-! ## A reordered case -/

section Ascii

attribute [local instance] asciiUnicode

/-- Five approved documents without rows. -/
def plainDocuments : List Json :=
  [sampleDocument "F" "PROCESS_FLOW" "APPROVED" [] [],
   sampleDocument "P" "PFMEA" "APPROVED" [] [],
   sampleDocument "C" "CONTROL_PLAN" "APPROVED" [] [],
   sampleDocument "S" "SOP" "APPROVED" [] [],
   sampleDocument "I" "INSPECTION_RECORD" "APPROVED" []
     [("reference_contract_version", .str "qualityci-controlled-reference-0.1")]]

/-- The sample case with its documents in the given order. -/
def orderedCase (documents : List Json) : Dict := sampleCase (sampleEvent "LOW" [] []) documents

/-- The projection of the sample case. -/
def sampleProjection : Dict :=
  ((canonicalCaseProjection (orderedCase plainDocuments)).toOption).getD []

/-- The row of the sample case with its documents in the given order. -/
def orderedRow (documents : List Json) : CaseRow where
  caseId := "CASE-1"
  caseHash := "05bee2974d7acb5ee521692c3da812b0ed86aa69a1bee5c5acfdf128a6030d67"
  synthetic := 1
  payloadJson := String.ofList (jsonText (.obj (orderedCase documents)))

/-- Both orders of the documents make an accepted case with one projection. -/
lemma orderedCase_accepted : ∀ documents ∈ [plainDocuments, plainDocuments.reverse],
    (Json.obj (orderedCase documents)).WF ∧ validateCaseDict (orderedCase documents) = .ok () ∧
      canonicalCaseProjection (orderedCase documents) = .ok sampleProjection ∧
      (Json.obj sampleProjection).isFinite = true ∧
      (Json.obj (orderedCase documents)).isFinite = true ∧
      (orderedCase documents).get? "case_id" = some (.str "CASE-1") ∧
      (orderedCase documents).get? "synthetic_for_competition" = some (.bool true) := by
  decide +kernel

lemma utf8_orderedRow (documents : List Json) :
    utf8 (String.ofList (jsonText (.obj (orderedRow documents).entity))) =
      evalEntity (evalUtf8 "CASE-1")
        (evalUtf8 "05bee2974d7acb5ee521692c3da812b0ed86aa69a1bee5c5acfdf128a6030d67")
        (evalJson (.obj (orderedCase documents))) 1 := by
  rw [utf8_entity, evalUtf8_eq, evalUtf8_eq, ← utf8_jsonText]
  rfl

/-- The hash of the projection, the fingerprint of the stored row, and that of the same case with its
documents in another order. -/
lemma orderedCase_digests :
    sha256Hex (String.ofList (jsonText (.obj sampleProjection))) =
      "05bee2974d7acb5ee521692c3da812b0ed86aa69a1bee5c5acfdf128a6030d67" ∧
    sha256Hex (String.ofList (jsonText (.obj (orderedRow plainDocuments).entity))) =
      "fede9684b98f397fd9a96c62d8c06a812a18ce8ff388c9ee7715748665f04a1d" ∧
    sha256Hex (String.ofList (jsonText (.obj (orderedRow plainDocuments.reverse).entity))) =
      "30b1c4d5f658a639ea91dbc73560137f00890261fa73a169a3d3c81e3b7df676" :=
  ⟨sha256Hex_of_eval (utf8_jsonText _) (by decide +kernel),
    sha256Hex_of_eval (utf8_orderedRow _) (by decide +kernel),
    sha256Hex_of_eval (utf8_orderedRow _) (by decide +kernel)⟩

lemma caseRow_ordered {documents : List Json}
    (h : documents ∈ [plainDocuments, plainDocuments.reverse]) :
    caseRow (orderedCase documents) = .ok (orderedRow documents) := by
  obtain ⟨-, hvalid, hprojection, hprojected, hfinite, hid, hsynthetic⟩ :=
    orderedCase_accepted documents h
  have hhash : canonicalHash (.obj (orderedCase documents)) =
      .ok (sha256Hex (String.ofList (jsonText (.obj sampleProjection)))) := by
    simp only [canonicalHash, hashedValue_of_accepted hvalid, hprojection, Except.map, ok_bind]
    rw [dumps_eq_ok.mpr ⟨hprojected, rfl⟩, ok_bind]
  unfold caseRow
  rw [dumps_eq_ok.mpr ⟨hfinite, rfl⟩, ok_bind, Dict.getItem_eq_ok.mpr hid, ok_bind, hhash, ok_bind,
    hsynthetic, orderedCase_digests.1]
  rfl

lemma plainDocuments_ordered : plainDocuments ∈ [plainDocuments, plainDocuments.reverse] :=
  List.mem_cons_self

lemma reversed_ordered : plainDocuments.reverse ∈ [plainDocuments, plainDocuments.reverse] :=
  List.mem_cons_of_mem _ List.mem_cons_self

/-- Both orders of the documents are saved as rows under one key. -/
lemma orderedCase_saved {documents : List Json}
    (h : documents ∈ [plainDocuments, plainDocuments.reverse]) :
    (Json.obj (orderedCase documents)).WF ∧
      prepareCase (orderedCase documents) = .ok (orderedCase documents) ∧
      caseRow (orderedCase documents) = .ok (orderedRow documents) :=
  ⟨(orderedCase_accepted documents h).1, prepareCase_current (orderedCase_accepted documents h).2.1,
    caseRow_ordered h⟩

/-- A store with the sample case. -/
lemma reached_plain : ∃ s : Store Unit, Reached s ∧ s.cases = [orderedRow plainDocuments] := by
  obtain ⟨hwf, hprepared, hrow⟩ := orderedCase_saved plainDocuments_ordered
  have hsave : ∃ s' : Store Unit, saveCase "2026-01-01T00:00:00+00:00" (orderedCase plainDocuments)
      ⟨[], [], ()⟩ = (.ok true, s') ∧ s'.cases = [orderedRow plainDocuments] :=
    saveCase_first hprepared hrow
  obtain ⟨s', hsave, hcases⟩ := hsave
  exact ⟨s', (Reached.new ()).saved hwf hsave, hcases⟩

lemma case?_plain {s : Store Unit} (h : s.cases = [orderedRow plainDocuments])
    (documents : List Json) : s.case? (orderedRow documents).caseId (orderedRow documents).caseHash =
      some (orderedRow plainDocuments) := by
  simp [Store.case?, h, orderedRow]

/-- The sample case, saved a second time. -/
theorem saveCase_idempotent_sample : ∃ s : Store Unit, Reached s ∧
    s.cases = [orderedRow plainDocuments] ∧
      (saveCase "2026-01-02T00:00:00+00:00" (orderedCase plainDocuments) s = (.ok false, s) ↔
        loads ⟨true⟩ (orderedRow plainDocuments).payloadJson =
            .ok (.obj (orderedCase plainDocuments)) ∨
          FingerprintCollision (orderedRow plainDocuments) (orderedRow plainDocuments)) := by
  obtain ⟨s, hs, hcases⟩ := reached_plain
  obtain ⟨hwf, hprepared, hrow⟩ := orderedCase_saved plainDocuments_ordered
  exact ⟨s, hs, hcases,
    saveCase_idempotent_iff hs hwf hprepared hrow (case?_plain hcases _) _⟩

/-- **The same case with its documents in another order conflicts with the stored one**: the two
have one projection, so one key, and their payloads differ. -/
theorem saveCase_reordered_conflicts :
    ¬∀ (s : Store Unit), Reached s → ∀ (case prepared : Dict) (row stored : CaseRow),
      (Json.obj case).WF → prepareCase case = .ok prepared → caseRow prepared = .ok row →
        s.case? row.caseId row.caseHash = some stored → ∀ now,
          saveCase now case s = (.ok false, s) := by
  intro h
  obtain ⟨s, hs, hcases⟩ := reached_plain
  obtain ⟨hwf, hprepared, hrow⟩ := orderedCase_saved reversed_ordered
  have htaken := h s hs _ _ _ (orderedRow plainDocuments) hwf hprepared hrow
    (case?_plain hcases _) "2026-01-02T00:00:00+00:00"
  rw [saveCase_taken hprepared hrow (case?_plain hcases _),
    fingerprint_entity, fingerprint_entity, orderedCase_digests.2.1, orderedCase_digests.2.2,
    Except.ok.injEq] at htaken
  exact absurd htaken (by decide)

end Ascii

end QualityCI

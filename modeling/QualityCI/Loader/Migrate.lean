import QualityCI.Lib.JsonRoundTrip
import QualityCI.Lib.Sha256
import QualityCI.Loader.Accepted
import QualityCI.Loader.Projection

/-!
# Preparing a case

A case of an earlier contract is migrated, version by version, and then validated; a case of the
current one is validated as it is.  The hash of a case is taken of the text of its projection.

* `migrateV02References`, `migrateV03Validation`, `migrateLegacyRelationships` — the migrations.
* `prepareCase` — migration and validation.
* `canonicalHash` — the hash of a value, of a case through its projection.
* **`prepareCase_accepted`**, **`prepareCase_wf`** — what a prepared case is.
-/

namespace QualityCI

open Py

variable [PyUnicode]

/-! ## Migrations -/

/-- Revision-only references: strings under non-blank roles. -/
def isRevisionOnly (references : Dict) : Bool :=
  references.all fun e => !isBlank e.1 && e.2.isStr

def revisionOnlyMessage : String :=
  "v0.2 controlled references must be revision-only strings; " ++
    "declare schema_version='qualityci-case-0.3' for native identities"

/-- The fields of an inspection record with its references moved, if it has any. -/
def migrateReferenceFields (fields : Dict) : Result Dict :=
  match fields.present? "references" with
  | none => .ok fields
  | some (.obj references) =>
      if isRevisionOnly references = true then
        .ok (fields.set "references" (.obj [("LEGACY_UNATTESTED", .obj references)]))
      else valueError revisionOnlyMessage
  | some _ => valueError revisionOnlyMessage

/-- An inspection record of a v0.2 case, and its identity when it has fields. -/
def migrateInspection (document : Dict) : Result (Dict × List String) :=
  let document :=
    document.set "reference_contract_version" (.str controlledReferenceContractVersion)
  match document.get? "fields" with
  | some (.obj fields) => do
      let fields ← migrateReferenceFields fields
      .ok (document.set "fields" (.obj fields),
        [(document.getD "document_id" (.str "<missing>")).toStr])
  | _ => .ok (document, [])

/-- One document of a v0.2 case; only inspection records hold references. -/
def migrateReferencesOf : Json → Result (Json × List String)
  | .obj document =>
      if Dict.get? document "document_type" = some (.str "INSPECTION_RECORD") then do
        let (document, ids) ← migrateInspection document
        .ok (.obj document, ids)
      else .ok (.obj document, [])
  | v => .ok (v, [])

/-- The documents of a v0.2 case; what is no list is only walked. -/
def migrateReferencesIn : Option Json → Result (Option Json × List String)
  | none => .ok (none, [])
  | some (.arr documents) => do
      let migrated ← mapEach migrateReferencesOf documents
      .ok (some (.arr (migrated.map Prod.fst)), migrated.flatMap Prod.snd)
  | some v => do
      let _ ← v.iterate
      .ok (some v, [])

/-- `_migrate_v02_references`. -/
def migrateV02References (case : Dict) : Result Dict := do
  require (case.get? "schema_version" = some (.str relationshipCaseSchemaVersion))
    "controlled-reference migration requires a v0.2 case"
  let (documents, legacyDocuments) ← migrateReferencesIn (case.get? "documents")
  let migrated := match documents with
    | some documents => case.set "documents" documents
    | none => case
  let migrated := migrated.set "schema_version" (.str controlledReferenceCaseSchemaVersion)
  .ok <| migrated.set "reference_migration" <| .obj <| Dict.ofList
    [("source_schema_version", .str relationshipCaseSchemaVersion),
     ("target_schema_version", .str controlledReferenceCaseSchemaVersion),
     ("status", .str "LEGACY_UNATTESTED"), ("inference_scope", .str "NONE"),
     ("document_ids", .arr (legacyDocuments.map .str)),
     ("reason", .str ("revision-only references do not prove exact controlled-document " ++
       "or source-byte identity"))]

/-- The identities of the validation evidence a v0.3 case lists. -/
def legacyEvidenceIds (case : Dict) : List String :=
  match case.get? "event" with
  | some (.obj event) =>
      (Dict.rowsAt event "validation_evidence").map fun item =>
        (item.getD "evidence_id" (.str "<missing>")).toStr
  | _ => []

/-- `_migrate_v03_validation`. -/
def migrateV03Validation (case : Dict) : Result Dict := do
  require (case.get? "schema_version" = some (.str controlledReferenceCaseSchemaVersion))
    "validation migration requires a v0.3 case"
  let migrated := case.set "schema_version" (.str caseSchemaVersion)
  .ok <| migrated.set "validation_migration" <| .obj <| Dict.ofList
    [("source_schema_version", .str controlledReferenceCaseSchemaVersion),
     ("target_schema_version", .str caseSchemaVersion),
     ("status", .str "LEGACY_UNATTESTED"), ("inference_scope", .str "NONE"),
     ("evidence_ids", .arr ((legacyEvidenceIds case).map .str)),
     ("reason", .str ("v0.3 validation records do not bind event, scope, case subject, " ++
       "raw report bytes, issuer claim or time claim"))]

/-- Whether a row carries a relationship field of v0.2. -/
def hasRelationshipField : Json → Bool
  | .obj item => Dict.contains item "process_step_id" || Dict.contains item "control_id"
  | _ => false

/-- Whether one of two lists of rows has relationship fields of v0.2. -/
def hasV02Rows (fields : Dict) : Result Bool :=
  anyEach (fun collection => do
    let items ← (fields.getD collection (.arr [])).iterate
    .ok (items.any hasRelationshipField)) ["risks", "characteristics"]

/-- Whether a document has rows with relationship fields of v0.2. -/
def hasV02RowFields : Json → Result Bool
  | .obj document =>
      match Dict.get? document "fields" with
      | some (.obj fields) => hasV02Rows fields
      | _ => .ok false
  | _ => .ok false

/-- The one pair a legacy event can mean, when it names one step and one characteristic. -/
def legacyScopePair (event : Dict) : Option (String × String) :=
  match event.get? "affected_process_steps", event.get? "affected_characteristics" with
  | some (.arr [.str step]), some (.arr [.str characteristic]) =>
      if isBlank step = false ∧ isBlank characteristic = false then some (step, characteristic)
      else none
  | _, _ => none

/-- A v0.1 case with the relationship it can only mean, or marked as ambiguous. -/
def migrateLegacyEvent (case event : Dict) : Dict :=
  let migrated := case.set "schema_version" (.str relationshipCaseSchemaVersion)
  let versions : List (String × Json) :=
    [("source_schema_version", .str legacyCaseSchemaVersion),
     ("target_schema_version", .str relationshipCaseSchemaVersion)]
  match legacyScopePair event with
  | some (step, characteristic) =>
      let links : Json := .arr [.obj (Dict.ofList
        [("process_step_id", .str step), ("characteristic_id", .str characteristic)])]
      let migrated := migrated.set "event" (.obj (event.set "affected_links" links))
      migrated.set "relationship_migration" <| .obj <| Dict.ofList <| versions ++
        [("status", .str "DETERMINISTIC_1X1"), ("inference_scope", .str "EVENT_SCOPE_ONLY"),
         ("inferred_affected_links", links),
         ("reason", .str ("event scope has one possible pair; legacy document rows remain " ++
           "unbound and cannot support relationship PASS"))]
  | none =>
      migrated.set "relationship_migration" <| .obj <| Dict.ofList <| versions ++
        [("status", .str "AMBIGUOUS"),
         ("reason", .str "legacy relationship scope is not uniquely inferable")]

/-- `migrate_legacy_relationships`, once it has its copy of the case, with the two migrations it
goes on to. -/
def migrateLegacyThrough (migrateV02 migrateV03 : Dict → Result Dict) (case : Dict) : Result Dict :=
  let version := case.getD "schema_version" (.str legacyCaseSchemaVersion)
  if version = .str caseSchemaVersion then .ok case
  else if version = .str controlledReferenceCaseSchemaVersion then migrateV03 case
  else if version = .str relationshipCaseSchemaVersion then do
    let migrated ← migrateV02 case
    migrateV03 migrated
  else if version ≠ .str legacyCaseSchemaVersion then
    valueError s!"unsupported case schema_version: {version.repr}"
  else
    match case.get? "event" with
    | some (.obj event) => do
        let documents ← (case.getD "documents" (.arr [])).iterate
        let hasRowFields ← anyEach hasV02RowFields documents
        require (¬(Dict.contains event "affected_links" = true ∨ hasRowFields = true))
          ("legacy case contains v0.2 relationship fields; declare " ++
            s!"schema_version={strRepr caseSchemaVersion} instead of using compatibility " ++
            "migration")
        let migrated ← migrateV02 (migrateLegacyEvent case event)
        migrateV03 migrated
    | _ => .ok case

/-- `migrate_legacy_relationships`. -/
def migrateLegacyRelationships (case : Dict) : Result Dict :=
  migrateLegacyThrough migrateV02References migrateV03Validation case

/-- `prepare_case(case)`. -/
def prepareCase (case : Dict) : Result Dict := do
  let prepared ← migrateLegacyRelationships case
  validateCaseDict prepared
  .ok prepared

/-! ## The hash of a value -/

/-- What the hash of a dictionary is taken of. -/
def hashedDict (value : Dict) : Result Json :=
  match value.get? "schema_version", value.get? "event", value.get? "documents" with
  | some version, some (.obj _), some (.arr _) =>
      if version = .str caseSchemaVersion then do
        validateCaseDict value
        let projected ← canonicalCaseProjection value
        .ok (.obj projected)
      else .ok (.obj value)
  | _, _, _ => .ok (.obj value)

/-- What the hash is taken of: a case's projection, and any other value itself. -/
def hashedValue : Json → Result Json
  | .obj value => hashedDict value
  | value => .ok value

/-- `canonical_hash(value)`. -/
def canonicalHash (value : Json) : Result String := do
  let value ← hashedValue value
  let payload ← dumps value
  .ok (sha256Hex payload)

lemma hashedValue_of_accepted {case : Dict} (h : validateCaseDict case = .ok ()) :
    hashedValue (.obj case) = (canonicalCaseProjection case).map .obj := by
  have hcase := validateCase_accepted h
  simp only [hashedValue, hashedDict, hcase.version, hcase.event, hcase.documents.1, ↓reduceIte, h]
  cases canonicalCaseProjection case <;> rfl

/-! ## A prepared case -/

lemma prepareCase_eq_ok {case prepared : Dict} :
    prepareCase case = .ok prepared ↔
      migrateLegacyRelationships case = .ok prepared ∧ validateCaseDict prepared = .ok () := by
  simp only [prepareCase, bind_eq_ok, exists_unit, Except.ok.injEq]
  constructor
  · rintro ⟨p, hp, hv, rfl⟩
    exact ⟨hp, hv⟩
  · rintro ⟨hp, hv⟩
    exact ⟨prepared, hp, hv, rfl⟩

/-- **A prepared case is accepted.** -/
theorem prepareCase_accepted {case prepared : Dict} (h : prepareCase case = .ok prepared) :
    AcceptedCase prepared :=
  validateCase_accepted (prepareCase_eq_ok.mp h).2

/-- A case of the current version is prepared as it is. -/
lemma prepareCase_current {case : Dict} (h : validateCaseDict case = .ok ()) :
    prepareCase case = .ok case := by
  refine prepareCase_eq_ok.mpr ⟨?_, h⟩
  have hversion : case.getD "schema_version" (.str legacyCaseSchemaVersion) =
      .str caseSchemaVersion := by
    rw [Dict.getD, (validateCase_accepted h).version, Option.getD_some]
  simp only [migrateLegacyRelationships, migrateLegacyThrough, hversion, ↓reduceIte]

omit [PyUnicode] in
lemma migrateReferenceFields_wf {fields migrated : Dict} (hwf : (Json.obj fields).WF)
    (h : migrateReferenceFields fields = .ok migrated) : (Json.obj migrated).WF := by
  unfold migrateReferenceFields at h
  split at h
  · exact Except.ok.inj h ▸ hwf
  · rename_i references hrefs
    split_ifs at h
    · obtain rfl := Except.ok.inj h
      have hrefsWf := hwf.get? (Dict.present?_eq_some.mp hrefs).1
      refine hwf.set "references" (Json.wf_obj.mpr ⟨List.pairwise_singleton _ _, ?_⟩)
      simpa using hrefsWf
    · exact absurd h valueError_ne_ok
  · exact absurd h valueError_ne_ok

lemma migrateInspection_wf {document : Dict} {r : Dict × List String}
    (hwf : (Json.obj document).WF) (h : migrateInspection document = .ok r) :
    (Json.obj r.1).WF := by
  have hset := hwf.set "reference_contract_version"
    (Json.wf_str controlledReferenceContractVersion)
  unfold migrateInspection at h
  simp only at h
  split at h
  · rename_i fields hfields
    simp only [bind_eq_ok, Except.ok.injEq] at h
    obtain ⟨migrated, hm, rfl⟩ := h
    exact hset.set "fields" (migrateReferenceFields_wf (hset.get? hfields) hm)
  · exact Except.ok.inj h ▸ hset

lemma migrateReferencesOf_wf {v : Json} {r : Json × List String} (hv : v.WF)
    (h : migrateReferencesOf v = .ok r) : r.1.WF := by
  cases v with
  | obj document =>
      simp only [migrateReferencesOf] at h
      split_ifs at h
      · simp only [bind_eq_ok, Except.ok.injEq] at h
        obtain ⟨m, hm, rfl⟩ := h
        exact migrateInspection_wf hv hm
      · exact Except.ok.inj h ▸ hv
  | _ => exact Except.ok.inj h ▸ hv

lemma migrateV02References_wf {case migrated : Dict} (hwf : (Json.obj case).WF)
    (h : migrateV02References case = .ok migrated) : (Json.obj migrated).WF := by
  simp only [migrateV02References, bind_eq_ok, exists_unit, require_eq_ok, Except.ok.injEq] at h
  obtain ⟨-, ⟨documents, ids⟩, hdocs, rfl⟩ := h
  have hdocuments : ∀ d, documents = some d → d.WF := by
    intro d hd
    cases hv : case.get? "documents" with
    | none =>
        rw [hv] at hdocs
        simp only [migrateReferencesIn, Except.ok.injEq, Prod.mk.injEq] at hdocs
        exact absurd (hdocs.1.trans hd) (by simp)
    | some v =>
        have hvwf := hwf.get? hv
        rw [hv] at hdocs
        cases v with
        | arr items =>
            simp only [migrateReferencesIn, bind_eq_ok, Except.ok.injEq, Prod.mk.injEq] at hdocs
            obtain ⟨rows, hrows, rfl, -⟩ := hdocs
            obtain rfl := Option.some.inj hd
            rw [Json.wf_arr] at hvwf ⊢
            intro x hx
            obtain ⟨r, hr, rfl⟩ := List.mem_map.mp hx
            obtain ⟨y, hy, hyr⟩ := mapEach_exists hrows hr
            exact migrateReferencesOf_wf (hvwf y hy) hyr
        | _ =>
            simp only [migrateReferencesIn, bind_eq_ok, Except.ok.injEq, Prod.mk.injEq] at hdocs
            obtain ⟨_, -, rfl, -⟩ := hdocs
            obtain rfl := Option.some.inj hd
            exact hvwf
  have hmarker : (Json.obj (Dict.ofList
      [("source_schema_version", .str relationshipCaseSchemaVersion),
       ("target_schema_version", .str controlledReferenceCaseSchemaVersion),
       ("status", .str "LEGACY_UNATTESTED"), ("inference_scope", .str "NONE"),
       ("document_ids", .arr (ids.map .str)),
       ("reason", .str ("revision-only references do not prove exact controlled-document " ++
         "or source-byte identity"))])).WF := by
    refine Json.wf_ofList ?_
    simp
  cases documents with
  | none => exact (hwf.set _ (Json.wf_str _)).set _ hmarker
  | some d => exact ((hwf.set _ (hdocuments d rfl)).set _ (Json.wf_str _)).set _ hmarker

lemma migrateV03Validation_wf {case migrated : Dict} (hwf : (Json.obj case).WF)
    (h : migrateV03Validation case = .ok migrated) : (Json.obj migrated).WF := by
  simp only [migrateV03Validation, bind_eq_ok, exists_unit, require_eq_ok, Except.ok.injEq] at h
  obtain ⟨-, rfl⟩ := h
  refine (hwf.set _ (Json.wf_str _)).set _ (Json.wf_ofList ?_)
  simp

omit [PyUnicode] in
lemma migrateLegacyEvent_wf {case event : Dict} (hwf : (Json.obj case).WF)
    (hevent : (Json.obj event).WF) : (Json.obj (migrateLegacyEvent case event)).WF := by
  unfold migrateLegacyEvent
  cases legacyScopePair event with
  | none => exact (hwf.set _ (Json.wf_str _)).set _ (Json.wf_ofList (by simp))
  | some pair =>
      have hlinks : (Json.arr [.obj (Dict.ofList
          [("process_step_id", .str pair.1), ("characteristic_id", .str pair.2)])]).WF := by
        rw [Json.wf_arr]
        simpa using Json.wf_ofList (by simp)
      exact ((hwf.set _ (Json.wf_str _)).set _ (hevent.set _ hlinks)).set _
        (Json.wf_ofList (by simpa using hlinks))

/-- **A prepared case keeps its dictionaries in order.** -/
theorem prepareCase_wf {case prepared : Dict} (hwf : (Json.obj case).WF)
    (h : prepareCase case = .ok prepared) : (Json.obj prepared).WF := by
  have hm := (prepareCase_eq_ok.mp h).1
  unfold migrateLegacyRelationships migrateLegacyThrough at hm
  simp only at hm
  split_ifs at hm
  · exact Except.ok.inj hm ▸ hwf
  · exact migrateV03Validation_wf hwf hm
  · simp only [bind_eq_ok] at hm
    obtain ⟨m, hm2, hm3⟩ := hm
    exact migrateV03Validation_wf (migrateV02References_wf hwf hm2) hm3
  · exact absurd hm valueError_ne_ok
  · split at hm
    · rename_i event hevent
      simp only [bind_eq_ok, exists_unit] at hm
      obtain ⟨_, -, _, -, -, m, hm2, hm3⟩ := hm
      exact migrateV03Validation_wf
        (migrateV02References_wf (migrateLegacyEvent_wf hwf (hwf.get? hevent)) hm2) hm3
    · exact Except.ok.inj hm ▸ hwf

end QualityCI

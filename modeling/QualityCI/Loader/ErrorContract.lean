import QualityCI.Lib.PyStack
import QualityCI.Loader.Accepted
import QualityCI.Loader.Migrate
import QualityCI.Loader.Raises

/-!
# The error contract of `prepare_case`

The migrations run before the validator, on structures nobody has looked at yet.  They walk the
documents of a v0.2 case, and the rows of a v0.1 case, with plain `for` loops: a number or a null in
such a place raises a `TypeError`.  What is no dictionary has no `get` at all, and what nests deeper
than the stack allows is not copied.  The frames that are left when `prepare_case` is called are a
parameter.

* `WalkableCase` — the loops of the migrations find something to walk.
* `CopiesWithin` — the copies that the migrations make of a case fit the stack.
* `prepareJson` — `prepare_case` of any value.
* `prepareCaseIn` — `prepare_case` as it reads and writes objects, starting from the caller's.
* **`prepareCase_contract_iff`** — it raises `ValueError`s only exactly on the values the contract
  can be kept for, and leaves the caller's objects as they were on all.
-/

namespace QualityCI

open Py

section Contract

variable [PyUnicode]

/-! ## The migration -/

/-- A value a `for` loop accepts. -/
def IsIterable : Json → Prop
  | .arr _ | .obj _ | .str _ => True
  | _ => False

/-- A list with a row that carries a relationship field of v0.2. -/
def HasBoundRow (v : Json) : Prop :=
  ∃ items, v = .arr items ∧ items.any hasRelationshipField = true

/-- The fields of a document whose risks can be walked, and whose characteristics can when none of
the risks carries a relationship field. -/
def WalkableFields (fields : Dict) : Prop :=
  IsIterable (fields.getD "risks" (.arr [])) ∧
    (¬HasBoundRow (fields.getD "risks" (.arr [])) →
      IsIterable (fields.getD "characteristics" (.arr [])))

/-- A document of a v0.1 case whose rows can be walked. -/
def WalkableDocument (document : Json) : Prop :=
  ∀ d : Dict, document = .obj d → ∀ fields : Dict, d.get? "fields" = some (.obj fields) →
    WalkableFields fields

/-- A document of a v0.1 case without a row that carries a relationship field. -/
def UnboundDocument (document : Json) : Prop :=
  ∀ d : Dict, document = .obj d → ∀ fields : Dict, d.get? "fields" = some (.obj fields) →
    ¬HasBoundRow (fields.getD "risks" (.arr [])) ∧
      ¬HasBoundRow (fields.getD "characteristics" (.arr []))

/-- The documents of a v0.1 case can be walked up to the first with a relationship field. -/
def WalkableDocuments (documents : Json) : Prop :=
  IsIterable documents ∧ ∀ items, documents = .arr items →
    ∀ before document after, items = before ++ document :: after →
      (∀ d ∈ before, WalkableDocument d ∧ UnboundDocument d) → WalkableDocument document

/-- A case whose documents can be walked as far as its version's migration walks them. -/
structure WalkableCase (case : Dict) : Prop where
  references : case.getD "schema_version" (.str legacyCaseSchemaVersion) =
    .str relationshipCaseSchemaVersion → IsIterable (case.getD "documents" (.arr []))
  relationships : case.getD "schema_version" (.str legacyCaseSchemaVersion) =
    .str legacyCaseSchemaVersion → ∀ event, case.get? "event" = some (.obj event) →
      WalkableDocuments (case.getD "documents" (.arr []))

omit [PyUnicode] in
@[simp] lemma raisesOnly_iterate {v : Json} : RaisesOnly .valueError v.iterate ↔ IsIterable v := by
  cases v <;> simp [Json.iterate, IsIterable, typeError]

omit [PyUnicode] in
/-- Whether a value has a row with a relationship field: only the items of a list can be rows. -/
lemma boundRows_eq_ok {v : Json} {found : Bool} :
    (v.iterate >>= fun items => (.ok (items.any hasRelationshipField) : Result Bool)) =
      .ok found ↔ IsIterable v ∧ (found = true ↔ HasBoundRow v) := by
  cases v with
  | arr xs =>
      simp only [Json.iterate, ok_bind, Except.ok.injEq, IsIterable, HasBoundRow, Json.arr.injEq,
        exists_eq_left', true_and]
      rw [Bool.eq_iff_iff]
      exact iff_comm
  | obj d =>
      have hkeys : ((Dict.keys d).map Json.str).any hasRelationshipField = false := by
        simp [List.any_eq_false, hasRelationshipField]
      simp [Json.iterate, ok_bind, hkeys, IsIterable, HasBoundRow]
  | str s =>
      have hchars : (s.toList.map fun c => Json.str (String.singleton c)).any
          hasRelationshipField = false := by
        simp [List.any_eq_false, hasRelationshipField]
      simp [Json.iterate, ok_bind, hchars, IsIterable, HasBoundRow]
  | _ => simp [Json.iterate, IsIterable]

omit [PyUnicode] in
lemma hasV02Rows_eq {fields : Dict} : hasV02Rows fields = (do
    let inRisks ← (fields.getD "risks" (.arr [])).iterate >>= fun items =>
      (.ok (items.any hasRelationshipField) : Result Bool)
    if inRisks = true then .ok true
    else (fields.getD "characteristics" (.arr [])).iterate >>= fun items =>
      (.ok (items.any hasRelationshipField) : Result Bool)) := by
  simp only [hasV02Rows, anyEach]
  refine congrArg _ (funext fun inRisks => ?_)
  split_ifs with h
  · rfl
  · cases (fields.getD "characteristics" (.arr [])).iterate with
    | error e => rfl
    | ok items =>
        simp only [ok_bind]
        split_ifs with hany <;> simp [hany]

omit [PyUnicode] in
lemma raisesOnly_hasV02Rows {fields : Dict} :
    RaisesOnly .valueError (hasV02Rows fields) ↔ WalkableFields fields := by
  rw [hasV02Rows_eq]
  simp only [raisesOnly_bind, raisesOnly_iterate, raisesOnly_ok, implies_true, and_true,
    boundRows_eq_ok, WalkableFields]
  refine and_congr_right fun hrisks => ⟨fun h hunbound => ?_, fun h found hfound => ?_⟩
  · have hcharacteristics := h false ⟨hrisks, by simp [hunbound]⟩
    simpa using hcharacteristics
  · cases found with
    | true => simp
    | false =>
        have hunbound := hfound.2
        simp only [Bool.false_eq_true, false_iff] at hunbound
        simpa using h hunbound

omit [PyUnicode] in
lemma hasV02Rows_eq_false {fields : Dict} :
    hasV02Rows fields = .ok false ↔ WalkableFields fields ∧
      ¬HasBoundRow (fields.getD "risks" (.arr [])) ∧
        ¬HasBoundRow (fields.getD "characteristics" (.arr [])) := by
  rw [hasV02Rows_eq, bind_eq_ok]
  simp only [boundRows_eq_ok, WalkableFields]
  constructor
  · rintro ⟨inRisks, ⟨hrisks, hbound⟩, h⟩
    split_ifs at h with hfound
    · exact absurd (Except.ok.inj h) (by decide)
    · rw [boundRows_eq_ok] at h
      have hunbound : ¬HasBoundRow (fields.getD "risks" (.arr [])) := fun hr => hfound (hbound.mpr hr)
      exact ⟨⟨hrisks, fun _ => h.1⟩, hunbound, by simpa using h.2⟩
  · rintro ⟨⟨hrisks, hcharacteristics⟩, hunbound, hnone⟩
    refine ⟨false, ⟨hrisks, by simp [hunbound]⟩, ?_⟩
    rw [if_neg (by decide), boundRows_eq_ok]
    exact ⟨hcharacteristics hunbound, by simp [hnone]⟩

omit [PyUnicode] in
lemma raisesOnly_hasV02RowFields {document : Json} :
    RaisesOnly .valueError (hasV02RowFields document) ↔ WalkableDocument document := by
  cases document with
  | obj d =>
      simp only [hasV02RowFields, WalkableDocument, Json.obj.injEq, forall_eq']
      cases hfields : Dict.get? d "fields" with
      | none => simp
      | some v => cases v <;> simp [raisesOnly_hasV02Rows]
  | _ => simp [hasV02RowFields, WalkableDocument]

omit [PyUnicode] in
lemma hasV02RowFields_eq_false {document : Json} :
    hasV02RowFields document = .ok false ↔ WalkableDocument document ∧ UnboundDocument document := by
  cases document with
  | obj d =>
      simp only [hasV02RowFields, WalkableDocument, UnboundDocument, Json.obj.injEq, forall_eq']
      cases hfields : Dict.get? d "fields" with
      | none => simp
      | some v => cases v <;> simp [hasV02Rows_eq_false]
  | _ => simp [hasV02RowFields, WalkableDocument, UnboundDocument]

omit [PyUnicode] in
/-- The walk of the v0.1 migration. -/
lemma raisesOnly_walk {documents : Json} :
    (RaisesOnly .valueError documents.iterate ∧ ∀ items, documents.iterate = .ok items →
      RaisesOnly .valueError (anyEach hasV02RowFields items)) ↔ WalkableDocuments documents := by
  simp only [raisesOnly_iterate, raisesOnly_anyEach, raisesOnly_hasV02RowFields,
    hasV02RowFields_eq_false, WalkableDocuments]
  refine and_congr_right fun hiterable => ⟨fun h items hitems => ?_, fun h items hitems => ?_⟩
  · exact h items (by rw [hitems]; rfl)
  · cases documents with
    | arr xs =>
        obtain rfl := Except.ok.inj hitems
        exact h xs rfl
    | obj d =>
        obtain rfl := Except.ok.inj hitems
        rintro before document after heq -
        have hmem : document ∈ (Dict.keys d).map Json.str := by simp [heq]
        obtain ⟨key, -, rfl⟩ := List.mem_map.mp hmem
        simp [WalkableDocument]
    | str s =>
        obtain rfl := Except.ok.inj hitems
        rintro before document after heq -
        have hmem : document ∈ s.toList.map fun c => Json.str (String.singleton c) := by
          simp [heq]
        obtain ⟨c, -, rfl⟩ := List.mem_map.mp hmem
        simp [WalkableDocument]
    | _ => exact hiterable.elim

omit [PyUnicode] in
lemma raisesOnly_migrateReferenceFields {fields : Dict} :
    RaisesOnly .valueError (migrateReferenceFields fields) := by
  unfold migrateReferenceFields
  cases fields.present? "references" with
  | none => simp
  | some v =>
      cases v with
      | obj references =>
          simp only
          split_ifs <;> simp
      | _ => simp

lemma raisesOnly_migrateInspection {document : Dict} :
    RaisesOnly .valueError (migrateInspection document) := by
  simp only [migrateInspection]
  cases Dict.get? (document.set "reference_contract_version"
      (.str controlledReferenceContractVersion)) "fields" with
  | none => simp
  | some v => cases v <;> simp [raisesOnly_migrateReferenceFields]

lemma raisesOnly_migrateReferencesOf {document : Json} :
    RaisesOnly .valueError (migrateReferencesOf document) := by
  cases document with
  | obj d =>
      simp only [migrateReferencesOf]
      split_ifs <;> simp [raisesOnly_migrateInspection]
  | _ => simp [migrateReferencesOf]

lemma raisesOnly_migrateV02 {case : Dict} :
    RaisesOnly .valueError (migrateV02References case) ↔
      (case.get? "schema_version" = some (.str relationshipCaseSchemaVersion) →
        IsIterable (case.getD "documents" (.arr []))) := by
  simp only [migrateV02References, raisesOnly_bind, raisesOnly_require, raisesOnly_ok,
    require_eq_ok, implies_true, and_true, true_and, forall_const]
  refine imp_congr_right fun _ => ?_
  unfold Dict.getD
  cases case.get? "documents" with
  | none => simp [migrateReferencesIn, IsIterable]
  | some v =>
      cases v <;>
        simp [migrateReferencesIn, IsIterable, Json.iterate, RaisesOnly.mapEach,
          raisesOnly_migrateReferencesOf, typeError]

lemma raisesOnly_migrateV03 {case : Dict} :
    RaisesOnly .valueError (migrateV03Validation case) := by
  simp [migrateV03Validation]

/-- A migration copies the case it is given, where so many frames are left for the copy. -/
def copying (frames : ℕ) (migrate : Dict → Result Dict) (case : Dict) : Result Dict := do
  copyWithin frames (.obj case)
  migrate case

omit [PyUnicode] in
lemma copying_eq_ok {frames : ℕ} {migrate : Dict → Result Dict} {case migrated : Dict} :
    copying frames migrate case = .ok migrated ↔
      copyFrames (.obj case) ≤ frames ∧ migrate case = .ok migrated := by
  simp [copying]

omit [PyUnicode] in
lemma raisesOnly_copying {frames : ℕ} {migrate : Dict → Result Dict} {case : Dict} :
    RaisesOnly .valueError (copying frames migrate case) ↔
      copyFrames (.obj case) ≤ frames ∧ RaisesOnly .valueError (migrate case) :=
  raisesOnly_copyWithin_bind

/-- The v0.2 case that the reference migration is given: the case itself, or what the relationship
migration makes of a v0.1 case. -/
def ReferenceMigrated (case v02 : Dict) : Prop :=
  (case.getD "schema_version" (.str legacyCaseSchemaVersion) =
      .str relationshipCaseSchemaVersion ∧ v02 = case) ∨
    (case.getD "schema_version" (.str legacyCaseSchemaVersion) = .str legacyCaseSchemaVersion ∧
      ∃ event documents, case.get? "event" = some (.obj event) ∧
        (case.getD "documents" (.arr [])).iterate = .ok documents ∧
        Dict.contains event "affected_links" = false ∧
        anyEach hasV02RowFields documents = .ok false ∧ v02 = migrateLegacyEvent case event)

/-- So many frames are enough for the copies that the migrations make of a case: of a v0.3 case, of
a v0.2 case and of the v0.3 case it becomes. -/
structure CopiesWithin (frames : ℕ) (case : Dict) : Prop where
  validation : case.getD "schema_version" (.str legacyCaseSchemaVersion) =
    .str controlledReferenceCaseSchemaVersion → copyFrames (.obj case) ≤ frames
  references : ∀ v02, ReferenceMigrated case v02 → copyFrames (.obj v02) ≤ frames ∧
    ∀ v03, migrateV02References v02 = .ok v03 → copyFrames (.obj v03) ≤ frames

omit [PyUnicode] in
lemma walkableCase_iff {case : Dict} : WalkableCase case ↔
    (case.getD "schema_version" (.str legacyCaseSchemaVersion) =
      .str relationshipCaseSchemaVersion → IsIterable (case.getD "documents" (.arr []))) ∧
    (case.getD "schema_version" (.str legacyCaseSchemaVersion) = .str legacyCaseSchemaVersion →
      ∀ event, case.get? "event" = some (.obj event) →
        WalkableDocuments (case.getD "documents" (.arr []))) :=
  ⟨fun h => ⟨h.references, h.relationships⟩, fun h => ⟨h.1, h.2⟩⟩

lemma copiesWithin_iff {frames : ℕ} {case : Dict} : CopiesWithin frames case ↔
    (case.getD "schema_version" (.str legacyCaseSchemaVersion) =
      .str controlledReferenceCaseSchemaVersion → copyFrames (.obj case) ≤ frames) ∧
    ∀ v02, ReferenceMigrated case v02 → copyFrames (.obj v02) ≤ frames ∧
      ∀ v03, migrateV02References v02 = .ok v03 → copyFrames (.obj v03) ≤ frames :=
  ⟨fun h => ⟨h.validation, h.references⟩, fun h => ⟨h.1, h.2⟩⟩

omit [PyUnicode] in
/-- The versions of a case, the current one first. -/
lemma schemaVersions_distinct : caseSchemaVersion ≠ controlledReferenceCaseSchemaVersion ∧
    caseSchemaVersion ≠ relationshipCaseSchemaVersion ∧
    caseSchemaVersion ≠ legacyCaseSchemaVersion ∧
    controlledReferenceCaseSchemaVersion ≠ relationshipCaseSchemaVersion ∧
    controlledReferenceCaseSchemaVersion ≠ legacyCaseSchemaVersion ∧
    relationshipCaseSchemaVersion ≠ legacyCaseSchemaVersion := by
  decide

/-- `migrate_legacy_relationships`, once it has its copy of the case, where so many frames are left
for the copies of the other migrations. -/
def migrateLegacyWithin (frames : ℕ) (case : Dict) : Result Dict :=
  migrateLegacyThrough (copying frames migrateV02References) (copying frames migrateV03Validation)
    case

omit [PyUnicode] in
/-- The scope of a legacy event is written beside its documents. -/
lemma migrateLegacyEvent_get? {case event : Dict} {key : String} (hevent : key ≠ "event")
    (hversion : key ≠ "schema_version") (hmarker : key ≠ "relationship_migration") :
    (migrateLegacyEvent case event).get? key = case.get? key := by
  unfold migrateLegacyEvent
  cases legacyScopePair event with
  | none => simp [hversion.symm, hmarker.symm]
  | some pair => simp [hevent.symm, hversion.symm, hmarker.symm]

/-- The two later migrations. -/
lemma copied_chain_eq_ok {frames : ℕ} {case migrated : Dict} : (do
      let v03 ← copying frames migrateV02References case
      copying frames migrateV03Validation v03) = .ok migrated ↔
    (copyFrames (.obj case) ≤ frames ∧
      ∀ v03, migrateV02References case = .ok v03 → copyFrames (.obj v03) ≤ frames) ∧
    (migrateV02References case >>= migrateV03Validation) = .ok migrated := by
  simp only [bind_eq_ok, copying_eq_ok]
  constructor
  · rintro ⟨v03, ⟨hcase, hv03⟩, hfits, hlast⟩
    refine ⟨⟨hcase, fun w hw => ?_⟩, v03, hv03, hlast⟩
    obtain rfl := Except.ok.inj (hv03.symm.trans hw)
    exact hfits
  · rintro ⟨⟨hcase, hfits⟩, v03, hv03, hlast⟩
    exact ⟨v03, ⟨hcase, hv03⟩, hfits v03 hv03, hlast⟩

lemma raisesOnly_copied_chain {frames : ℕ} {case : Dict} : RaisesOnly .valueError (do
      let v03 ← copying frames migrateV02References case
      copying frames migrateV03Validation v03) ↔
    (copyFrames (.obj case) ≤ frames ∧
      ∀ v03, migrateV02References case = .ok v03 → copyFrames (.obj v03) ≤ frames) ∧
    (case.get? "schema_version" = some (.str relationshipCaseSchemaVersion) →
      IsIterable (case.getD "documents" (.arr []))) := by
  simp only [raisesOnly_bind, raisesOnly_copying, copying_eq_ok, raisesOnly_migrateV02,
    raisesOnly_migrateV03, and_true]
  constructor
  · rintro ⟨⟨hcase, hwalk⟩, hfits⟩
    exact ⟨⟨hcase, fun v03 hv03 => hfits v03 ⟨hcase, hv03⟩⟩, hwalk⟩
  · rintro ⟨⟨hcase, hfits⟩, hwalk⟩
    exact ⟨⟨hcase, hwalk⟩, fun v03 hv03 => hfits v03 hv03.2⟩

/-- The migration of a v0.1 case with an event walks the documents twice. -/
lemma raisesOnly_migrateV01 {frames : ℕ} {case event : Dict} {message : String} :
    RaisesOnly .valueError (do
      let documents ← (case.getD "documents" (.arr [])).iterate
      let hasRowFields ← anyEach hasV02RowFields documents
      require (¬(Dict.contains event "affected_links" = true ∨ hasRowFields = true)) message
      let migrated ← copying frames migrateV02References (migrateLegacyEvent case event)
      copying frames migrateV03Validation migrated) ↔
    WalkableDocuments (case.getD "documents" (.arr [])) ∧
      ∀ documents, (case.getD "documents" (.arr [])).iterate = .ok documents →
        Dict.contains event "affected_links" = false →
        anyEach hasV02RowFields documents = .ok false →
          copyFrames (.obj (migrateLegacyEvent case event)) ≤ frames ∧
            ∀ v03, migrateV02References (migrateLegacyEvent case event) = .ok v03 →
              copyFrames (.obj v03) ≤ frames := by
  have hdocuments : (migrateLegacyEvent case event).getD "documents" (.arr []) =
      case.getD "documents" (.arr []) := by
    unfold Dict.getD
    rw [migrateLegacyEvent_get? (by decide) (by decide) (by decide)]
  rw [← raisesOnly_walk, raisesOnly_bind]
  simp only [raisesOnly_bind (x := anyEach _ _), raisesOnly_bind (x := require _ _),
    raisesOnly_require, raisesOnly_copied_chain, hdocuments, true_and, require_eq_ok, forall_const,
    not_or, Bool.not_eq_true]
  constructor
  · rintro ⟨hiterable, h⟩
    refine ⟨⟨hiterable, fun items hitems => (h items hitems).1⟩, fun items hitems hlinks hrows => ?_⟩
    exact ((h items hitems).2 false hrows ⟨hlinks, rfl⟩).1
  · rintro ⟨⟨hiterable, h⟩, hfits⟩
    refine ⟨hiterable, fun items hitems => ⟨h items hitems, fun found hfound hnone => ?_⟩⟩
    rw [hnone.2] at hfound
    exact ⟨hfits items hitems hnone.1 hfound, fun _ => raisesOnly_iterate.mp hiterable⟩

/-- **The migration.**  It raises `ValueError`s only when it can walk the documents and copy what it
copies. -/
theorem raisesOnly_migrate {frames : ℕ} {case : Dict} :
    RaisesOnly .valueError (migrateLegacyWithin frames case) ↔
      WalkableCase case ∧ CopiesWithin frames case := by
  obtain ⟨h43, h42, h41, h32, h31, h21⟩ := schemaVersions_distinct
  rw [walkableCase_iff, copiesWithin_iff]
  simp only [migrateLegacyWithin, migrateLegacyThrough, ReferenceMigrated]
  generalize hversion : case.getD "schema_version" (.str legacyCaseSchemaVersion) = version
  split_ifs with hcurrent hv03 hv02 hv01
  · simp [hcurrent, h42, h43, h41]
  · simp [hv03, h32, h31, raisesOnly_copying, raisesOnly_migrateV03]
  · have hget : case.get? "schema_version" = some (.str relationshipCaseSchemaVersion) := by
      rw [hv02] at hversion
      unfold Dict.getD at hversion
      cases hget : case.get? "schema_version" with
      | none => simp [hget, h21.symm] at hversion
      | some v => simpa [hget] using hversion
    rw [raisesOnly_copied_chain]
    simp [hget, hv02, h21, h32.symm, and_comm]
  · simp [hv02, hv03, hv01]
  · have hv01 : version = .str legacyCaseSchemaVersion := not_not.mp hv01
    simp only [hv01, Json.str.injEq, h21.symm, h31.symm, false_implies, true_and, forall_const,
      false_and, false_or]
    cases hevent : case.get? "event" with
    | none => simp
    | some v =>
        cases v with
        | obj event =>
            simp only [raisesOnly_migrateV01, Option.some.injEq, Json.obj.injEq, forall_eq']
            refine and_congr_right fun _ => ⟨?_, fun h documents hitems hlinks hrows => ?_⟩
            · rintro h v02 ⟨event', documents, rfl, hitems, hlinks, hrows, rfl⟩
              exact h documents hitems hlinks hrows
            · exact h _ ⟨event, documents, rfl, hitems, hlinks, hrows, rfl⟩
        | _ => simp

/-- **What the copies leave** of the migration. -/
lemma migrateLegacyWithin_eq_ok {frames : ℕ} {case migrated : Dict} :
    migrateLegacyWithin frames case = .ok migrated ↔
      CopiesWithin frames case ∧ migrateLegacyRelationships case = .ok migrated := by
  obtain ⟨h43, h42, h41, h32, h31, h21⟩ := schemaVersions_distinct
  rw [copiesWithin_iff]
  simp only [migrateLegacyWithin, migrateLegacyRelationships, migrateLegacyThrough,
    ReferenceMigrated]
  generalize case.getD "schema_version" (.str legacyCaseSchemaVersion) = version
  split_ifs with hcurrent hv03 hv02 hv01
  · simp [hcurrent, h42, h43, h41]
  · simp [hv03, h32, h31, copying_eq_ok]
  · rw [copied_chain_eq_ok]
    simp [hv02, h21, h32.symm]
  · simp
  · have hv01 : version = .str legacyCaseSchemaVersion := not_not.mp hv01
    simp only [hv01, Json.str.injEq, h21.symm, h31.symm, false_implies, true_and, false_and,
      false_or]
    cases hevent : case.get? "event" with
    | none => simp
    | some v =>
        cases v with
        | obj event =>
            simp only [Option.some.injEq, Json.obj.injEq]
            rw [bind_eq_ok, bind_eq_ok]
            simp only [bind_eq_ok (x := anyEach _ _), seq_eq_ok, require_eq_ok,
              copied_chain_eq_ok, not_or, Bool.not_eq_true]
            constructor
            · rintro ⟨items, hitems, found, hfound, ⟨hlinks, rfl⟩, hfits, hchain⟩
              refine ⟨?_, items, hitems, false, hfound, ⟨hlinks, rfl⟩, hchain⟩
              rintro v02 ⟨event', items', rfl, -, -, -, rfl⟩
              exact hfits
            · rintro ⟨hfits, items, hitems, found, hfound, ⟨hlinks, rfl⟩, hchain⟩
              exact ⟨items, hitems, false, hfound, ⟨hlinks, rfl⟩,
                hfits _ ⟨event, items, rfl, hitems, hlinks, hfound, rfl⟩, hchain⟩
        | _ => simp

/-! ## Any value -/

/-- A value whose `get` is called: what is no dictionary has none. -/
def gettable : Json → Result Dict
  | .obj case => .ok case
  | v => attributeError s!"'{v.typeName}' object has no attribute 'get'"

/-- The copies that `prepare_case` makes of a case fit the frames that are left when it is called. -/
structure FitsStack (frames : ℕ) (case : Dict) : Prop where
  whole : copyFrames (.obj case) ≤ frames - 2
  migrations : CopiesWithin (frames - 3) case

/-- `prepare_case(value)`, where so many frames of the stack are left: `prepare_case` and
`migrate_legacy_relationships` take a frame each, and the migrations after it another. -/
def prepareJson (frames : ℕ) (value : Json) : Result Dict := do
  copyWithin (frames - 2) value
  let case ← gettable value
  let prepared ← migrateLegacyWithin (frames - 3) case
  validateCaseDict prepared
  .ok prepared

/-- The values for which `prepare_case` keeps its contract where so many frames are left:
dictionaries that are copied within these frames, whose documents the migration can walk, and whose
migrated form is not checked up to an oversized number. -/
def Preparable (frames : ℕ) (v : Json) : Prop :=
  ∃ case, v = .obj case ∧ FitsStack frames case ∧ WalkableCase case ∧
    ∀ migrated, migrateLegacyRelationships case = .ok migrated → ¬ReachesOversized migrated

lemma raisesOnly_prepareJson {frames : ℕ} {v : Json} :
    RaisesOnly .valueError (prepareJson frames v) ↔ Preparable frames v := by
  cases v with
  | obj case =>
      rw [prepareJson, raisesOnly_copyWithin_bind]
      simp only [gettable, ok_bind, raisesOnly_bind, raisesOnly_migrate, migrateLegacyWithin_eq_ok,
        raisesOnly_validateCase, raisesOnly_ok, implies_true, and_true, Preparable, Json.obj.injEq,
        exists_eq_left']
      constructor
      · rintro ⟨hwhole, ⟨hwalk, hfits⟩, hmigrated⟩
        exact ⟨⟨hwhole, hfits⟩, hwalk, fun migrated h => hmigrated migrated ⟨hfits, h⟩⟩
      · rintro ⟨⟨hwhole, hfits⟩, hwalk, hmigrated⟩
        exact ⟨hwhole, ⟨hwalk, hfits⟩, fun migrated h => hmigrated migrated h.2⟩
  | _ => simp [prepareJson, gettable, attributeError, Preparable]

/-- **What the stack leaves** of `prepare_case`. -/
lemma prepareJson_eq_ok {frames : ℕ} {case prepared : Dict} :
    prepareJson frames (.obj case) = .ok prepared ↔
      FitsStack frames case ∧ prepareCase case = .ok prepared := by
  simp only [prepareJson, gettable, ok_bind, prepareCase, bind_eq_ok, exists_unit,
    copyWithin_eq_ok, migrateLegacyWithin_eq_ok, and_assoc, exists_and_left]
  constructor
  · rintro ⟨hwhole, hfits, h⟩
    exact ⟨⟨hwhole, hfits⟩, h⟩
  · rintro ⟨hfits, h⟩
    exact ⟨hfits.whole, hfits.migrations, h⟩

/-- No migration copies a case of the current version. -/
lemma fitsStack_current {frames : ℕ} {case : Dict} (hvalid : validateCaseDict case = .ok ())
    (hcopy : copyFrames (.obj case) ≤ frames - 2) : FitsStack frames case := by
  obtain ⟨h43, h42, h41, -, -, -⟩ := schemaVersions_distinct
  have hversion : case.getD "schema_version" (.str legacyCaseSchemaVersion) =
      .str caseSchemaVersion := by
    rw [Dict.getD, (validateCase_accepted hvalid).version, Option.getD_some]
  refine ⟨hcopy, copiesWithin_iff.mpr ?_⟩
  simp [hversion, ReferenceMigrated, h41, h42, h43]

/-- A case of the current version that fits the stack is prepared as it is. -/
lemma prepareJson_current {frames : ℕ} {case : Dict} (hvalid : validateCaseDict case = .ok ())
    (hcopy : copyFrames (.obj case) ≤ frames - 2) : prepareJson frames (.obj case) = .ok case :=
  prepareJson_eq_ok.mpr ⟨fitsStack_current hvalid hcopy, prepareCase_current hvalid⟩

/-- However many frames are left, a field inside that many lists is more than they allow. -/
lemma not_preparable_inLists (frames : ℕ) : ¬Preparable frames (.obj
    [("field", Json.null.inLists frames), ("schema_version", .str caseSchemaVersion)]) := by
  rintro ⟨case, hcase, hfits, -⟩
  obtain rfl := Json.obj.inj hcase
  have hcopy := hfits.whole
  have hnesting : frames < (Json.obj [("field", Json.null.inLists frames),
      ("schema_version", .str caseSchemaVersion)]).nesting := by
    simp only [Json.nesting, Json.nestingEntries, Json.nesting_inLists]
    omega
  unfold copyFrames at hcopy
  omega

/-! ## The caller's objects -/

open Action

/-- A migration copies its argument, where so many frames are left for the copy, and changes the
copy. -/
def migrateCopy (frames : ℕ) (migrate : Dict → Result Dict) (a : ℕ) : Action Json ℕ := do
  let b ← deepcopyWithin frames a
  let value ← readCell b
  let case ← lift (gettable value)
  let migrated ← lift (migrate case)
  writeCell b (.obj migrated)
  pure b

def migrateV02ReferencesIn (frames a : ℕ) : Action Json ℕ :=
  migrateCopy frames migrateV02References a

def migrateV03ValidationIn (frames a : ℕ) : Action Json ℕ :=
  migrateCopy frames migrateV03Validation a

/-- `migrate_legacy_relationships`, once its copy of the case is made. -/
def migrateRelationshipsOf (frames b : ℕ) (case : Dict) : Action Json ℕ :=
  let version := case.getD "schema_version" (.str legacyCaseSchemaVersion)
  if version = .str caseSchemaVersion then pure b
  else if version = .str controlledReferenceCaseSchemaVersion then migrateV03ValidationIn frames b
  else if version = .str relationshipCaseSchemaVersion then do
    let c ← migrateV02ReferencesIn frames b
    migrateV03ValidationIn frames c
  else if version ≠ .str legacyCaseSchemaVersion then
    lift (valueError s!"unsupported case schema_version: {version.repr}")
  else
    match case.get? "event" with
    | some (.obj event) => do
        let documents ← lift (case.getD "documents" (.arr [])).iterate
        let hasRowFields ← lift (anyEach hasV02RowFields documents)
        lift (require (¬(Dict.contains event "affected_links" = true ∨ hasRowFields = true))
          ("legacy case contains v0.2 relationship fields; declare " ++
            s!"schema_version={strRepr caseSchemaVersion} instead of using compatibility " ++
            "migration"))
        writeCell b (.obj (migrateLegacyEvent case event))
        let c ← migrateV02ReferencesIn frames b
        migrateV03ValidationIn frames c
    | _ => pure b

def migrateLegacyRelationshipsIn (frames a : ℕ) : Action Json ℕ := do
  let b ← deepcopyWithin frames a
  let value ← readCell b
  let case ← lift (gettable value)
  migrateRelationshipsOf (frames - 1) b case

/-- `prepare_case` of the object in a cell, where so many frames are left: the cell of the prepared
case. -/
def prepareCaseIn (frames a : ℕ) : Action Json ℕ := do
  let b ← migrateLegacyRelationshipsIn (frames - 2) a
  let prepared ← readCell b
  lift (validateCase prepared)
  pure b

/-! ### What is spared -/

omit [PyUnicode] in
lemma spares_migrateCopy {frames : ℕ} {migrate : Dict → Result Dict} {n a : ℕ} :
    Spares n (migrateCopy frames migrate a) fun b => n ≤ b := by
  refine spares_bind spares_deepcopyWithin fun b hb => spares_bind spares_readCell fun value _ => ?_
  refine spares_bind spares_lift fun case _ => spares_bind spares_lift fun migrated _ => ?_
  exact spares_bind (spares_writeCell hb) fun _ _ => spares_pure hb

lemma spares_migrateRelationships {frames n b : ℕ} {case : Dict} (hb : n ≤ b) :
    Spares n (migrateRelationshipsOf frames b case) fun c => n ≤ c := by
  have hchain : Spares n (do
      let c ← migrateV02ReferencesIn frames b
      migrateV03ValidationIn frames c : Action Json ℕ) fun c => n ≤ c :=
    spares_bind spares_migrateCopy fun c _ => spares_migrateCopy
  simp only [migrateRelationshipsOf]
  split_ifs
  · exact spares_pure hb
  · exact spares_migrateCopy
  · exact hchain
  · exact spares_raise
  · cases case.get? "event" with
    | none => exact spares_pure hb
    | some v =>
        cases v with
        | obj event =>
            refine spares_bind spares_lift fun documents _ => ?_
            refine spares_bind spares_lift fun hasRowFields _ => ?_
            refine spares_bind spares_lift fun _ _ => ?_
            exact spares_bind (spares_writeCell hb) fun _ _ => hchain
        | _ => exact spares_pure hb

/-- **Preparing a case writes into copies only.** -/
lemma spares_prepareCase {frames n a : ℕ} :
    Spares n (prepareCaseIn frames a) fun b => n ≤ b := by
  have hmigrate : Spares n (migrateLegacyRelationshipsIn (frames - 2) a) fun b => n ≤ b := by
    refine spares_bind spares_deepcopyWithin fun b hb => spares_bind spares_readCell fun value _ => ?_
    exact spares_bind spares_lift fun case _ => spares_migrateRelationships hb
  refine spares_bind hmigrate fun b hb => spares_bind spares_readCell fun prepared _ => ?_
  exact spares_bind spares_lift fun _ _ => spares_pure hb

/-! ### What is computed -/

omit [PyUnicode] in
/-- A block on a copy of a dictionary. -/
lemma computes_copied {frames : ℕ} {f : ℕ → Dict → Action Json ℕ} {cells : List Json} {a : ℕ}
    {v : Json} {g : Dict → Result Dict} (h : cells[a]? = some v)
    (hf : ∀ b cells' case, cells'[b]? = some (.obj case) →
      Computes Json.obj (f b case) cells' (g case)) :
    Computes Json.obj (do
      let b ← deepcopyWithin frames a
      let value ← readCell b
      let case ← lift (gettable value)
      f b case) cells (do
      copyWithin frames v
      let case ← gettable v
      g case) := by
  refine computes_deepcopyWithin_bind h fun b cells' hb => computes_read hb ?_
  refine computes_lift fun case hcase => hf b cells' case ?_
  cases v with
  | obj d =>
      obtain rfl := Except.ok.inj hcase
      exact hb
  | _ => simp [gettable] at hcase

omit [PyUnicode] in
lemma computes_migrateCopy {frames : ℕ} {migrate : Dict → Result Dict} {cells : List Json} {a : ℕ}
    {case : Dict} (h : cells[a]? = some (.obj case)) :
    Computes Json.obj (migrateCopy frames migrate a) cells (copying frames migrate case) := by
  have hbind : migrate case = (gettable (.obj case) >>= fun case =>
      migrate case >>= fun migrated => .ok migrated) := by
    rw [gettable, ok_bind]
    cases migrate case <;> rfl
  rw [copying, hbind]
  refine computes_copied h fun b cells' case hb => ?_
  refine computes_lift fun migrated _ => computes_write (computes_pure ?_)
  have hlt : b < cells'.length := (List.getElem?_eq_some_iff.mp hb).1
  simp [hlt]

lemma computes_chain {frames : ℕ} {cells : List Json} {b : ℕ} {case : Dict}
    (h : cells[b]? = some (.obj case)) :
    Computes Json.obj (do
      let c ← migrateV02ReferencesIn frames b
      migrateV03ValidationIn frames c : Action Json ℕ) cells (do
      let migrated ← copying frames migrateV02References case
      copying frames migrateV03Validation migrated) :=
  computes_bind (computes_migrateCopy h) fun _ _ _ _ hc => computes_migrateCopy hc

lemma computes_migrateRelationships {frames : ℕ} {cells : List Json} {b : ℕ} {case : Dict}
    (h : cells[b]? = some (.obj case)) :
    Computes Json.obj (migrateRelationshipsOf frames b case) cells
      (migrateLegacyWithin frames case) := by
  simp only [migrateRelationshipsOf, migrateLegacyWithin, migrateLegacyThrough]
  split_ifs
  · exact computes_pure h
  · exact computes_migrateCopy h
  · exact computes_chain h
  · exact computes_raise
  · cases case.get? "event" with
    | none => exact computes_pure h
    | some v =>
        cases v with
        | obj event =>
            refine computes_lift fun documents _ => computes_lift fun hasRowFields _ => ?_
            refine computes_lift fun _ _ => computes_write (computes_chain ?_)
            have hlt : b < cells.length := (List.getElem?_eq_some_iff.mp h).1
            simp [hlt]
        | _ => exact computes_pure h

/-- **The objects follow the values.** -/
lemma computes_prepareCase {frames : ℕ} {cells : List Json} {a : ℕ} {v : Json}
    (h : cells[a]? = some v) :
    Computes Json.obj (prepareCaseIn frames a) cells (prepareJson frames v) := by
  have hmigrate : Computes Json.obj (migrateLegacyRelationshipsIn (frames - 2) a) cells (do
      copyWithin (frames - 2) v
      let case ← gettable v
      migrateLegacyWithin (frames - 3) case) :=
    computes_copied h fun b cells' case hb => computes_migrateRelationships hb
  simp only [prepareJson, ← bind_assoc] at hmigrate ⊢
  refine computes_bind hmigrate fun b cells' prepared _ hb => computes_read hb ?_
  exact computes_lift fun _ _ => computes_pure hb

/-- What `prepare_case` raises. -/
lemma raisesOnly_prepareCaseIn (frames : ℕ) (cells : List Json) (a : Fin cells.length) :
    RaisesOnly .valueError (prepareCaseIn frames a cells).1 ↔ Preparable frames (cells.get a) := by
  have hcell : cells[(a : ℕ)]? = some (cells.get a) := by simp
  have hcomputes : Computes Json.obj (prepareCaseIn frames a) cells
      (prepareJson frames (cells.get a)) := computes_prepareCase hcell
  have hraises := hcomputes.raises_iff
  rw [← raisesOnly_prepareJson]
  exact ⟨fun h e he => h e ((hraises e).mpr he), fun h e he => h e ((hraises e).mp he)⟩

/-- **The error contract of `prepare_case`.**  However many frames of the stack are left, whatever
objects there are and whichever of them it is given, the objects are as they were when it returns or
raises, and every exception it raises is a `ValueError` exactly when the value is preparable. -/
theorem prepareCase_contract_iff (frames : ℕ) (cells : List Json) (a : Fin cells.length) :
    (RaisesOnly .valueError (prepareCaseIn frames a cells).1 ∧
      (prepareCaseIn frames a cells).2.take cells.length = cells) ↔
        Preparable frames (cells.get a) := by
  rw [raisesOnly_prepareCaseIn]
  exact and_iff_left spares_prepareCase.unchanged

-- However many frames are left, there is an object that nests too deep for the first copy.
example (frames : ℕ) : ∃ v, ¬RaisesOnly .valueError (prepareCaseIn frames 0 [v]).1 :=
  ⟨_, fun h => not_preparable_inLists frames
    ((raisesOnly_prepareCaseIn frames [_] ⟨0, by simp⟩).mp h)⟩

end Contract

section Ascii

attribute [local instance] asciiUnicode

/-- However many frames are left, a v0.2 case whose documents are null makes the migration's loop
raise a `TypeError`. -/
theorem prepareCase_contract_null_documents :
    ¬∃ frames, ∀ (cells : List Json) (a : Fin cells.length),
      RaisesOnly .valueError (prepareCaseIn frames a cells).1 ∧
        (prepareCaseIn frames a cells).2.take cells.length = cells := by
  rintro ⟨frames, h⟩
  obtain ⟨hraises, -⟩ := h [.obj [("documents", .null),
    ("schema_version", .str relationshipCaseSchemaVersion)]] ⟨0, by decide⟩
  obtain ⟨case, hcase, -, hwalk, -⟩ := (raisesOnly_prepareCaseIn frames _ _).mp hraises
  obtain rfl := Json.obj.inj hcase
  exact hwalk.references (by decide)

end Ascii

end QualityCI

import QualityCI.Lib.FieldUpdate
import QualityCI.Loader.Accepted
import QualityCI.Rules.Contexts
import QualityCI.Rules.Coverage
import QualityCI.Rules.Specification

/-!
# Cases of earlier contracts

A case that declares no version, or the first, says nothing that binds a document row to a process
step, and a case of the first two versions says nothing that identifies a controlled document.
The migrations add neither, so the rules that rest on them do not pass.

* `MigrationKeeps` — what the migrations leave as it was, and what they add.
* **`prepareCase_keeps`** — the migrations of the first two versions do no more.
* **`namesStep_of_legacy`** — no row of a migrated first version names its step.
* **`legacy_not_pass`** — the rules on relationships and references do not pass.
-/

namespace QualityCI

open Py

/-! ## What a migration keeps -/

/-- The version a case declares, a missing one being the first. -/
def declaredVersion (case : Dict) : Json := case.getD "schema_version" (.str legacyCaseSchemaVersion)

/-- The second dictionary is the first but for the values of some keys. -/
def SameBut (keys : List String) (d d' : Dict) : Prop := ∀ key ∉ keys, d'.get? key = d.get? key

/-- An inspection record's fields: their references, if any, are wrapped. -/
structure FieldsKept (fields fields' : Dict) : Prop where
  others : SameBut ["references"] fields fields'
  wrapped : ∀ references, fields.present? "references" = some references →
    fields'.get? "references" = some (.obj [("LEGACY_UNATTESTED", references)])
  absent : fields.present? "references" = none →
    fields'.get? "references" = fields.get? "references"

/-- An inspection record gains the contract of its references and has them wrapped. -/
structure InspectionKept (doc doc' : Dict) : Prop where
  others : SameBut ["reference_contract_version", "fields"] doc doc'
  contract : doc'.get? "reference_contract_version" =
    some (.str controlledReferenceContractVersion)
  fields : (∃ fields fields', doc.get? "fields" = some (.obj fields) ∧
      doc'.get? "fields" = some (.obj fields') ∧ FieldsKept fields fields') ∨
    doc'.get? "fields" = doc.get? "fields" ∧ ¬∃ fields, doc.get? "fields" = some (.obj fields)

/-- A value among the documents: only inspection records change. -/
def DocumentKept (v v' : Json) : Prop :=
  (∃ doc doc' : Dict, v = .obj doc ∧ v' = .obj doc' ∧
    doc.get? "document_type" = some (.str "INSPECTION_RECORD") ∧ InspectionKept doc doc') ∨
  v' = v ∧ ∀ doc : Dict, v = .obj doc → doc.get? "document_type" ≠ some (.str "INSPECTION_RECORD")

/-- The link of one process step and one characteristic. -/
def scopeLink (step characteristic : String) : Json := .obj <| Dict.ofList
  [("process_step_id", .str step), ("characteristic_id", .str characteristic)]

/-- An event whose scope is one step and one characteristic gains the link of the two. -/
structure LinkAdded (event event' : Dict) : Prop where
  others : SameBut ["affected_links"] event event'
  unlinked : event.get? "affected_links" = none
  linked : ∃ step characteristic,
    event.get? "affected_process_steps" = some (.arr [.str step]) ∧
    event.get? "affected_characteristics" = some (.arr [.str characteristic]) ∧
    event'.get? "affected_links" = some (.arr [scopeLink step characteristic])

/-- The markers that the migrations leave. -/
def migrationMarkers : List String :=
  ["relationship_migration", "reference_migration", "validation_migration"]

/-- A migrated case against the case it was. -/
structure MigrationKeeps (case prepared : Dict) : Prop where
  version : prepared.get? "schema_version" = some (.str caseSchemaVersion)
  others : SameBut ("schema_version" :: "event" :: "documents" :: migrationMarkers) case prepared
  event : ∃ event event' : Dict, case.get? "event" = some (.obj event) ∧
    prepared.get? "event" = some (.obj event') ∧
    (event' = event ∨ declaredVersion case = .str legacyCaseSchemaVersion ∧ LinkAdded event event')
  documents : ∃ documents documents', case.get? "documents" = some (.arr documents) ∧
    prepared.get? "documents" = some (.arr documents') ∧
    List.Forall₂ DocumentKept documents documents'

lemma SameBut.set (d : Dict) (key : String) (value : Json) : SameBut [key] d (d.set key value) := by
  intro k hk
  rw [Dict.get?_set, if_neg fun h => hk (by simp [h])]

/-! ## The references of the second version -/

lemma migrateReferenceFields_keeps {fields fields' : Dict}
    (h : migrateReferenceFields fields = .ok fields') : FieldsKept fields fields' := by
  unfold migrateReferenceFields at h
  split at h
  · rename_i hnone
    obtain rfl := Except.ok.inj h
    exact ⟨fun _ _ => rfl, fun r hr => by simp [hnone] at hr, fun _ => rfl⟩
  · rename_i references hsome
    split_ifs at h
    · obtain rfl := Except.ok.inj h
      refine ⟨SameBut.set _ _ _, fun r hr => ?_, fun hnone => ?_⟩
      · rw [hsome] at hr
        obtain rfl := Option.some.inj hr
        simp
      · simp [hsome] at hnone
    · exact absurd h valueError_ne_ok
  · exact absurd h valueError_ne_ok

section Migrated

variable [PyUnicode]

lemma migrateInspection_keeps {doc : Dict} {r : Dict × List String}
    (h : migrateInspection doc = .ok r) : InspectionKept doc r.1 := by
  have hcontract : ∀ d : Dict, d.get? "reference_contract_version" =
      some (.str controlledReferenceContractVersion) → ∀ value,
      (d.set "fields" value).get? "reference_contract_version" =
        some (.str controlledReferenceContractVersion) := by
    intro d hd value
    rw [Dict.get?_set, if_neg (by decide), hd]
  have hfieldsOf : (doc.set "reference_contract_version"
      (.str controlledReferenceContractVersion)).get? "fields" = doc.get? "fields" := by
    rw [Dict.get?_set, if_neg (by decide)]
  unfold migrateInspection at h
  simp only [hfieldsOf] at h
  split at h
  · rename_i fields hfields
    simp only [bind_eq_ok, Except.ok.injEq] at h
    obtain ⟨fields', hfields', rfl⟩ := h
    refine ⟨fun key hkey => ?_, hcontract _ (by simp) _,
      Or.inl ⟨fields, fields', hfields, by simp, migrateReferenceFields_keeps hfields'⟩⟩
    simp only [List.mem_cons, List.not_mem_nil, or_false, not_or] at hkey
    rw [Dict.get?_set, if_neg (Ne.symm hkey.2), Dict.get?_set, if_neg (Ne.symm hkey.1)]
  · rename_i hno
    obtain rfl := Except.ok.inj h
    have hnone : ¬∃ fields, doc.get? "fields" = some (.obj fields) := by
      rintro ⟨fields, hf⟩
      exact hno fields hf
    refine ⟨fun key hkey => ?_, by simp, Or.inr ⟨hfieldsOf, hnone⟩⟩
    simp only [List.mem_cons, List.not_mem_nil, or_false, not_or] at hkey
    rw [Dict.get?_set, if_neg (Ne.symm hkey.1)]

lemma migrateReferencesOf_keeps {v : Json} {r : Json × List String}
    (h : migrateReferencesOf v = .ok r) : DocumentKept v r.1 := by
  cases v with
  | obj doc =>
      simp only [migrateReferencesOf] at h
      split_ifs at h with htype
      · simp only [bind_eq_ok, Except.ok.injEq] at h
        obtain ⟨m, hm, rfl⟩ := h
        exact Or.inl ⟨doc, m.1, rfl, rfl, htype, migrateInspection_keeps hm⟩
      · obtain rfl := Except.ok.inj h
        exact Or.inr ⟨rfl, fun d hd => Json.obj.inj hd ▸ htype⟩
  | _ =>
      obtain rfl := Except.ok.inj h
      exact Or.inr ⟨rfl, fun d hd => absurd hd (by simp)⟩

/-- The documents of the second version's migration, once they are a list. -/
lemma migrateReferencesIn_keeps {value? documents? : Option Json} {ids : List String}
    {documents' : List Json} (h : migrateReferencesIn value? = .ok (documents?, ids))
    (hlist : documents? = some (.arr documents')) :
    ∃ documents, value? = some (.arr documents) ∧ List.Forall₂ DocumentKept documents documents' := by
  subst hlist
  cases value? with
  | none => simp [migrateReferencesIn] at h
  | some v =>
      cases v with
      | arr documents =>
          simp only [migrateReferencesIn, bind_eq_ok, Except.ok.injEq, Prod.mk.injEq,
            Option.some.injEq, Json.arr.injEq] at h
          obtain ⟨migrated, hmigrated, rfl, -⟩ := h
          refine ⟨documents, rfl, ?_⟩
          rw [List.forall₂_map_right_iff]
          exact (mapEach_eq_ok.mp hmigrated).imp fun _ _ hone => migrateReferencesOf_keeps hone
      | _ =>
          simp only [migrateReferencesIn, bind_eq_ok, Except.ok.injEq, Prod.mk.injEq] at h
          obtain ⟨_, -, hv, -⟩ := h
          exact absurd hv (by simp)

/-- What the two last migrations leave of a case of the second version, its documents being a list
in the end. -/
lemma migrateV02_keeps {case middle prepared : Dict} {documents' : List Json}
    (h2 : migrateV02References case = .ok middle)
    (h3 : migrateV03Validation middle = .ok prepared)
    (hlist : prepared.get? "documents" = some (.arr documents')) :
    SameBut ["schema_version", "documents", "reference_migration", "validation_migration"]
      case prepared ∧
    ∃ documents, case.get? "documents" = some (.arr documents) ∧
      List.Forall₂ DocumentKept documents documents' := by
  simp only [migrateV03Validation, bind_eq_ok, exists_unit, Except.ok.injEq] at h3
  obtain ⟨-, rfl⟩ := h3
  simp only [migrateV02References, bind_eq_ok, exists_unit, Except.ok.injEq] at h2
  obtain ⟨-, ⟨documents?, ids⟩, hdocs, rfl⟩ := h2
  simp only [Dict.get?_set, if_neg (show ¬"validation_migration" = "documents" by decide),
    if_neg (show ¬"schema_version" = "documents" by decide),
    if_neg (show ¬"reference_migration" = "documents" by decide)] at hlist
  have hdocuments : documents? = some (.arr documents') := by
    cases documents? with
    | none =>
        -- no key was there, and none was set
        cases hget : case.get? "documents" with
        | none => simp [hget] at hlist
        | some v =>
            rw [hget] at hdocs
            cases v <;> simp [migrateReferencesIn] at hdocs
    | some d =>
        simp only [Dict.get?_set, if_true] at hlist
        exact hlist
  refine ⟨fun key hkey => ?_, migrateReferencesIn_keeps hdocs hdocuments⟩
  simp only [List.mem_cons, List.not_mem_nil, or_false, not_or] at hkey
  obtain ⟨hversion, hdocumentsKey, hreference, hvalidation⟩ := hkey
  simp only [hdocuments, Dict.get?_set, if_neg (Ne.symm hversion), if_neg (Ne.symm hdocumentsKey),
    if_neg (Ne.symm hreference), if_neg (Ne.symm hvalidation)]

/-! ## The three migrations -/

omit [PyUnicode] in
/-- The links that a first version's migration adds. -/
lemma migrateLegacyEvent_keeps {case event : Dict} (hevent : case.get? "event" = some (.obj event))
    (hunlinked : event.contains "affected_links" = false) :
    SameBut ["schema_version", "event", "relationship_migration"] case
      (migrateLegacyEvent case event) ∧
    ∃ event' : Dict, (migrateLegacyEvent case event).get? "event" = some (.obj event') ∧
      (event' = event ∨ LinkAdded event event') := by
  have hnone : event.get? "affected_links" = none := by
    simpa [Dict.contains] using hunlinked
  unfold migrateLegacyEvent
  cases hpair : legacyScopePair event with
  | none =>
      refine ⟨fun key hkey => ?_, event, ?_, Or.inl rfl⟩
      · simp only [List.mem_cons, List.not_mem_nil, or_false, not_or] at hkey
        simp only [Dict.get?_set, if_neg (Ne.symm hkey.1), if_neg (Ne.symm hkey.2.2)]
      · simp only [Dict.get?_set, if_neg (show ¬"relationship_migration" = "event" by decide),
          if_neg (show ¬"schema_version" = "event" by decide), hevent]
  | some pair =>
      obtain ⟨step, characteristic⟩ := pair
      refine ⟨fun key hkey => ?_, event.set "affected_links" (.arr [scopeLink step characteristic]),
        ?_, Or.inr ⟨SameBut.set _ _ _, hnone, step, characteristic, ?_⟩⟩
      · simp only [List.mem_cons, List.not_mem_nil, or_false, not_or] at hkey
        simp only [Dict.get?_set, if_neg (Ne.symm hkey.1), if_neg (Ne.symm hkey.2.1),
          if_neg (Ne.symm hkey.2.2)]
      · simp only [Dict.get?_set, if_neg (show ¬"relationship_migration" = "event" by decide),
          if_true, scopeLink]
      · unfold legacyScopePair at hpair
        split at hpair
        · rename_i hstep hcharacteristic
          split_ifs at hpair
          obtain ⟨rfl, rfl⟩ := Prod.mk.inj (Option.some.inj hpair)
          exact ⟨hstep, hcharacteristic, by simp⟩
        · exact absurd hpair (by simp)

/-- The first version's migration: the event is an object, nothing in the case names a step, and
the two other migrations follow. -/
lemma prepareCase_legacy {case prepared : Dict} (h : prepareCase case = .ok prepared)
    (hversion : declaredVersion case = .str legacyCaseSchemaVersion) :
    ∃ (event : Dict) (middle : Dict) (documents : List Json),
      case.get? "event" = some (.obj event) ∧
      event.contains "affected_links" = false ∧
      (case.getD "documents" (.arr [])).iterate = .ok documents ∧
      anyEach hasV02RowFields documents = .ok false ∧
      migrateV02References (migrateLegacyEvent case event) = .ok middle ∧
      migrateV03Validation middle = .ok prepared := by
  obtain ⟨hmigrated, haccepted⟩ := prepareCase_eq_ok.mp h
  rw [declaredVersion] at hversion
  unfold migrateLegacyRelationships migrateLegacyThrough at hmigrated
  simp only [hversion] at hmigrated
  rw [if_neg (by decide), if_neg (by decide), if_neg (by decide), if_neg (by simp)] at hmigrated
  split at hmigrated
  · rename_i event hevent
    simp only [bind_eq_ok, exists_unit, require_eq_ok, not_or, Bool.not_eq_true] at hmigrated
    obtain ⟨documents, hdocuments, rows, hrows, ⟨hlinks, rfl⟩, middle, hmiddle, hlast⟩ := hmigrated
    exact ⟨event, middle, documents, hevent, hlinks, hdocuments, hrows, hmiddle, hlast⟩
  · -- without an event the case is left as it is, and declares no current version
    obtain rfl := Except.ok.inj hmigrated
    have hcurrent := (validateCase_accepted haccepted).version
    rw [Dict.getD, hcurrent] at hversion
    exact absurd hversion (by decide)

/-- The second version's migration is the two last ones. -/
lemma prepareCase_relationship {case prepared : Dict} (h : prepareCase case = .ok prepared)
    (hversion : declaredVersion case = .str relationshipCaseSchemaVersion) :
    ∃ middle, migrateV02References case = .ok middle ∧
      migrateV03Validation middle = .ok prepared := by
  have hmigrated := (prepareCase_eq_ok.mp h).1
  rw [declaredVersion] at hversion
  unfold migrateLegacyRelationships migrateLegacyThrough at hmigrated
  simp only [hversion] at hmigrated
  rw [if_neg (by decide), if_neg (by decide), if_pos trivial] at hmigrated
  simpa only [bind_eq_ok] using hmigrated

/-- **What a migration keeps.** -/
theorem prepareCase_keeps {case prepared : Dict} (h : prepareCase case = .ok prepared)
    (hversion : declaredVersion case = .str legacyCaseSchemaVersion ∨
      declaredVersion case = .str relationshipCaseSchemaVersion) :
    MigrationKeeps case prepared := by
  have haccepted := prepareCase_accepted h
  have hlist := haccepted.documents.1
  rcases hversion with hversion | hversion
  · obtain ⟨event, middle, -, hevent, hunlinked, -, -, hmiddle, hlast⟩ :=
      prepareCase_legacy h hversion
    obtain ⟨hsame, event', hevent', hadded⟩ := migrateLegacyEvent_keeps hevent hunlinked
    obtain ⟨hothers, documents, hdocuments, hkept⟩ := migrateV02_keeps hmiddle hlast hlist
    refine ⟨haccepted.version, fun key hkey => ?_, ⟨event, event', hevent, ?_, ?_⟩,
      ⟨documents, _, ?_, hlist, hkept⟩⟩
    · simp only [migrationMarkers, List.mem_cons, List.not_mem_nil, or_false, not_or] at hkey
      rw [hothers key (by simp [hkey]), hsame key (by simp [hkey])]
    · rw [hothers "event" (by decide), hevent']
    · exact hadded.imp id fun hlinked => ⟨hversion, hlinked⟩
    · rw [← hsame "documents" (by decide), hdocuments]
  · obtain ⟨middle, hmiddle, hlast⟩ := prepareCase_relationship h hversion
    obtain ⟨hothers, documents, hdocuments, hkept⟩ := migrateV02_keeps hmiddle hlast hlist
    refine ⟨haccepted.version, fun key hkey => ?_, ?_, ⟨documents, _, hdocuments, hlist, hkept⟩⟩
    · simp only [migrationMarkers, List.mem_cons, List.not_mem_nil, or_false, not_or] at hkey
      exact hothers key (by simp [hkey])
    · have hevent := haccepted.event
      rw [hothers "event" (by decide)] at hevent
      exact ⟨_, _, hevent, haccepted.event, Or.inl rfl⟩

/-! ## No row names a step -/

omit [PyUnicode] in
/-- The rows of fields without relationship fields name no step. -/
lemma namesStep_of_hasV02Rows {fields : Dict} (h : hasV02Rows fields = .ok false)
    {collection : String} (hcollection : collection ∈ ["risks", "characteristics"]) {row : Dict}
    (hrow : row ∈ fields.rowsAt collection) : namesStep row = false := by
  have hone := anyEach_eq_false h collection hcollection
  simp only [bind_eq_ok, Except.ok.injEq] at hone
  obtain ⟨items, hitems, hnone⟩ := hone
  cases hget : fields.get? collection with
  | none => simp [Dict.rowsAt, hget] at hrow
  | some v =>
      cases v with
      | arr rows =>
          rw [Dict.getD, hget] at hitems
          obtain rfl := Except.ok.inj hitems
          have hmem : Json.obj row ∈ rows := by
            simpa [Dict.rowsAt, hget, Json.arr?] using hrow
          have hfield := List.any_eq_false.mp hnone _ hmem
          simp only [hasRelationshipField, Bool.or_eq_true, not_or, Bool.not_eq_true] at hfield
          have hstep : Dict.get? row "process_step_id" = none := by
            simpa [Dict.contains] using hfield.1
          rw [namesStep, hstep]
          rfl
      | _ => simp [Dict.rowsAt, hget, Json.arr?] at hrow

omit [PyUnicode] in
/-- The rows of a document, where the migration keeps them. -/
lemma fieldRows_of_kept {doc doc' : Dict} {collection : String}
    (hkept : DocumentKept (.obj doc) (.obj doc')) (hcollection : collection ≠ "references") :
    fieldRows doc' collection = fieldRows doc collection := by
  rcases hkept with ⟨d, d', hd, hd', -, hkept⟩ | ⟨hsame, -⟩
  · obtain rfl := Json.obj.inj hd
    obtain rfl := Json.obj.inj hd'
    rcases hkept.fields with ⟨fields, fields', hfields, hfields', hfieldsKept⟩ | ⟨hsame, -⟩
    · have hget := hfieldsKept.others collection (by simpa using hcollection)
      rw [fieldRows, fieldRows, Dict.dictAt_eq hfields, Dict.dictAt_eq hfields', Dict.rowsAt,
        Dict.rowsAt, hget]
    · rw [fieldRows, fieldRows, Dict.dictAt, Dict.dictAt, hsame]
  · rw [Json.obj.inj hsame]

omit [PyUnicode] in
/-- A key that holds no object reads as the empty one. -/
lemma dictAt_of_no_obj {d : Dict} {key : String} (h : ¬∃ e : Dict, d.get? key = some (.obj e)) :
    d.dictAt key = [] := by
  unfold Dict.dictAt
  cases hget : d.get? key with
  | none => rfl
  | some v =>
      cases v with
      | obj e => exact absurd ⟨e, hget⟩ h
      | _ => rfl

/-- **No row of a migrated first version names its step.** -/
theorem namesStep_of_legacy {case prepared : Dict} (h : prepareCase case = .ok prepared)
    (hversion : declaredVersion case = .str legacyCaseSchemaVersion) {doc : Dict}
    (hdoc : doc ∈ documentsOf prepared) {collection : String}
    (hcollection : collection ∈ ["risks", "characteristics"]) {row : Dict}
    (hrow : row ∈ fieldRows doc collection) : namesStep row = false := by
  obtain ⟨event, middle, items, hevent, hunlinked, hitems, hrows, hmiddle, hlast⟩ :=
    prepareCase_legacy h hversion
  obtain ⟨-, -, -, documents, documents', hdocuments, hdocuments', hkept⟩ :=
    prepareCase_keeps h (Or.inl hversion)
  rw [Dict.getD, hdocuments] at hitems
  obtain rfl := Except.ok.inj hitems
  have hmem : Json.obj doc ∈ documents' := by
    simpa [documentsOf, Dict.rowsAt, hdocuments', Json.arr?] using hdoc
  obtain ⟨v, hv, hone⟩ := forall₂_exists_right hkept.flip hmem
  obtain ⟨original, rfl⟩ : ∃ original : Dict, v = .obj original := by
    rcases hone with ⟨d, -, rfl, -⟩ | ⟨rfl, -⟩
    · exact ⟨d, rfl⟩
    · exact ⟨doc, rfl⟩
  have hreferences : collection ≠ "references" := by
    rintro rfl
    exact absurd hcollection (by decide)
  rw [fieldRows_of_kept hone hreferences] at hrow
  have hfalse := anyEach_eq_false hrows _ hv
  simp only [hasV02RowFields] at hfalse
  split at hfalse
  · rename_i fields hfields
    rw [fieldRows, Dict.dictAt_eq hfields] at hrow
    exact namesStep_of_hasV02Rows hfalse hcollection hrow
  · rename_i hno
    have hnone : ¬∃ fields, original.get? "fields" = some (.obj fields) := by
      rintro ⟨fields, hfields⟩
      exact hno fields hfields
    rw [fieldRows, dictAt_of_no_obj hnone] at hrow
    simp [Dict.rowsAt] at hrow

/-! ## The rules -/

/-- Without rows that name a step no pair has a risk. -/
lemma not_hasRisk_of_legacy {case prepared : Dict} (h : prepareCase case = .ok prepared)
    (hversion : declaredVersion case = .str legacyCaseSchemaVersion) (key : String × String) :
    ¬HasRisk prepared key := by
  rintro ⟨doc, hdoc, risk, hrisk, hstep, -⟩
  rw [namesStep_of_legacy h hversion (documentByType_mem hdoc).1 (by decide) hrisk] at hstep
  exact absurd hstep (by decide)

/-- Without rows that name a step no pair has agreeing specifications. -/
lemma not_specsAgree_of_legacy {case prepared : Dict} (h : prepareCase case = .ok prepared)
    (hversion : declaredVersion case = .str legacyCaseSchemaVersion) (key : String × String) :
    ¬SpecsAgree prepared key := by
  rintro ⟨_, _, _, _, hall⟩
  obtain ⟨doc, hdoc, row, hrow, ⟨hstep, -⟩, -⟩ := hall "CONTROL_PLAN" (by decide)
  rw [namesStep_of_legacy h hversion (documentByType_mem hdoc).1 (by decide) hrow] at hstep
  exact absurd hstep (by decide)

omit [PyUnicode] in
/-- References that a migration has wrapped attest nothing. -/
lemma not_referencesAttested {case prepared : Dict} (hkept : MigrationKeeps case prepared)
    (context : Option ReferenceContext) : ¬ReferencesAttested prepared context := by
  rintro ⟨sealed, -, inspection, hinspection, references, hreferences, hrefer⟩
  obtain ⟨-, -, -, documents, documents', -, hdocuments', hall⟩ := hkept
  obtain ⟨hmem, happroved⟩ := documentByType_mem hinspection
  have hmem : Json.obj inspection ∈ documents' := by
    simpa [documentsOf, Dict.rowsAt, hdocuments', Json.arr?] using hmem
  obtain ⟨v, -, hone⟩ := forall₂_exists_right hall.flip hmem
  rcases hone with ⟨doc, doc', rfl, hdoc', -, hkept⟩ | ⟨rfl, hno⟩
  · obtain rfl := Json.obj.inj hdoc'
    rcases hkept.fields with ⟨fields, fields', -, hfields', hfieldsKept⟩ | ⟨hsame, hno⟩
    · rw [Dict.dictAt_eq hfields'] at hreferences
      cases hpresent : Dict.present? fields "references" with
      | some wrapped =>
          -- the only role is no role of the contract
          rw [hfieldsKept.wrapped wrapped hpresent] at hreferences
          obtain rfl := Json.obj.inj (Option.some.inj hreferences)
          exact absurd (hrefer.roles "LEGACY_UNATTESTED" (by simp [Dict.keys])) (by decide)
      | none =>
          rw [hfieldsKept.absent hpresent] at hreferences
          rcases Dict.present?_eq_none.mp hpresent with hnone | hnull
          · simp [hnone] at hreferences
          · simp [hnull] at hreferences
    · rw [← hsame] at hno
      rw [dictAt_of_no_obj hno] at hreferences
      simp at hreferences
  · simp only [isApprovedOf, Bool.and_eq_true, decide_eq_true_eq] at happroved
    exact hno inspection rfl happroved.1

/-- **Cases of the first two versions** earn no pass on what they do not say: the first version
none on relationships and references, the second none on references.  The migrations keep every
other fact. -/
theorem legacy_not_pass {case prepared : Dict} (h : prepareCase case = .ok prepared)
    (hversion : declaredVersion case = .str legacyCaseSchemaVersion ∨
      declaredVersion case = .str relationshipCaseSchemaVersion)
    (reference : Option ReferenceContext) :
    MigrationKeeps case prepared ∧
    (ruleInspectionCurrentReferences prepared reference).status ≠ .pass ∧
    (declaredVersion case = .str legacyCaseSchemaVersion →
      ∀ plan, buildImpactPlan prepared = .ok plan →
        (∀ f, ruleProcessCoverage prepared plan = .ok f → f.status ≠ .pass) ∧
        (ruleSpecConsistency prepared plan).status ≠ .pass ∧
        (ruleSpecialCharacteristicControl prepared plan).status ≠ .pass) := by
  have hcase := prepareCase_accepted h
  have hkept := prepareCase_keeps h hversion
  refine ⟨hkept, ?_, fun hlegacy plan hplan => ⟨fun f hf => ?_, ?_, ?_⟩⟩
  · rw [ne_eq, ruleInspectionCurrentReferences_pass_iff hcase]
    exact not_referencesAttested hkept reference
  · rw [ne_eq, ruleProcessCoverage_pass_iff hcase hplan hf]
    intro hcovered
    obtain ⟨link, hlink⟩ := List.exists_mem_of_ne_nil _ hcovered.scope.links
    exact not_hasRisk_of_legacy h hlegacy _ (hcovered.carried link hlink).1
  · rw [ne_eq, ruleSpecConsistency_pass_iff hcase hplan]
    intro hconsistent
    obtain ⟨link, hlink⟩ := List.exists_mem_of_ne_nil _ hconsistent.scope.links
    exact not_specsAgree_of_legacy h hlegacy _ (hconsistent.agree link hlink)
  · rw [ne_eq, ruleSpecialCharacteristicControl_pass_iff hcase hplan]
    intro hcontrolled
    obtain ⟨link, hlink⟩ := List.exists_mem_of_ne_nil _ hcontrolled.scope.links
    exact not_hasRisk_of_legacy h hlegacy _ (hcontrolled.risks link hlink)

end Migrated

section Ascii

attribute [local instance] asciiUnicode

/-- A case of the first version: no links, no rows, and references by revision only. -/
def legacyCase : Dict :=
  (sampleCase ((sampleEvent "LOW" [] []).erase "affected_links")
    [sampleDocument "FLOW" "PROCESS_FLOW" "APPROVED" [] [],
     sampleDocument "PFMEA" "PFMEA" "APPROVED" [] [],
     sampleDocument "CP" "CONTROL_PLAN" "APPROVED" [] [],
     sampleDocument "SOP" "SOP" "APPROVED" [] [],
     sampleDocument "IR" "INSPECTION_RECORD" "APPROVED"
       [("references", .obj (Dict.ofList [("SOP", .str "2"), ("CONTROL_PLAN", .str "2")]))] []]).erase
    "schema_version"

theorem legacy_not_pass_sample : ∃ prepared, prepareCase legacyCase = .ok prepared ∧
    MigrationKeeps legacyCase prepared ∧
    (ruleInspectionCurrentReferences prepared none).status ≠ .pass ∧
    (declaredVersion legacyCase = .str legacyCaseSchemaVersion →
      ∀ plan, buildImpactPlan prepared = .ok plan →
        (∀ f, ruleProcessCoverage prepared plan = .ok f → f.status ≠ .pass) ∧
        (ruleSpecConsistency prepared plan).status ≠ .pass ∧
        (ruleSpecialCharacteristicControl prepared plan).status ≠ .pass) := by
  obtain ⟨prepared, hprepared⟩ : ∃ prepared, prepareCase legacyCase = .ok prepared :=
    exists_ok_of_isSome (by decide +kernel)
  exact ⟨prepared, hprepared, legacy_not_pass hprepared (Or.inl (by decide +kernel)) none⟩

end Ascii

end QualityCI

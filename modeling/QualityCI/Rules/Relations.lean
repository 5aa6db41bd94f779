import QualityCI.Rules.Finding

/-!
# Rows and the pairs they are bound to

The helpers of `rules.py` that find rows of a document by their process step and characteristic.
Python builds dictionaries keyed by the normalized pair; here a lookup in such a dictionary is a
search of the rows, the last of one key winning.

* `documentByType` — the approved document of a type.
* `boundRows`, `characteristicAt`, `risksAt` — the rows of a pair.
* `relationshipCandidates` — up to three rows that share one half of a pair.
* `legacyUnboundEvidence` — rows that a migrated case leaves without a process step.
* **`documentByType_accepted`** — an accepted case has one approved document of each type.
* **`characteristicAt_eq_some`** — in an accepted document the row of a pair is unique.
-/

namespace QualityCI

open Py

/-! ## Documents -/

/-- `case["documents"]`. -/
def documentsOf (case : Dict) : List Dict := case.rowsAt "documents"

/-- `document_by_type(case, document_type)`. -/
def documentByType (case : Dict) (documentType : String) : Option Dict :=
  let ofType := (documentsOf case).filter
    fun doc => decide (doc.get? "document_type" = some (.str documentType))
  match ofType.filter fun doc => decide (doc.get? "status" = some (.str "APPROVED")) with
  | [doc] => some doc
  | _ => none

/-- The rows under a key of a document's fields. -/
def fieldRows (doc : Dict) (key : String) : List Dict := (doc.dictAt "fields").rowsAt key

/-- `[doc.get("document_type") for doc in case["documents"]]`, cited. -/
def documentTypesEvidence (case : Dict) : Citation :=
  caseEvidence "documents[*].document_type"
    (textsJson ((documentsOf case).map fun doc => doc.textAt "document_type"))

/-- `_scope_relationships_complete`'s other side: the links as the event has them. -/
def linksEvidence (event : Dict) : Citation :=
  eventEvidence event "affected_links" (event.getD "affected_links" (.str "FIELD_ABSENT"))

/-- The two filters are the validator's. -/
lemma documentByType_eq (case : Dict) (documentType : String) :
    documentByType case documentType =
      match (documentsOf case).filter (isApprovedOf documentType) with
      | [doc] => some doc
      | _ => none := by
  unfold documentByType
  simp only [List.filter_filter]
  have hfun : (fun doc : Dict => decide (doc.get? "status" = some (.str "APPROVED")) &&
      decide (doc.get? "document_type" = some (.str documentType))) = isApprovedOf documentType := by
    funext doc
    exact Bool.and_comm _ _
  rw [hfun]

lemma documentByType_eq_some {case : Dict} {documentType : String} {doc : Dict} :
    documentByType case documentType = some doc ↔
      (documentsOf case).filter (isApprovedOf documentType) = [doc] := by
  rw [documentByType_eq]
  split
  · rename_i d heq
    rw [heq]
    simp
  · rename_i hne
    constructor
    · intro h
      exact absurd h (by simp)
    · intro h
      exact absurd h (hne doc)

lemma documentByType_mem {case : Dict} {documentType : String} {doc : Dict}
    (h : documentByType case documentType = some doc) :
    doc ∈ documentsOf case ∧ isApprovedOf documentType doc = true := by
  rw [documentByType_eq_some] at h
  exact List.mem_filter.mp (h ▸ List.mem_singleton_self doc)

variable [PyUnicode]

/-- **The approved documents of an accepted case.** -/
theorem documentByType_accepted {case : Dict} (hcase : AcceptedCase case) {documentType : String}
    (htype : documentType ∈ requiredDocumentTypes) :
    ∃ doc, documentByType case documentType = some doc := by
  have hcount := hcase.documents.2.approved documentType htype
  rw [approvedCount, List.countP_eq_length_filter, List.length_eq_one_iff] at hcount
  obtain ⟨doc, hdoc⟩ := hcount
  exact ⟨doc, documentByType_eq_some.mpr hdoc⟩

lemma acceptedDocument_of_mem {case doc : Dict} (hcase : AcceptedCase case)
    (h : doc ∈ documentsOf case) :
    AcceptedDocument (case.present? "relationship_migration").isSome
      (case.present? "reference_migration") doc :=
  hcase.documents.2.each doc h

/-! ## Rows of a pair -/

omit [PyUnicode] in
/-- `isinstance(item.get("process_step_id"), str)`. -/
def namesStep (row : Dict) : Bool := ((row.get? "process_step_id").map Json.isStr).getD false

omit [PyUnicode] in
/-- `item.get("locator", default)`. -/
def locatorOf (row : Dict) (default : String) : String :=
  ((row.get? "locator").bind Json.str?).getD default

omit [PyUnicode] in
/-- The rows that name their process step. -/
def boundRows (rows : List Dict) : List Dict := rows.filter namesStep

/-- The rows of a normalized pair. -/
def rowsOfPair (rows : List Dict) (key : String × String) : List Dict :=
  (boundRows rows).filter fun row => decide (pairOf row = key)

/-- `_characteristics(doc).get(key)`: the last row of a pair. -/
def characteristicAt (doc : Dict) (key : String × String) : Option Dict :=
  (rowsOfPair (fieldRows doc "characteristics") key).getLast?

/-- `_risks(doc).get(key, [])`. -/
def risksAt (doc : Dict) (key : String × String) : List Dict :=
  rowsOfPair (fieldRows doc "risks") key

/-- The loop of `_relationship_candidates`; rows are told apart by their values, since no two
bound rows of an accepted document are equal. -/
def appendUnseen : List Dict → List Dict → List Dict
  | candidates, [] => candidates
  | candidates, row :: rest =>
      if row ∈ candidates then appendUnseen candidates rest
      else if candidates.length + 1 = 3 then candidates ++ [row]
      else appendUnseen (candidates ++ [row]) rest

/-- `_relationship_candidates(_relationship_candidate_indexes(items), pair)`. -/
def relationshipCandidates (rows : List Dict) (key : String × String) : List Dict :=
  appendUnseen []
    ((boundRows rows).filter (fun row => decide ((pairOf row).1 = key.1)) ++
      (boundRows rows).filter fun row => decide ((pairOf row).2 = key.2))

/-- `_relationship_excerpt`. -/
def relationshipExcerpt (row : Dict) : Dict :=
  row.filter fun e =>
    decide (e.1 ∈ ["process_step_id", "characteristic_id", "failure_mode_id", "control_id"])

/-- `_relationship_evidence`. -/
def relationshipEvidence (doc row : Dict) : Citation :=
  documentEvidence doc (locatorOf row "RELATION_LOCATOR_MISSING") (.obj (relationshipExcerpt row))

/-- `_missing_relationship_evidence`. -/
def missingRelationshipEvidence (doc : Dict) (collection : String) (pair : String × String) :
    Citation :=
  documentEvidence doc
    (s!"fields.{collection}[process_step_id={pair.1}]" ++ s!"[characteristic_id={pair.2}]")
    (.obj (Dict.ofList
      [("expected_pair", .obj (Dict.ofList
        [("process_step_id", .str pair.1), ("characteristic_id", .str pair.2)])),
       ("status", .str "MISSING_EXPECTED_RELATIONSHIP")]))

/-- `_event_relationship_evidence`. -/
def eventRelationshipEvidence (event : Dict) (pair : String × String) : Citation :=
  eventEvidence event
    (s!"affected_links[process_step_id={pair.1}]" ++ s!"[characteristic_id={pair.2}]")
    (.obj (Dict.ofList [("process_step_id", .str pair.1), ("characteristic_id", .str pair.2)]))

/-- `_scope_relationships_complete`. -/
def scopeRelationshipsComplete (plan : ImpactPlan) : Bool :=
  !plan.affectedLinks.isEmpty && plan.affectedCharacteristics.all fun characteristic =>
    decide (normalizedIdentity characteristic ∈
      plan.affectedLinks.map fun link => normalizedIdentity link.2)

/-! ## Rows without a process step -/

/-- The keys a row of a migrated case lacks. -/
def missingBindings (doc : Dict) (collection : String) (row : Dict) : List String :=
  (if (row.getD "process_step_id" .null).truthy = true then [] else ["process_step_id"]) ++
    if doc.get? "document_type" = some (.str "CONTROL_PLAN") ∧ collection = "characteristics" ∧
      (row.getD "control_id" .null).truthy = false then ["control_id"] else []

/-- What a rule cites of a row that lacks a key. -/
def unboundEvidence (doc : Dict) (collection : String) (row : Dict) : Citation :=
  documentEvidence doc (locatorOf row s!"fields.{collection}")
    (.obj (Dict.ofList
      [("status", .str "LEGACY_RELATIONSHIP_UNPROVEN"),
       ("missing", textsJson (missingBindings doc collection row)),
       ("characteristic_id", row.getD "characteristic_id" .null),
       ("failure_mode_id", row.getD "failure_mode_id" .null)]))

/-- `_legacy_unbound_evidence`; each document comes with one collection. -/
def legacyUnboundEvidence (case : Dict) (documents : List (Dict × String)) : List Citation :=
  if case.contains "relationship_migration" = true then
    documents.flatMap fun (doc, collection) =>
      ((fieldRows doc collection).filter
        fun row => decide (missingBindings doc collection row ≠ [])).map
          (unboundEvidence doc collection)
  else []

/-! ## What the lookups find -/

/-- The row names a process step, and its normalized pair is the given one. -/
def NamesPair (row : Dict) (key : String × String) : Prop :=
  namesStep row = true ∧ pairOf row = key

lemma mem_rowsOfPair {rows : List Dict} {key : String × String} {row : Dict} :
    row ∈ rowsOfPair rows key ↔ row ∈ rows ∧ NamesPair row key := by
  simp only [rowsOfPair, boundRows, NamesPair, List.mem_filter, decide_eq_true_eq, and_assoc]

lemma risksAt_ne_nil {doc : Dict} {key : String × String} :
    risksAt doc key ≠ [] ↔ ∃ risk ∈ fieldRows doc "risks", NamesPair risk key := by
  simp only [risksAt, ne_eq, List.eq_nil_iff_forall_not_mem, mem_rowsOfPair, not_forall, not_not]

omit [PyUnicode] in
lemma namesStep_of_hasText {row : Dict} (h : HasText row "process_step_id") :
    namesStep row = true := by
  rw [namesStep, h.1]
  rfl

omit [PyUnicode] in
lemma namesStep_of_isUnbound {row : Dict} {migrated : Bool} (h : IsUnbound migrated row) :
    namesStep row = false := by
  have hnull := h.1
  unfold Dict.getD at hnull
  unfold namesStep
  cases hv : row.get? "process_step_id" with
  | none => rfl
  | some v =>
      rw [hv, Option.getD_some] at hnull
      rw [hnull]
      rfl

lemma boundPair_of_namesStep {row : Dict} {migrated : Bool} (h : namesStep row = true) :
    boundPair migrated row = some (pairOf row) := by
  refine if_neg fun hunbound => ?_
  have := namesStep_of_isUnbound hunbound
  simp [this] at h

/-- Among rows that repeat no pair, at most one row has a given pair. -/
lemma length_rowsOfPair {migrated : Bool} {documentType : String} {fields : Dict}
    {rows : List Dict} (h : AreCharacteristics migrated documentType fields rows)
    (key : String × String) : (rowsOfPair rows key).length ≤ 1 := by
  have hsub : (rowsOfPair rows key).Sublist rows :=
    List.filter_sublist.trans List.filter_sublist
  have hmap : (rowsOfPair rows key).filterMap (boundPair migrated) =
      List.replicate (rowsOfPair rows key).length key := by
    have hpairs : (rowsOfPair rows key).filterMap (boundPair migrated) =
        (rowsOfPair rows key).map fun _ => key := by
      refine List.filterMap_eq_map_iff_forall_eq_some.mpr fun row hrow => ?_
      obtain ⟨-, hstep, hpair⟩ := mem_rowsOfPair.mp hrow
      rw [boundPair_of_namesStep hstep, hpair]
    rw [hpairs, List.map_const']
  have hnodup : (List.replicate (rowsOfPair rows key).length key).Nodup :=
    hmap ▸ h.distinct.sublist (hsub.filterMap _)
  exact List.nodup_replicate.mp hnodup

lemma DefaultRowsWith.of_fields {migrated : Bool} {documentType : String} {fields : Dict}
    (h : AcceptedFields migrated documentType fields) :
    AreCharacteristics migrated documentType fields (fields.rowsAt "characteristics") :=
  h.characteristics.rows ⟨by simp, by simp⟩

lemma risks_of_fields {migrated : Bool} {documentType : String} {fields : Dict}
    (h : AcceptedFields migrated documentType fields) :
    AreRisks migrated fields (fields.rowsAt "risks") :=
  h.risks.rows ⟨by simp, by simp⟩

/-- **The row of a pair.**  In an accepted document it is found wherever it stands. -/
theorem characteristicAt_eq_some {migrated : Bool} {referenceMigration : Option Json} {doc : Dict}
    (hdoc : AcceptedDocument migrated referenceMigration doc) {key : String × String}
    {row : Dict} :
    characteristicAt doc key = some row ↔
      row ∈ fieldRows doc "characteristics" ∧ NamesPair row key := by
  have hone := length_rowsOfPair (DefaultRowsWith.of_fields hdoc.rows) key
  rw [← mem_rowsOfPair]
  show (rowsOfPair (fieldRows doc "characteristics") key).getLast? = some row ↔ _
  change (rowsOfPair (fieldRows doc "characteristics") key).length ≤ 1 at hone
  match hrows : rowsOfPair (fieldRows doc "characteristics") key, hone with
  | [], _ => simp
  | [only], _ => simp [eq_comm]

lemma characteristicAt_ne_none {doc : Dict} {key : String × String} :
    characteristicAt doc key ≠ none ↔
      ∃ row ∈ fieldRows doc "characteristics", NamesPair row key := by
  rw [characteristicAt, ne_eq, List.getLast?_eq_none_iff, List.eq_nil_iff_forall_not_mem]
  simp only [mem_rowsOfPair, not_forall, not_not]

/-! ## Rows bound to a step -/

/-- The approved document of a type exists and satisfies `P`. -/
def Approved (case : Dict) (documentType : String) (P : Dict → Prop) : Prop :=
  ∃ doc, documentByType case documentType = some doc ∧ P doc

omit [PyUnicode] in
lemma approved_iff {case : Dict} {documentType : String} {P : Dict → Prop} {doc : Dict}
    (h : documentByType case documentType = some doc) : Approved case documentType P ↔ P doc := by
  constructor
  · rintro ⟨d, hd, hP⟩
    rw [h] at hd
    exact Option.some.inj hd ▸ hP
  · intro hP
    exact ⟨doc, h, hP⟩

/-- Where the case carries a migration marker, every row of the collection names its step. -/
def RowsBound (case : Dict) (documentType collection : String) : Prop :=
  case.contains "relationship_migration" = true →
    Approved case documentType fun doc => ∀ row ∈ fieldRows doc collection, namesStep row = true

omit [PyUnicode] in
lemma truthy_of_hasText {row : Dict} {key : String} (h : HasText row key) :
    (row.getD key .null).truthy = true := by
  rw [Dict.getD, h.1, Option.getD_some]
  have hne : row.textAt key ≠ "" := by
    intro hempty
    have := h.2
    rw [hempty] at this
    exact absurd this (by decide)
  simpa [Json.truthy] using hne

omit [PyUnicode] in
lemma missingBindings_of_unbound {doc row : Dict} {collection : String} {migrated : Bool}
    (h : IsUnbound migrated row) : missingBindings doc collection row ≠ [] := by
  simp [missingBindings, h.1, Json.truthy]

/-- A row of an accepted document lacks a key exactly when it names no step. -/
lemma missingBindings_eq_nil {migrated : Bool} {referenceMigration : Option Json} {doc : Dict}
    (hdoc : AcceptedDocument migrated referenceMigration doc) {collection : String}
    (hcollection : collection = "characteristics" ∨ collection = "risks") {row : Dict}
    (hrow : row ∈ fieldRows doc collection) :
    missingBindings doc collection row = [] ↔ namesStep row = true := by
  have hcases : IsUnbound migrated row ∨ (HasText row "process_step_id" ∧
      (doc.textAt "document_type" = "CONTROL_PLAN" → collection = "characteristics" →
        HasText row "control_id")) := by
    rcases hcollection with rfl | rfl
    · have hrow' := (DefaultRowsWith.of_fields hdoc.rows).each row hrow
      exact hrow'.bound.imp id fun h => ⟨h.1.step, fun ht _ => h.2 ht⟩
    · have hrow' := (risks_of_fields hdoc.rows).each row hrow
      exact hrow'.bound.imp id fun h => ⟨h.step, fun _ hc => absurd hc (by decide)⟩
  rcases hcases with hunbound | ⟨hstep, hcontrol⟩
  · have hno := namesStep_of_isUnbound hunbound
    exact ⟨fun h => absurd h (missingBindings_of_unbound hunbound), fun h => by simp [hno] at h⟩
  · refine ⟨fun _ => namesStep_of_hasText hstep, fun _ => ?_⟩
    have hnot : ¬(doc.get? "document_type" = some (.str "CONTROL_PLAN") ∧
        collection = "characteristics" ∧ (row.getD "control_id" .null).truthy = false) := by
      rintro ⟨htype, hchars, hfalse⟩
      have htrue := truthy_of_hasText (hcontrol (Dict.textAt_eq htype) hchars)
      rw [hfalse] at htrue
      exact absurd htrue (by decide)
    simp [missingBindings, truthy_of_hasText hstep, hnot]

omit [PyUnicode] in
/-- No row is cited as unbound when each has its keys. -/
lemma legacyUnboundEvidence_eq_nil {case : Dict} {documents : List (Dict × String)} :
    legacyUnboundEvidence case documents = [] ↔
      (case.contains "relationship_migration" = true →
        ∀ d ∈ documents, ∀ row ∈ fieldRows d.1 d.2, missingBindings d.1 d.2 row = []) := by
  unfold legacyUnboundEvidence
  split_ifs with h
  · simp [h, List.flatMap_eq_nil_iff]
  · simp [h]

/-- The rule's check of one document, as a condition on the case. -/
lemma rowsBound_iff {case : Dict} (hcase : AcceptedCase case) {documentType collection : String}
    (hcollection : collection = "characteristics" ∨ collection = "risks") {doc : Dict}
    (hdoc : documentByType case documentType = some doc) :
    RowsBound case documentType collection ↔
      (case.contains "relationship_migration" = true →
        ∀ row ∈ fieldRows doc collection, missingBindings doc collection row = []) := by
  have haccepted := acceptedDocument_of_mem hcase (documentByType_mem hdoc).1
  unfold RowsBound
  rw [approved_iff hdoc]
  refine imp_congr_right fun _ => forall₂_congr fun row hrow => ?_
  exact (missingBindings_eq_nil haccepted hcollection hrow).symm

/-! ## The scope -/

/-- The event names steps, characteristics and links, and every characteristic occurs in a link. -/
structure ScopeLinked (event : Dict) : Prop where
  links : event.rowsAt "affected_links" ≠ []
  linked : ∀ characteristic ∈ event.textsAt "affected_characteristics",
    ∃ link ∈ event.rowsAt "affected_links", normalizedIdentity characteristic = (pairOf link).2

lemma mem_sortPairs {pairs : List (String × String)} {pair : String × String} :
    pair ∈ sortPairs pairs ↔ pair ∈ pairs := KeySort.mem_sortBy

/-- What holds of every pair of the plan holds of every link of the event. -/
lemma forall_affectedLinks {case : Dict} {plan : ImpactPlan} (hcase : AcceptedCase case)
    (hplan : buildImpactPlan case = .ok plan) {P : String × String → Prop} :
    (∀ pair ∈ plan.affectedLinks, P (pairKey pair)) ↔
      ∀ link ∈ (case.dictAt "event").rowsAt "affected_links", P (pairOf link) := by
  rw [(buildImpactPlan_scope hcase hplan).2.2]
  simp only [mem_sortPairs, List.forall_mem_map]
  exact Iff.rfl

/-- The plan's check of the scope, as a condition on the event. -/
lemma scopeRelationshipsComplete_iff {case : Dict} {plan : ImpactPlan}
    (hcase : AcceptedCase case) (hplan : buildImpactPlan case = .ok plan) :
    scopeRelationshipsComplete plan = true ↔ ScopeLinked (case.dictAt "event") := by
  obtain ⟨-, hchars, hlinks⟩ := buildImpactPlan_scope hcase hplan
  have hempty : plan.affectedLinks = [] ↔
      (case.dictAt "event").rowsAt "affected_links" = [] := by
    rw [hlinks, List.eq_nil_iff_forall_not_mem]
    simp only [mem_sortPairs]
    rw [← List.eq_nil_iff_forall_not_mem, List.map_eq_nil_iff]
  have hmem : ∀ k, k ∈ (plan.affectedLinks.map fun link => normalizedIdentity link.2) ↔
      ∃ link ∈ (case.dictAt "event").rowsAt "affected_links", k = (pairOf link).2 := by
    intro k
    rw [hlinks]
    simp only [List.mem_map, mem_sortPairs, exists_exists_and_eq_and]
    exact exists_congr fun link => and_congr_right fun _ => eq_comm
  unfold scopeRelationshipsComplete
  simp only [Bool.and_eq_true, Bool.not_eq_true', List.isEmpty_eq_false_iff, List.all_eq_true,
    decide_eq_true_eq, hmem, hchars, mem_sortedSet]
  constructor
  · rintro ⟨hne, hall⟩
    exact ⟨fun h => hne (hempty.mpr h), hall⟩
  · rintro ⟨hne, hall⟩
    exact ⟨fun h => hne (hempty.mp h), hall⟩

end QualityCI

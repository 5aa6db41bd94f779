import QualityCI.Engine.Evaluate
import QualityCI.Loader.OrderFree

/-!
# Cases with one projection

Two accepted cases that are projected alike differ only in the order of some lists.  This file
says so in the form in which the rules read a case, and shows which parts of a run cannot tell two
such cases apart: the plan, the hash, the name, and the findings of R005 and R006.

* `Aligned` — the cases agree but for the order of those lists.
* **`aligned_of_agree`** — cases with one projection are aligned.
* `Aligned.documentByType` — the approved documents of a type are aligned.
* **`Aligned.buildImpactPlan`**, **`canonicalHash_eq_of_agree`** — plan and hash do not depend on
  order.
* **`Aligned.ruleInspectionCurrentReferences`**, **`Aligned.ruleValidationEvidence`** — nor do two
  of the rules.
-/

namespace QualityCI

open Py

/-! ## Permuted lists -/

/-- Under the key both dictionaries have the same, or lists of which one permutes the other. -/
def PermutedAt (x y : Dict) (key : String) : Prop :=
  x.get? key = y.get? key ∨
    ∃ xs ys, x.get? key = some (.arr xs) ∧ y.get? key = some (.arr ys) ∧ xs.Perm ys

lemma permutedAt_of_related {special : List (String × (Json → Json → Prop))} {x y : Dict}
    (h : Dict.Related (exceptAt special) x y) {key : String}
    (hkey : exceptAt special key = PermutedList) : PermutedAt x y key := by
  cases hx : x.get? key with
  | none =>
      left
      rw [hx]
      exact (h.get?_eq_none hx).symm
  | some v =>
      obtain ⟨w, hw, hvw⟩ := h.get? hx
      rw [hkey] at hvw
      rcases hvw with rfl | ⟨xs, ys, rfl, rfl, hperm⟩
      · exact Or.inl (hx.trans hw.symm)
      · exact Or.inr ⟨xs, ys, hx, hw, hperm⟩

/-- Of at most one member there is one order. -/
lemma eq_of_perm_of_length_le_one {α : Type} {xs ys : List α} (h : xs.Perm ys)
    (hone : xs.length ≤ 1) : xs = ys := by
  match xs, hone with
  | [], _ => exact (List.nil_perm.mp h).symm
  | [x], _ => exact List.singleton_perm.mp h

namespace PermutedAt

variable {x y : Dict} {key : String}

lemma items (h : PermutedAt x y key) :
    (((x.get? key).bind Json.arr?).getD []).Perm (((y.get? key).bind Json.arr?).getD []) := by
  rcases h with h | ⟨xs, ys, hx, hy, hperm⟩
  · rw [h]
  · rw [hx, hy]
    exact hperm

lemma rows (h : PermutedAt x y key) : (x.rowsAt key).Perm (y.rowsAt key) := h.items.filterMap _

lemma texts (h : PermutedAt x y key) : (x.textsAt key).Perm (y.textsAt key) := h.items.filterMap _

/-- Iterating over either fails alike, or gives lists of which one permutes the other. -/
lemma iterate (h : PermutedAt x y key) (default : Json) :
    (x.getD key default).iterate = (y.getD key default).iterate ∨
      ∃ xs ys, (x.getD key default).iterate = .ok xs ∧ (y.getD key default).iterate = .ok ys ∧
        xs.Perm ys := by
  unfold Dict.getD
  rcases h with h | ⟨xs, ys, hx, hy, hperm⟩
  · rw [h]
    exact Or.inl rfl
  · rw [hx, hy]
    exact Or.inr ⟨xs, ys, rfl, rfl, hperm⟩

/-- A list is empty or absent in both. -/
lemma truthy (h : PermutedAt x y key) :
    (x.getD key .null).truthy = (y.getD key .null).truthy := by
  unfold Dict.getD
  rcases h with h | ⟨xs, ys, hx, hy, hperm⟩
  · rw [h]
  · rw [hx, hy]
    show (!xs.isEmpty) = !ys.isEmpty
    rw [Bool.eq_iff_iff]
    simp [← List.length_eq_zero_iff, hperm.length_eq]

end PermutedAt

/-! ## Aligned cases -/

/-- Two documents that differ only in the order of process steps, characteristics and risks. -/
structure AlignedDocument (x y : Dict) : Prop where
  entry : ∀ key, key ≠ "fields" → x.get? key = y.get? key
  field : ∀ key, key ∉ fieldsReorderings.map Prod.fst →
    (x.dictAt "fields").get? key = (y.dictAt "fields").get? key
  lists : ∀ key ∈ fieldsReorderings.map Prod.fst,
    PermutedAt (x.dictAt "fields") (y.dictAt "fields") key

/-- The lists of an event that hold rows or names. -/
def eventLists : List String :=
  ["affected_process_steps", "affected_characteristics", "affected_links", "approvals",
   "validation_evidence"]

/-- Two events that differ only in the order of their six lists. -/
structure AlignedEvent (x y : Dict) : Prop where
  entry : ∀ key, key ∉ eventReorderings.map Prod.fst → x.get? key = y.get? key
  lists : ∀ key ∈ eventLists, PermutedAt x y key
  plan : x.get? "validation_plan" = y.get? "validation_plan" ∨
    ∃ p q : Dict, x.get? "validation_plan" = some (.obj p) ∧
      y.get? "validation_plan" = some (.obj q) ∧ PermutedAt p q "required_evidence"

/-- Two cases that differ only in the order of lists. -/
structure Aligned (a b : Dict) : Prop where
  entry : ∀ key, key ∉ caseReorderings.map Prod.fst → a.get? key = b.get? key
  event : AlignedEvent (a.dictAt "event") (b.dictAt "event")
  documents : ∃ zs : List Dict, zs.Perm (documentsOf b) ∧
    List.Forall₂ AlignedDocument (documentsOf a) zs

lemma alignedDocument_of_reordered {x y : Dict} (h : ReorderedDocument (.obj x) (.obj y))
    (hx : x.get? "fields" = some (.obj (x.dictAt "fields"))) : AlignedDocument x y := by
  have hrel := (relatedDict_obj documentReorderings_refl).mp h
  have hrefl : ∀ k v, exceptAt fieldsReorderings k v v :=
    exceptAt_refl (by simp [fieldsReorderings, PermutedList.refl])
  obtain ⟨w, hw, hfields⟩ := hrel.get? hx
  have hkey : exceptAt documentReorderings "fields" =
      RelatedDict (exceptAt fieldsReorderings) := rfl
  rw [hkey] at hfields
  have hrelFields : Dict.Related (exceptAt fieldsReorderings) (x.dictAt "fields")
      (y.dictAt "fields") := by
    rcases hfields with rfl | ⟨p, q, hp, rfl, hpq⟩
    · rw [Dict.dictAt_eq hw]
      exact (relatedDict_obj hrefl).mp (Or.inl rfl)
    · rw [Dict.dictAt_eq hw, Json.obj.inj hp]
      exact hpq
  refine ⟨fun key hk => related_get?_eq hrel (by simpa [documentReorderings] using hk),
    fun key hk => related_get?_eq hrelFields hk, fun key hk => ?_⟩
  refine permutedAt_of_related hrelFields ?_
  simp only [fieldsReorderings, List.map_cons, List.map_nil, List.mem_cons, List.not_mem_nil,
    or_false] at hk
  rcases hk with rfl | rfl | rfl <;> rfl

lemma alignedEvent_of_reordered {x y : Dict} (h : ReorderedEvent (.obj x) (.obj y)) :
    AlignedEvent x y := by
  have hrel := (relatedDict_obj eventReorderings_refl).mp h
  refine ⟨fun key hk => related_get?_eq hrel hk, fun key hk => ?_, ?_⟩
  · refine permutedAt_of_related hrel ?_
    simp only [eventLists, List.mem_cons, List.not_mem_nil, or_false] at hk
    rcases hk with rfl | rfl | rfl | rfl | rfl <;> rfl
  · cases hx : x.get? "validation_plan" with
    | none => exact Or.inl (hrel.get?_eq_none hx).symm
    | some v =>
        obtain ⟨w, hw, hvw⟩ := hrel.get? hx
        have hkey : exceptAt eventReorderings "validation_plan" =
            RelatedDict (exceptAt planReorderings) := rfl
        rw [hkey] at hvw
        rcases hvw with rfl | ⟨p, q, rfl, rfl, hpq⟩
        · exact Or.inl hw.symm
        · exact Or.inr ⟨p, q, rfl, hw, permutedAt_of_related hpq rfl⟩

section Cases

variable [PyUnicode] {a b : Dict}

/-- **Cases with one projection are aligned.** -/
theorem aligned_of_agree (wa : (Json.obj a).WF) (wb : (Json.obj b).WF) (ha : AcceptedCase a)
    (hb : AcceptedCase b) (h : Agree canonicalCaseProjection a b) : Aligned a b := by
  obtain ⟨hrel, -, -⟩ := (agree_projection_iff wa wb ha hb).mp h
  refine ⟨fun key hk => related_get?_eq hrel hk, ?_, ?_⟩
  · obtain ⟨w, hw, hevent⟩ := hrel.get? ha.event
    rw [hb.event, Option.some.injEq] at hw
    subst hw
    exact alignedEvent_of_reordered hevent
  · obtain ⟨w, hw, hdocs⟩ := hrel.get? ha.documents.1
    rw [hb.documents.1, Option.some.injEq] at hw
    subst hw
    obtain ⟨zs, hperm, hall⟩ := reorderedDocuments_iff.mp hdocs
    refine ⟨zs, hperm, forall₂_imp_mem hall fun x hx z _ hxz => ?_⟩
    exact alignedDocument_of_reordered hxz (acceptedDocument_of_mem ha hx).fields

end Cases

/-! ## Reading aligned documents -/

namespace AlignedDocument

variable {x y : Dict} (h : AlignedDocument x y)

include h

lemma getD {key : String} (hkey : key ≠ "fields") (default : Json) :
    x.getD key default = y.getD key default := by
  rw [Dict.getD, Dict.getD, h.entry key hkey]

lemma textAt {key : String} (hkey : key ≠ "fields") : x.textAt key = y.textAt key := by
  rw [Dict.textAt, Dict.textAt, h.entry key hkey]

lemma documentEvidence : QualityCI.documentEvidence x = QualityCI.documentEvidence y := by
  funext locator excerpt
  simp only [QualityCI.documentEvidence, h.textAt (show "document_id" ≠ "fields" by decide),
    h.textAt (show "revision" ≠ "fields" by decide),
    h.textAt (show "source_hash" ≠ "fields" by decide)]

lemma rows {collection : String} (hc : collection = "characteristics" ∨ collection = "risks") :
    (fieldRows x collection).Perm (fieldRows y collection) := by
  refine (h.lists collection ?_).rows
  rcases hc with rfl | rfl <;> simp [fieldsReorderings]

lemma relationshipEvidence :
    QualityCI.relationshipEvidence x = QualityCI.relationshipEvidence y := by
  funext row
  simp only [QualityCI.relationshipEvidence, h.documentEvidence]

lemma missingRelationshipEvidence :
    QualityCI.missingRelationshipEvidence x = QualityCI.missingRelationshipEvidence y := by
  funext collection pair
  simp only [QualityCI.missingRelationshipEvidence, h.documentEvidence]

lemma missingBindings : QualityCI.missingBindings x = QualityCI.missingBindings y := by
  funext collection row
  simp only [QualityCI.missingBindings, h.entry _ (show "document_type" ≠ "fields" by decide)]

lemma unboundEvidence : QualityCI.unboundEvidence x = QualityCI.unboundEvidence y := by
  funext collection row
  simp only [QualityCI.unboundEvidence, h.documentEvidence, h.missingBindings]

lemma isApprovedOf (documentType : String) :
    QualityCI.isApprovedOf documentType x = QualityCI.isApprovedOf documentType y := by
  simp only [QualityCI.isApprovedOf, h.entry _ (show "document_type" ≠ "fields" by decide),
    h.entry _ (show "status" ≠ "fields" by decide)]

lemma identityOf : QualityCI.identityOf x = QualityCI.identityOf y := by
  simp only [QualityCI.identityOf, h.textAt (show "document_type" ≠ "fields" by decide),
    h.textAt (show "document_id" ≠ "fields" by decide),
    h.textAt (show "revision" ≠ "fields" by decide),
    h.textAt (show "source_hash" ≠ "fields" by decide)]

/-- The set of a document's process steps does not depend on their order. -/
lemma processStepSet [PyUnicode] : QualityCI.processStepSet x = QualityCI.processStepSet y := by
  unfold QualityCI.processStepSet
  rcases (h.lists "process_steps" (by simp [fieldsReorderings])).iterate (.arr []) with
    heq | ⟨xs, ys, hx, hy, hperm⟩
  · rw [heq]
  · rw [hx, hy]
    exact congrArg Except.ok (sortedSet_eq_of_perm (hperm.filterMap _))

end AlignedDocument

/-! ## What two aligned cases share -/

namespace Aligned

variable [PyUnicode] {a b : Dict}

omit [PyUnicode] in
/-- The approved document of a type is aligned with the other case's. -/
theorem documentByType (h : Aligned a b) {documentType : String} {x : Dict}
    (hx : QualityCI.documentByType a documentType = some x) :
    ∃ y, QualityCI.documentByType b documentType = some y ∧ AlignedDocument x y := by
  obtain ⟨zs, hperm, hall⟩ := h.documents
  rw [documentByType_eq_some] at hx
  have hsame : ∀ x y, AlignedDocument x y →
      (isApprovedOf documentType x = true ↔ isApprovedOf documentType y = true) := by
    intro x y hxy
    rw [hxy.isApprovedOf]
  have hfilter := List.rel_filter (R := AlignedDocument) (fun x y hxy => hsame x y hxy) hall
  rw [hx] at hfilter
  cases hzs : zs.filter (isApprovedOf documentType) with
  | nil =>
      rw [hzs] at hfilter
      cases hfilter
  | cons z rest =>
      rw [hzs] at hfilter
      obtain ⟨hxz, hrest⟩ := List.forall₂_cons.mp hfilter
      obtain rfl := List.forall₂_nil_left_iff.mp hrest
      have hb := hperm.filter (isApprovedOf documentType)
      rw [hzs] at hb
      exact ⟨z, documentByType_eq_some.mpr (List.singleton_perm.mp hb).symm, hxz⟩

omit [PyUnicode] in
lemma eventTextAt (h : Aligned a b) {key : String} (hkey : key ∉ eventReorderings.map Prod.fst) :
    (a.dictAt "event").textAt key = (b.dictAt "event").textAt key := by
  rw [Dict.textAt, Dict.textAt, h.event.entry key hkey]

omit [PyUnicode] in
lemma eventEvidence (h : Aligned a b) :
    QualityCI.eventEvidence (a.dictAt "event") = QualityCI.eventEvidence (b.dictAt "event") := by
  funext locator excerpt
  simp only [QualityCI.eventEvidence,
    h.eventTextAt (show "revision" ∉ eventReorderings.map Prod.fst by decide)]

/-- **The plan does not depend on the order.** -/
theorem buildImpactPlan (h : Aligned a b) (ha : AcceptedCase a) :
    QualityCI.buildImpactPlan a = QualityCI.buildImpactPlan b := by
  have hsteps := sortedSet_eq_of_perm (h.event.lists "affected_process_steps" (by decide)).texts
  have hchars := sortedSet_eq_of_perm (h.event.lists "affected_characteristics" (by decide)).texts
  have hpath : QualityCI.reasoningPath (a.dictAt "event") = reasoningPath (b.dictAt "event") := by
    funext steps characteristics links
    simp only [reasoningPath,
      h.eventTextAt (show "event_id" ∉ eventReorderings.map Prod.fst by decide),
      h.eventTextAt (show "event_type" ∉ eventReorderings.map Prod.fst by decide)]
  simp only [QualityCI.buildImpactPlan, hsteps, hchars, hpath,
    h.eventTextAt (show "event_id" ∉ eventReorderings.map Prod.fst by decide)]
  rcases (h.event.lists "affected_links" (by decide)).iterate (.arr []) with
    heq | ⟨xs, ys, hx, hy, hperm⟩
  · rw [heq]
  · have hpairs : sortPairs (xs.filterMap linkPair) = sortPairs (ys.filterMap linkPair) := by
      refine KeySort.sortBy_eq_of_perm ?_ (hperm.filterMap _)
      rw [filterMap_links ha hx, List.map_map]
      have hdistinct := (ha.acceptedEvent.links.rows ⟨by simp, by simp⟩).distinct
      refine List.Nodup.of_map (fun k : List String => (k.getD 0 "", k.getD 1 "")) ?_
      rw [List.map_map]
      exact hdistinct
    rw [hx, hy]
    show Except.ok _ = Except.ok _
    rw [hpairs]

/-- **R005 does not depend on the order.** -/
theorem ruleInspectionCurrentReferences (h : Aligned a b) (ha : AcceptedCase a)
    (context : Option ReferenceContext) :
    QualityCI.ruleInspectionCurrentReferences a context =
      QualityCI.ruleInspectionCurrentReferences b context := by
  obtain ⟨inspection, hinspection⟩ :=
    documentByType_accepted ha (show "INSPECTION_RECORD" ∈ _ by decide)
  obtain ⟨sop, hsop⟩ := documentByType_accepted ha (show "SOP" ∈ _ by decide)
  obtain ⟨control, hcontrol⟩ := documentByType_accepted ha (show "CONTROL_PLAN" ∈ _ by decide)
  obtain ⟨inspection', hinspection', h1⟩ := h.documentByType hinspection
  obtain ⟨sop', hsop', h2⟩ := h.documentByType hsop
  obtain ⟨control', hcontrol', h3⟩ := h.documentByType hcontrol
  have hevidence : ∀ {x x' t t' : Dict}, AlignedDocument x x' → AlignedDocument t t' →
      ∀ context references role, referenceEvidence context x references t role =
        referenceEvidence context x' references t' role := by
    intro x x' t t' hx ht context references role
    simp only [referenceEvidence, hx.documentEvidence, ht.documentEvidence,
      ht.getD (show "document_id" ≠ "fields" by decide),
      ht.getD (show "revision" ≠ "fields" by decide),
      ht.getD (show "source_hash" ≠ "fields" by decide)]
  have hcurrent : ∀ {t t' : Dict}, AlignedDocument t t' → ∀ context references role,
      isCurrentReference context references t role =
        isCurrentReference context references t' role := by
    intro t t' ht context references role
    simp only [isCurrentReference, isArtifactConsistent, Dict.present?, ht.identityOf,
      ht.entry _ (show "revision_artifact" ≠ "fields" by decide),
      ht.textAt (show "source_hash" ≠ "fields" by decide)]
  have hsealed : ∀ context, isSealedInspection context inspection =
      isSealedInspection context inspection' := by
    intro context
    simp only [isSealedInspection, h1.textAt (show "document_id" ≠ "fields" by decide),
      h1.textAt (show "revision" ≠ "fields" by decide),
      h1.textAt (show "source_hash" ≠ "fields" by decide)]
  have hcompare : ∀ context references,
      compareReferences context inspection references sop control =
        compareReferences context inspection' references sop' control' := by
    intro context references
    have hstale : ([("SOP", sop), ("CONTROL_PLAN", control)].filter
        fun t => !isCurrentReference context references t.2 t.1).map Prod.fst =
        ([("SOP", sop'), ("CONTROL_PLAN", control')].filter
          fun t => !isCurrentReference context references t.2 t.1).map Prod.fst := by
      simp only [List.filter_cons, List.filter_nil, hcurrent h2, hcurrent h3]
      split_ifs <;> rfl
    simp only [compareReferences, List.flatMap_cons, List.flatMap_nil, hstale, hevidence h1 h2,
      hevidence h1 h3, hsealed]
  simp only [QualityCI.ruleInspectionCurrentReferences, hinspection, hsop, hcontrol, hinspection',
    hsop', hcontrol', h1.field "references" (by decide)]
  split
  · simp only [reviewReferences, h1.documentEvidence, hcompare]
  · rw [h1.documentEvidence]

/-- The required evidence is found under its identities wherever it stands. -/
lemma requirementsById_of_permuted {p q : Dict} (hp : IsPlan p)
    (h : PermutedAt p q "required_evidence") : requirementsById p = requirementsById q := by
  have hdistinct := nodup_evidenceId hp.evidence.2
  have hrows := h.rows
  simp only [requirementsById]
  rw [sortedSet_eq_of_perm (hrows.map _)]
  refine List.filterMap_congr fun id _ => ?_
  -- at most one row has the identity, so its position does not matter
  have hone : ((p.rowsAt "required_evidence").filter
      fun r => decide (r.textAt "evidence_id" = id)).length ≤ 1 := by
    have hfilter : ((p.rowsAt "required_evidence").filter
        fun r => decide (r.textAt "evidence_id" = id)).Sublist (p.rowsAt "required_evidence") :=
      List.filter_sublist
    have hsub := hfilter.map fun r => r.textAt "evidence_id"
    have hconst : ((p.rowsAt "required_evidence").filter
        fun r => decide (r.textAt "evidence_id" = id)).map (fun r => r.textAt "evidence_id") =
        List.replicate ((p.rowsAt "required_evidence").filter
          fun r => decide (r.textAt "evidence_id" = id)).length id := by
      rw [← List.map_const']
      exact List.map_congr_left fun r hr => by simpa using (List.mem_filter.mp hr).2
    rw [hconst] at hsub
    exact List.nodup_replicate.mp (hdistinct.sublist hsub)
  rw [eq_of_perm_of_length_le_one (hrows.filter _) hone]

omit [PyUnicode] in
lemma contextRequiredCode (h : Aligned a b) :
    QualityCI.contextRequiredCode a = QualityCI.contextRequiredCode b := by
  unfold QualityCI.contextRequiredCode Dict.dictAt
  rw [h.entry "validation_migration" (by decide)]

/-- A report is compared with the same event and version. -/
lemma reportMismatches (h : Aligned a b) (requirement : Dict) (context : ValidationContext)
    (report : ValidationReport) :
    QualityCI.reportMismatches a (a.dictAt "event") requirement context report =
      QualityCI.reportMismatches b (b.dictAt "event") requirement context report := by
  have hversion : a.textAt "schema_version" = b.textAt "schema_version" := by
    rw [Dict.textAt, Dict.textAt, h.entry "schema_version" (by decide)]
  have hcompare : reportComparisons a (a.dictAt "event") requirement context report =
      reportComparisons b (b.dictAt "event") requirement context report := by
    simp only [reportComparisons, hversion,
      h.eventTextAt (show "event_id" ∉ eventReorderings.map Prod.fst by decide),
      h.eventTextAt (show "revision" ∉ eventReorderings.map Prod.fst by decide)]
  simp only [QualityCI.reportMismatches, hcompare]

/-- The reports are compared with the same requirements. -/
lemma reviewReports (h : Aligned a b) {p q : Dict} (hp : IsPlan p)
    (hpq : PermutedAt p q "required_evidence") (context : ValidationContext) :
    QualityCI.reviewReports a (a.dictAt "event") p context =
      QualityCI.reviewReports b (b.dictAt "event") q context := by
  have hids := hpq.rows.map fun r => r.textAt "evidence_id"
  have hevidence : reportEvidence (a.dictAt "event") = reportEvidence (b.dictAt "event") := by
    funext report
    simp only [reportEvidence,
      h.eventTextAt (show "revision" ∉ eventReorderings.map Prod.fst by decide)]
  have hextra : (fun id => decide (id ∉ (p.rowsAt "required_evidence").map
      fun r => r.textAt "evidence_id")) = fun id => decide (id ∉
        (q.rowsAt "required_evidence").map fun r => r.textAt "evidence_id") := by
    funext id
    rw [decide_eq_decide, hids.mem_iff]
  simp only [QualityCI.reviewReports, compareReports, reportedRequirements,
    requirementsById_of_permuted hp hpq, sortedSet_eq_of_perm hids, hextra, h.eventEvidence,
    hevidence, h.reportMismatches]

/-- **R006 does not depend on the order.** -/
theorem ruleValidationEvidence (h : Aligned a b) (ha : AcceptedCase a)
    (context : Option ValidationContext) :
    QualityCI.ruleValidationEvidence a context = QualityCI.ruleValidationEvidence b context := by
  cases context with
  | none => simp only [QualityCI.ruleValidationEvidence, h.contextRequiredCode, h.eventEvidence]
  | some context =>
      simp only [QualityCI.ruleValidationEvidence]
      rcases h.event.plan with heq | ⟨p, q, hp, hq, hpq⟩
      · rw [← heq]
        split
        · rename_i p hget
          have hplan : IsPlan p := isPlan_of_get? ha hget
          exact h.reviewReports hplan (Or.inl rfl) context
        · rw [h.eventEvidence]
      · rw [hp, hq]
        exact h.reviewReports (isPlan_of_get? ha hp) hpq context

end Aligned

/-! ## The hash -/

/-- **Cases with one projection have one hash.** -/
theorem canonicalHash_eq_of_agree [PyUnicode] {a b : Dict} (ha : validateCaseDict a = .ok ())
    (hb : validateCaseDict b = .ok ()) (h : Agree canonicalCaseProjection a b) :
    canonicalHash (.obj a) = canonicalHash (.obj b) := by
  obtain ⟨projected, hpa, hpb⟩ := h
  simp only [canonicalHash, hashedValue_of_accepted ha, hashedValue_of_accepted hb, hpa, hpb]

end QualityCI

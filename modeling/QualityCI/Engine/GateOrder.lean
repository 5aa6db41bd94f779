import QualityCI.Engine.CitedOrder

/-!
# The order that R004 and R007 show

R004 walks the approved documents as the case lists them, and cites a date for each; R007 cites
the decisions on the current revision as the event lists them.

* **`Comparable.ruleRevisionAfterApproval_agree_iff`** — R004's findings print alike exactly when
  the approved documents come in one order, or the event has no approval date.
* **`Comparable.ruleHighRiskApproval_agree_iff`** — R007's print alike exactly when the decisions
  come in one order, or the risk is not high.
-/

namespace QualityCI

open Py

variable [PyUnicode] {a b : Dict} {plan : ImpactPlan}

/-! ## R004 -/

/-- Aligned documents are reviewed alike, in aligned events. -/
lemma reviewRevisions_eq {event event' : Dict} (hevent : AlignedEvent event event')
    {approvalDate : CalendarDate} {docs docs' : List Dict}
    (h : List.Forall₂ AlignedDocument docs docs') (stale : List String)
    (evidence : List Citation) :
    reviewRevisions event approvalDate docs stale evidence =
      reviewRevisions event' approvalDate docs' stale evidence := by
  induction h generalizing stale evidence with
  | nil => rfl
  | @cons x y docs docs' hxy _ ih =>
      have hcovers : ∀ waiver, coversRevision waiver x event approvalDate =
          coversRevision waiver y event' approvalDate := by
        intro waiver
        unfold coversRevision
        split
        · rw [decide_eq_decide, hxy.entry _ (show "document_id" ≠ "fields" by decide),
            hevent.entry "revision" (by decide)]
        · rfl
      have hwaiver : validRevisionDateWaiver x event approvalDate =
          validRevisionDateWaiver y event' approvalDate := by
        simp only [validRevisionDateWaiver, hcovers,
          hxy.entry _ (show "approved_waiver" ≠ "fields" by decide)]
      have hcited : waiverEvidence x = waiverEvidence y := by
        funext waiver
        simp only [waiverEvidence, hxy.documentEvidence]
      unfold reviewRevisions
      simp only [hxy.getD (show "revision_date" ≠ "fields" by decide),
        hxy.textAt (show "revision_date" ≠ "fields" by decide),
        hxy.textAt (show "document_id" ≠ "fields" by decide), hxy.documentEvidence, hwaiver,
        hcited, ih]

/-- A stale document that a waiver covers is cited twice. -/
def isWaived (event : Dict) (approvalDate : CalendarDate) (doc : Dict) : Bool :=
  match parseIsoDate (doc.textAt "revision_date") with
  | some date => decide (date.order < approvalDate.order) &&
      (validRevisionDateWaiver doc event approvalDate).isSome
  | none => false

/-- The identities cited of one document. -/
def citedIds (event : Dict) (approvalDate : CalendarDate) (doc : Dict) : List String :=
  doc.textAt "document_id" ::
    if isWaived event approvalDate doc = true then [doc.textAt "document_id"] else []

/-- The review of documents that have dates cites them in their order. -/
lemma reviewRevisions_documentIds {event : Dict} {approvalDate : CalendarDate} {docs : List Dict}
    (hdates : ∀ doc ∈ docs, ∃ s, doc.get? "revision_date" = some (.str s) ∧
      (parseIsoDate s).isSome = true)
    {stale : List String} {evidence : List Citation} {f : Finding Citation}
    (h : reviewRevisions event approvalDate docs stale evidence = .ok f) :
    f.evidence.map Citation.documentId =
      evidence.map Citation.documentId ++ docs.flatMap (citedIds event approvalDate) := by
  induction docs generalizing stale evidence with
  | nil =>
      unfold reviewRevisions at h
      split_ifs at h
      · obtain rfl := Except.ok.inj h
        exact (List.append_nil _).symm
      · obtain rfl := Except.ok.inj h
        exact (List.append_nil _).symm
  | cons doc docs ih =>
      obtain ⟨⟨s, hget, hdate⟩, hrest⟩ := List.forall_mem_cons.mp hdates
      unfold reviewRevisions at h
      rw [if_neg (by rw [truthy_of_isIsoDate hget hdate]; decide)] at h
      simp only [bind_eq_ok, fromIsoformat_eq_ok] at h
      obtain ⟨date, hparse, h⟩ := h
      rw [List.flatMap_cons]
      split_ifs at h with hlt
      · cases hwaiver : validRevisionDateWaiver doc event approvalDate with
        | some waiver =>
            rw [hwaiver] at h
            have hcited : citedIds event approvalDate doc =
                [doc.textAt "document_id", doc.textAt "document_id"] := by
              simp [citedIds, isWaived, hparse, hlt, hwaiver]
            rw [ih hrest h, hcited]
            simp [documentEvidence, waiverEvidence]
        | none =>
            rw [hwaiver] at h
            have hcited : citedIds event approvalDate doc = [doc.textAt "document_id"] := by
              simp [citedIds, isWaived, hparse, hwaiver]
            rw [ih hrest h, hcited]
            simp [documentEvidence]
      · have hcited : citedIds event approvalDate doc = [doc.textAt "document_id"] := by
          simp [citedIds, isWaived, hparse, hlt]
        rw [ih hrest h, hcited]
        simp [documentEvidence]

omit [PyUnicode] in
/-- The order of distinct documents is read off the identities cited. -/
lemma dedup_citedIds {event : Dict} {approvalDate : CalendarDate} {docs : List Dict}
    (hdistinct : (docs.map fun doc => doc.textAt "document_id").Nodup) :
    (docs.flatMap (citedIds event approvalDate)).dedup =
      docs.map fun doc => doc.textAt "document_id" := by
  induction docs with
  | nil => rfl
  | cons doc docs ih =>
      rw [List.map_cons, List.nodup_cons] at hdistinct
      have hnew : doc.textAt "document_id" ∉ docs.flatMap (citedIds event approvalDate) := by
        intro hmem
        obtain ⟨other, hother, hcited⟩ := List.mem_flatMap.mp hmem
        have hid : doc.textAt "document_id" = other.textAt "document_id" := by
          unfold citedIds at hcited
          split_ifs at hcited <;> simpa using hcited
        exact hdistinct.1 (List.mem_map.mpr ⟨other, hother, hid.symm⟩)
      rw [List.flatMap_cons, List.map_cons, ← ih hdistinct.2, citedIds]
      split_ifs
      · rw [List.cons_append, List.dedup_cons_of_mem (by simp)]
        exact List.dedup_cons_of_notMem hnew
      · exact List.dedup_cons_of_notMem hnew

/-- Printing keeps the documents' identities. -/
lemma map_documentId_print {citations : List Citation} {printed : List EvidenceRef}
    (h : mapEach Citation.print citations = .ok printed) :
    printed.map EvidenceRef.documentId = citations.map Citation.documentId := by
  rw [mapEach_eq_ok] at h
  induction h with
  | nil => rfl
  | cons hcd _ ih =>
      simp only [Citation.print, bind_eq_ok, Except.ok.injEq] at hcd
      obtain ⟨_, -, rfl⟩ := hcd
      rw [List.map_cons, List.map_cons, ih]

lemma approvedDocuments_distinct {case : Dict} (hcase : AcceptedCase case) :
    ((approvedDocuments case).map fun doc => doc.textAt "document_id").Nodup := by
  have hdistinct := hcase.documents.2.distinct
  rw [map_documentIdOf] at hdistinct
  exact (hdistinct.of_map _).sublist (List.filter_sublist.map _)

/-- With the same identities in one order, the approved documents are aligned one by one. -/
lemma Comparable.approvedDocuments_aligned (h : Comparable a b plan)
    (hids : (approvedDocuments a).map (fun doc => doc.textAt "document_id") =
      (approvedDocuments b).map fun doc => doc.textAt "document_id") :
    List.Forall₂ AlignedDocument (approvedDocuments a) (approvedDocuments b) := by
  obtain ⟨zs, hperm, hall⟩ := h.aligned.documents
  have hstatus : ∀ x y, AlignedDocument x y →
      (decide (x.get? "status" = some (.str "APPROVED")) = true ↔
        decide (y.get? "status" = some (.str "APPROVED")) = true) := by
    intro x y hxy
    rw [hxy.entry "status" (by decide)]
  have hfilter := List.rel_filter (R := AlignedDocument) (fun x y hxy => hstatus x y hxy) hall
  have hpermFilter := hperm.filter fun doc : Dict =>
    decide (doc.get? "status" = some (.str "APPROVED"))
  have hidsFilter : (approvedDocuments a).map (fun doc => doc.textAt "document_id") =
      (zs.filter fun doc : Dict => decide (doc.get? "status" = some (.str "APPROVED"))).map
        fun doc => doc.textAt "document_id" := by
    rw [← List.forall₂_eq_eq_eq, List.forall₂_map_left_iff, List.forall₂_map_right_iff]
    exact hfilter.imp fun x y hxy => hxy.textAt (by decide)
  -- both lists hold the same documents, told apart by their identities
  have hsame : (zs.filter fun doc : Dict =>
      decide (doc.get? "status" = some (.str "APPROVED"))) = approvedDocuments b := by
    refine (map_eq_map_iff_of_injOn (f := fun doc : Dict => doc.textAt "document_id")
      fun x hx y hy hxy => ?_).mp (hidsFilter.symm.trans hids)
    exact List.inj_on_of_nodup_map (approvedDocuments_distinct h.right)
      (hpermFilter.mem_iff.mp hx) hy hxy
  exact hsame ▸ hfilter

/-- **R004 shows exactly the order of the approved documents.** -/
theorem Comparable.ruleRevisionAfterApproval_agree_iff (h : Comparable a b plan)
    (hprints : ∃ f, printRule (ruleRevisionAfterApproval a) = .ok f) :
    Agree printRule (ruleRevisionAfterApproval a) (ruleRevisionAfterApproval b) ↔
      RevisionsAlike a b := by
  have hdates : ∀ {case : Dict}, AcceptedCase case → ∀ doc ∈ approvedDocuments case,
      ∃ s, doc.get? "revision_date" = some (.str s) ∧ (parseIsoDate s).isSome = true :=
    fun hcase doc hdoc => (acceptedDocument_of_mem hcase (List.mem_filter.mp hdoc).1).date
  have hentry := h.aligned.event.entry "approved_at" (by decide)
  unfold RevisionsAlike
  cases hget : (a.dictAt "event").get? "approved_at" with
  | none =>
      -- without an approval date nothing of the documents is cited
      have hcontains : (a.dictAt "event").contains "approved_at" = false := by
        rw [Dict.contains, hget]
        rfl
      have heq : ruleRevisionAfterApproval a = ruleRevisionAfterApproval b := by
        simp only [ruleRevisionAfterApproval, Dict.getD, ← hentry, hget, h.aligned.eventEvidence]
        rfl
      rw [hcontains]
      exact ⟨fun _ hno => absurd hno (by decide), fun _ => agree_of_eq heq hprints⟩
  | some v =>
      obtain ⟨s, rfl, hs⟩ := h.left.acceptedEvent.approvedAt v hget
      have hgetB : (b.dictAt "event").get? "approved_at" = some (.str s) := hentry ▸ hget
      have hcontains : (a.dictAt "event").contains "approved_at" = true := by
        rw [Dict.contains, hget]
        rfl
      obtain ⟨approvalDate, hdate⟩ := Option.isSome_iff_exists.mp hs
      have hrule : ∀ {case : Dict}, (case.dictAt "event").get? "approved_at" = some (.str s) →
          ruleRevisionAfterApproval case = reviewRevisions (case.dictAt "event") approvalDate
            (approvedDocuments case) [] [] := by
        intro case hcase
        have hiso : fromIsoformat s = .ok approvalDate := fromIsoformat_eq_ok.mpr hdate
        simp only [ruleRevisionAfterApproval, Dict.textAt_eq hcase, hiso]
        rw [if_neg (by rw [truthy_of_isIsoDate hcase hs]; decide)]
        rfl
      rw [hrule hget] at hprints ⊢
      rw [hrule hgetB, hcontains]
      simp only [forall_const]
      constructor
      · rintro ⟨p, hp, hq⟩
        simp only [printRule, bind_eq_ok, Finding.print_eq_ok] at hp hq
        obtain ⟨f, hf, e, he, rfl⟩ := hp
        obtain ⟨g, hg, e', he', heq⟩ := hq
        have hsame : e = e' := congrArg Finding.evidence heq
        have hids := (map_documentId_print he).symm.trans
          ((congrArg (List.map EvidenceRef.documentId) hsame).trans (map_documentId_print he'))
        rw [reviewRevisions_documentIds (hdates h.left) hf,
          reviewRevisions_documentIds (hdates h.right) hg] at hids
        rw [← dedup_citedIds (approvedDocuments_distinct h.left),
          ← dedup_citedIds (approvedDocuments_distinct h.right)]
        exact congrArg List.dedup hids
      · intro hids
        exact agree_of_eq (reviewRevisions_eq h.aligned.event
          (h.approvedDocuments_aligned hids) [] []) hprints

/-! ## R007 -/

omit [PyUnicode] in
lemma currentApprovals_perm {event event' : Dict} (h : AlignedEvent event event') :
    (currentApprovals event).Perm (currentApprovals event') := by
  unfold currentApprovals
  rw [h.entry "revision" (by decide)]
  exact (h.lists "approvals" (by decide)).rows.filter _

/-- An accepted approval of the current revision is cited by its role and decision. -/
lemma approvalExcerpt_eq_iff {event event' item item' : Dict} {m m' : Option Json}
    (he : AcceptedEvent event m) (he' : AcceptedEvent event' m')
    (hrevision : event.get? "revision" = event'.get? "revision")
    (h : item ∈ currentApprovals event) (h' : item' ∈ currentApprovals event') :
    approvalExcerpt item = approvalExcerpt item' ↔
      (item.textAt "role", item.textAt "decision") =
        (item'.textAt "role", item'.textAt "decision") := by
  obtain ⟨hmem, hcurrent⟩ := List.mem_filter.mp h
  obtain ⟨hmem', hcurrent'⟩ := List.mem_filter.mp h'
  have hrow := (he.approvals.rows ⟨by simp, by simp⟩).each item hmem
  have hrow' := (he'.approvals.rows ⟨by simp, by simp⟩).each item' hmem'
  have hsame : item.get? "event_revision" = item'.get? "event_revision" := by
    rw [decide_eq_true_eq] at hcurrent hcurrent'
    rw [hcurrent, hcurrent', hrevision]
  rw [Prod.mk.injEq]
  constructor
  · intro heq
    have hexcerpt := Json.obj.inj heq
    have hget := fun key => congrArg (fun d : Dict => d.get? key) hexcerpt
    have hrole := hget "role"
    have hdecision := hget "decision"
    simp only [List.map_cons, List.map_nil, Dict.ofList, List.foldl_cons, List.foldl_nil,
      Dict.get?_set, String.reduceEq, ↓reduceIte, Option.some.injEq, Dict.getD, hrow.role.1,
      hrow'.role.1, hrow.decision.1, hrow'.decision.1, Option.getD_some, Json.str.injEq]
      at hrole hdecision
    exact ⟨hrole, hdecision⟩
  · rintro ⟨hrole, hdecision⟩
    simp only [approvalExcerpt, List.map_cons, List.map_nil, Dict.getD, hrow.role.1,
      hrow'.role.1, hrow.decision.1, hrow'.decision.1, hrole, hdecision, hsame]

/-- The decisions on the current revision are cited in one order exactly when they come in one. -/
lemma Comparable.approvals_iff (h : Comparable a b plan) :
    (currentApprovals (a.dictAt "event")).map approvalExcerpt =
      (currentApprovals (b.dictAt "event")).map approvalExcerpt ↔
    (currentApprovals (a.dictAt "event")).map (fun item =>
        (item.textAt "role", item.textAt "decision")) =
      (currentApprovals (b.dictAt "event")).map fun item =>
        (item.textAt "role", item.textAt "decision") :=
  map_eq_map_iff_of_same fun _ hx _ hy => approvalExcerpt_eq_iff h.left.acceptedEvent
    h.right.acceptedEvent (h.aligned.event.entry "revision" (by decide)) hx hy

omit [PyUnicode] in
lemma structured_approvals {event : Dict} (hwf : (Json.obj event).WF) :
    ∀ e ∈ [eventEvidence event "approvals" (.arr ((currentApprovals event).map approvalExcerpt))],
      e.Structured := by
  have hnull : (Json.null).WF := by simp [Json.WF]
  intro e he
  rw [List.mem_singleton] at he
  subst he
  refine structured_of_arr rfl (Json.wf_arr.mpr fun v hv => ?_)
  obtain ⟨item, hitem, rfl⟩ := List.mem_map.mp hv
  have hitemWF := rowsAt_wf hwf (List.mem_filter.mp hitem).1
  refine Json.wf_ofList fun entry hentry => ?_
  obtain ⟨key, -, rfl⟩ := List.mem_map.mp hentry
  exact getD_wf hitemWF key hnull

/-- The review of the approvals shows the order of the decisions. -/
lemma Comparable.reviewApprovals_iff (h : Comparable a b plan)
    (hprints : ∃ f, printRule (.ok (reviewApprovals (a.dictAt "event"))) = .ok f) :
    Agree printRule (.ok (reviewApprovals (a.dictAt "event")))
      (.ok (reviewApprovals (b.dictAt "event"))) ↔
      (currentApprovals (a.dictAt "event")).map approvalExcerpt =
        (currentApprovals (b.dictAt "event")).map approvalExcerpt := by
  have hperm := currentApprovals_perm h.aligned.event
  have hany : ∀ p : Dict → Bool, (currentApprovals (b.dictAt "event")).any p =
      (currentApprovals (a.dictAt "event")).any p := by
    intro p
    rw [Bool.eq_iff_iff]
    simp only [List.any_eq_true, hperm.mem_iff]
  have hleft := structured_approvals (dictAt_wf h.leftWF "event")
  have hright := structured_approvals (dictAt_wf h.rightWF "event")
  have hevidence : [eventEvidence (a.dictAt "event") "approvals"
        (.arr ((currentApprovals (a.dictAt "event")).map approvalExcerpt))] =
      [eventEvidence (b.dictAt "event") "approvals"
        (.arr ((currentApprovals (b.dictAt "event")).map approvalExcerpt))] ↔
      (currentApprovals (a.dictAt "event")).map approvalExcerpt =
        (currentApprovals (b.dictAt "event")).map approvalExcerpt := by
    rw [h.aligned.eventEvidence, List.cons.injEq]
    simp only [and_true, eventEvidence, Citation.mk.injEq, true_and, Json.arr.injEq]
  rw [← hevidence]
  simp only [reviewApprovals, hany] at hprints ⊢
  split_ifs at hprints ⊢
  all_goals exact agree_printRule_finding hprints hleft hright

/-- An event without approvals has none of the current revision. -/
lemma currentApprovals_of_falsy {event : Dict} {m : Option Json} (he : AcceptedEvent event m)
    (h : (event.getD "approvals" .null).truthy = false) : currentApprovals event = [] := by
  have hrows : event.rowsAt "approvals" = [] := by
    rcases he.approvals with habsent | ⟨hget, -⟩
    · exact Dict.rowsAt_of_present?_none habsent
    · rw [Dict.getD, hget, Option.getD_some] at h
      simpa [Json.truthy] using h
  rw [currentApprovals, hrows]
  rfl

/-- **R007 shows exactly the order of the decisions.** -/
theorem Comparable.ruleHighRiskApproval_agree_iff (h : Comparable a b plan)
    (hprints : ∃ f, printRule (.ok (ruleHighRiskApproval a)) = .ok f) :
    Agree printRule (.ok (ruleHighRiskApproval a)) (.ok (ruleHighRiskApproval b)) ↔
      ApprovalsAlike a b := by
  have hlevel := h.aligned.eventTextAt
    (show "risk_level" ∉ eventReorderings.map Prod.fst by decide)
  have hvalue : (a.dictAt "event").getD "risk_level" .null =
      (b.dictAt "event").getD "risk_level" .null := by
    rw [Dict.getD, Dict.getD, h.aligned.event.entry "risk_level" (by decide)]
  have htruthy := (h.aligned.event.lists "approvals" (by decide)).truthy
  have hin := h.left.acceptedEvent.riskLevel.2
  unfold ApprovalsAlike
  simp only [ruleHighRiskApproval] at hprints ⊢
  rw [← hlevel, ← hvalue, ← htruthy, ← h.aligned.eventEvidence]
  rw [if_neg (not_not.mpr hin)] at hprints ⊢
  rw [if_neg (not_not.mpr hin)]
  by_cases hhigh : (a.dictAt "event").textAt "risk_level" = "HIGH"
  · rw [if_neg (not_not.mpr hhigh)] at hprints ⊢
    rw [if_neg (not_not.mpr hhigh)]
    simp only [hhigh, forall_const]
    by_cases hnone : ((a.dictAt "event").getD "approvals" .null).truthy = false
    · rw [if_pos hnone] at hprints ⊢
      rw [if_pos hnone]
      rw [currentApprovals_of_falsy h.left.acceptedEvent hnone,
        currentApprovals_of_falsy h.right.acceptedEvent (htruthy ▸ hnone)]
      exact ⟨fun _ => rfl, fun _ => agree_of_eq rfl hprints⟩
    · rw [if_neg hnone] at hprints ⊢
      rw [if_neg hnone, h.reviewApprovals_iff hprints, h.approvals_iff]
  · rw [if_pos hhigh] at hprints ⊢
    rw [if_pos hhigh]
    exact ⟨fun _ hno => absurd hno hhigh, fun _ => agree_of_eq rfl hprints⟩

end QualityCI

import QualityCI.Rules.Relations

/-!
# Revision dates and approvals

The rules R004 and R007.  The first compares the dates of the approved documents with the date of
the event's approval, the second counts the approvals of a high-risk event.

* `ruleRevisionAfterApproval` — no approved document is older than the approval, or it is waived.
* `ruleHighRiskApproval` — both roles have approved the current revision, and none has not.
* **`ruleRevisionAfterApproval_pass_iff`**, **`ruleHighRiskApproval_pass_iff`** — when they pass.
-/

namespace QualityCI

open Py

/-- The two roles that approve. -/
def requiredRoles : List String := ["PROCESS_OWNER", "QUALITY_MANAGER"]

variable [PyUnicode]

/-! ## R004 -/

/-- `date.fromisoformat(text)` of a text in the contract's form. -/
def fromIsoformat (text : String) : Result CalendarDate :=
  match parseIsoDate text with
  | some date => .ok date
  | none => valueError s!"Invalid isoformat string: {strRepr text}"

omit [PyUnicode] in
/-- A date of a waiver; a missing or malformed one makes the waiver invalid. -/
def waiverDate (waiver : Dict) (key : String) : Option CalendarDate :=
  ((waiver.get? key).bind Json.str?).bind parseIsoDate

omit [PyUnicode] in
/-- The waiver names the document, the event's revision, the scope and both roles, and its window
holds the day of the approval. -/
structure CoversRevision (waiver doc event : Dict) (approvalDate : CalendarDate) : Prop where
  window : ∃ start stop, waiverDate waiver "valid_from" = some start ∧
    waiverDate waiver "valid_until" = some stop ∧
    start.order ≤ approvalDate.order ∧ approvalDate.order ≤ stop.order
  document : waiver.get? "document_id" = doc.get? "document_id"
  revision : waiver.get? "event_revision" = event.get? "revision"
  scope : waiver.get? "scope" = some (.str "REVISION_DATE_EXCEPTION")
  roles : ∀ role ∈ requiredRoles, role ∈ waiver.textsAt "approved_roles"
  id : HasText waiver "waiver_id"
  locator : HasText waiver "locator"

omit [PyUnicode] in
/-- The checks of a waiver that is a dictionary. -/
def coversRevision (waiver doc event : Dict) (approvalDate : CalendarDate) : Bool :=
  match waiverDate waiver "valid_from", waiverDate waiver "valid_until" with
  | some start, some stop =>
      decide (waiver.get? "document_id" = doc.get? "document_id" ∧
        waiver.get? "event_revision" = event.get? "revision" ∧
        waiver.get? "scope" = some (.str "REVISION_DATE_EXCEPTION") ∧
        (∀ role ∈ requiredRoles, role ∈ waiver.textsAt "approved_roles") ∧
        isBlank (waiver.textAt "waiver_id") = false ∧ isBlank (waiver.textAt "locator") = false ∧
        start.order ≤ approvalDate.order ∧ approvalDate.order ≤ stop.order)
  | _, _ => false

omit [PyUnicode] in
/-- `_valid_revision_date_waiver`: the waiver, when it is valid. -/
def validRevisionDateWaiver (doc event : Dict) (approvalDate : CalendarDate) : Option Dict :=
  match doc.get? "approved_waiver" with
  | some (.obj waiver) =>
      if coversRevision waiver doc event approvalDate = true then some waiver else none
  | _ => none

/-- The evidence a valid waiver adds. -/
def waiverEvidence (doc waiver : Dict) : Citation :=
  documentEvidence doc (waiver.textAt "locator")
    (.obj (Dict.ofList
      (["waiver_id", "scope", "event_revision", "approved_roles", "valid_from", "valid_until"].map
        fun key => (key, waiver.getD key .null))))

/-- The loop of R004 over the approved documents, with the stale ones and the evidence so far. -/
def reviewRevisions (event : Dict) (approvalDate : CalendarDate) :
    List Dict → List String → List Citation → Result (Finding Citation)
  | [], stale, evidence =>
      if stale ≠ [] then
        .ok <| finding "QCI-R004" "文件修订日期门" .contradicted
          ("文件修订日期早于事件批准且无有效结构化豁免：" ++ join ", " stale) evidence "HIGH"
          "更新文件修订日期，或补充绑定文件、事件版本、角色、有效期和位置的结构化豁免。"
          ["所有受控文件修订日期不早于批准日期，或存在有效结构化豁免"]
      else
        .ok <| finding "QCI-R004" "文件修订日期门" .pass
          "所有受控文件修订日期均不早于事件批准日期，或具有有效结构化豁免。" evidence "LOW"
  | doc :: docs, stale, evidence =>
      if (doc.getD "revision_date" .null).truthy = false then
        .ok <| finding "QCI-R004" "文件修订日期门" .unverifiable
          (doc.textAt "document_id" ++ "缺少修订日期。")
          [documentEvidence doc "revision_date" (.str "FIELD_ABSENT")] "HIGH"
      else do
        let evidence :=
          evidence ++ [documentEvidence doc "revision_date" (doc.getD "revision_date" .null)]
        let revisionDate ← fromIsoformat (doc.textAt "revision_date")
        if revisionDate.order < approvalDate.order then
          match validRevisionDateWaiver doc event approvalDate with
          | some waiver =>
              reviewRevisions event approvalDate docs stale
                (evidence ++ [waiverEvidence doc waiver])
          | none =>
              reviewRevisions event approvalDate docs (stale ++ [doc.textAt "document_id"]) evidence
        else reviewRevisions event approvalDate docs stale evidence

/-- `item.get("status") == "APPROVED"`. -/
def approvedDocuments (case : Dict) : List Dict :=
  (documentsOf case).filter fun doc => decide (doc.get? "status" = some (.str "APPROVED"))

/-- `rule_revision_after_approval`. -/
def ruleRevisionAfterApproval (case : Dict) : Result (Finding Citation) :=
  let event := case.dictAt "event"
  if (event.getD "approved_at" .null).truthy = false then
    .ok <| finding "QCI-R004" "文件修订日期门" .unverifiable "工程变更或质量事件缺少批准日期。"
      [eventEvidence event "approved_at" (.str "FIELD_ABSENT")] "HIGH"
  else do
    let approvalDate ← fromIsoformat (event.textAt "approved_at")
    reviewRevisions event approvalDate (approvedDocuments case) [] []

/-! ## When R004 passes -/

section Revision

omit [PyUnicode]

/-- The document is as recent as the approval, or a waiver covers it. -/
def RevisionCurrent (event : Dict) (approvalDate : CalendarDate) (doc : Dict) : Prop :=
  (∃ date, parseIsoDate (doc.textAt "revision_date") = some date ∧
    approvalDate.order ≤ date.order) ∨
  ∃ waiver, doc.get? "approved_waiver" = some (.obj waiver) ∧
    CoversRevision waiver doc event approvalDate

/-- What R004 asks of a case: an approval date, and no approved document older than it. -/
def RevisionsCurrent (case : Dict) : Prop :=
  ∃ approvalDate, parseIsoDate ((case.dictAt "event").textAt "approved_at") = some approvalDate ∧
    ∀ doc ∈ documentsOf case, doc.get? "status" = some (.str "APPROVED") →
      RevisionCurrent (case.dictAt "event") approvalDate doc

lemma coversRevision_iff {waiver doc event : Dict} {approvalDate : CalendarDate} :
    coversRevision waiver doc event approvalDate = true ↔
      CoversRevision waiver doc event approvalDate := by
  unfold coversRevision
  split
  · rename_i start stop hstart hstop
    simp only [decide_eq_true_eq, ← hasText_iff_textAt]
    constructor
    · rintro ⟨hdoc, hrev, hscope, hroles, hid, hlocator, hwindow⟩
      exact ⟨⟨start, stop, hstart, hstop, hwindow⟩, hdoc, hrev, hscope, hroles, hid, hlocator⟩
    · intro h
      obtain ⟨a, b, ha, hb, hwindow⟩ := h.window
      rw [hstart] at ha
      rw [hstop] at hb
      obtain rfl := Option.some.inj ha
      obtain rfl := Option.some.inj hb
      exact ⟨h.document, h.revision, h.scope, h.roles, h.id, h.locator, hwindow⟩
  · rename_i hno
    simp only [Bool.false_eq_true, false_iff]
    intro h
    obtain ⟨a, b, ha, hb, -⟩ := h.window
    exact hno a b ha hb

lemma validRevisionDateWaiver_isSome {doc event : Dict} {approvalDate : CalendarDate} :
    (∃ waiver, validRevisionDateWaiver doc event approvalDate = some waiver) ↔
      ∃ waiver, doc.get? "approved_waiver" = some (.obj waiver) ∧
        CoversRevision waiver doc event approvalDate := by
  unfold validRevisionDateWaiver
  split
  · rename_i waiver hget
    simp only [← coversRevision_iff]
    constructor
    · rintro ⟨w, hw⟩
      split_ifs at hw with hcovers
      exact ⟨waiver, hget, hcovers⟩
    · rintro ⟨w, hw, hcovers⟩
      rw [hget, Option.some.injEq, Json.obj.injEq] at hw
      subst hw
      exact ⟨waiver, if_pos hcovers⟩
  · rename_i hno
    constructor
    · rintro ⟨w, hw⟩
      exact absurd hw (by simp)
    · rintro ⟨w, hw, -⟩
      exact absurd hw (hno w)

end Revision

lemma fromIsoformat_eq_ok {text : String} {date : CalendarDate} :
    fromIsoformat text = .ok date ↔ parseIsoDate text = some date := by
  unfold fromIsoformat
  cases parseIsoDate text with
  | none => simp
  | some d => simp

omit [PyUnicode] in
lemma truthy_of_isIsoDate {d : Dict} {key s : String} (h : d.get? key = some (.str s))
    (hs : (parseIsoDate s).isSome = true) : (d.getD key .null).truthy = true := by
  have hne : s ≠ "" := by
    rintro rfl
    exact absurd hs (by decide)
  simp [Dict.getD, h, Json.truthy, hne]

/-- The loop over documents that have dates: it passes when all that are left are current and none
was stale before. -/
lemma reviewRevisions_pass_iff {event : Dict} {approvalDate : CalendarDate} {docs : List Dict}
    (hdates : ∀ doc ∈ docs, ∃ s, doc.get? "revision_date" = some (.str s) ∧
      (parseIsoDate s).isSome = true)
    {stale : List String} {evidence : List Citation} {f : Finding Citation}
    (h : reviewRevisions event approvalDate docs stale evidence = .ok f) :
    f.status = .pass ↔ stale = [] ∧ ∀ doc ∈ docs, RevisionCurrent event approvalDate doc := by
  induction docs generalizing stale evidence with
  | nil =>
      unfold reviewRevisions at h
      split_ifs at h with hstale
      · obtain rfl := Except.ok.inj h
        simp [hstale]
      · obtain rfl := Except.ok.inj h
        simpa using hstale
  | cons doc docs ih =>
      obtain ⟨⟨s, hget, hdate⟩, hrest⟩ := List.forall_mem_cons.mp hdates
      have htext := Dict.textAt_eq hget
      rw [List.forall_mem_cons]
      unfold reviewRevisions at h
      rw [if_neg (by rw [truthy_of_isIsoDate hget hdate]; decide)] at h
      simp only [bind_eq_ok, fromIsoformat_eq_ok] at h
      obtain ⟨date, hparse, h⟩ := h
      have hdateIff : (∃ d, parseIsoDate (doc.textAt "revision_date") = some d ∧
          approvalDate.order ≤ d.order) ↔ approvalDate.order ≤ date.order := by
        rw [hparse]
        simp
      split_ifs at h with hlt
      · cases hwaiver : validRevisionDateWaiver doc event approvalDate with
        | some waiver =>
            rw [hwaiver] at h
            have hcurrent : RevisionCurrent event approvalDate doc :=
              Or.inr (validRevisionDateWaiver_isSome.mp ⟨waiver, hwaiver⟩)
            rw [ih hrest h]
            simp [hcurrent]
        | none =>
            rw [hwaiver] at h
            have hstale : ¬RevisionCurrent event approvalDate doc := by
              rintro (hle | hcovered)
              · have := hdateIff.mp hle
                omega
              · obtain ⟨w, hw⟩ := validRevisionDateWaiver_isSome.mpr hcovered
                rw [hwaiver] at hw
                exact absurd hw (by simp)
            rw [ih hrest h]
            simp [hstale]
      · have hcurrent : RevisionCurrent event approvalDate doc :=
          Or.inl (hdateIff.mpr (by omega))
        rw [ih hrest h]
        simp [hcurrent]

/-- **R004.** -/
theorem ruleRevisionAfterApproval_pass_iff {case : Dict} {f : Finding Citation}
    (hcase : AcceptedCase case) (h : ruleRevisionAfterApproval case = .ok f) :
    f.status = .pass ↔ RevisionsCurrent case := by
  have hdates : ∀ doc ∈ approvedDocuments case, ∃ s, doc.get? "revision_date" = some (.str s) ∧
      (parseIsoDate s).isSome = true := fun doc hdoc =>
    (acceptedDocument_of_mem hcase (List.mem_filter.mp hdoc).1).date
  simp only [ruleRevisionAfterApproval] at h
  cases hget : (case.dictAt "event").get? "approved_at" with
  | none =>
      rw [if_pos (by rw [Dict.getD, hget]; rfl)] at h
      obtain rfl := Except.ok.inj h
      simp only [finding_status, reduceCtorEq, false_iff]
      rintro ⟨date, hdate, -⟩
      have hempty : (case.dictAt "event").textAt "approved_at" = "" := by
        simp [Dict.textAt, hget]
      rw [hempty] at hdate
      simp [parseIsoDate, datePattern] at hdate
  | some v =>
      obtain ⟨s, rfl, hs⟩ := hcase.acceptedEvent.approvedAt v hget
      rw [if_neg (by rw [truthy_of_isIsoDate hget hs]; decide)] at h
      simp only [bind_eq_ok, fromIsoformat_eq_ok] at h
      obtain ⟨approvalDate, hdate, h⟩ := h
      rw [reviewRevisions_pass_iff hdates h]
      unfold RevisionsCurrent
      simp only [true_and, hdate, Option.some.injEq, ↓existsAndEq, approvedDocuments,
        List.mem_filter, decide_eq_true_eq, and_imp]

/-! ## R007 -/

/-- The approvals of the event's current revision. -/
def currentApprovals (event : Dict) : List Dict :=
  (event.rowsAt "approvals").filter
    fun item => decide (item.get? "event_revision" = event.get? "revision")

/-- The decisions that stop a release. -/
def stoppingDecisions : List String := ["REJECTED", "CHANGES_REQUESTED"]

/-- What is cited of one approval. -/
def approvalExcerpt (item : Dict) : Json :=
  .obj (Dict.ofList
    (["role", "decision", "event_revision"].map fun key => (key, item.getD key .null)))

/-- R007 of a high-risk event that has approvals. -/
def reviewApprovals (event : Dict) : Finding Citation :=
  let current := currentApprovals event
  let evidence := [eventEvidence event "approvals" (.arr (current.map approvalExcerpt))]
  let missing := requiredRoles.filter fun role => !current.any fun item =>
    decide (item.textAt "decision" = "APPROVED" ∧ item.get? "role" = some (.str role))
  if current.any (fun item => decide (item.textAt "decision" ∈ stoppingDecisions)) = true then
    finding "QCI-R007" "高风险事件审批记录完整性" .contradicted
      "高风险事件当前版本存在驳回或要求修改的审批记录。" evidence "CRITICAL"
      "解决驳回/修改意见后，由必要角色重新审批当前事件版本。"
      ["当前事件版本不存在REJECTED或CHANGES_REQUESTED记录"]
  else if missing ≠ [] then
    finding "QCI-R007" "高风险事件审批记录完整性" .contradicted
      ("高风险事件缺少当前版本的必要合成角色记录：" ++ join ", " missing) evidence "CRITICAL"
      "补齐当前事件版本的角色记录；真实放行还需身份、签名和内容绑定系统。"
      ["质量负责人和工艺负责人角色记录均指向当前事件版本"]
  else
    finding "QCI-R007" "高风险事件审批记录完整性" .pass
      "当前合成数据中必要角色与事件版本记录齐全；本规则不验证真实身份、签名或文档快照。" evidence "LOW"

/-- `rule_high_risk_approval`. -/
def ruleHighRiskApproval (case : Dict) : Finding Citation :=
  let event := case.dictAt "event"
  let riskLevel := event.getD "risk_level" .null
  if event.textAt "risk_level" ∉ riskLevels then
    finding "QCI-R007" "高风险事件审批记录完整性" .unverifiable
      "事件缺少可验证的风险等级，不得按非高风险放行。" [eventEvidence event "risk_level" riskLevel]
      "CRITICAL" "补充经责任人确认的LOW/MEDIUM/HIGH风险等级。" ["风险等级存在且属于允许枚举"]
  else if event.textAt "risk_level" ≠ "HIGH" then
    finding "QCI-R007" "高风险事件审批记录完整性" .pass
      "事件不是高风险，无需检查高风险事件的合成角色与版本记录。"
      [eventEvidence event "risk_level" riskLevel] "LOW"
  else if (event.getD "approvals" .null).truthy = false then
    finding "QCI-R007" "高风险事件审批记录完整性" .contradicted
      "高风险事件没有合成审批角色与事件版本记录。"
      [eventEvidence event "approvals" (.str "EMPTY_OR_ABSENT")] "CRITICAL"
      "由质量负责人和工艺负责人完成批准或驳回。" ["质量负责人和工艺负责人均批准当前事件版本"]
  else reviewApprovals event

/-! ## When R007 passes -/

/-- What R007 asks of a high-risk event: at its current revision nobody has stopped it, and each
of the two roles has approved it. -/
structure ApprovedByRoles (event : Dict) : Prop where
  unstopped : ∀ item ∈ event.rowsAt "approvals", item.get? "event_revision" = event.get? "revision" →
    item.textAt "decision" ∉ stoppingDecisions
  approved : ∀ role ∈ requiredRoles, ∃ item ∈ event.rowsAt "approvals",
    item.get? "event_revision" = event.get? "revision" ∧ item.textAt "decision" = "APPROVED" ∧
      item.get? "role" = some (.str role)

omit [PyUnicode] in
lemma reviewApprovals_pass_iff {event : Dict} :
    (reviewApprovals event).status = .pass ↔ ApprovedByRoles event := by
  have hstopped : (currentApprovals event).any
      (fun item => decide (item.textAt "decision" ∈ stoppingDecisions)) = true ↔
      ¬∀ item ∈ event.rowsAt "approvals", item.get? "event_revision" = event.get? "revision" →
        item.textAt "decision" ∉ stoppingDecisions := by
    simp [currentApprovals]
  have hmissing : (requiredRoles.filter fun role => !(currentApprovals event).any fun item =>
      decide (item.textAt "decision" = "APPROVED" ∧ item.get? "role" = some (.str role))) = [] ↔
      ∀ role ∈ requiredRoles, ∃ item ∈ event.rowsAt "approvals",
        item.get? "event_revision" = event.get? "revision" ∧ item.textAt "decision" = "APPROVED" ∧
          item.get? "role" = some (.str role) := by
    simp [currentApprovals, List.filter_eq_nil_iff]
  simp only [reviewApprovals]
  split_ifs with hstop hmiss
  · simp only [finding_status, reduceCtorEq, false_iff]
    exact fun h => hstopped.mp hstop h.unstopped
  · simp only [finding_status, reduceCtorEq, false_iff]
    exact fun h => hmiss (hmissing.mpr h.approved)
  · simp only [finding_status, true_iff]
    exact ⟨not_not.mp fun h => hstop (hstopped.mpr h), hmissing.mp (not_not.mp hmiss)⟩

/-- **R007.** -/
theorem ruleHighRiskApproval_pass_iff {case : Dict} (hcase : AcceptedCase case) :
    (ruleHighRiskApproval case).status = .pass ↔
      ((case.dictAt "event").textAt "risk_level" = "HIGH" →
        ApprovedByRoles (case.dictAt "event")) := by
  have hlevel := hcase.acceptedEvent.riskLevel.2
  simp only [ruleHighRiskApproval]
  rw [if_neg (not_not.mpr hlevel)]
  split_ifs with hhigh hnone
  · simp [hhigh]
  · rw [not_not] at hhigh
    simp only [finding_status, reduceCtorEq, hhigh, forall_const, false_iff]
    intro happroved
    obtain ⟨item, hitem, -⟩ := happroved.approved "PROCESS_OWNER" (by decide)
    -- an empty or absent list has no members
    rcases hcase.acceptedEvent.approvals with habsent | ⟨hget, -⟩
    · rw [Dict.rowsAt_of_present?_none habsent] at hitem
      simp at hitem
    · rw [Dict.getD, hget, Option.getD_some] at hnone
      have hempty : (case.dictAt "event").rowsAt "approvals" = [] := by
        simpa [Json.truthy] using hnone
      rw [hempty] at hitem
      simp at hitem
  · rw [not_not] at hhigh
    rw [reviewApprovals_pass_iff]
    simp [hhigh]

end QualityCI

import QualityCI.Rules.Relations

/-!
# Attested references and validation evidence

The rules R005 and R006, which read a context built from raw bytes besides the case.  A sealed
context is a value of its structure; `none` stands for a context that is absent.

* `ReferenceContext`, `ValidationContext` — the sealed contexts.
* `ruleInspectionCurrentReferences` — the inspection record refers to the current documents.
* `ruleValidationEvidence` — the reports are those the event's plan requires.
* **`ruleInspectionCurrentReferences_pass_iff`**, **`ruleValidationEvidence_pass_iff`** — when they
  pass.
-/

namespace QualityCI

open Py

def rulesetVersion : String := "qci-rules-0.6.0"

/-! ## The contexts -/

/-- The exact identity of a controlled document. -/
structure ReferenceIdentity where
  documentType : String
  documentId : String
  revision : String
  sourceHash : String
  deriving DecidableEq

def ReferenceIdentity.toDict (identity : ReferenceIdentity) : Dict :=
  [("document_id", .str identity.documentId), ("document_type", .str identity.documentType),
   ("revision", .str identity.revision), ("source_hash", .str identity.sourceHash)]

/-- What a reference context has of the inspection record under one role. -/
structure SealedInspection where
  documentId : String
  revision : String
  sourceHash : String
  documentIdLocator : String
  revisionLocator : String

/-- A sealed `_ControlledReferenceContext`; references and evidence are in the order of their
roles. -/
structure ReferenceContext where
  contractVersion : String
  referenceSetHash : String
  inspectionDocumentId : String
  documents : List Dict
  references : List (String × ReferenceIdentity)
  evidence : List (String × SealedInspection)

/-- A report of a validation context. -/
structure ValidationReport where
  evidenceId : String
  evidenceType : String
  claim : String
  result : String
  eventId : String
  eventRevision : String
  scopeDigest : String
  caseSubjectHash : String
  issuerId : String
  issuerRole : String
  performedAt : String
  issuedAt : String
  rulesetVersion : String
  caseSchemaVersion : String
  locator : String
  sourceId : String
  sourceHash : String

/-- A sealed `_ValidationEvidenceContext`: no evidence has two reports. -/
structure ValidationContext where
  contractVersion : String
  evidenceSetHash : String
  caseSubjectHash : String
  scopeDigest : String
  reports : List ValidationReport
  distinct : (reports.map ValidationReport.evidenceId).Nodup

/-! ## R005 -/

/-- The roles of an inspection record's references. -/
def referenceRoles : List String := ["SOP", "CONTROL_PLAN"]

/-- A document's own identity. -/
def identityOf (doc : Dict) : ReferenceIdentity where
  documentType := doc.textAt "document_type"
  documentId := doc.textAt "document_id"
  revision := doc.textAt "revision"
  sourceHash := doc.textAt "source_hash"

/-- A revision artifact, if there is one, is that of the source bytes. -/
def isArtifactConsistent (target : Dict) : Bool :=
  match target.present? "revision_artifact" with
  | none => true
  | some (.obj artifact) =>
      decide (Dict.get? artifact "artifact_id" =
        some (.str ("sha256:" ++ target.textAt "source_hash")))
  | some _ => false

/-- The context was built from this inspection record. -/
def isSealedInspection (context : ReferenceContext) (inspection : Dict) : Bool :=
  match context.evidence with
  | [] => false
  | first :: _ =>
      decide (context.inspectionDocumentId = inspection.textAt "document_id" ∧
        first.2.revision = inspection.textAt "revision" ∧
        first.2.sourceHash = inspection.textAt "source_hash")

/-- The evidence of one role. -/
def referenceEvidence (context : ReferenceContext) (inspection references target : Dict)
    (role : String) : List Citation :=
  let identity := references.dictAt role
  let sealed := context.evidence.lookup role
  [documentEvidence inspection
      ((sealed.map SealedInspection.documentIdLocator).getD s!"fields.references.{role}.document_id")
      (identity.getD "document_id" .null),
   documentEvidence inspection
      ((sealed.map SealedInspection.revisionLocator).getD s!"fields.references.{role}.revision")
      (identity.getD "revision" .null),
   documentEvidence inspection s!"fields.references.{role}.source_hash"
      (identity.getD "source_hash" .null),
   documentEvidence target "document_id" (target.getD "document_id" .null),
   documentEvidence target "revision" (target.getD "revision" .null),
   documentEvidence target "source_hash" (target.getD "source_hash" .null)]

/-- The reference of a role is the sealed one and the current document's. -/
def isCurrentReference (context : ReferenceContext) (references target : Dict) (role : String) :
    Bool :=
  decide (references.get? role = (context.references.lookup role).map (fun i => .obj i.toDict) ∧
    references.get? role = some (.obj (identityOf target).toDict)) && isArtifactConsistent target

/-- The last stage of R005: the references against the context and the current documents. -/
def compareReferences (context : ReferenceContext) (inspection references sop control : Dict) :
    Finding Citation :=
  let extraRoles := references.keys.filter fun role => decide (role ∉ referenceRoles)
  let targets := [("SOP", sop), ("CONTROL_PLAN", control)]
  let evidence := targets.flatMap fun t =>
    referenceEvidence context inspection references t.2 t.1
  let mismatches :=
    (if isSealedInspection context inspection = true then [] else ["INSPECTION_RECORD"]) ++
    (if extraRoles = [] then [] else ["extra roles=" ++ join "," extraRoles]) ++
    (targets.filter fun t => !isCurrentReference context references t.2 t.1).map Prod.fst
  if mismatches ≠ [] then
    finding "QCI-R005" "检验记录引用当前版本" .contradicted
      ("检验记录受控引用身份不一致：" ++ join ", " mismatches ++ "。") evidence "HIGH"
      "更新检验记录的受控文件引用，并重新确认受影响检验结果。" ["检验记录仅引用当前批准版本"]
  else
    finding "QCI-R005" "检验记录引用当前版本" .pass
      "检验记录引用已由同次原始字节证明的当前SOP与控制计划身份。" evidence "LOW"

/-- R005 of an inspection record that lists references. -/
def reviewReferences (context : Option ReferenceContext)
    (inspection references sop control : Dict) : Finding Citation :=
  let missingRoles := ["CONTROL_PLAN", "SOP"].filter fun role => !references.contains role
  if references.keys = ["LEGACY_UNATTESTED"] then
    finding "QCI-R005" "检验记录引用当前版本" .unverifiable
      "LEGACY_UNATTESTED：旧引用仅声明revision，不能证明document/source identity。"
      [documentEvidence inspection "fields.references.LEGACY_UNATTESTED"
        (references.getD "LEGACY_UNATTESTED" .null)] "HIGH"
      "从同一受控原始工件包重建Inspection、SOP和Control Plan引用身份。"
      ["引用由sealed raw-byte ReferenceContext证明"]
  else if missingRoles ≠ [] then
    finding "QCI-R005" "检验记录引用当前版本" .unverifiable
      ("检验记录缺少必要受控引用：" ++ join ", " missingRoles)
      [documentEvidence inspection "fields.references" (.obj references)] "HIGH"
  else
    match context with
    | none =>
        finding "QCI-R005" "检验记录引用当前版本" .unverifiable
          "SEALED_REFERENCE_CONTEXT_MISSING：JSON字段或marker不能证明引用来自同次原始字节。"
          [documentEvidence inspection "fields.references" (.obj references)] "HIGH"
          "通过受限raw bundle入口重建引用上下文。"
          ["ReferenceContext由同一不可变bytes快照内部构造"]
    | some context => compareReferences context inspection references sop control

/-- `rule_inspection_current_references`. -/
def ruleInspectionCurrentReferences (case : Dict) (context : Option ReferenceContext) :
    Finding Citation :=
  match documentByType case "INSPECTION_RECORD", documentByType case "SOP",
    documentByType case "CONTROL_PLAN" with
  | some inspection, some sop, some control =>
      match (inspection.dictAt "fields").get? "references" with
      | some (.obj references) => reviewReferences context inspection references sop control
      | _ =>
          finding "QCI-R005" "检验记录引用当前版本" .unverifiable "检验记录缺少版本引用。"
            [documentEvidence inspection "fields.references" (.str "FIELD_ABSENT")] "HIGH"
  | _, _, _ =>
      finding "QCI-R005" "检验记录引用当前版本" .unverifiable "缺少检验记录、SOP或控制计划。"
        [documentTypesEvidence case]

/-! ## When R005 passes -/

/-- The inspection record refers to a document by the identity that the context has sealed and
that the document has now, and the document's artifact is that of its bytes. -/
structure RefersTo (context : ReferenceContext) (references : Dict) (role : String)
    (target : Dict) : Prop where
  current : references.get? role = some (.obj (identityOf target).toDict)
  attested : context.references.lookup role = some (identityOf target)
  artifact : target.present? "revision_artifact" = none ∨
    ∃ artifact : Dict, target.get? "revision_artifact" = some (.obj artifact) ∧
      artifact.get? "artifact_id" = some (.str ("sha256:" ++ target.textAt "source_hash"))

/-- What R005 asks of an inspection record. -/
structure ReferencesOf (context : ReferenceContext) (case inspection references : Dict) :
    Prop where
  attested : context.inspectionDocumentId = inspection.textAt "document_id" ∧
    ∃ first ∈ context.evidence.head?, first.2.revision = inspection.textAt "revision" ∧
      first.2.sourceHash = inspection.textAt "source_hash"
  roles : ∀ role ∈ references.keys, role ∈ referenceRoles
  refers : ∀ role ∈ referenceRoles, Approved case role (RefersTo context references role)

/-- What R005 asks of a case: a sealed context, and references that it bears out. -/
def ReferencesAttested (case : Dict) (context : Option ReferenceContext) : Prop :=
  ∃ sealed, context = some sealed ∧ Approved case "INSPECTION_RECORD" fun inspection =>
    ∃ references, (inspection.dictAt "fields").get? "references" = some (.obj references) ∧
      ReferencesOf sealed case inspection references

lemma ReferenceIdentity.toDict_injective {a b : ReferenceIdentity} (h : a.toDict = b.toDict) :
    a = b := by
  obtain ⟨t, i, r, s⟩ := a
  obtain ⟨t', i', r', s'⟩ := b
  simpa [ReferenceIdentity.toDict, and_assoc, and_left_comm, and_comm] using h

lemma isSealedInspection_iff {context : ReferenceContext} {inspection : Dict} :
    isSealedInspection context inspection = true ↔
      context.inspectionDocumentId = inspection.textAt "document_id" ∧
        ∃ first ∈ context.evidence.head?, first.2.revision = inspection.textAt "revision" ∧
          first.2.sourceHash = inspection.textAt "source_hash" := by
  unfold isSealedInspection
  cases context.evidence with
  | nil => simp
  | cons first rest => simp

lemma isArtifactConsistent_iff {target : Dict} :
    isArtifactConsistent target = true ↔ target.present? "revision_artifact" = none ∨
      ∃ artifact : Dict, target.get? "revision_artifact" = some (.obj artifact) ∧
        artifact.get? "artifact_id" = some (.str ("sha256:" ++ target.textAt "source_hash")) := by
  unfold isArtifactConsistent
  split
  · rename_i hnone
    simp [hnone]
  · rename_i artifact hsome
    have hget := (Dict.present?_eq_some.mp hsome).1
    simp [hsome, hget]
  · rename_i v hne hsome
    simp only [Bool.false_eq_true, hsome, reduceCtorEq, false_or, false_iff]
    rintro ⟨artifact, hget, -⟩
    rw [(Dict.present?_eq_some.mp hsome).1] at hget
    exact hne artifact (Option.some.inj hget)

lemma isCurrentReference_iff {context : ReferenceContext} {references target : Dict}
    {role : String} :
    isCurrentReference context references target role = true ↔
      RefersTo context references role target := by
  unfold isCurrentReference
  rw [Bool.and_eq_true, decide_eq_true_eq, isArtifactConsistent_iff]
  constructor
  · rintro ⟨⟨hsealed, hcurrent⟩, hartifact⟩
    refine ⟨hcurrent, ?_, hartifact⟩
    rw [hcurrent] at hsealed
    cases hl : context.references.lookup role with
    | none =>
        rw [hl] at hsealed
        exact absurd hsealed (by simp)
    | some identity =>
        rw [hl, Option.map_some, Option.some.injEq, Json.obj.injEq] at hsealed
        rw [ReferenceIdentity.toDict_injective hsealed]
  · intro h
    refine ⟨⟨?_, h.current⟩, h.artifact⟩
    rw [h.current, h.attested, Option.map_some]

lemma compareReferences_pass_iff {context : ReferenceContext}
    {inspection references sop control : Dict} :
    (compareReferences context inspection references sop control).status = .pass ↔
      isSealedInspection context inspection = true ∧
        (∀ role ∈ references.keys, role ∈ referenceRoles) ∧
        RefersTo context references "SOP" sop ∧
        RefersTo context references "CONTROL_PLAN" control := by
  have hextra : references.keys.filter (fun role => decide (role ∉ referenceRoles)) = [] ↔
      ∀ role ∈ references.keys, role ∈ referenceRoles := by
    simp [List.filter_eq_nil_iff]
  have htargets : ([("SOP", sop), ("CONTROL_PLAN", control)].filter fun t =>
      !isCurrentReference context references t.2 t.1) = [] ↔
      RefersTo context references "SOP" sop ∧
        RefersTo context references "CONTROL_PLAN" control := by
    rw [List.filter_eq_nil_iff]
    simp [isCurrentReference_iff]
  rw [← hextra, ← htargets]
  simp only [compareReferences]
  split_ifs with h1 h2 h3 <;> simp_all

/-- Both roles are listed when both refer to their documents. -/
lemma missingRoles_eq_nil {context : ReferenceContext} {references sop control : Dict}
    (hsop : RefersTo context references "SOP" sop)
    (hcontrol : RefersTo context references "CONTROL_PLAN" control) :
    (["CONTROL_PLAN", "SOP"].filter fun role => !references.contains role) = [] := by
  simp [Dict.contains, hsop.current, hcontrol.current]

lemma reviewReferences_pass_iff {context : Option ReferenceContext}
    {inspection references sop control : Dict} :
    (reviewReferences context inspection references sop control).status = .pass ↔
      ∃ sealed, context = some sealed ∧ isSealedInspection sealed inspection = true ∧
        (∀ role ∈ references.keys, role ∈ referenceRoles) ∧
        RefersTo sealed references "SOP" sop ∧
        RefersTo sealed references "CONTROL_PLAN" control := by
  simp only [reviewReferences]
  split_ifs with hlegacy hmissing
  · simp only [finding_status, reduceCtorEq, false_iff]
    rintro ⟨sealed, -, -, hroles, -⟩
    exact absurd (hroles "LEGACY_UNATTESTED" (by simp [hlegacy])) (by decide)
  · simp only [finding_status, reduceCtorEq, false_iff]
    rintro ⟨sealed, -, -, -, hsop, hcontrol⟩
    exact hmissing (missingRoles_eq_nil hsop hcontrol)
  · cases context with
    | none => simp
    | some sealed => simp only [compareReferences_pass_iff, Option.some.injEq, ↓existsAndEq,
        true_and]

lemma referencesOf_iff {context : ReferenceContext} {case inspection sop control references : Dict}
    (hsop : documentByType case "SOP" = some sop)
    (hcontrol : documentByType case "CONTROL_PLAN" = some control) :
    ReferencesOf context case inspection references ↔
      isSealedInspection context inspection = true ∧
        (∀ role ∈ references.keys, role ∈ referenceRoles) ∧
        RefersTo context references "SOP" sop ∧
        RefersTo context references "CONTROL_PLAN" control := by
  rw [isSealedInspection_iff]
  constructor
  · intro h
    exact ⟨h.attested, h.roles, (approved_iff hsop).mp (h.refers "SOP" (by decide)),
      (approved_iff hcontrol).mp (h.refers "CONTROL_PLAN" (by decide))⟩
  · rintro ⟨hattested, hroles, h1, h2⟩
    refine ⟨hattested, hroles, fun role hrole => ?_⟩
    simp only [referenceRoles, List.mem_cons, List.not_mem_nil, or_false] at hrole
    rcases hrole with rfl | rfl
    · exact ⟨sop, hsop, h1⟩
    · exact ⟨control, hcontrol, h2⟩

/-- **R005.** -/
theorem ruleInspectionCurrentReferences_pass_iff [PyUnicode] {case : Dict}
    {context : Option ReferenceContext} (hcase : AcceptedCase case) :
    (ruleInspectionCurrentReferences case context).status = .pass ↔
      ReferencesAttested case context := by
  obtain ⟨inspection, hinspection⟩ :=
    documentByType_accepted hcase (show "INSPECTION_RECORD" ∈ _ by decide)
  obtain ⟨sop, hsop⟩ := documentByType_accepted hcase (show "SOP" ∈ _ by decide)
  obtain ⟨control, hcontrol⟩ := documentByType_accepted hcase (show "CONTROL_PLAN" ∈ _ by decide)
  simp only [ruleInspectionCurrentReferences, hinspection, hsop, hcontrol, ReferencesAttested,
    approved_iff hinspection, referencesOf_iff hsop hcontrol]
  split
  · rename_i references hget
    rw [reviewReferences_pass_iff, hget]
    simp only [Option.some.injEq, Json.obj.injEq, ↓existsAndEq, true_and]
  · rename_i hno
    simp only [finding_status, reduceCtorEq, false_iff]
    rintro ⟨sealed, -, references, hget, -⟩
    exact hno references hget

/-! ## R006 -/

variable [PyUnicode]

/-- `datetime.fromisoformat(text[:-1] + "+00:00")` of a text in the contract's form. -/
def fromTimestamp (text : String) : Result ℕ :=
  match parseTimestamp text with
  | some moment => .ok (instantOrder moment)
  | none => valueError s!"Invalid isoformat string: {strRepr text}"

omit [PyUnicode] in
/-- What a report must agree with the plan and the event on, each with its code. -/
def reportComparisons (case event requirement : Dict) (context : ValidationContext)
    (report : ValidationReport) : List (String × Bool) :=
  [("RESULT_NOT_PASS", report.result = "PASS"),
   ("EVENT_ID_MISMATCH", report.eventId = event.textAt "event_id"),
   ("EVENT_REVISION_MISMATCH", report.eventRevision = event.textAt "revision"),
   ("SCOPE_DIGEST_MISMATCH", report.scopeDigest = context.scopeDigest),
   ("CASE_SUBJECT_MISMATCH", report.caseSubjectHash = context.caseSubjectHash),
   ("EVIDENCE_TYPE_MISMATCH", report.evidenceType = requirement.textAt "evidence_type"),
   ("CLAIM_MISMATCH", report.claim = requirement.textAt "claim"),
   ("ISSUER_ID_MISMATCH", report.issuerId = requirement.textAt "issuer_id"),
   ("ISSUER_ROLE_MISMATCH", report.issuerRole = requirement.textAt "issuer_role"),
   ("RULESET_VERSION_MISMATCH", report.rulesetVersion = rulesetVersion),
   ("CASE_SCHEMA_VERSION_MISMATCH", report.caseSchemaVersion = case.textAt "schema_version")]

omit [PyUnicode] in
/-- The evidence of one report. -/
def reportEvidence (event : Dict) (report : ValidationReport) : Citation where
  documentId := report.sourceId
  revision := event.textAt "revision"
  locator := report.locator
  excerpt := .obj (Dict.ofList
    [("evidence_id", .str report.evidenceId), ("result", .str report.result),
     ("event_id", .str report.eventId), ("event_revision", .str report.eventRevision),
     ("scope_digest", .str report.scopeDigest),
     ("case_subject_hash", .str report.caseSubjectHash), ("issuer_id", .str report.issuerId),
     ("issued_at", .str report.issuedAt)])
  sourceHash := report.sourceHash

/-- The codes of one report's mismatches. -/
def reportMismatches (case event requirement : Dict) (context : ValidationContext)
    (report : ValidationReport) : Result (List String) := do
  let codes := ((reportComparisons case event requirement context report).filter
    fun c => !c.2).map Prod.fst
  let performed ← fromTimestamp report.performedAt
  let issued ← fromTimestamp report.issuedAt
  let validFrom ← fromTimestamp (requirement.textAt "valid_from")
  let validUntil ← fromTimestamp (requirement.textAt "valid_until")
  if validFrom ≤ performed ∧ performed ≤ issued ∧ issued ≤ validUntil then .ok codes
  else .ok (codes ++ ["VALIDATION_TIME_WINDOW_MISMATCH"])

omit [PyUnicode] in
/-- The required evidence, the last of one identity winning, in the order of the identities. -/
def requirementsById (plan : Dict) : List (String × Dict) :=
  let rows := plan.rowsAt "required_evidence"
  (sortedSet (rows.map fun r => r.textAt "evidence_id")).filterMap fun id =>
    (rows.filter fun r => decide (r.textAt "evidence_id" = id)).getLast?.map fun r => (id, r)

omit [PyUnicode] in
/-- The required evidence that has a report, with it. -/
def reportedRequirements (plan : Dict) (context : ValidationContext) :
    List (Dict × ValidationReport) :=
  (requirementsById plan).filterMap fun r =>
    (context.reports.find? fun report => decide (report.evidenceId = r.1)).map
      fun report => (r.2, report)

omit [PyUnicode] in
/-- The code of reports that nothing requires. -/
def extraCodes (extra : List String) : List String :=
  if extra = [] then [] else ["EXTRA_VALIDATION_EVIDENCE:" ++ join "," extra]

/-- The last stage of R006: report by report. -/
def compareReports (case event plan : Dict) (context : ValidationContext) :
    Result (Finding Citation) := do
  let required := (plan.rowsAt "required_evidence").map fun r => r.textAt "evidence_id"
  let extra := (sortedSet (context.reports.map ValidationReport.evidenceId)).filter
    fun id => decide (id ∉ required)
  let pairs := reportedRequirements plan context
  let codes ← mapEach (fun p => reportMismatches case event p.1 context p.2) pairs
  let evidence := pairs.map fun p => reportEvidence event p.2
  let mismatches := extraCodes extra ++ codes.flatten
  if mismatches ≠ [] then
    .ok <| finding "QCI-R006" "事件有效性证据" .contradicted
      ("VALIDATION_CLAIM_MISMATCH: " ++ join ", " (sortedSet mismatches)) evidence "HIGH"
      "重新执行验证并从当前事件、范围与case主体生成原始报告。"
      ["required evidence exact set与当前subject逐字段一致"]
  else
    .ok <| finding "QCI-R006" "事件有效性证据" .pass
      "原始验证报告claim与当前event/scope/case/issuer/time计划逐项一致。" evidence "LOW"

/-- R006 of a case whose event has a plan. -/
def reviewReports (case event plan : Dict) (context : ValidationContext) :
    Result (Finding Citation) :=
  let required := sortedSet ((plan.rowsAt "required_evidence").map fun r => r.textAt "evidence_id")
  let missing := required.filter
    fun id => decide (id ∉ context.reports.map ValidationReport.evidenceId)
  if missing ≠ [] then
    .ok <| finding "QCI-R006" "事件有效性证据" .unverifiable
      ("REQUIRED_VALIDATION_EVIDENCE_MISSING: " ++ join ", " missing)
      [eventEvidence event "validation_plan.required_evidence" (textsJson missing)] "HIGH"
  else compareReports case event plan context

omit [PyUnicode] in
/-- The code of a case that has no validation context. -/
def contextRequiredCode (case : Dict) : String :=
  if (case.dictAt "validation_migration").get? "status" = some (.str "LEGACY_UNATTESTED") then
    "LEGACY_UNATTESTED/VALIDATION_CONTEXT_REQUIRED"
  else "VALIDATION_CONTEXT_REQUIRED"

/-- `rule_validation_evidence`. -/
def ruleValidationEvidence (case : Dict) (context : Option ValidationContext) :
    Result (Finding Citation) :=
  let event := case.dictAt "event"
  match context with
  | none =>
      let code := contextRequiredCode case
      .ok <| finding "QCI-R006" "事件有效性证据" .unverifiable
        s!"{code}: 未提供由原始验证报告字节构造的封闭证据上下文。"
        [eventEvidence event "validation_evidence" (.str code)] "HIGH"
        "提供SOURCE/RESOLVED阶段的原始验证报告包并重新绑定事件主体。"
        ["全部计划证据由原始字节重建并与当前主体一致"]
  | some context =>
      match event.get? "validation_plan" with
      | some (.obj plan) => reviewReports case event plan context
      | _ =>
          .ok <| finding "QCI-R006" "事件有效性证据" .unverifiable
            "VALIDATION_PLAN_REQUIRED: 当前事件没有原生v0.4验证计划。"
            [eventEvidence event "validation_plan" (.str "FIELD_ABSENT")] "HIGH"

/-! ## When R006 passes -/

omit [PyUnicode] in
/-- The times of a report lie in order inside the window of the requirement. -/
def InWindow (requirement : Dict) (report : ValidationReport) : Prop :=
  ∃ start performed issued stop,
    parseTimestamp (requirement.textAt "valid_from") = some start ∧
    parseTimestamp report.performedAt = some performed ∧
    parseTimestamp report.issuedAt = some issued ∧
    parseTimestamp (requirement.textAt "valid_until") = some stop ∧
    instantOrder start ≤ instantOrder performed ∧ instantOrder performed ≤ instantOrder issued ∧
    instantOrder issued ≤ instantOrder stop

omit [PyUnicode] in
/-- A report bears out a requirement: it passed, it is about this event, scope and case, it makes
the required claim, and its times fit. -/
structure Attests (case event requirement : Dict) (context : ValidationContext)
    (report : ValidationReport) : Prop where
  passed : report.result = "PASS"
  event : report.eventId = event.textAt "event_id" ∧
    report.eventRevision = event.textAt "revision"
  subject : report.scopeDigest = context.scopeDigest ∧
    report.caseSubjectHash = context.caseSubjectHash
  claim : report.evidenceType = requirement.textAt "evidence_type" ∧
    report.claim = requirement.textAt "claim"
  issuer : report.issuerId = requirement.textAt "issuer_id" ∧
    report.issuerRole = requirement.textAt "issuer_role"
  versions : report.rulesetVersion = rulesetVersion ∧
    report.caseSchemaVersion = case.textAt "schema_version"
  window : InWindow requirement report

omit [PyUnicode] in
/-- What R006 asks of a case: a sealed context whose reports are those of the plan. -/
def EvidenceAttested (case : Dict) (context : Option ValidationContext) : Prop :=
  ∃ sealed plan, context = some sealed ∧
    (case.dictAt "event").get? "validation_plan" = some (.obj plan) ∧
    (∀ report ∈ sealed.reports, ∃ requirement ∈ Dict.rowsAt plan "required_evidence",
      requirement.textAt "evidence_id" = report.evidenceId) ∧
    ∀ requirement ∈ Dict.rowsAt plan "required_evidence", ∃ report ∈ sealed.reports,
      report.evidenceId = requirement.textAt "evidence_id" ∧
        Attests case (case.dictAt "event") requirement sealed report

lemma fromTimestamp_eq_ok {text : String} {n : ℕ} :
    fromTimestamp text = .ok n ↔ ∃ moment, parseTimestamp text = some moment ∧
      instantOrder moment = n := by
  unfold fromTimestamp
  cases parseTimestamp text with
  | none => simp
  | some moment => simp

/-- A report compared without raising has no mismatch exactly when it bears the requirement out. -/
lemma reportMismatches_eq_nil {case event requirement : Dict} {context : ValidationContext}
    {report : ValidationReport} {codes : List String}
    (h : reportMismatches case event requirement context report = .ok codes) :
    codes = [] ↔ Attests case event requirement context report := by
  simp only [reportMismatches, bind_eq_ok, fromTimestamp_eq_ok] at h
  obtain ⟨_, ⟨performed, hp, rfl⟩, _, ⟨issued, hi, rfl⟩, _, ⟨start, hs, rfl⟩, _,
    ⟨stop, hu, rfl⟩, h⟩ := h
  have hcompare : ((reportComparisons case event requirement context report).filter
      fun c => !c.2).map Prod.fst = [] ↔
      (report.result = "PASS" ∧ report.eventId = event.textAt "event_id" ∧
        report.eventRevision = event.textAt "revision" ∧
        report.scopeDigest = context.scopeDigest ∧
        report.caseSubjectHash = context.caseSubjectHash ∧
        report.evidenceType = requirement.textAt "evidence_type" ∧
        report.claim = requirement.textAt "claim" ∧
        report.issuerId = requirement.textAt "issuer_id" ∧
        report.issuerRole = requirement.textAt "issuer_role" ∧
        report.rulesetVersion = rulesetVersion ∧
        report.caseSchemaVersion = case.textAt "schema_version") := by
    rw [List.map_eq_nil_iff, List.filter_eq_nil_iff]
    simp [reportComparisons]
  have hwindow : InWindow requirement report ↔ instantOrder start ≤ instantOrder performed ∧
      instantOrder performed ≤ instantOrder issued ∧ instantOrder issued ≤ instantOrder stop := by
    simp only [InWindow, hs, hp, hi, hu, Option.some.injEq, ↓existsAndEq, true_and]
  have hattests : Attests case event requirement context report ↔
      (((reportComparisons case event requirement context report).filter
        fun c => !c.2).map Prod.fst = [] ∧ InWindow requirement report) := by
    rw [hcompare]
    constructor
    · intro h
      exact ⟨⟨h.passed, h.event.1, h.event.2, h.subject.1, h.subject.2, h.claim.1, h.claim.2,
        h.issuer.1, h.issuer.2, h.versions.1, h.versions.2⟩, h.window⟩
    · rintro ⟨⟨h1, h2, h3, h4, h5, h6, h7, h8, h9, h10, h11⟩, hw⟩
      exact ⟨h1, ⟨h2, h3⟩, ⟨h4, h5⟩, ⟨h6, h7⟩, ⟨h8, h9⟩, ⟨h10, h11⟩, hw⟩
  rw [hattests, hwindow]
  split_ifs at h with hin
  · obtain rfl := Except.ok.inj h
    simp [hin]
  · obtain rfl := Except.ok.inj h
    simp [hin]

omit [PyUnicode] in
/-- Requirements with distinct identities are found under them. -/
lemma mem_requirementsById {plan : Dict}
    (hdistinct : ((plan.rowsAt "required_evidence").map fun r => r.textAt "evidence_id").Nodup)
    {p : String × Dict} :
    p ∈ requirementsById plan ↔
      p.2 ∈ plan.rowsAt "required_evidence" ∧ p.2.textAt "evidence_id" = p.1 := by
  have hsingle : ∀ r ∈ plan.rowsAt "required_evidence",
      ((plan.rowsAt "required_evidence").filter
        fun r' => decide (r'.textAt "evidence_id" = r.textAt "evidence_id")) = [r] := by
    intro r hr
    generalize plan.rowsAt "required_evidence" = rows at hdistinct hr
    induction rows with
    | nil => simp at hr
    | cons x xs ih =>
        rw [List.map_cons, List.nodup_cons] at hdistinct
        rcases List.mem_cons.mp hr with rfl | hin
        · have hnone : xs.filter (fun r' => decide (r'.textAt "evidence_id" =
              r.textAt "evidence_id")) = [] := by
            rw [List.filter_eq_nil_iff]
            intro y hy heq
            exact hdistinct.1 (List.mem_map.mpr ⟨y, hy, by simpa using heq⟩)
          rw [List.filter_cons_of_pos (by simp), hnone]
        · have hne : ¬x.textAt "evidence_id" = r.textAt "evidence_id" := fun heq =>
            hdistinct.1 (List.mem_map.mpr ⟨r, hin, heq.symm⟩)
          rw [List.filter_cons_of_neg (by simpa using hne)]
          exact ih hdistinct.2 hin
  obtain ⟨id, row⟩ := p
  simp only [requirementsById, List.mem_filterMap, mem_sortedSet, List.mem_map,
    Option.map_eq_some_iff, Prod.mk.injEq]
  constructor
  · rintro ⟨_, ⟨r, hr, rfl⟩, w, hw, rfl, rfl⟩
    rw [hsingle r hr] at hw
    obtain rfl := Option.some.inj hw
    exact ⟨hr, rfl⟩
  · rintro ⟨hr, rfl⟩
    refine ⟨_, ⟨row, hr, rfl⟩, row, ?_, rfl, rfl⟩
    rw [hsingle row hr]
    rfl

omit [PyUnicode] in
/-- A report of a context is found under its identity. -/
lemma find?_report {context : ValidationContext} {id : String} {report : ValidationReport} :
    context.reports.find? (fun r => decide (r.evidenceId = id)) = some report ↔
      report ∈ context.reports ∧ report.evidenceId = id := by
  have hdistinct := context.distinct
  constructor
  · intro h
    exact ⟨List.mem_of_find?_eq_some h, by simpa using List.find?_some h⟩
  · rintro ⟨hmem, rfl⟩
    generalize context.reports = reports at hdistinct hmem
    induction reports with
    | nil => simp at hmem
    | cons r rs ih =>
        rw [List.map_cons, List.nodup_cons] at hdistinct
        rcases List.mem_cons.mp hmem with rfl | hin
        · simp
        · have hne : ¬r.evidenceId = report.evidenceId := fun heq =>
            hdistinct.1 (List.mem_map.mpr ⟨report, hin, heq.symm⟩)
          rw [List.find?_cons_of_neg (by simpa using hne)]
          exact ih hdistinct.2 hin

lemma nodup_evidenceId {requirements : List Dict} (h : AreRequirements requirements) :
    (requirements.map fun r => r.textAt "evidence_id").Nodup := by
  have hdistinct := h.distinct
  rw [map_evidenceIdOf] at hdistinct
  exact hdistinct.of_map _

omit [PyUnicode] in
lemma extraCodes_eq_nil {extra : List String} : extraCodes extra = [] ↔ extra = [] := by
  unfold extraCodes
  split_ifs with h <;> simp [h]

/-- Every requirement has its report, no report is extra, and none mismatches. -/
lemma compareReports_pass_iff {case event plan : Dict} {context : ValidationContext}
    (hplan : IsPlan plan)
    (hmissing : ∀ r ∈ plan.rowsAt "required_evidence", r.textAt "evidence_id" ∈
      context.reports.map ValidationReport.evidenceId)
    {f : Finding Citation} (h : compareReports case event plan context = .ok f) :
    f.status = .pass ↔
      (∀ report ∈ context.reports, ∃ requirement ∈ plan.rowsAt "required_evidence",
        requirement.textAt "evidence_id" = report.evidenceId) ∧
      ∀ requirement ∈ plan.rowsAt "required_evidence", ∃ report ∈ context.reports,
        report.evidenceId = requirement.textAt "evidence_id" ∧
          Attests case event requirement context report := by
  simp only [compareReports, bind_eq_ok] at h
  obtain ⟨codes, hcodes, h⟩ := h
  have hdistinct := nodup_evidenceId hplan.evidence.2
  have hextra : (sortedSet (context.reports.map ValidationReport.evidenceId)).filter
      (fun id => decide (id ∉ (plan.rowsAt "required_evidence").map
        fun r => r.textAt "evidence_id")) = [] ↔
      ∀ report ∈ context.reports, ∃ requirement ∈ plan.rowsAt "required_evidence",
        requirement.textAt "evidence_id" = report.evidenceId := by
    simp [List.filter_eq_nil_iff]
  have hpairs : ∀ p : Dict × ValidationReport, p ∈ reportedRequirements plan context ↔
      p.1 ∈ plan.rowsAt "required_evidence" ∧ p.2 ∈ context.reports ∧
        p.2.evidenceId = p.1.textAt "evidence_id" := by
    rintro ⟨requirement, report⟩
    simp only [reportedRequirements, List.mem_filterMap, Option.map_eq_some_iff, Prod.mk.injEq,
      find?_report, mem_requirementsById hdistinct]
    constructor
    · rintro ⟨⟨id, r⟩, ⟨hr, hid⟩, w, ⟨hw, hwid⟩, rfl, rfl⟩
      exact ⟨hr, hw, hwid.trans hid.symm⟩
    · rintro ⟨hr, hw, hid⟩
      exact ⟨⟨_, requirement⟩, ⟨hr, rfl⟩, report, ⟨hw, hid⟩, rfl, rfl⟩
  have hflat : codes.flatten = [] ↔ ∀ p ∈ reportedRequirements plan context,
      Attests case event p.1 context p.2 := by
    rw [List.flatten_eq_nil_iff]
    constructor
    · intro hall p hp
      obtain ⟨c, hc, hpc⟩ := mapEach_mem hcodes hp
      exact (reportMismatches_eq_nil hpc).mp (hall c hc)
    · intro hall c hc
      obtain ⟨p, hp, hpc⟩ := mapEach_exists hcodes hc
      exact (reportMismatches_eq_nil hpc).mpr (hall p hp)
  have hattest : (∀ p ∈ reportedRequirements plan context, Attests case event p.1 context p.2) ↔
      ∀ requirement ∈ plan.rowsAt "required_evidence", ∃ report ∈ context.reports,
        report.evidenceId = requirement.textAt "evidence_id" ∧
          Attests case event requirement context report := by
    constructor
    · intro hall requirement hr
      obtain ⟨report, hreport, hid⟩ := List.mem_map.mp (hmissing requirement hr)
      exact ⟨report, hreport, hid, hall (requirement, report) ((hpairs _).mpr ⟨hr, hreport, hid⟩)⟩
    · rintro hall ⟨requirement, report⟩ hp
      obtain ⟨hr, hreport, hid⟩ := (hpairs _).mp hp
      obtain ⟨other, hother, hid', hattests⟩ := hall requirement hr
      have hsame : other = report := by
        have h1 := find?_report.mpr ⟨hother, hid'⟩
        rw [find?_report.mpr ⟨hreport, hid⟩] at h1
        exact (Option.some.inj h1).symm
      exact hsame ▸ hattests
  rw [← hextra, ← hattest, ← hflat, ← extraCodes_eq_nil, ← List.append_eq_nil_iff]
  split_ifs at h with hmis
  · obtain rfl := Except.ok.inj h
    simpa only [finding_status, reduceCtorEq, false_iff] using hmis
  · obtain rfl := Except.ok.inj h
    simpa only [finding_status, true_iff] using not_not.mp hmis

lemma isPlan_of_get? {case plan : Dict} (hcase : AcceptedCase case)
    (hget : (case.dictAt "event").get? "validation_plan" = some (.obj plan)) : IsPlan plan := by
  rcases hcase.acceptedEvent.plan with ⟨hnone, -⟩ | ⟨p, hp, hisPlan⟩
  · rcases Dict.present?_eq_none.mp hnone with h0 | h0 <;> simp [h0] at hget
  · rw [hget, Option.some.injEq, Json.obj.injEq] at hp
    exact hp ▸ hisPlan

/-- **R006.** -/
theorem ruleValidationEvidence_pass_iff {case : Dict} {context : Option ValidationContext}
    {f : Finding Citation} (hcase : AcceptedCase case)
    (h : ruleValidationEvidence case context = .ok f) :
    f.status = .pass ↔ EvidenceAttested case context := by
  unfold ruleValidationEvidence at h
  cases context with
  | none =>
      obtain rfl := Except.ok.inj h
      simp [EvidenceAttested]
  | some context =>
      simp only at h
      split at h
      · rename_i plan hget
        have hplan : IsPlan plan := isPlan_of_get? hcase hget
        have hsame : EvidenceAttested case (some context) ↔
            (∀ report ∈ context.reports, ∃ requirement ∈ Dict.rowsAt plan "required_evidence",
              requirement.textAt "evidence_id" = report.evidenceId) ∧
            ∀ requirement ∈ Dict.rowsAt plan "required_evidence", ∃ report ∈ context.reports,
              report.evidenceId = requirement.textAt "evidence_id" ∧
                Attests case (case.dictAt "event") requirement context report := by
          simp only [EvidenceAttested, hget, Option.some.injEq, Json.obj.injEq, ↓existsAndEq,
            true_and]
        rw [hsame]
        simp only [reviewReports] at h
        split_ifs at h with hmissing
        · obtain rfl := Except.ok.inj h
          simp only [finding_status, reduceCtorEq, false_iff]
          rintro ⟨-, hall⟩
          refine hmissing (List.filter_eq_nil_iff.mpr fun id hid => ?_)
          rw [mem_sortedSet, List.mem_map] at hid
          obtain ⟨r, hr, rfl⟩ := hid
          obtain ⟨report, hreport, heq, -⟩ := hall r hr
          simpa using ⟨report, hreport, heq⟩
        · rw [not_not, List.filter_eq_nil_iff] at hmissing
          refine compareReports_pass_iff hplan (fun r hr => ?_) h
          have := hmissing _ (mem_sortedSet.mpr (List.mem_map_of_mem hr))
          simpa using this
      · rename_i hno
        obtain rfl := Except.ok.inj h
        simp only [finding_status, reduceCtorEq, false_iff]
        rintro ⟨sealed, plan, -, hget, -⟩
        exact hno plan hget

end QualityCI

import QualityCI.Loader.Migrate

/-!
# Findings and the impact plan

What a rule reads besides the case, and what it returns.  A rule cites values of the case; a
citation becomes evidence when its excerpt is printed, which raises on a number that JSON does not
have.

* `CheckStatus`, `Citation`, `EvidenceRef`, `Finding` — the results of a rule.
* `Citation.print`, `Finding.print` — `_stable_excerpt` of every citation.
* `ImpactPlan`, `buildImpactPlan` — the scope of an event.
* **`buildImpactPlan_scope`** — the scope of an accepted event's plan.
-/

namespace QualityCI

open Py

/-! ## Findings -/

inductive CheckStatus
  | pass | contradicted | unverifiable
  deriving DecidableEq, Repr

/-- The string a status is. -/
def CheckStatus.text : CheckStatus → String
  | .pass => "PASS"
  | .contradicted => "CONTRADICTED"
  | .unverifiable => "UNVERIFIABLE"

/-- A piece of evidence before its excerpt is printed. -/
structure Citation where
  documentId : String
  revision : String
  locator : String
  excerpt : Json
  sourceHash : String := ""
  deriving DecidableEq

structure EvidenceRef where
  documentId : String
  revision : String
  locator : String
  excerpt : String
  sourceHash : String := ""
  deriving DecidableEq

/-- A finding, over the form of its evidence. -/
structure Finding (ε : Type) where
  ruleId : String
  title : String
  status : CheckStatus
  severity : String := "MEDIUM"
  summary : String
  evidence : List ε
  remediation : String := ""
  acceptanceConditions : List String := []
  deriving DecidableEq

/-- `_finding`. -/
def finding (ruleId title : String) (status : CheckStatus) (summary : String)
    (evidence : List Citation) (severity : String := "MEDIUM") (remediation : String := "")
    (acceptance : List String := []) : Finding Citation where
  ruleId := ruleId
  title := title
  status := status
  severity := severity
  summary := summary
  evidence := evidence
  remediation := remediation
  acceptanceConditions := acceptance

@[simp] lemma finding_status {ruleId title summary severity remediation : String}
    {status : CheckStatus} {evidence : List Citation} {acceptance : List String} :
    (finding ruleId title status summary evidence severity remediation acceptance).status =
      status := rfl

section Printing

variable [PyUnicode]

/-- `_stable_excerpt`. -/
def stableExcerpt : Json → Result String
  | .arr items => dumps (.arr items)
  | .obj entries => dumps (.obj entries)
  | v => .ok v.toStr

def Citation.print (citation : Citation) : Result EvidenceRef := do
  let excerpt ← stableExcerpt citation.excerpt
  .ok ⟨citation.documentId, citation.revision, citation.locator, excerpt, citation.sourceHash⟩

def Finding.print (finding : Finding Citation) : Result (Finding EvidenceRef) := do
  let evidence ← mapEach Citation.print finding.evidence
  .ok { finding with evidence := evidence }

lemma Finding.print_eq_ok {finding : Finding Citation} {printed : Finding EvidenceRef} :
    finding.print = .ok printed ↔
      ∃ evidence, mapEach Citation.print finding.evidence = .ok evidence ∧
        printed = { finding with evidence := evidence } := by
  simp only [Finding.print, bind_eq_ok, Except.ok.injEq]
  exact exists_congr fun _ => and_congr_right fun _ => eq_comm

lemma Finding.print_status {finding : Finding Citation} {printed : Finding EvidenceRef}
    (h : finding.print = .ok printed) : printed.status = finding.status := by
  obtain ⟨_, -, rfl⟩ := Finding.print_eq_ok.mp h
  rfl

end Printing

/-! ## Citations -/

/-- `_evidence`. -/
def documentEvidence (doc : Dict) (locator : String) (excerpt : Json) : Citation where
  documentId := doc.textAt "document_id"
  revision := doc.textAt "revision"
  locator := locator
  excerpt := excerpt
  sourceHash := doc.textAt "source_hash"

/-- `_event_evidence`. -/
def eventEvidence (event : Dict) (locator : String) (excerpt : Json) : Citation where
  documentId := "CHANGE_EVENT"
  revision := event.textAt "revision"
  locator := locator
  excerpt := excerpt

/-- `_case_evidence`. -/
def caseEvidence (locator : String) (excerpt : Json) : Citation where
  documentId := "CASE_INPUT"
  revision := "1"
  locator := locator
  excerpt := excerpt

/-- A list of strings as a value. -/
def textsJson (texts : List String) : Json := .arr (texts.map .str)

/-! ## The impact plan -/

structure ImpactPlan where
  eventId : String
  affectedProcessSteps : List String
  affectedCharacteristics : List String
  affectedLinks : List (String × String)
  requiredDocumentTypes : List String
  selectedRuleIds : List String
  reasoningPath : List String
  deriving DecidableEq

def ruleIds : List String :=
  ["QCI-R001", "QCI-R002", "QCI-R003", "QCI-R004", "QCI-R005", "QCI-R006", "QCI-R007"]

/-- `sorted(set(texts))`. -/
def sortedSet (texts : List String) : List String := KeySort.sortBy id texts.dedup

@[simp] lemma mem_sortedSet {texts : List String} {s : String} :
    s ∈ sortedSet texts ↔ s ∈ texts := by
  simp [sortedSet]

lemma sortedSet_eq_nil {texts : List String} : sortedSet texts = [] ↔ texts = [] := by
  simp only [List.eq_nil_iff_forall_not_mem, mem_sortedSet]

/-- A set's sorted list does not depend on the order of what was put in. -/
lemma sortedSet_eq_of_perm {texts texts' : List String} (h : texts.Perm texts') :
    sortedSet texts = sortedSet texts' := by
  refine KeySort.sortBy_eq_of_perm ?_ h.dedup
  rw [List.map_id]
  exact List.nodup_dedup texts

variable [PyUnicode]

/-- The pair of a link whose two ends are strings. -/
def linkPair : Json → Option (String × String)
  | .obj link =>
      match Dict.get? link "process_step_id", Dict.get? link "characteristic_id" with
      | some (.str step), some (.str characteristic) => some (step, characteristic)
      | _, _ => none
  | _ => none

/-- The normalized key of a pair. -/
def pairKey (pair : String × String) : String × String := relationshipKey pair.1 pair.2

/-- Pairs in the order of their normalized keys. -/
def sortPairs (pairs : List (String × String)) : List (String × String) :=
  KeySort.sortBy (fun pair => [(pairKey pair).1, (pairKey pair).2]) pairs

def pairLabel (pair : String × String) : String := s!"({pair.1}, {pair.2})"

/-- A joined list, or that there is none. -/
def listed (parts : List String) : String := if parts = [] then "未提供" else join ", " parts

def reasoningPath (event : Dict) (steps characteristics : List String)
    (links : List (String × String)) : List String :=
  ["事件 " ++ event.textAt "event_id" ++ " 类型为 " ++ event.textAt "event_type",
   s!"受影响工序：{listed steps}",
   s!"受影响特性：{listed characteristics}",
   "受影响关系：" ++ listed (links.map pairLabel),
   "工程变更触发流程、风险、控制、作业与检验五类文档回归"]

/-- `build_impact_plan(case)`; a null list of links is walked, and raises. -/
def buildImpactPlan (case : Dict) : Result ImpactPlan := do
  let event := case.dictAt "event"
  let steps := sortedSet (event.textsAt "affected_process_steps")
  let characteristics := sortedSet (event.textsAt "affected_characteristics")
  let items ← (event.getD "affected_links" (.arr [])).iterate
  let links := sortPairs (items.filterMap linkPair)
  .ok
    { eventId := event.textAt "event_id"
      affectedProcessSteps := steps
      affectedCharacteristics := characteristics
      affectedLinks := links
      requiredDocumentTypes := requiredDocumentTypes
      selectedRuleIds := ruleIds
      reasoningPath := reasoningPath event steps characteristics links }

/-- The pair a link row names, in raw spelling. -/
def rawPair (row : Dict) : String × String :=
  (row.textAt "process_step_id", row.textAt "characteristic_id")

lemma filterMap_linkPair {event : Dict} {rows : List Dict} (h : AreLinks event rows) :
    (rows.map Json.obj).filterMap linkPair = rows.map rawPair := by
  rw [List.filterMap_map]
  refine List.filterMap_eq_map_iff_forall_eq_some.mpr fun row hrow => ?_
  have hlink := h.each row hrow
  simp only [Function.comp_apply, linkPair, hlink.step.1, hlink.characteristic.1]
  rfl

/-- The pairs of the plan are those of the event's links, where it has a list of them. -/
lemma filterMap_links {case : Dict} (hcase : AcceptedCase case) {items : List Json}
    (hitems : ((case.dictAt "event").getD "affected_links" (.arr [])).iterate = .ok items) :
    items.filterMap linkPair = ((case.dictAt "event").rowsAt "affected_links").map rawPair := by
  rcases hcase.acceptedEvent.links with hnone | ⟨hget, hlinks⟩
  · rw [Dict.rowsAt_of_present?_none hnone]
    rcases Dict.present?_eq_none.mp hnone with habsent | hnull
    · rw [Dict.getD, habsent] at hitems
      obtain rfl := Except.ok.inj hitems
      rfl
    · rw [Dict.getD, hnull] at hitems
      exact absurd hitems typeError_ne_ok
  · rw [Dict.getD, hget] at hitems
    obtain rfl := Except.ok.inj hitems
    exact filterMap_linkPair hlinks

/-- **The scope of a plan**: the event's, sorted. -/
theorem buildImpactPlan_scope {case : Dict} {plan : ImpactPlan} (hcase : AcceptedCase case)
    (h : buildImpactPlan case = .ok plan) :
    plan.affectedProcessSteps =
      sortedSet ((case.dictAt "event").textsAt "affected_process_steps") ∧
    plan.affectedCharacteristics =
      sortedSet ((case.dictAt "event").textsAt "affected_characteristics") ∧
    plan.affectedLinks = sortPairs (((case.dictAt "event").rowsAt "affected_links").map rawPair) := by
  simp only [buildImpactPlan, bind_eq_ok, Except.ok.injEq] at h
  obtain ⟨items, hitems, rfl⟩ := h
  exact ⟨rfl, rfl, congrArg sortPairs (filterMap_links hcase hitems)⟩

end QualityCI

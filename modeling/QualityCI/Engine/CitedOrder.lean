import QualityCI.Engine.Citations

/-!
# What the order of a list shows in

Five of the seven rules cite rows in the order in which the case lists them.  For two aligned
cases this file says, rule by rule, at which stage the rule cites which list, and has the steps
that the rules share: the links, the unbound rows, and the rows of a pair or close to it.

* `CoverageAlike`, `SpecsAlike`, `SpecialsAlike`, `RevisionsAlike`, `ApprovalsAlike` — the lists
  that R001, R002, R003, R004 and R007 cite, and when.
* `Comparable`, `Paired` — two aligned accepted cases, and their approved documents of one type.
* **`Comparable.agree_unbound`** — the stage that cites unbound rows shows their order.
* **`Paired.missingRow_iff`**, **`Paired.risks_iff`** — the rows cited of a pair show theirs.
-/

namespace QualityCI

open Py

/-! ## Lists in one order -/

/-- The approved documents of a type in the two cases are related. -/
def BothApproved (a b : Dict) (documentType : String) (R : Dict → Dict → Prop) : Prop :=
  ∀ x y, documentByType a documentType = some x → documentByType b documentType = some y → R x y

lemma bothApproved_iff {a b x y : Dict} {documentType : String} {R : Dict → Dict → Prop}
    (hx : documentByType a documentType = some x) (hy : documentByType b documentType = some y) :
    BothApproved a b documentType R ↔ R x y := by
  constructor
  · intro h
    exact h x y hx hy
  · intro h x' y' hx' hy'
    rw [hx] at hx'
    rw [hy] at hy'
    exact Option.some.inj hx' ▸ Option.some.inj hy' ▸ h

/-- The documents' types come in one order. -/
def SameTypes (a b : Dict) : Prop :=
  (documentsOf a).map (fun doc => doc.textAt "document_type") =
    (documentsOf b).map fun doc => doc.textAt "document_type"

/-- The event's links come in one order. -/
def SameLinks (a b : Dict) : Prop :=
  (a.dictAt "event").get? "affected_links" = (b.dictAt "event").get? "affected_links"

/-- The rows that lack a key. -/
def unboundRows (doc : Dict) (collection : String) : List Dict :=
  (fieldRows doc collection).filter fun row => decide (missingBindings doc collection row ≠ [])

/-- What a rule shows of a row that lacks a key. -/
def unboundSignature (doc : Dict) (collection : String) (row : Dict) :
    String × List String × Json × Json :=
  (locatorOf row s!"fields.{collection}", missingBindings doc collection row,
    row.getD "characteristic_id" .null, row.getD "failure_mode_id" .null)

/-- The rows that lack a key look alike, one after the other. -/
def SameUnbound (a b : Dict) (documentType collection : String) : Prop :=
  a.contains "relationship_migration" = true → BothApproved a b documentType fun x y =>
    (unboundRows x collection).map (unboundSignature x collection) =
      (unboundRows y collection).map (unboundSignature y collection)

section Order

variable [PyUnicode]

/-- The rows of the pair come in one order. -/
def SameRows (a b : Dict) (documentType collection : String) (key : String × String) : Prop :=
  BothApproved a b documentType fun x y =>
    rowsOfPair (fieldRows x collection) key = rowsOfPair (fieldRows y collection) key

/-- Where no row has the pair, the rows close to it come in one order. -/
def SameCandidates (a b : Dict) (documentType collection : String) (key : String × String) :
    Prop :=
  BothApproved a b documentType fun x y => rowsOfPair (fieldRows x collection) key = [] →
    relationshipCandidates (fieldRows x collection) key =
      relationshipCandidates (fieldRows y collection) key

/-- The event names steps, and the three documents of R001 list them all. -/
def StepsListed (case : Dict) : Prop :=
  (case.dictAt "event").textsAt "affected_process_steps" ≠ [] ∧
    ∀ step ∈ (case.dictAt "event").textsAt "affected_process_steps",
      ∀ documentType ∈ ["PROCESS_FLOW", "PFMEA", "CONTROL_PLAN"], ListsStep case documentType step

/-- The rows that R001 and R003 read name their steps. -/
def RiskRowsBound (case : Dict) : Prop :=
  RowsBound case "PFMEA" "risks" ∧ RowsBound case "CONTROL_PLAN" "characteristics"

/-- The links of the case's event. -/
def linksOf (case : Dict) : List Dict := (case.dictAt "event").rowsAt "affected_links"

/-- The order that R001 shows. -/
structure CoverageAlike (a b : Dict) : Prop where
  unlisted : (a.dictAt "event").textsAt "affected_process_steps" = [] → SameTypes a b
  unlinked : StepsListed a → ¬ScopeLinked (a.dictAt "event") → SameLinks a b
  unbound : StepsListed a → ScopeLinked (a.dictAt "event") →
    SameUnbound a b "PFMEA" "risks" ∧ SameUnbound a b "CONTROL_PLAN" "characteristics"
  related : StepsListed a → ScopeLinked (a.dictAt "event") → RiskRowsBound a →
    ∀ link ∈ linksOf a, SameRows a b "PFMEA" "risks" (pairOf link) ∧
      SameCandidates a b "PFMEA" "risks" (pairOf link) ∧
      SameCandidates a b "CONTROL_PLAN" "characteristics" (pairOf link)

/-- The order that R002 shows. -/
structure SpecsAlike (a b : Dict) : Prop where
  unlisted : (a.dictAt "event").textsAt "affected_characteristics" = [] → SameTypes a b
  unlinked : (a.dictAt "event").textsAt "affected_characteristics" ≠ [] →
    ¬ScopeLinked (a.dictAt "event") → SameLinks a b
  unbound : (a.dictAt "event").textsAt "affected_characteristics" ≠ [] →
    ScopeLinked (a.dictAt "event") → ∀ documentType ∈ specDocumentTypes,
      SameUnbound a b documentType "characteristics"
  read : (a.dictAt "event").textsAt "affected_characteristics" ≠ [] →
    ScopeLinked (a.dictAt "event") →
    (∀ documentType ∈ specDocumentTypes, RowsBound a documentType "characteristics") →
    ∀ link ∈ linksOf a, ∀ documentType ∈ specDocumentTypes,
      SameCandidates a b documentType "characteristics" (pairOf link)

/-- The order that R003 shows. -/
structure SpecialsAlike (a b : Dict) : Prop where
  unlinked : ¬ScopeLinked (a.dictAt "event") → SameLinks a b
  unbound : ScopeLinked (a.dictAt "event") →
    SameUnbound a b "PFMEA" "risks" ∧ SameUnbound a b "CONTROL_PLAN" "characteristics"
  missing : ScopeLinked (a.dictAt "event") → RiskRowsBound a →
    ∀ link ∈ linksOf a, SameCandidates a b "PFMEA" "risks" (pairOf link)
  controlled : ScopeLinked (a.dictAt "event") → RiskRowsBound a →
    (∀ link ∈ linksOf a, HasRisk a (pairOf link)) →
    ∀ link ∈ linksOf a, SameRows a b "PFMEA" "risks" (pairOf link) ∧
      (SpecialPair a (pairOf link) →
        SameCandidates a b "CONTROL_PLAN" "characteristics" (pairOf link))

/-- The order that R004 shows: with an approval date, that of the approved documents. -/
def RevisionsAlike (a b : Dict) : Prop :=
  (a.dictAt "event").contains "approved_at" = true →
    (approvedDocuments a).map (fun doc => doc.textAt "document_id") =
      (approvedDocuments b).map fun doc => doc.textAt "document_id"

/-- The order that R007 shows: at high risk, that of the decisions on the current revision. -/
def ApprovalsAlike (a b : Dict) : Prop :=
  (a.dictAt "event").textAt "risk_level" = "HIGH" →
    (currentApprovals (a.dictAt "event")).map (fun item =>
        (item.textAt "role", item.textAt "decision")) =
      (currentApprovals (b.dictAt "event")).map fun item =>
        (item.textAt "role", item.textAt "decision")

/-- Two accepted cases that differ only in the order of lists, and the plan they share. -/
structure Comparable (a b : Dict) (plan : ImpactPlan) : Prop where
  left : AcceptedCase a
  right : AcceptedCase b
  leftWF : (Json.obj a).WF
  rightWF : (Json.obj b).WF
  aligned : Aligned a b
  planned : buildImpactPlan a = .ok plan

end Order

/-! ## Rows that lack a key -/

lemma textsJson_inj {texts texts' : List String} :
    textsJson texts = textsJson texts' ↔ texts = texts' := by
  rw [textsJson, textsJson, Json.arr.injEq,
    (List.map_injective_iff.mpr fun _ _ => Json.str.inj).eq_iff]

lemma unboundEvidence_eq_iff {doc row row' : Dict} {collection : String} :
    unboundEvidence doc collection row = unboundEvidence doc collection row' ↔
      unboundSignature doc collection row = unboundSignature doc collection row' := by
  simp only [unboundSignature, Prod.mk.injEq]
  constructor
  · intro h
    have hlocator : locatorOf row s!"fields.{collection}" = locatorOf row' s!"fields.{collection}" :=
      congrArg Citation.locator h
    have hexcerpt := Json.obj.inj (congrArg Citation.excerpt h)
    have hget := fun key => congrArg (fun d : Dict => d.get? key) hexcerpt
    have hmissing := hget "missing"
    have hcharacteristic := hget "characteristic_id"
    have hmode := hget "failure_mode_id"
    simp only [Dict.ofList, List.foldl_cons, List.foldl_nil, Dict.get?_set, Option.some.injEq,
      String.reduceEq, ↓reduceIte, textsJson_inj] at hmissing hcharacteristic hmode
    exact ⟨hlocator, hmissing, hcharacteristic, hmode⟩
  · rintro ⟨h1, h2, h3, h4⟩
    simp only [unboundEvidence, h1, h2, h3, h4]

lemma legacyUnboundEvidence_eq {case : Dict} {documents : List (Dict × String)} :
    legacyUnboundEvidence case documents =
      if case.contains "relationship_migration" = true then
        documents.flatMap fun d => (unboundRows d.1 d.2).map (unboundEvidence d.1 d.2)
      else [] := rfl

/-- Documents that a rule searches for unbound rows, paired with the other case's. -/
def SearchedAlike (d d' : Dict × String) : Prop :=
  AlignedDocument d.1 d'.1 ∧ d.2 = d'.2 ∧ (d.2 = "characteristics" ∨ d.2 = "risks")

lemma SearchedAlike.unboundRows_perm {d d' : Dict × String} (h : SearchedAlike d d') :
    (unboundRows d.1 d.2).Perm (unboundRows d'.1 d'.2) := by
  obtain ⟨hdoc, hc, hcollection⟩ := h
  rw [← hc]
  unfold unboundRows
  rw [hdoc.missingBindings]
  exact (hdoc.rows hcollection).filter _

lemma searched_length {documents documents' : List (Dict × String)}
    (hdocs : List.Forall₂ SearchedAlike documents documents') :
    List.Forall₂ (fun d d' : Dict × String =>
      ((unboundRows d.1 d.2).map (unboundEvidence d.1 d.2)).length =
        ((unboundRows d'.1 d'.2).map (unboundEvidence d'.1 d'.2)).length) documents documents' :=
  hdocs.imp fun d d' hd => by
    rw [List.length_map, List.length_map, hd.unboundRows_perm.length_eq]

/-- Aligned cases have equally many unbound rows. -/
lemma length_legacyUnboundEvidence {a b : Dict} (h : Aligned a b)
    {documents documents' : List (Dict × String)}
    (hdocs : List.Forall₂ SearchedAlike documents documents') :
    (legacyUnboundEvidence a documents).length = (legacyUnboundEvidence b documents').length := by
  have hcontains : b.contains "relationship_migration" = a.contains "relationship_migration" := by
    rw [Dict.contains, Dict.contains, h.entry "relationship_migration" (by decide)]
  rw [legacyUnboundEvidence_eq, legacyUnboundEvidence_eq, hcontains]
  split_ifs
  · exact length_flatMap_eq (searched_length hdocs)
  · rfl

/-- The unbound rows are cited alike exactly when they look alike, document by document. -/
lemma legacyUnboundEvidence_eq_iff {a b : Dict} (h : Aligned a b)
    {documents documents' : List (Dict × String)}
    (hdocs : List.Forall₂ SearchedAlike documents documents') :
    legacyUnboundEvidence a documents = legacyUnboundEvidence b documents' ↔
      (a.contains "relationship_migration" = true →
        List.Forall₂ (fun d d' => (unboundRows d.1 d.2).map (unboundSignature d.1 d.2) =
          (unboundRows d'.1 d'.2).map (unboundSignature d'.1 d'.2)) documents documents') := by
  have hcontains : b.contains "relationship_migration" = a.contains "relationship_migration" := by
    rw [Dict.contains, Dict.contains, h.entry "relationship_migration" (by decide)]
  rw [legacyUnboundEvidence_eq, legacyUnboundEvidence_eq, hcontains]
  split_ifs with hm
  · have hlen := searched_length hdocs
    rw [flatMap_eq_iff hlen]
    simp only [hm, forall_const]
    have hsame : ∀ d d', SearchedAlike d d' →
        ((unboundRows d.1 d.2).map (unboundEvidence d.1 d.2) =
          (unboundRows d'.1 d'.2).map (unboundEvidence d'.1 d'.2) ↔
        (unboundRows d.1 d.2).map (unboundSignature d.1 d.2) =
          (unboundRows d'.1 d'.2).map (unboundSignature d'.1 d'.2)) := by
      rintro ⟨x, c⟩ ⟨y, c'⟩ ⟨hdoc, hc, -⟩
      obtain rfl : c = c' := hc
      have hsignature : unboundSignature x c = unboundSignature y c := by
        funext row
        rw [unboundSignature, unboundSignature, hdoc.missingBindings]
      rw [← hsignature, ← hdoc.unboundEvidence]
      exact map_eq_map_iff_of_same fun row _ row' _ => unboundEvidence_eq_iff
    exact forall₂_iff_of_forall₂ hdocs hsame
  · simp [hm]

/-- Every citation of an unbound row is structured. -/
lemma structured_legacyUnbound {case : Dict} {documents : List (Dict × String)}
    (hwf : ∀ d ∈ documents, (Json.obj d.1).WF) :
    ∀ c ∈ legacyUnboundEvidence case documents, c.Structured := by
  intro c hc
  rw [legacyUnboundEvidence_eq] at hc
  split_ifs at hc
  · obtain ⟨d, hd, hcd⟩ := List.mem_flatMap.mp hc
    obtain ⟨row, hrow, rfl⟩ := List.mem_map.mp hcd
    exact structured_unbound (fieldRows_wf (hwf d hd) (List.mem_filter.mp hrow).1)
  · exact absurd hc List.not_mem_nil

/-! ## The documents of two comparable cases -/

section Documents

variable [PyUnicode] {a b : Dict} {plan : ImpactPlan}

/-- The approved documents of one type in the two cases. -/
structure Paired (a b : Dict) (documentType : String) (x y : Dict) : Prop where
  left : documentByType a documentType = some x
  right : documentByType b documentType = some y
  aligned : AlignedDocument x y
  accepted : ∃ migrated referenceMigration, AcceptedDocument migrated referenceMigration x
  leftWF : (Json.obj x).WF
  rightWF : (Json.obj y).WF

lemma Comparable.paired (h : Comparable a b plan) {documentType : String}
    (htype : documentType ∈ requiredDocumentTypes) :
    ∃ x y, Paired a b documentType x y := by
  obtain ⟨x, hx⟩ := documentByType_accepted h.left htype
  obtain ⟨y, hy, hxy⟩ := h.aligned.documentByType hx
  have hmem := (documentByType_mem hx).1
  exact ⟨x, y, hx, hy, hxy, ⟨_, _, acceptedDocument_of_mem h.left hmem⟩,
    rowsAt_wf h.leftWF hmem, rowsAt_wf h.rightWF (documentByType_mem hy).1⟩

lemma Comparable.plan_scope (h : Comparable a b plan) :
    scopeRelationshipsComplete plan = true ↔ ScopeLinked (a.dictAt "event") :=
  scopeRelationshipsComplete_iff h.left h.planned

lemma Comparable.plan_links (h : Comparable a b plan) {P : String × String → Prop} :
    (∀ pair ∈ plan.affectedLinks, P (pairKey pair)) ↔ ∀ link ∈ linksOf a, P (pairOf link) :=
  forall_affectedLinks h.left h.planned

/-- The order of the links shows where they are cited. -/
lemma Comparable.linksEvidence_iff (h : Comparable a b plan) :
    linksEvidence (a.dictAt "event") = linksEvidence (b.dictAt "event") ↔ SameLinks a b := by
  unfold linksEvidence SameLinks
  rw [h.aligned.eventEvidence]
  constructor
  · intro heq
    have hexcerpt := congrArg Citation.excerpt heq
    change (a.dictAt "event").getD _ _ = (b.dictAt "event").getD _ _ at hexcerpt
    rcases h.aligned.event.lists "affected_links" (by decide) with hsame | ⟨xs, ys, hx, hy, -⟩
    · exact hsame
    · rw [Dict.getD, Dict.getD, hx, hy] at hexcerpt
      rw [hx, hy]
      exact congrArg some hexcerpt
  · intro heq
    rw [Dict.getD, Dict.getD, heq]

/-- A finding that cites only the links. -/
lemma Comparable.agree_links (h : Comparable a b plan)
    {ruleId title summary severity remediation : String} {status : CheckStatus}
    {acceptance : List String}
    (hprints : ∃ p, printRule (.ok (finding ruleId title status summary
      [linksEvidence (a.dictAt "event")] severity remediation acceptance)) = .ok p) :
    Agree printRule
      (.ok (finding ruleId title status summary [linksEvidence (a.dictAt "event")] severity
        remediation acceptance))
      (.ok (finding ruleId title status summary [linksEvidence (b.dictAt "event")] severity
        remediation acceptance)) ↔ SameLinks a b := by
  rw [← h.linksEvidence_iff]
  rcases h.aligned.event.lists "affected_links" (by decide) with hsame | ⟨xs, ys, hx, hy, -⟩
  · have heq := h.linksEvidence_iff.mpr hsame
    rw [heq] at hprints ⊢
    exact ⟨fun _ => rfl, fun _ => agree_of_eq rfl hprints⟩
  · have hstructured : ∀ {d : Dict} {items : List Json}, (Json.obj d).WF →
        d.get? "affected_links" = some (.arr items) → (linksEvidence d).Structured := by
      intro d items hwf hget
      have hexcerpt : (linksEvidence d).excerpt = .arr items := by
        show d.getD _ _ = _
        rw [Dict.getD, hget]
        rfl
      exact structured_of_arr hexcerpt (hwf.get? hget)
    rw [agree_printRule_finding hprints
      (by simpa using hstructured (dictAt_wf h.leftWF _) hx)
      (by simpa using hstructured (dictAt_wf h.rightWF _) hy)]
    simp

omit [PyUnicode] in
lemma documentTypesEvidence_iff :
    documentTypesEvidence a = documentTypesEvidence b ↔ SameTypes a b := by
  simp only [documentTypesEvidence, caseEvidence, Citation.mk.injEq, textsJson_inj, true_and,
    and_true]
  rfl

lemma Paired.risksAndControls {p p' c c' : Dict} (hp : Paired a b "PFMEA" p p')
    (hc : Paired a b "CONTROL_PLAN" c c') :
    List.Forall₂ SearchedAlike [(p, "risks"), (c, "characteristics")]
      [(p', "risks"), (c', "characteristics")] :=
  .cons ⟨hp.aligned, rfl, Or.inr rfl⟩ (.cons ⟨hc.aligned, rfl, Or.inl rfl⟩ .nil)

/-- The unbound rows that R001 and R003 cite. -/
lemma Comparable.unboundRisks_iff (h : Comparable a b plan) {p p' c c' : Dict}
    (hp : Paired a b "PFMEA" p p') (hc : Paired a b "CONTROL_PLAN" c c') :
    legacyUnboundEvidence a [(p, "risks"), (c, "characteristics")] =
      legacyUnboundEvidence b [(p', "risks"), (c', "characteristics")] ↔
      SameUnbound a b "PFMEA" "risks" ∧ SameUnbound a b "CONTROL_PLAN" "characteristics" := by
  rw [legacyUnboundEvidence_eq_iff h.aligned (hp.risksAndControls hc)]
  simp only [SameUnbound, bothApproved_iff hp.left hp.right, bothApproved_iff hc.left hc.right,
    List.forall₂_cons, List.forall₂_nil_left_iff, and_true]
  exact forall_and

/-- The stage of a rule that cites the unbound rows, and otherwise goes on. -/
lemma Comparable.agree_unbound (h : Comparable a b plan)
    {documents documents' : List (Dict × String)}
    (hdocs : List.Forall₂ SearchedAlike documents documents')
    (hwf : ∀ d ∈ documents, (Json.obj d.1).WF) (hwf' : ∀ d ∈ documents', (Json.obj d.1).WF)
    {ruleId title summary severity remediation : String} {status : CheckStatus}
    {acceptance : List String} {rest rest' : Finding Citation}
    (hprints : ∃ f, printRule (.ok (match legacyUnboundEvidence a documents with
      | [] => rest
      | unbound => finding ruleId title status summary unbound severity remediation
          acceptance)) = .ok f) :
    Agree printRule
      (.ok (match legacyUnboundEvidence a documents with
        | [] => rest
        | unbound => finding ruleId title status summary unbound severity remediation acceptance))
      (.ok (match legacyUnboundEvidence b documents' with
        | [] => rest'
        | unbound => finding ruleId title status summary unbound severity remediation
            acceptance)) ↔
      legacyUnboundEvidence a documents = legacyUnboundEvidence b documents' ∧
        (legacyUnboundEvidence a documents = [] → Agree printRule (.ok rest) (.ok rest')) := by
  have hlength := length_legacyUnboundEvidence h.aligned hdocs
  have hstructured := @structured_legacyUnbound a _ hwf
  have hstructured' := @structured_legacyUnbound b _ hwf'
  cases hunbound : legacyUnboundEvidence a documents with
  | nil =>
      rw [hunbound] at hlength
      rw [List.eq_nil_of_length_eq_zero hlength.symm]
      simp only [true_and, forall_const]
  | cons e es =>
      rw [hunbound] at hlength hprints hstructured
      cases hunbound' : legacyUnboundEvidence b documents' with
      | nil =>
          rw [hunbound'] at hlength
          exact absurd hlength (by simp)
      | cons e' es' =>
          rw [hunbound'] at hstructured'
          rw [agree_printRule_finding hprints hstructured hstructured']
          exact ⟨fun heq => ⟨heq, fun hnil => absurd hnil (by simp)⟩, And.left⟩

/-- Without unbound rows the rule goes on. -/
lemma prints_rest {documents : List (Dict × String)}
    {ruleId title summary severity remediation : String} {status : CheckStatus}
    {acceptance : List String} {rest : Finding Citation}
    (hprints : ∃ f, printRule (.ok (match legacyUnboundEvidence a documents with
      | [] => rest
      | unbound => finding ruleId title status summary unbound severity remediation
          acceptance)) = .ok f) (hnil : legacyUnboundEvidence a documents = []) :
    ∃ f, printRule (.ok rest) = .ok f := by
  rw [hnil] at hprints
  exact hprints

/-! ### Rows of a pair -/

variable {documentType collection : String} {x y : Dict}

/-- What a rule cites of a pair that has no row. -/
def missingRowEvidence (doc : Dict) (collection : String) (pair : String × String) :
    List Citation :=
  missingRelationshipEvidence doc collection pair ::
    (relationshipCandidates (fieldRows doc collection) (pairKey pair)).map
      (relationshipEvidence doc)

lemma Paired.missingRow_length (h : Paired a b documentType x y)
    (hc : collection = "characteristics" ∨ collection = "risks") (pair : String × String) :
    (missingRowEvidence x collection pair).length =
      (missingRowEvidence y collection pair).length := by
  simp only [missingRowEvidence, List.length_cons, List.length_map,
    length_relationshipCandidates (h.aligned.rows hc)]

/-- The rows close to a pair are cited in one order exactly when they come in one order. -/
lemma Paired.missingRow_iff (h : Paired a b documentType x y)
    (hc : collection = "characteristics" ∨ collection = "risks") {pair : String × String}
    (hnone : rowsOfPair (fieldRows x collection) (pairKey pair) = []) :
    missingRowEvidence x collection pair = missingRowEvidence y collection pair ↔
      SameCandidates a b documentType collection (pairKey pair) := by
  obtain ⟨_, _, hx⟩ := h.accepted
  rw [SameCandidates, bothApproved_iff h.left h.right, missingRowEvidence, missingRowEvidence,
    List.cons.injEq, h.aligned.missingRelationshipEvidence,
    map_relationshipEvidence_iff hx h.aligned hc (fun _ => relationshipCandidates_bound)
      fun _ => relationshipCandidates_bound]
  simp only [true_and, hnone, forall_const]

lemma structured_missingRow {doc : Dict} (hwf : (Json.obj doc).WF) (pair : String × String) :
    ∀ c ∈ missingRowEvidence doc collection pair, c.Structured := by
  intro c hc
  rcases List.mem_cons.mp hc with rfl | hc
  · exact structured_missing
  · obtain ⟨row, hrow, rfl⟩ := List.mem_map.mp hc
    exact structured_relationship
      (fieldRows_wf hwf (List.mem_filter.mp (relationshipCandidates_bound hrow)).1)

lemma Paired.rowsOfPair_perm (h : Paired a b documentType x y)
    (hc : collection = "characteristics" ∨ collection = "risks") (key : String × String) :
    (rowsOfPair (fieldRows x collection) key).Perm (rowsOfPair (fieldRows y collection) key) :=
  QualityCI.rowsOfPair_perm (h.aligned.rows hc) key

lemma Paired.risks_perm (h : Paired a b documentType x y) (key : String × String) :
    (rowsOfPair (fieldRows x "risks") key).Perm (rowsOfPair (fieldRows y "risks") key) :=
  h.rowsOfPair_perm (Or.inr rfl) key

/-- A pair has at most one characteristic row, so it is the same row. -/
lemma Paired.characteristics_eq (h : Paired a b documentType x y) (key : String × String) :
    rowsOfPair (fieldRows x "characteristics") key =
      rowsOfPair (fieldRows y "characteristics") key := by
  obtain ⟨_, _, hx⟩ := h.accepted
  exact eq_of_perm_of_length_le_one (h.rowsOfPair_perm (Or.inl rfl) key)
    (length_rowsOfPair (DefaultRowsWith.of_fields hx.rows) key)

lemma Paired.characteristicAt_eq (h : Paired a b documentType x y) (key : String × String) :
    characteristicAt x key = characteristicAt y key := by
  rw [characteristicAt, characteristicAt, h.characteristics_eq key]

lemma characteristicAt_eq_none {doc : Dict} {key : String × String} :
    characteristicAt doc key = none ↔ rowsOfPair (fieldRows doc "characteristics") key = [] := by
  rw [characteristicAt, List.getLast?_eq_none_iff]

lemma rowsOfPair_ne_nil_of_characteristicAt {doc row : Dict} {key : String × String}
    (h : characteristicAt doc key = some row) :
    rowsOfPair (fieldRows doc "characteristics") key ≠ [] := by
  intro hnil
  rw [characteristicAt_eq_none.mpr hnil] at h
  exact absurd h (by simp)

lemma sameCandidates_of_ne_nil (h : Paired a b documentType x y) {key : String × String}
    (hne : rowsOfPair (fieldRows x collection) key ≠ []) :
    SameCandidates a b documentType collection key :=
  (bothApproved_iff h.left h.right).mpr fun hnil => absurd hnil hne

lemma structured_risks {doc : Dict} (hwf : (Json.obj doc).WF) (key : String × String) :
    ∀ c ∈ (risksAt doc key).map (relationshipEvidence doc), c.Structured := by
  intro c hc
  obtain ⟨row, hrow, rfl⟩ := List.mem_map.mp hc
  exact structured_relationship
    (fieldRows_wf hwf (List.mem_filter.mp (rowsOfPair_bound hrow)).1)

/-- The risks of a pair are cited in one order exactly when they come in one order. -/
lemma Paired.risks_iff (h : Paired a b documentType x y) {key : String × String} :
    (risksAt x key).map (relationshipEvidence x) = (risksAt y key).map (relationshipEvidence y) ↔
      SameRows a b documentType "risks" key := by
  obtain ⟨_, _, hx⟩ := h.accepted
  rw [SameRows, bothApproved_iff h.left h.right]
  exact map_relationshipEvidence_iff hx h.aligned (Or.inr rfl) (fun _ => rowsOfPair_bound)
    fun _ => rowsOfPair_bound

end Documents

end QualityCI

import QualityCI.Engine.Citations

/-!
# What the rules cite can be printed

Printing an excerpt raises on a float that JSON does not have.  Every rule cites values of the
case, parts of them or texts of its own, so the findings of a case whose floats are finite are
printed.

* `ExcerptsFinite` — no excerpt of some evidence holds such a float.
* `Finding.print_of_finite` — a finding with such evidence is printed.
* **`RuleFindings.finite`** — the seven findings of a finite case, without contexts.
-/

namespace QualityCI

open Py

/-! ## Parts of finite values -/

lemma finite_get? {d : Dict} (h : (Json.obj d).isFinite = true) {key : String} {v : Json}
    (hv : d.get? key = some v) : v.isFinite = true :=
  isFinite_obj.mp h _ (Dict.get?_eq_some_mem hv)

lemma finite_getD {d : Dict} (h : (Json.obj d).isFinite = true) (key : String) {default : Json}
    (hdefault : default.isFinite = true) : (d.getD key default).isFinite = true := by
  unfold Dict.getD
  cases hv : d.get? key with
  | none => exact hdefault
  | some v => exact finite_get? h hv

lemma finite_dictAt {d : Dict} (h : (Json.obj d).isFinite = true) (key : String) :
    (Json.obj (d.dictAt key)).isFinite = true := by
  unfold Dict.dictAt
  cases hv : (d.get? key).bind Json.obj? with
  | none => rfl
  | some e =>
      obtain ⟨v, hget, hobj⟩ := Option.bind_eq_some_iff.mp hv
      obtain rfl := Json.obj?_eq_some.mp hobj
      exact finite_get? h hget

lemma finite_rowsAt {d : Dict} (h : (Json.obj d).isFinite = true) {key : String} {row : Dict}
    (hrow : row ∈ d.rowsAt key) : (Json.obj row).isFinite = true := by
  unfold Dict.rowsAt at hrow
  obtain ⟨item, hitem, hobj⟩ := List.mem_filterMap.mp hrow
  obtain rfl := Json.obj?_eq_some.mp hobj
  cases hv : (d.get? key).bind Json.arr? with
  | none => simp [hv] at hitem
  | some items =>
      rw [hv, Option.getD_some] at hitem
      obtain ⟨v, hget, harr⟩ := Option.bind_eq_some_iff.mp hv
      obtain rfl := Json.arr?_eq_some.mp harr
      exact isFinite_arr.mp (finite_get? h hget) _ hitem

lemma finite_fieldRows {doc : Dict} (h : (Json.obj doc).isFinite = true) {collection : String}
    {row : Dict} (hrow : row ∈ fieldRows doc collection) : (Json.obj row).isFinite = true :=
  finite_rowsAt (finite_dictAt h "fields") hrow

lemma finite_textsJson (texts : List String) : (textsJson texts).isFinite = true := by
  refine isFinite_arr.mpr fun v hv => ?_
  obtain ⟨s, -, rfl⟩ := List.mem_map.mp hv
  rfl

lemma finite_documentByType {case : Dict} (h : (Json.obj case).isFinite = true)
    {documentType : String} {doc : Dict} (hdoc : documentByType case documentType = some doc) :
    (Json.obj doc).isFinite = true :=
  finite_rowsAt h (documentByType_mem hdoc).1

lemma finite_relationshipExcerpt {row : Dict} (h : (Json.obj row).isFinite = true) :
    (Json.obj (relationshipExcerpt row)).isFinite = true :=
  isFinite_obj.mpr fun e he => isFinite_obj.mp h e (List.mem_of_mem_filter he)

/-! ## Evidence -/

/-- No excerpt of the evidence holds a float that JSON does not have. -/
def ExcerptsFinite (evidence : List Citation) : Prop := ∀ c ∈ evidence, c.excerpt.isFinite = true

@[simp] lemma excerptsFinite_nil : ExcerptsFinite [] := by simp [ExcerptsFinite]

@[simp] lemma excerptsFinite_cons {c : Citation} {evidence : List Citation} :
    ExcerptsFinite (c :: evidence) ↔ c.excerpt.isFinite = true ∧ ExcerptsFinite evidence :=
  List.forall_mem_cons

@[simp] lemma excerptsFinite_append {xs ys : List Citation} :
    ExcerptsFinite (xs ++ ys) ↔ ExcerptsFinite xs ∧ ExcerptsFinite ys :=
  List.forall_mem_append

lemma excerptsFinite_map {α : Type} {f : α → Citation} {xs : List α}
    (h : ∀ x ∈ xs, (f x).excerpt.isFinite = true) : ExcerptsFinite (xs.map f) := by
  simpa [ExcerptsFinite] using h

lemma excerptsFinite_flatMap {α : Type} {f : α → List Citation} {xs : List α}
    (h : ∀ x ∈ xs, ExcerptsFinite (f x)) : ExcerptsFinite (xs.flatMap f) := by
  intro c hc
  obtain ⟨x, hx, hcx⟩ := List.mem_flatMap.mp hc
  exact h x hx c hcx

@[simp] lemma finding_evidence {ruleId title summary severity remediation : String}
    {status : CheckStatus} {evidence : List Citation} {acceptance : List String} :
    (finding ruleId title status summary evidence severity remediation acceptance).evidence =
      evidence := rfl

section Printing

variable [PyUnicode]

lemma stableExcerpt_of_finite {v : Json} (h : v.isFinite = true) :
    ∃ text, stableExcerpt v = .ok text := by
  cases v with
  | arr items => exact ⟨_, dumps_eq_ok.mpr ⟨h, rfl⟩⟩
  | obj entries => exact ⟨_, dumps_eq_ok.mpr ⟨h, rfl⟩⟩
  | _ => exact ⟨_, rfl⟩

omit [PyUnicode] in
/-- A call on each member that never raises. -/
lemma mapEach_succeeds {α β : Type} {f : α → Result β} {xs : List α}
    (h : ∀ x ∈ xs, ∃ y, f x = .ok y) : ∃ ys, mapEach f xs = .ok ys := by
  induction xs with
  | nil => exact ⟨[], rfl⟩
  | cons x xs ih =>
      obtain ⟨⟨y, hy⟩, hxs⟩ := List.forall_mem_cons.mp h
      obtain ⟨ys, hys⟩ := ih hxs
      exact ⟨y :: ys, by simp [mapEach, hy, hys]⟩

/-- **A finding whose excerpts are finite is printed.** -/
theorem Finding.print_of_finite {f : Finding Citation} (h : ExcerptsFinite f.evidence) :
    ∃ printed, f.print = .ok printed := by
  obtain ⟨evidence, hevidence⟩ := mapEach_succeeds (f := Citation.print) fun c hc => by
    obtain ⟨text, htext⟩ := stableExcerpt_of_finite (h c hc)
    exact ⟨_, bind_eq_ok.mpr ⟨text, htext, rfl⟩⟩
  exact ⟨_, Finding.print_eq_ok.mpr ⟨evidence, hevidence, rfl⟩⟩

end Printing

/-! ## The rows of a document -/

lemma finite_relationshipEvidence {doc row : Dict} (h : (Json.obj row).isFinite = true) :
    (relationshipEvidence doc row).excerpt.isFinite = true := finite_relationshipExcerpt h

lemma finite_missingRelationship (doc : Dict) (collection : String) (pair : String × String) :
    (missingRelationshipEvidence doc collection pair).excerpt.isFinite = true := by
  refine isFinite_ofList ?_
  simp only [List.mem_cons, List.not_mem_nil, or_false, forall_eq_or_imp, forall_eq]
  exact ⟨isFinite_ofList (by simp [Json.isFinite]), rfl⟩

lemma finite_eventRelationship (event : Dict) (pair : String × String) :
    (eventRelationshipEvidence event pair).excerpt.isFinite = true :=
  isFinite_ofList (by simp [Json.isFinite])

lemma finite_linksEvidence {event : Dict} (h : (Json.obj event).isFinite = true) :
    (linksEvidence event).excerpt.isFinite = true := finite_getD h _ rfl

lemma finite_documentTypes (case : Dict) : (documentTypesEvidence case).excerpt.isFinite = true :=
  finite_textsJson _

lemma excerptsFinite_unbound (case : Dict) {documents : List (Dict × String)}
    (h : ∀ d ∈ documents, (Json.obj d.1).isFinite = true) :
    ExcerptsFinite (legacyUnboundEvidence case documents) := by
  unfold legacyUnboundEvidence
  split_ifs
  · refine excerptsFinite_flatMap fun d hd => excerptsFinite_map fun row hrow => ?_
    have hrow' := finite_fieldRows (h d hd) (List.mem_of_mem_filter hrow)
    refine isFinite_ofList ?_
    simp only [List.mem_cons, List.not_mem_nil, or_false, forall_eq_or_imp, forall_eq]
    exact ⟨rfl, finite_textsJson _, finite_getD hrow' _ rfl, finite_getD hrow' _ rfl⟩
  · exact excerptsFinite_nil

section Rules

variable [PyUnicode]

/-- The candidates of a pair are rows of the document. -/
lemma excerptsFinite_candidates {doc : Dict} (h : (Json.obj doc).isFinite = true)
    (collection : String) (key : String × String) :
    ExcerptsFinite ((relationshipCandidates (fieldRows doc collection) key).map
      (relationshipEvidence doc)) :=
  excerptsFinite_map fun _ hrow => finite_relationshipEvidence
    (finite_fieldRows h (List.mem_of_mem_filter (relationshipCandidates_bound hrow)))

/-- What is cited of a pair that a document does not have. -/
lemma excerptsFinite_missing {doc : Dict} (h : (Json.obj doc).isFinite = true)
    (collection : String) (pair : String × String) (key : String × String) :
    ExcerptsFinite (missingRelationshipEvidence doc collection pair ::
      (relationshipCandidates (fieldRows doc collection) key).map (relationshipEvidence doc)) :=
  excerptsFinite_cons.mpr ⟨finite_missingRelationship .., excerptsFinite_candidates h _ _⟩

lemma excerptsFinite_risksAt {pfmea : Dict} (h : (Json.obj pfmea).isFinite = true)
    (key : String × String) :
    ExcerptsFinite ((risksAt pfmea key).map (relationshipEvidence pfmea)) :=
  excerptsFinite_map fun _ hrow => finite_relationshipEvidence
    (finite_fieldRows h (mem_rowsOfPair.mp hrow).1)

lemma finite_characteristicAt {doc : Dict} (h : (Json.obj doc).isFinite = true)
    {key : String × String} {row : Dict} (hrow : characteristicAt doc key = some row) :
    (Json.obj row).isFinite = true :=
  finite_fieldRows h (mem_rowsOfPair.mp (List.mem_of_getLast? hrow)).1

/-! ## R001 -/

lemma excerptsFinite_riskCoverage {pfmea : Dict} (h : (Json.obj pfmea).isFinite = true)
    (pair : String × String) : ExcerptsFinite (riskCoverage pfmea pair).1 := by
  have hrisks := excerptsFinite_risksAt h (pairKey pair)
  unfold riskCoverage
  cases hr : risksAt pfmea (pairKey pair) with
  | nil => exact excerptsFinite_missing h _ _ _
  | cons risk rest =>
      rw [hr] at hrisks
      exact hrisks

lemma excerptsFinite_controlCoverage {control : Dict} (h : (Json.obj control).isFinite = true)
    (pair : String × String) : ExcerptsFinite (controlCoverage control pair).1 := by
  unfold controlCoverage
  cases hrow : characteristicAt control (pairKey pair) with
  | none => exact excerptsFinite_missing h _ _ _
  | some row =>
      exact excerptsFinite_cons.mpr
        ⟨finite_relationshipEvidence (finite_characteristicAt h hrow), excerptsFinite_nil⟩

lemma excerptsFinite_coverListed {case flow pfmea control : Dict} {plan : ImpactPlan}
    {flowSteps pfmeaSteps controlSteps : List String} (hcase : (Json.obj case).isFinite = true)
    (hpfmea : (Json.obj pfmea).isFinite = true) (hcontrol : (Json.obj control).isFinite = true) :
    ExcerptsFinite (coverListed case plan flow pfmea control flowSteps pfmeaSteps
      controlSteps).evidence := by
  have hevent := finite_dictAt hcase "event"
  have hsteps : ExcerptsFinite
      [documentEvidence flow "fields.process_steps" (textsJson flowSteps),
       documentEvidence pfmea "fields.process_steps" (textsJson pfmeaSteps),
       documentEvidence control "fields.process_steps" (textsJson controlSteps)] := by
    simp [documentEvidence, finite_textsJson]
  have hunbound : ExcerptsFinite (legacyUnboundEvidence case
      [(pfmea, "risks"), (control, "characteristics")]) :=
    excerptsFinite_unbound case (by simp [hpfmea, hcontrol])
  have hrelations : ExcerptsFinite (plan.affectedLinks.flatMap
      (relationEvidence (case.dictAt "event") pfmea control)) :=
    excerptsFinite_flatMap fun pair _ => excerptsFinite_cons.mpr
      ⟨finite_eventRelationship .., excerptsFinite_append.mpr
        ⟨excerptsFinite_riskCoverage hpfmea pair, excerptsFinite_controlCoverage hcontrol pair⟩⟩
  simp only [coverListed]
  split_ifs with hmissing hscope
  · exact hsteps
  · exact excerptsFinite_cons.mpr ⟨finite_linksEvidence hevent, excerptsFinite_nil⟩
  · cases hcited : legacyUnboundEvidence case [(pfmea, "risks"), (control, "characteristics")] with
    | nil =>
        simp only [coverRelations]
        split_ifs
        · exact excerptsFinite_append.mpr ⟨hsteps, hrelations⟩
        · exact excerptsFinite_append.mpr ⟨hsteps, hrelations⟩
    | cons c rest =>
        rw [hcited] at hunbound
        exact hunbound

/-- What R001 cites. -/
lemma excerptsFinite_ruleProcessCoverage {case : Dict} {plan : ImpactPlan} {f : Finding Citation}
    (hcase : (Json.obj case).isFinite = true) (h : ruleProcessCoverage case plan = .ok f) :
    ExcerptsFinite f.evidence := by
  have hunlisted : ExcerptsFinite
      [eventEvidence (case.dictAt "event") "affected_process_steps"
        (textsJson plan.affectedProcessSteps), documentTypesEvidence case] := by
    simp [eventEvidence, finite_textsJson, finite_documentTypes]
  unfold ruleProcessCoverage at h
  simp only at h
  split at h
  · rename_i flow pfmea control hflow hpfmea hcontrol
    split_ifs at h
    · exact Except.ok.inj h ▸ hunlisted
    · simp only [coverSteps, bind_eq_ok, Except.ok.injEq] at h
      obtain ⟨_, -, _, -, _, -, rfl⟩ := h
      exact excerptsFinite_coverListed hcase (finite_documentByType hcase hpfmea)
        (finite_documentByType hcase hcontrol)
  · exact Except.ok.inj h ▸ hunlisted

/-! ## R002 -/

omit [PyUnicode] in
lemma finite_specTuple {row : Dict} {spec : SpecTuple} (hspec : specTuple row = some spec) :
    spec.toJson.isFinite = true := by
  have hnumber : ∀ {v : Json} {x : ℚ}, finiteNumber v = some x → v.isFinite = true := by
    intro v x hv
    cases v with
    | float y =>
        cases y with
        | finite b => rfl
        | _ => simp [finiteNumber] at hv
    | int n => rfl
    | _ => simp [finiteNumber] at hv
  obtain ⟨specification, -, hspec⟩ : ∃ specification, row.get? "specification" =
      some (.obj specification) ∧ (tupleOf specification).filter isUsable = some spec := by
    unfold specTuple at hspec
    split at hspec
    · exact ⟨_, ‹_›, hspec⟩
    · cases hspec
  obtain ⟨t, lo, hi, hkey, -⟩ := isUsable_iff.mp (Option.filter_eq_some_iff.mp hspec).2
  simp only [SpecTuple.key, completeKey, Prod.mk.injEq] at hkey
  obtain ⟨ht, hlo, hhi, -⟩ := hkey
  refine isFinite_arr.mpr ?_
  simp [hnumber ht, hnumber hlo, hnumber hhi, Json.isFinite]

omit [PyUnicode] in
lemma excerptsFinite_readRow {doc row : Dict} (h : (Json.obj row).isFinite = true)
    (pair : String × String) : ExcerptsFinite (readRow doc pair row).evidence := by
  have hpair := finite_relationshipExcerpt h
  simp only [readRow]
  cases hspec : specTuple row with
  | none =>
      refine excerptsFinite_cons.mpr ⟨isFinite_ofList ?_, excerptsFinite_nil⟩
      simp only [List.mem_cons, List.not_mem_nil, or_false, forall_eq_or_imp, forall_eq]
      exact ⟨hpair, finite_getD h _ rfl, rfl⟩
  | some spec =>
      refine excerptsFinite_cons.mpr ⟨isFinite_ofList ?_, excerptsFinite_nil⟩
      simp only [List.mem_cons, List.not_mem_nil, or_false, forall_eq_or_imp, forall_eq]
      exact ⟨hpair, finite_specTuple hspec⟩

lemma excerptsFinite_readSpec {doc : Dict} (h : (Json.obj doc).isFinite = true)
    (pair : String × String) : ExcerptsFinite (readSpec pair doc).evidence := by
  unfold readSpec
  cases hrow : characteristicAt doc (pairKey pair) with
  | some row => exact excerptsFinite_readRow (finite_characteristicAt h hrow) pair
  | none =>
      have hmissing := excerptsFinite_missing h "characteristics" pair (pairKey pair)
      simp only [readMissingRow]
      cases hcandidates : relationshipCandidates (fieldRows doc "characteristics")
          (pairKey pair) with
      | nil => exact excerptsFinite_cons.mpr ⟨finite_missingRelationship .., excerptsFinite_nil⟩
      | cons row rest =>
          rw [hcandidates] at hmissing
          exact hmissing

lemma excerptsFinite_compareSpecs {docs : List Dict} (plan : ImpactPlan)
    (h : ∀ doc ∈ docs, (Json.obj doc).isFinite = true) :
    ExcerptsFinite (compareSpecs docs plan).evidence := by
  have hreadings : ExcerptsFinite ((plan.affectedLinks.flatMap fun pair =>
      docs.map (readSpec pair)).flatMap SpecReading.evidence) := by
    refine excerptsFinite_flatMap fun reading hreading => ?_
    obtain ⟨pair, -, hreading⟩ := List.mem_flatMap.mp hreading
    obtain ⟨doc, hdoc, rfl⟩ := List.mem_map.mp hreading
    exact excerptsFinite_readSpec (h doc hdoc) pair
  simp only [compareSpecs]
  split_ifs <;> exact hreadings

/-- What R002 cites. -/
lemma excerptsFinite_ruleSpecConsistency {case : Dict} (plan : ImpactPlan)
    (hcase : (Json.obj case).isFinite = true) :
    ExcerptsFinite (ruleSpecConsistency case plan).evidence := by
  have hevent := finite_dictAt hcase "event"
  have hunlisted : ExcerptsFinite
      [eventEvidence (case.dictAt "event") "affected_characteristics"
        (textsJson plan.affectedCharacteristics), documentTypesEvidence case] := by
    simp [eventEvidence, finite_textsJson, finite_documentTypes]
  unfold ruleSpecConsistency
  simp only
  split
  · rename_i control sop inspection hcontrol hsop hinspection
    have hdocs : ∀ doc ∈ [control, sop, inspection], (Json.obj doc).isFinite = true := by
      simp [finite_documentByType hcase hcontrol, finite_documentByType hcase hsop,
        finite_documentByType hcase hinspection]
    split_ifs
    · exact hunlisted
    · exact excerptsFinite_cons.mpr ⟨finite_linksEvidence hevent, excerptsFinite_nil⟩
    · have hunbound : ExcerptsFinite (legacyUnboundEvidence case [(control, "characteristics"),
          (sop, "characteristics"), (inspection, "characteristics")]) :=
        excerptsFinite_unbound case (by simpa using hdocs)
      cases hcited : legacyUnboundEvidence case [(control, "characteristics"),
          (sop, "characteristics"), (inspection, "characteristics")] with
      | nil => exact excerptsFinite_compareSpecs plan hdocs
      | cons c rest =>
          rw [hcited] at hunbound
          exact hunbound
  · exact hunlisted

/-! ## R003 -/

lemma excerptsFinite_specialCoverage {control : Dict} (h : (Json.obj control).isFinite = true)
    (pair : String × String) : ExcerptsFinite (specialCoverage control pair).1 := by
  unfold specialCoverage
  cases hrow : characteristicAt control (pairKey pair) with
  | none => exact excerptsFinite_missing h _ _ _
  | some row =>
      have hfinite := finite_characteristicAt h hrow
      simp only
      split_ifs
      · refine excerptsFinite_cons.mpr ⟨isFinite_ofList ?_, excerptsFinite_nil⟩
        simp only [List.mem_cons, List.not_mem_nil, or_false, forall_eq_or_imp, forall_eq]
        refine ⟨finite_relationshipExcerpt hfinite, isFinite_ofList ?_⟩
        intro e he
        obtain ⟨field, -, rfl⟩ := List.mem_map.mp he
        exact finite_getD hfinite field rfl
      · exact excerptsFinite_cons.mpr ⟨finite_relationshipEvidence hfinite, excerptsFinite_nil⟩

lemma excerptsFinite_controlOfPair {pfmea control : Dict} (hpfmea : (Json.obj pfmea).isFinite = true)
    (hcontrol : (Json.obj control).isFinite = true) (pair : String × String) :
    ExcerptsFinite (controlOfPair pfmea control pair).1 := by
  have hrisks := excerptsFinite_risksAt hpfmea (pairKey pair)
  simp only [controlOfPair]
  split_ifs
  · exact excerptsFinite_append.mpr ⟨hrisks, excerptsFinite_specialCoverage hcontrol pair⟩
  · exact hrisks

lemma excerptsFinite_controlSpecials {event pfmea control : Dict} (plan : ImpactPlan)
    (hpfmea : (Json.obj pfmea).isFinite = true) (hcontrol : (Json.obj control).isFinite = true) :
    ExcerptsFinite (controlSpecials event pfmea control plan).evidence := by
  have hcontrols : ExcerptsFinite (plan.affectedLinks.flatMap fun pair =>
      (controlOfPair pfmea control pair).1) :=
    excerptsFinite_flatMap fun pair _ => excerptsFinite_controlOfPair hpfmea hcontrol pair
  have hmissing : ∀ missing, ExcerptsFinite (missingRiskFinding event pfmea missing).evidence :=
    fun missing => excerptsFinite_flatMap fun pair _ => excerptsFinite_cons.mpr
      ⟨finite_eventRelationship .., excerptsFinite_missing hpfmea _ _ _⟩
  unfold controlSpecials
  split
  · simp only
    split_ifs <;> exact hcontrols
  · exact hmissing _

/-- What R003 cites. -/
lemma excerptsFinite_ruleSpecialCharacteristicControl {case : Dict} (plan : ImpactPlan)
    (hcase : (Json.obj case).isFinite = true) :
    ExcerptsFinite (ruleSpecialCharacteristicControl case plan).evidence := by
  have hevent := finite_dictAt hcase "event"
  unfold ruleSpecialCharacteristicControl
  simp only
  split
  · rename_i pfmea control hpfmea hcontrol
    have hp := finite_documentByType hcase hpfmea
    have hc := finite_documentByType hcase hcontrol
    split_ifs
    · exact excerptsFinite_cons.mpr ⟨finite_linksEvidence hevent, excerptsFinite_nil⟩
    · have hunbound : ExcerptsFinite (legacyUnboundEvidence case
          [(pfmea, "risks"), (control, "characteristics")]) :=
        excerptsFinite_unbound case (by simp [hp, hc])
      cases hcited : legacyUnboundEvidence case
          [(pfmea, "risks"), (control, "characteristics")] with
      | nil => exact excerptsFinite_controlSpecials plan hp hc
      | cons c rest =>
          rw [hcited] at hunbound
          exact hunbound
  · exact excerptsFinite_cons.mpr ⟨finite_documentTypes case, excerptsFinite_nil⟩

/-! ## R004 and R007 -/

omit [PyUnicode] in
lemma finite_waiverEvidence {doc waiver : Dict} (h : (Json.obj waiver).isFinite = true) :
    (waiverEvidence doc waiver).excerpt.isFinite = true := by
  refine isFinite_ofList fun e he => ?_
  obtain ⟨key, -, rfl⟩ := List.mem_map.mp he
  exact finite_getD h key rfl

omit [PyUnicode] in
lemma finite_validWaiver {doc event waiver : Dict} {approvalDate : CalendarDate}
    (h : (Json.obj doc).isFinite = true)
    (hwaiver : validRevisionDateWaiver doc event approvalDate = some waiver) :
    (Json.obj waiver).isFinite = true := by
  unfold validRevisionDateWaiver at hwaiver
  split at hwaiver
  · rename_i w hget
    split_ifs at hwaiver
    obtain rfl := Option.some.inj hwaiver
    exact finite_get? h hget
  · cases hwaiver

lemma excerptsFinite_reviewRevisions {event : Dict} {approvalDate : CalendarDate}
    {docs : List Dict} {stale : List String} {evidence : List Citation} {f : Finding Citation}
    (hdocs : ∀ doc ∈ docs, (Json.obj doc).isFinite = true) (hevidence : ExcerptsFinite evidence)
    (h : reviewRevisions event approvalDate docs stale evidence = .ok f) :
    ExcerptsFinite f.evidence := by
  induction docs generalizing stale evidence with
  | nil =>
      unfold reviewRevisions at h
      split_ifs at h
      · exact Except.ok.inj h ▸ hevidence
      · exact Except.ok.inj h ▸ hevidence
  | cons doc docs ih =>
      obtain ⟨hdoc, hrest⟩ := List.forall_mem_cons.mp hdocs
      have hdated : ExcerptsFinite
          (evidence ++ [documentEvidence doc "revision_date" (doc.getD "revision_date" .null)]) :=
        excerptsFinite_append.mpr ⟨hevidence, excerptsFinite_cons.mpr
          ⟨finite_getD hdoc _ rfl, excerptsFinite_nil⟩⟩
      unfold reviewRevisions at h
      split_ifs at h
      · exact Except.ok.inj h ▸ excerptsFinite_cons.mpr ⟨rfl, excerptsFinite_nil⟩
      · simp only [bind_eq_ok] at h
        obtain ⟨date, -, h⟩ := h
        split_ifs at h
        · cases hwaiver : validRevisionDateWaiver doc event approvalDate with
          | some waiver =>
              rw [hwaiver] at h
              exact ih hrest (excerptsFinite_append.mpr ⟨hdated, excerptsFinite_cons.mpr
                ⟨finite_waiverEvidence (finite_validWaiver hdoc hwaiver), excerptsFinite_nil⟩⟩) h
          | none =>
              rw [hwaiver] at h
              exact ih hrest hdated h
        · exact ih hrest hdated h

/-- What R004 cites. -/
lemma excerptsFinite_ruleRevisionAfterApproval {case : Dict} {f : Finding Citation}
    (hcase : (Json.obj case).isFinite = true) (h : ruleRevisionAfterApproval case = .ok f) :
    ExcerptsFinite f.evidence := by
  simp only [ruleRevisionAfterApproval] at h
  split_ifs at h
  · exact Except.ok.inj h ▸ excerptsFinite_cons.mpr ⟨rfl, excerptsFinite_nil⟩
  · simp only [bind_eq_ok] at h
    obtain ⟨date, -, h⟩ := h
    exact excerptsFinite_reviewRevisions
      (fun doc hdoc => finite_rowsAt hcase (List.mem_of_mem_filter hdoc)) excerptsFinite_nil h

omit [PyUnicode] in
/-- What R007 cites. -/
lemma excerptsFinite_ruleHighRiskApproval {case : Dict} (hcase : (Json.obj case).isFinite = true) :
    ExcerptsFinite (ruleHighRiskApproval case).evidence := by
  have hevent := finite_dictAt hcase "event"
  have hrisk : ExcerptsFinite [eventEvidence (case.dictAt "event") "risk_level"
      ((case.dictAt "event").getD "risk_level" .null)] :=
    excerptsFinite_cons.mpr ⟨finite_getD hevent _ rfl, excerptsFinite_nil⟩
  have happrovals : ExcerptsFinite [eventEvidence (case.dictAt "event") "approvals"
      (.arr ((currentApprovals (case.dictAt "event")).map approvalExcerpt))] := by
    refine excerptsFinite_cons.mpr ⟨isFinite_arr.mpr fun v hv => ?_, excerptsFinite_nil⟩
    obtain ⟨item, hitem, rfl⟩ := List.mem_map.mp hv
    refine isFinite_ofList fun e he => ?_
    obtain ⟨key, -, rfl⟩ := List.mem_map.mp he
    exact finite_getD (finite_rowsAt hevent (List.mem_of_mem_filter hitem)) key rfl
  simp only [ruleHighRiskApproval]
  split_ifs
  · exact hrisk
  · exact excerptsFinite_cons.mpr ⟨rfl, excerptsFinite_nil⟩
  · simp only [reviewApprovals]
    split_ifs <;> exact happrovals
  · exact hrisk

/-! ## R005 and R006 without contexts -/

omit [PyUnicode] in
/-- What R005 cites without a context. -/
lemma excerptsFinite_ruleInspectionCurrentReferences {case : Dict}
    (hcase : (Json.obj case).isFinite = true) :
    ExcerptsFinite (ruleInspectionCurrentReferences case none).evidence := by
  unfold ruleInspectionCurrentReferences
  split
  · rename_i inspection sop control hinspection hsop hcontrol
    have hfields := finite_dictAt (finite_documentByType hcase hinspection) "fields"
    split
    · rename_i references hget
      have hreferences := finite_get? hfields hget
      simp only [reviewReferences]
      split_ifs
      · exact excerptsFinite_cons.mpr ⟨finite_getD hreferences _ rfl, excerptsFinite_nil⟩
      · exact excerptsFinite_cons.mpr ⟨hreferences, excerptsFinite_nil⟩
      · exact excerptsFinite_cons.mpr ⟨hreferences, excerptsFinite_nil⟩
    · exact excerptsFinite_cons.mpr ⟨rfl, excerptsFinite_nil⟩
  · exact excerptsFinite_cons.mpr ⟨finite_documentTypes case, excerptsFinite_nil⟩

/-- Without a context R006 returns, and cites a text. -/
lemma ruleValidationEvidence_none (case : Dict) :
    ∃ f, ruleValidationEvidence case none = .ok f ∧ ExcerptsFinite f.evidence :=
  ⟨_, rfl, excerptsFinite_cons.mpr ⟨rfl, excerptsFinite_nil⟩⟩

/-- **What a run without contexts cites is finite**, rule by rule. -/
theorem RuleFindings.finite {case : Dict} {plan : ImpactPlan} (f : RuleFindings case plan none none)
    (hcase : (Json.obj case).isFinite = true) : ∀ g ∈ f.all, ExcerptsFinite g.evidence := by
  have hevidence : ExcerptsFinite f.evidence.evidence := by
    obtain ⟨g, hg, hfinite⟩ := ruleValidationEvidence_none case
    rw [f.evidence_eq] at hg
    exact Except.ok.inj hg ▸ hfinite
  simp only [RuleFindings.all, List.mem_cons, List.not_mem_nil, or_false, forall_eq_or_imp,
    forall_eq]
  exact ⟨excerptsFinite_ruleProcessCoverage hcase f.coverage_eq,
    excerptsFinite_ruleSpecConsistency plan hcase,
    excerptsFinite_ruleSpecialCharacteristicControl plan hcase,
    excerptsFinite_ruleRevisionAfterApproval hcase f.revision_eq,
    excerptsFinite_ruleInspectionCurrentReferences hcase, hevidence,
    excerptsFinite_ruleHighRiskApproval hcase⟩

end Rules

end QualityCI

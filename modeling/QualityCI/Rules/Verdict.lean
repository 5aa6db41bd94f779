import QualityCI.Loader.Accepted
import QualityCI.Rules.Specification

/-!
# The verdict of R002

What makes the rule contradict a case.  A document that has no row of a pair is reported as
misbound when it has a row of the pair's characteristic at another step, which is what the message
says, and also when it has a row of another characteristic at the pair's step.

* `Conflicting`, `Misbound`, `StepShared`, `Incomplete` — what the documents say of the pairs.
* `VerdictLaw` — the verdict that the rule's messages describe.
* **`ruleSpecConsistency_status`** — when the rule contradicts, and when it cannot verify.
* **`ruleSpecConsistency_verdict_iff`** — when its verdict is the one described.
-/

namespace QualityCI

open Py

section Law

variable [PyUnicode]

/-! ## What a document says of a pair -/

/-- The document has no row of the pair. -/
def MissesRow (doc : Dict) (key : String × String) : Prop :=
  ∀ row ∈ fieldRows doc "characteristics", ¬NamesPair row key

/-- The document has a row of the pair with this complete specification. -/
def CarriesSpecification (key : String × String) (values : ℚ × ℚ × ℚ × String) (doc : Dict) :
    Prop :=
  ∃ row ∈ fieldRows doc "characteristics", NamesPair row key ∧
    CompleteSpecification row values.1 values.2.1 values.2.2.1 values.2.2.2

/-- The documents carry complete specifications of the pair that differ. -/
def Disagree (key : String × String) (first second : Dict) : Prop :=
  ∃ values values', CarriesSpecification key values first ∧
    CarriesSpecification key values' second ∧ values ≠ values'

/-- The document has no complete specification of the pair. -/
def LacksSpecification (key : String × String) (doc : Dict) : Prop :=
  ∀ values, ¬CarriesSpecification key values doc

/-- The document has the pair's characteristic at another step only. -/
def Misbinds (key : String × String) (doc : Dict) : Prop :=
  MissesRow doc key ∧ ∃ row ∈ fieldRows doc "characteristics", namesStep row = true ∧
    (pairOf row).2 = key.2 ∧ (pairOf row).1 ≠ key.1

/-- The document has other characteristics only at the pair's step. -/
def SharesStep (key : String × String) (doc : Dict) : Prop :=
  MissesRow doc key ∧ ∃ row ∈ fieldRows doc "characteristics", namesStep row = true ∧
    (pairOf row).1 = key.1

instance (doc : Dict) (key : String × String) : Decidable (MissesRow doc key) :=
  inferInstanceAs (Decidable (∀ row ∈ fieldRows doc "characteristics",
    ¬(namesStep row = true ∧ pairOf row = key)))

instance (key : String × String) (doc : Dict) : Decidable (Misbinds key doc) :=
  inferInstanceAs (Decidable (_ ∧ _))

instance (key : String × String) (doc : Dict) : Decidable (SharesStep key doc) :=
  inferInstanceAs (Decidable (_ ∧ _))

/-! ## What the case says -/

/-- The links of the case's event. -/
def eventLinks (case : Dict) : List Dict := (case.dictAt "event").rowsAt "affected_links"

/-- Two documents carry complete specifications of some pair, and they differ. -/
def Conflicting (case : Dict) : Prop :=
  ∃ link ∈ eventLinks case, ∃ first ∈ specDocumentTypes, Approved case first fun doc =>
    ∃ second ∈ specDocumentTypes, Approved case second (Disagree (pairOf link) doc)

/-- Some document has a pair's characteristic at another step only. -/
def Misbound (case : Dict) : Prop :=
  ∃ link ∈ eventLinks case, ∃ documentType ∈ specDocumentTypes,
    Approved case documentType (Misbinds (pairOf link))

/-- Some document without a pair's row has other characteristics at the pair's step. -/
def StepShared (case : Dict) : Prop :=
  ∃ link ∈ eventLinks case, ∃ documentType ∈ specDocumentTypes,
    Approved case documentType (SharesStep (pairOf link))

/-- Some document lacks a complete specification of some pair. -/
def Incomplete (case : Dict) : Prop :=
  ∃ link ∈ eventLinks case, ∃ documentType ∈ specDocumentTypes,
    Approved case documentType (LacksSpecification (pairOf link))

/-- The verdict that the rule's messages describe. -/
structure VerdictLaw (case : Dict) (status : CheckStatus) : Prop where
  contradicted : status = .contradicted → Conflicting case ∨ Misbound case
  unverifiable : ¬Conflicting case → ¬Misbound case → Incomplete case → status = .unverifiable

/-! ## Readings -/

omit [PyUnicode] in
lemma appendUnseen_ne_nil {candidates rows : List Dict} (h : candidates ≠ []) :
    appendUnseen candidates rows ≠ [] := by
  induction rows generalizing candidates with
  | nil => exact h
  | cons row rest ih =>
      unfold appendUnseen
      split_ifs
      · exact ih h
      · simp
      · exact ih (by simp)

/-- There is a candidate exactly when a bound row shares half of the pair. -/
lemma relationshipCandidates_ne_nil {rows : List Dict} {key : String × String} :
    relationshipCandidates rows key ≠ [] ↔
      ∃ row ∈ rows, namesStep row = true ∧ ((pairOf row).1 = key.1 ∨ (pairOf row).2 = key.2) := by
  have hunseen : ∀ found : List Dict, appendUnseen [] found ≠ [] ↔ found ≠ [] := by
    intro found
    cases found with
    | nil => simp [appendUnseen]
    | cons row rest =>
        have hfirst : appendUnseen [] (row :: rest) = appendUnseen [row] rest := by
          simp [appendUnseen]
        rw [hfirst]
        simp [appendUnseen_ne_nil]
  rw [relationshipCandidates, hunseen, ne_eq, List.append_eq_nil_iff,
    List.eq_nil_iff_forall_not_mem, List.eq_nil_iff_forall_not_mem]
  simp only [boundRows, List.mem_filter, decide_eq_true_eq]
  constructor
  · intro h
    by_contra hnone
    refine h ⟨?_, ?_⟩
    · rintro row ⟨⟨hrow, hstep⟩, hkey⟩
      exact hnone ⟨row, hrow, hstep, Or.inl hkey⟩
    · rintro row ⟨⟨hrow, hstep⟩, hkey⟩
      exact hnone ⟨row, hrow, hstep, Or.inr hkey⟩
  · rintro ⟨row, hrow, hstep, hkey | hkey⟩ ⟨hfirst, hsecond⟩
    · exact hfirst row ⟨⟨hrow, hstep⟩, hkey⟩
    · exact hsecond row ⟨⟨hrow, hstep⟩, hkey⟩

/-- A reading reports a misbinding when the row is missing and there are candidates. -/
lemma readSpec_misbound_ne_nil {pair : String × String} {doc : Dict} :
    (readSpec pair doc).misbound ≠ [] ↔ characteristicAt doc (pairKey pair) = none ∧
      relationshipCandidates (fieldRows doc "characteristics") (pairKey pair) ≠ [] := by
  unfold readSpec
  cases hrow : characteristicAt doc (pairKey pair) with
  | none =>
      simp only [readMissingRow, true_and]
      split
      · rename_i hnil
        simp [hnil]
      · rename_i hne
        simpa using hne
  | some row =>
      cases hspec : specTuple row with
      | none => simp [readRow, hspec]
      | some spec => simp [readRow, hspec]

/-- The values of a reading are the tuple of the pair's row. -/
lemma mem_readSpec_values {pair : String × String} {doc : Dict} {v : String × SpecTuple} :
    v ∈ (readSpec pair doc).values ↔ ∃ row, characteristicAt doc (pairKey pair) = some row ∧
      specTuple row = some v.2 ∧ v.1 = doc.textAt "document_type" := by
  unfold readSpec
  cases hrow : characteristicAt doc (pairKey pair) with
  | none =>
      simp only [readMissingRow, reduceCtorEq, false_and, exists_false, iff_false]
      split <;> simp
  | some row =>
      cases hspec : specTuple row with
      | none => simp [readRow, hspec]
      | some spec =>
          simp only [readRow, hspec, List.mem_singleton, Option.some.injEq, exists_eq_left',
            Prod.ext_iff]
          exact ⟨fun h => ⟨h.2.symm, h.1⟩, fun h => ⟨h.2, h.1.symm⟩⟩

omit [PyUnicode] in
/-- Values conflict exactly when two of them have different keys. -/
lemma isConflict_eq_true {values : List (String × SpecTuple)} :
    isConflict values = true ↔ ∃ v ∈ values, ∃ w ∈ values, v.2.key ≠ w.2.key := by
  rw [← Bool.not_eq_false, isConflict_eq_false]
  simp

/-- The documents' values of a pair conflict exactly when two documents carry complete
specifications that differ. -/
lemma isConflict_readings {docs : List Dict}
    (haccepted : ∀ doc ∈ docs, ∃ migrated referenceMigration,
      AcceptedDocument migrated referenceMigration doc) {pair : String × String} :
    isConflict (docs.flatMap fun doc => (readSpec pair doc).values) = true ↔
      ∃ first ∈ docs, ∃ second ∈ docs, Disagree (pairKey pair) first second := by
  have hvalue : ∀ doc ∈ docs, ∀ key, (∃ v ∈ (readSpec pair doc).values, v.2.key = key) ↔
      ∃ values : ℚ × ℚ × ℚ × String, CarriesSpecification (pairKey pair) values doc ∧
        key = completeKey values.1 values.2.1 values.2.2.1 values.2.2.2 := by
    intro doc hdoc key
    obtain ⟨_, _, hd⟩ := haccepted doc hdoc
    simp only [mem_readSpec_values]
    constructor
    · rintro ⟨v, ⟨row, hrow, hspec, -⟩, rfl⟩
      obtain ⟨target, minimum, maximum, unit, hkey⟩ := specTuple_key hspec
      obtain ⟨hmem, hnames⟩ := (characteristicAt_eq_some hd).mp hrow
      exact ⟨(target, minimum, maximum, unit),
        ⟨row, hmem, hnames, specTuple_eq_some.mp ⟨v.2, hspec, hkey⟩⟩, hkey⟩
    · rintro ⟨values, ⟨row, hmem, hnames, hcomplete⟩, rfl⟩
      obtain ⟨spec, hspec, hkey⟩ := specTuple_eq_some.mpr hcomplete
      exact ⟨(doc.textAt "document_type", spec),
        ⟨row, (characteristicAt_eq_some hd).mpr ⟨hmem, hnames⟩, hspec, rfl⟩, hkey⟩
  rw [isConflict_eq_true]
  simp only [List.mem_flatMap]
  constructor
  · rintro ⟨v, ⟨first, hfirst, hv⟩, w, ⟨second, hsecond, hw⟩, hne⟩
    obtain ⟨values, hcarries, hkey⟩ := (hvalue first hfirst _).mp ⟨v, hv, rfl⟩
    obtain ⟨values', hcarries', hkey'⟩ := (hvalue second hsecond _).mp ⟨w, hw, rfl⟩
    refine ⟨first, hfirst, second, hsecond, values, values', hcarries, hcarries', ?_⟩
    rintro rfl
    exact hne (hkey.trans hkey'.symm)
  · rintro ⟨first, hfirst, second, hsecond, values, values', hcarries, hcarries', hne⟩
    obtain ⟨v, hv, hkey⟩ := (hvalue first hfirst _).mpr ⟨values, hcarries, rfl⟩
    obtain ⟨w, hw, hkey'⟩ := (hvalue second hsecond _).mpr ⟨values', hcarries', rfl⟩
    refine ⟨v, ⟨first, hfirst, hv⟩, w, ⟨second, hsecond, hw⟩, fun heq => hne ?_⟩
    rw [hkey, hkey'] at heq
    simpa [completeKey, Prod.ext_iff] using heq

/-- A reading reports a misbinding when the pair's row is missing and a row shares its step or
its characteristic. -/
lemma readSpec_misbound_iff {pair : String × String} {doc : Dict} :
    (readSpec pair doc).misbound ≠ [] ↔
      Misbinds (pairKey pair) doc ∨ SharesStep (pairKey pair) doc := by
  have hmiss : characteristicAt doc (pairKey pair) = none ↔ MissesRow doc (pairKey pair) := by
    rw [← not_not (a := characteristicAt doc (pairKey pair) = none), ← ne_eq,
      characteristicAt_ne_none]
    simp [MissesRow]
  rw [readSpec_misbound_ne_nil, relationshipCandidates_ne_nil, hmiss]
  constructor
  · rintro ⟨hnone, row, hrow, hstep, hkey⟩
    by_cases hsame : (pairOf row).1 = (pairKey pair).1
    · exact Or.inr ⟨hnone, row, hrow, hstep, hsame⟩
    · exact Or.inl ⟨hnone, row, hrow, hstep, hkey.resolve_left hsame, hsame⟩
  · rintro (⟨hnone, row, hrow, hstep, hkey, -⟩ | ⟨hnone, row, hrow, hstep, hkey⟩)
    · exact ⟨hnone, row, hrow, hstep, Or.inr hkey⟩
    · exact ⟨hnone, row, hrow, hstep, Or.inl hkey⟩

/-- A reading reports a gap when the document has no complete specification of the pair. -/
lemma readSpec_missing_ne_nil {pair : String × String} {doc : Dict} {migrated : Bool}
    {referenceMigration : Option Json} (h : AcceptedDocument migrated referenceMigration doc) :
    (readSpec pair doc).missing ≠ [] ↔ LacksSpecification (pairKey pair) doc := by
  rw [ne_eq, readSpec_missing_eq_nil]
  simp only [LacksSpecification, CarriesSpecification]
  constructor
  · rintro hnone values ⟨row, hrow, hnames, hcomplete⟩
    obtain ⟨spec, hspec, -⟩ := specTuple_eq_some.mpr hcomplete
    have hat := (characteristicAt_eq_some h).mpr ⟨hrow, hnames⟩
    refine hnone ⟨row, spec, hat, hspec, ?_⟩
    simp [readSpec, hat, readRow, hspec]
  · rintro hlacks ⟨row, spec, hat, hspec, -⟩
    obtain ⟨target, minimum, maximum, unit, hkey⟩ := specTuple_key hspec
    obtain ⟨hrow, hnames⟩ := (characteristicAt_eq_some h).mp hat
    exact hlacks (target, minimum, maximum, unit)
      ⟨row, hrow, hnames, specTuple_eq_some.mp ⟨spec, hspec, hkey⟩⟩

/-! ## The verdict -/

section Verdict

variable {case : Dict} {plan : ImpactPlan}

/-- Some pair of the plan satisfies what some link of the event does. -/
lemma exists_affectedLinks (hcase : AcceptedCase case) (hplan : buildImpactPlan case = .ok plan)
    {P : String × String → Prop} :
    (∃ pair ∈ plan.affectedLinks, P (pairKey pair)) ↔ ∃ link ∈ eventLinks case, P (pairOf link) := by
  have h := not_congr (forall_affectedLinks hcase hplan (P := fun key => ¬P key))
  simpa [eventLinks] using h

/-- A complete scope lists characteristics. -/
lemma characteristics_of_scope (hcase : AcceptedCase case)
    (hscope : ScopeLinked (case.dictAt "event")) :
    (case.dictAt "event").textsAt "affected_characteristics" ≠ [] := by
  intro hnil
  obtain ⟨link, hlink⟩ := List.exists_mem_of_ne_nil _ hscope.links
  rcases hcase.acceptedEvent.links with hnone | hlinks
  · rw [Dict.rowsAt_of_present?_none hnone] at hlink
    exact absurd hlink (List.not_mem_nil)
  · have hdeclared := (hlinks.2.each link hlink).characteristicDeclared
    rw [hnil] at hdeclared
    exact absurd hdeclared (by simp)

/-- The approved documents whose specifications the rule compares. -/
def specDocuments (case : Dict) : List Dict := specDocumentTypes.filterMap (documentByType case)

omit [PyUnicode] in
lemma exists_approved {P : Dict → Prop} :
    (∃ documentType ∈ specDocumentTypes, Approved case documentType P) ↔
      ∃ doc ∈ specDocuments case, P doc := by
  simp only [specDocuments, List.mem_filterMap, Approved]
  constructor
  · rintro ⟨documentType, htype, doc, hdoc, hP⟩
    exact ⟨doc, ⟨documentType, htype, hdoc⟩, hP⟩
  · rintro ⟨doc, ⟨documentType, htype, hdoc⟩, hP⟩
    exact ⟨documentType, htype, doc, hdoc, hP⟩

lemma specDocuments_accepted (hcase : AcceptedCase case) :
    ∀ doc ∈ specDocuments case, ∃ migrated referenceMigration,
      AcceptedDocument migrated referenceMigration doc := by
  intro doc hdoc
  obtain ⟨documentType, -, hdoc⟩ := List.mem_filterMap.mp hdoc
  exact ⟨_, _, acceptedDocument_of_mem hcase (documentByType_mem hdoc).1⟩

/-- With a complete scope and every row bound, the rule compares the three documents. -/
theorem ruleSpecConsistency_compares (hcase : AcceptedCase case)
    (hplan : buildImpactPlan case = .ok plan) (hscope : ScopeLinked (case.dictAt "event"))
    (hbound : ∀ documentType ∈ specDocumentTypes, RowsBound case documentType "characteristics") :
    (ruleSpecConsistency case plan).status = (compareSpecs (specDocuments case) plan).status := by
  obtain ⟨control, hcontrol⟩ := documentByType_accepted hcase (show "CONTROL_PLAN" ∈ _ by decide)
  obtain ⟨sop, hsop⟩ := documentByType_accepted hcase (show "SOP" ∈ _ by decide)
  obtain ⟨inspection, hinspection⟩ :=
    documentByType_accepted hcase (show "INSPECTION_RECORD" ∈ _ by decide)
  have hdocs : specDocuments case = [control, sop, inspection] := by
    simp [specDocuments, specDocumentTypes, hcontrol, hsop, hinspection]
  have hcomplete := (scopeRelationshipsComplete_iff hcase hplan).mpr hscope
  have hunbound := (unboundSpecs_eq_nil hcase hcontrol hsop hinspection).mpr hbound
  have hchars : plan.affectedCharacteristics ≠ [] := by
    rw [(buildImpactPlan_scope hcase hplan).2.1, ne_eq, sortedSet_eq_nil]
    exact characteristics_of_scope hcase hscope
  simp only [ruleSpecConsistency, hcontrol, hsop, hinspection, if_neg hchars, hcomplete,
    Bool.true_eq_false, ↓reduceIte, hunbound, hdocs]

/-- **When R002 contradicts, and when it cannot verify.** -/
theorem ruleSpecConsistency_status (hcase : AcceptedCase case)
    (hplan : buildImpactPlan case = .ok plan) (hscope : ScopeLinked (case.dictAt "event"))
    (hbound : ∀ documentType ∈ specDocumentTypes, RowsBound case documentType "characteristics") :
    ((ruleSpecConsistency case plan).status = .contradicted ↔
      Conflicting case ∨ Misbound case ∨ StepShared case) ∧
    ((ruleSpecConsistency case plan).status = .unverifiable ↔
      ¬(Conflicting case ∨ Misbound case ∨ StepShared case) ∧ Incomplete case) := by
  have haccepted := specDocuments_accepted hcase
  have hconflict : (∃ pair ∈ plan.affectedLinks,
      isConflict ((specDocuments case).flatMap fun doc => (readSpec pair doc).values) = true) ↔
        Conflicting case := by
    simp only [isConflict_readings haccepted, Conflicting, exists_approved]
    exact exists_affectedLinks hcase hplan (P := fun key =>
      ∃ first ∈ specDocuments case, ∃ second ∈ specDocuments case, Disagree key first second)
  have hmisbound : (∃ pair ∈ plan.affectedLinks, ∃ doc ∈ specDocuments case,
      (readSpec pair doc).misbound ≠ []) ↔ Misbound case ∨ StepShared case := by
    simp only [readSpec_misbound_iff, Misbound, StepShared, exists_approved]
    rw [exists_affectedLinks hcase hplan
      (P := fun key => ∃ doc ∈ specDocuments case, Misbinds key doc ∨ SharesStep key doc)]
    simp only [and_or_left, exists_or]
  have hmissing : (∃ pair ∈ plan.affectedLinks, ∃ doc ∈ specDocuments case,
      (readSpec pair doc).missing ≠ []) ↔ Incomplete case := by
    simp only [Incomplete, exists_approved]
    rw [← exists_affectedLinks hcase hplan
      (P := fun key => ∃ doc ∈ specDocuments case, LacksSpecification key doc)]
    refine exists_congr fun pair => and_congr_right fun _ => exists_congr fun doc =>
      and_congr_right fun hdoc => ?_
    obtain ⟨_, _, hdoc⟩ := haccepted doc hdoc
    exact readSpec_missing_ne_nil hdoc
  rw [ruleSpecConsistency_compares hcase hplan hscope hbound, compareSpecs_status]
  by_cases hbad : Conflicting case ∨ Misbound case ∨ StepShared case
  · rw [if_pos ((or_congr hconflict hmisbound).mpr hbad)]
    simp [hbad]
  rw [if_neg (mt (or_congr hconflict hmisbound).mp hbad)]
  by_cases hgap : Incomplete case
  · rw [if_pos (hmissing.mpr hgap)]
    simp [hbad, hgap]
  · rw [if_neg (mt hmissing.mp hgap)]
    simp [hbad, hgap]

/-- **R002's verdict is the one its messages describe exactly when no mere neighbour of a missing
row is taken for a misbinding, or the case is contradicted anyway.** -/
theorem ruleSpecConsistency_verdict_iff {raw : Dict} (hprepared : prepareCase raw = .ok case)
    (hplan : buildImpactPlan case = .ok plan) (hscope : ScopeLinked (case.dictAt "event"))
    (hbound : ∀ documentType ∈ specDocumentTypes, RowsBound case documentType "characteristics") :
    VerdictLaw case (ruleSpecConsistency case plan).status ↔
      Conflicting case ∨ Misbound case ∨ ¬StepShared case := by
  obtain ⟨hcontradicted, hunverifiable⟩ :=
    ruleSpecConsistency_status (prepareCase_accepted hprepared) hplan hscope hbound
  constructor
  · intro hlaw
    by_contra hnone
    obtain ⟨hconflict, hmisbound, hshared⟩ := by simpa only [not_or, not_not] using hnone
    exact (hlaw.contradicted (hcontradicted.mpr (Or.inr (Or.inr hshared)))).elim hconflict
      hmisbound
  · intro h
    refine ⟨fun hstatus => ?_, fun hconflict hmisbound hgap => ?_⟩
    · have hcause := hcontradicted.mp hstatus
      tauto
    · rw [hunverifiable]
      tauto

end Verdict

end Law

section Ascii

attribute [local instance] asciiUnicode

/-- The sample, with a row of another characteristic as the work instruction's only row. -/
def neighbourCase : Dict :=
  sampleCase (sampleEvent "LOW" [] []) (sampleDocuments.set 3 (sampleDocument "SOP" "SOP" "APPROVED"
    [("characteristics", .arr [sampleRow [("characteristic_id", .str "C2")]])] []))

/-- The case is accepted, native and planned, and its scope is linked. -/
lemma neighbourCase_accepted : prepareCase neighbourCase = .ok neighbourCase ∧
    neighbourCase.contains "relationship_migration" = false ∧
    (buildImpactPlan neighbourCase).toOption.isSome = true ∧
    ScopeLinked (neighbourCase.dictAt "event") := by
  have hcase : prepareCase neighbourCase = .ok neighbourCase ∧
      neighbourCase.contains "relationship_migration" = false ∧
      (buildImpactPlan neighbourCase).toOption.isSome = true ∧
      (neighbourCase.dictAt "event").rowsAt "affected_links" ≠ [] ∧
      ∀ characteristic ∈ (neighbourCase.dictAt "event").textsAt "affected_characteristics",
        ∃ link ∈ (neighbourCase.dictAt "event").rowsAt "affected_links",
          normalizedIdentity characteristic = (pairOf link).2 := by
    decide +kernel
  obtain ⟨hprepared, hnative, hplanned, hlinks, hlinked⟩ := hcase
  exact ⟨hprepared, hnative, hplanned, hlinks, hlinked⟩

lemma neighbourCase_planned : ∃ plan, buildImpactPlan neighbourCase = .ok plan :=
  exists_ok_of_isSome neighbourCase_accepted.2.2.1

lemma neighbourCase_bound (documentType : String) :
    RowsBound neighbourCase documentType "characteristics" := by
  intro hmigrated
  exact absurd hmigrated (by simp [neighbourCase_accepted.2.1])

/-- The law read at the case: there is a plan, and its only question is the shared step. -/
theorem ruleSpecConsistency_verdict_neighbour : ∃ plan,
    buildImpactPlan neighbourCase = .ok plan ∧
      (VerdictLaw neighbourCase (ruleSpecConsistency neighbourCase plan).status ↔
        Conflicting neighbourCase ∨ Misbound neighbourCase ∨ ¬StepShared neighbourCase) := by
  obtain ⟨hprepared, -, -, hscope⟩ := neighbourCase_accepted
  obtain ⟨plan, hplan⟩ := neighbourCase_planned
  exact ⟨plan, hplan, ruleSpecConsistency_verdict_iff hprepared hplan hscope
    fun documentType _ => neighbourCase_bound documentType⟩

/-- The work instruction lacks the pair's row and lists another characteristic of the step: no two
documents differ and none has the characteristic at another step, but the rule contradicts. -/
theorem ruleSpecConsistency_contradicts_neighbour : ∃ plan,
    prepareCase neighbourCase = .ok neighbourCase ∧ buildImpactPlan neighbourCase = .ok plan ∧
      ScopeLinked (neighbourCase.dictAt "event") ∧
      (∀ documentType ∈ specDocumentTypes,
        RowsBound neighbourCase documentType "characteristics") ∧
      ¬VerdictLaw neighbourCase (ruleSpecConsistency neighbourCase plan).status := by
  obtain ⟨hprepared, -, -, hscope⟩ := neighbourCase_accepted
  obtain ⟨plan, hplan⟩ := neighbourCase_planned
  have hcase := prepareCase_accepted hprepared
  refine ⟨plan, hprepared, hplan, hscope,
    fun documentType _ => neighbourCase_bound documentType, ?_⟩
  have hlink : ∀ link ∈ eventLinks neighbourCase, pairOf link = pairKey ("S1", "C1") := by
    decide +kernel
  intro hlaw
  have hshared : StepShared neighbourCase := by
    simp only [StepShared, exists_approved]
    decide +kernel
  have hstatus := (ruleSpecConsistency_status hcase hplan hscope
    fun documentType _ => neighbourCase_bound documentType).1.mpr (Or.inr (Or.inr hshared))
  rcases hlaw.contradicted hstatus with ⟨link, hlinks, hdisagree⟩ | hmisbound
  · simp only [exists_approved, hlink link hlinks] at hdisagree
    rw [← isConflict_readings (specDocuments_accepted hcase)] at hdisagree
    exact absurd hdisagree (by decide +kernel)
  · simp only [Misbound, exists_approved] at hmisbound
    exact absurd hmisbound (by decide +kernel)

end Ascii

end QualityCI

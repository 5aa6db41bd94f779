import QualityCI.Rules.Relations

/-!
# Agreement of specifications

The rule R002.  For every pair of the event's scope it reads the specification in the control
plan, the work instruction and the inspection record, and compares the three.  Numbers compare by
value, so `1` and `1.0` agree.

* `specTuple` — the specification of a row, when it is complete.
* `ruleSpecConsistency` — the rule.
* **`ruleSpecConsistency_pass_iff`** — when the rule passes.
-/

namespace QualityCI

open Py

/-! ## Specifications -/

/-- The value of a finite number that is no boolean.  An integer beyond the floats would raise;
no accepted case holds one. -/
def finiteNumber : Json → Option ℚ
  | .int n => if n.natAbs < overflowBound then some n else none
  | .float (.finite x) => some x.value
  | _ => none

/-- A specification's numbers, as written and by value, and its unit. -/
structure SpecTuple where
  target : Json
  minimum : Json
  maximum : Json
  unit : String

/-- What comparison sees of a tuple: the values and the unit. -/
def SpecTuple.key (spec : SpecTuple) : Option ℚ × Option ℚ × Option ℚ × String :=
  (finiteNumber spec.target, finiteNumber spec.minimum, finiteNumber spec.maximum, spec.unit)

/-- The numbers are finite and in order, and the unit is no blank. -/
def isUsable (spec : SpecTuple) : Bool :=
  match finiteNumber spec.target, finiteNumber spec.minimum, finiteNumber spec.maximum with
  | some target, some minimum, some maximum =>
      !isBlank spec.unit && decide (minimum ≤ target ∧ target ≤ maximum)
  | _, _, _ => false

/-- The tuple of a specification that has all four keys and a unit that is a string. -/
def tupleOf (specification : Dict) : Option SpecTuple :=
  match specification.get? "target", specification.get? "minimum", specification.get? "maximum",
    specification.get? "unit" with
  | some target, some minimum, some maximum, some (.str unit) =>
      some ⟨target, minimum, maximum, unit⟩
  | _, _, _, _ => none

/-- `_spec_tuple(item)`. -/
def specTuple (row : Dict) : Option SpecTuple :=
  match row.get? "specification" with
  | some (.obj specification) => (tupleOf specification).filter isUsable
  | _ => none

def SpecTuple.toJson (spec : SpecTuple) : Json :=
  .arr [spec.target, spec.minimum, spec.maximum, .str spec.unit]

variable [PyUnicode]

/-- `repr` of the tuple. -/
def SpecTuple.repr (spec : SpecTuple) : String :=
  s!"({spec.target.repr}, {spec.minimum.repr}, {spec.maximum.repr}, {strRepr spec.unit})"

/-! ## R002 -/

/-- The three documents that carry specifications. -/
def specDocumentTypes : List String := ["CONTROL_PLAN", "SOP", "INSPECTION_RECORD"]

/-- What one document says of one pair. -/
structure SpecReading where
  evidence : List Citation
  missing : List String := []
  misbound : List String := []
  values : List (String × SpecTuple) := []

/-- The reading of a pair that has no row. -/
def readMissingRow (doc : Dict) (pair : String × String) : SpecReading :=
  let label := doc.textAt "document_type" ++ ":" ++ pairLabel pair
  let missing := missingRelationshipEvidence doc "characteristics" pair
  match relationshipCandidates (fieldRows doc "characteristics") (pairKey pair) with
  | [] => { evidence := [missing], missing := [label] }
  | candidates =>
      { evidence := missing :: candidates.map (relationshipEvidence doc)
        missing := [label]
        misbound := [label] }

/-- The reading of a pair's row. -/
def readRow (doc : Dict) (pair : String × String) (row : Dict) : SpecReading :=
  let cited (entries : List (String × Json)) : Citation :=
    documentEvidence doc (locatorOf row "fields.characteristics")
      (.obj (Dict.ofList (("pair", .obj (relationshipExcerpt row)) :: entries)))
  match specTuple row with
  | none =>
      { evidence := [cited
          [("specification", row.getD "specification" (.str "FIELD_ABSENT")),
           ("status", .str "SPECIFICATION_INCOMPLETE_OR_INVALID")]]
        missing := [doc.textAt "document_type" ++ ":" ++ pairLabel pair] }
  | some spec =>
      { evidence := [cited [("specification", spec.toJson)]]
        values := [(doc.textAt "document_type", spec)] }

/-- The reading of a pair in a document. -/
def readSpec (pair : String × String) (doc : Dict) : SpecReading :=
  match characteristicAt doc (pairKey pair) with
  | none => readMissingRow doc pair
  | some row => readRow doc pair row

/-- `len(set(values)) > 1`: some value differs from the first. -/
def isConflict (values : List (String × SpecTuple)) : Bool :=
  match values with
  | [] => false
  | first :: rest => rest.any fun other => decide (other.2.key ≠ first.2.key)

/-- `f"{pair}={values}"`. -/
def conflictText (pair : String × String) (values : List (String × SpecTuple)) : String :=
  pairLabel pair ++ "=\x7b" ++
    join ", " (values.map fun v => strRepr v.1 ++ ": " ++ v.2.repr) ++ "\x7d"

/-- The conflicts of one pair, of which there is at most one. -/
def conflictsOf (docs : List Dict) (pair : String × String) : List String :=
  let values := docs.flatMap fun doc => (readSpec pair doc).values
  if isConflict values = true then [conflictText pair values] else []

/-- R002 once the scope is complete and every row names its step. -/
def compareSpecs (docs : List Dict) (plan : ImpactPlan) : Finding Citation :=
  let readings := plan.affectedLinks.flatMap fun pair => docs.map (readSpec pair)
  let evidence := readings.flatMap SpecReading.evidence
  let missing := readings.flatMap SpecReading.missing
  let misbound := readings.flatMap SpecReading.misbound
  let conflicts := plan.affectedLinks.flatMap (conflictsOf docs)
  if conflicts ≠ [] then
    finding "QCI-R002" "跨文档规格一致性" .contradicted
      ("发现规格或单位冲突：" ++ join "; " conflicts) evidence "HIGH"
      "由工艺/质量负责人确认权威规格后，同步控制计划、SOP与检验准则。"
      ["三类文件规格和单位完全一致", "修订记录包含Owner与批准信息"]
  else if misbound ≠ [] then
    finding "QCI-R002" "跨文档规格一致性" .contradicted
      ("同名特性绑定到错误工序：" ++ join ", " misbound) evidence "HIGH"
      "按affected_links修正文档的工序—特性关系。"
      ["控制计划、SOP与检验记录均按同一pair提供规格"]
  else if missing ≠ [] then
    finding "QCI-R002" "跨文档规格一致性" .unverifiable
      ("缺少可比较规格：" ++ join ", " missing) evidence "HIGH"
      "补齐缺失特性及其规格证据。" ["所有受影响特性在三类文件中均有可定位规格"]
  else
    finding "QCI-R002" "跨文档规格一致性" .pass
      "控制计划、SOP与检验记录中同一工序—特性pair的规格一致。" evidence "LOW"

/-- `rule_spec_consistency`. -/
def ruleSpecConsistency (case : Dict) (plan : ImpactPlan) : Finding Citation :=
  let event := case.dictAt "event"
  let unlisted := finding "QCI-R002" "跨文档规格一致性" .unverifiable
    "缺少控制计划、SOP、检验记录或受影响特性。"
    [eventEvidence event "affected_characteristics" (textsJson plan.affectedCharacteristics),
     documentTypesEvidence case]
  match documentByType case "CONTROL_PLAN", documentByType case "SOP",
    documentByType case "INSPECTION_RECORD" with
  | some control, some sop, some inspection =>
      if plan.affectedCharacteristics = [] then unlisted
      else if scopeRelationshipsComplete plan = false then
        finding "QCI-R002" "跨文档规格一致性" .unverifiable
          "缺少显式affected_links，不能确定应比较哪一道工序的同名特性。" [linksEvidence event] "HIGH"
      else
        match legacyUnboundEvidence case
          [(control, "characteristics"), (sop, "characteristics"),
           (inspection, "characteristics")] with
        | [] => compareSpecs [control, sop, inspection] plan
        | unbound =>
            finding "QCI-R002" "跨文档规格一致性" .unverifiable
              "旧版规格行没有显式工序关系，不能按pair比较。" unbound "HIGH"
  | _, _, _ => unlisted

/-! ## When R002 passes -/

/-- A row's specification is complete: three finite numbers in order and a unit. -/
structure CompleteSpecification (row : Dict) (target minimum maximum : ℚ) (unit : String) :
    Prop where
  spec : ∃ specification : Dict, row.get? "specification" = some (.obj specification) ∧
    (specification.get? "target").bind finiteNumber = some target ∧
    (specification.get? "minimum").bind finiteNumber = some minimum ∧
    (specification.get? "maximum").bind finiteNumber = some maximum ∧
    specification.get? "unit" = some (.str unit)
  ordered : minimum ≤ target ∧ target ≤ maximum
  named : isBlank unit = false

/-- The three documents have rows of the pair with one complete specification. -/
def SpecsAgree (case : Dict) (key : String × String) : Prop :=
  ∃ target minimum maximum unit, ∀ documentType ∈ specDocumentTypes,
    Approved case documentType fun doc => ∃ row ∈ fieldRows doc "characteristics",
      NamesPair row key ∧ CompleteSpecification row target minimum maximum unit

/-- What R002 asks of a case. -/
structure Consistent (case : Dict) : Prop where
  characteristics : (case.dictAt "event").textsAt "affected_characteristics" ≠ []
  scope : ScopeLinked (case.dictAt "event")
  bound : ∀ documentType ∈ specDocumentTypes, RowsBound case documentType "characteristics"
  agree : ∀ link ∈ (case.dictAt "event").rowsAt "affected_links", SpecsAgree case (pairOf link)

/-- The key of a complete specification. -/
def completeKey (target minimum maximum : ℚ) (unit : String) :
    Option ℚ × Option ℚ × Option ℚ × String :=
  (some target, some minimum, some maximum, unit)

omit [PyUnicode] in
lemma tupleOf_eq_some {specification : Dict} {spec : SpecTuple} :
    tupleOf specification = some spec ↔ specification.get? "target" = some spec.target ∧
      specification.get? "minimum" = some spec.minimum ∧
      specification.get? "maximum" = some spec.maximum ∧
      specification.get? "unit" = some (.str spec.unit) := by
  obtain ⟨target, minimum, maximum, unit⟩ := spec
  unfold tupleOf
  split
  · rename_i t lo hi u ht hlo hhi hu
    simp [ht, hlo, hhi, hu]
  · rename_i hno
    simp only [reduceCtorEq, false_iff]
    rintro ⟨ht, hlo, hhi, hu⟩
    exact hno _ _ _ _ ht hlo hhi hu

omit [PyUnicode] in
lemma isUsable_iff {spec : SpecTuple} :
    isUsable spec = true ↔ ∃ target minimum maximum,
      spec.key = completeKey target minimum maximum spec.unit ∧
      (minimum ≤ target ∧ target ≤ maximum) ∧ isBlank spec.unit = false := by
  unfold isUsable SpecTuple.key completeKey
  cases ht : finiteNumber spec.target with
  | none => simp
  | some target =>
      cases hlo : finiteNumber spec.minimum with
      | none => simp
      | some minimum =>
          cases hhi : finiteNumber spec.maximum with
          | none => simp
          | some maximum =>
              simp only [Bool.and_eq_true, Bool.not_eq_true', decide_eq_true_eq, Prod.mk.injEq,
                Option.some.injEq, and_true]
              constructor
              · rintro ⟨hunit, hle⟩
                exact ⟨target, minimum, maximum, ⟨rfl, rfl, rfl⟩, hle, hunit⟩
              · rintro ⟨_, _, _, ⟨rfl, rfl, rfl⟩, hle, hunit⟩
                exact ⟨hunit, hle⟩

omit [PyUnicode] in
/-- A row's tuple with given values is a complete specification with these values. -/
lemma specTuple_eq_some {row : Dict} {target minimum maximum : ℚ} {unit : String} :
    (∃ spec, specTuple row = some spec ∧ spec.key = completeKey target minimum maximum unit) ↔
      CompleteSpecification row target minimum maximum unit := by
  constructor
  · rintro ⟨spec, hspec, hkey⟩
    unfold specTuple at hspec
    split at hspec
    · rename_i specification hget
      rw [Option.filter_eq_some_iff, tupleOf_eq_some, isUsable_iff] at hspec
      obtain ⟨⟨ht, hlo, hhi, hu⟩, t, lo, hi, hkey', hle, hblank⟩ := hspec
      rw [hkey'] at hkey
      simp only [completeKey, Prod.mk.injEq, Option.some.injEq] at hkey
      obtain ⟨rfl, rfl, rfl, rfl⟩ := hkey
      simp only [SpecTuple.key, completeKey, Prod.mk.injEq, and_true] at hkey'
      refine ⟨⟨specification, hget, ?_, ?_, ?_, hu⟩, hle, hblank⟩
      · rw [ht]
        exact hkey'.1
      · rw [hlo]
        exact hkey'.2.1
      · rw [hhi]
        exact hkey'.2.2
    · exact absurd hspec (by simp)
  · rintro ⟨⟨specification, hget, ht, hlo, hhi, hu⟩, hle, hblank⟩
    rw [Option.bind_eq_some_iff] at ht hlo hhi
    obtain ⟨vt, ht, hvt⟩ := ht
    obtain ⟨vlo, hlo, hvlo⟩ := hlo
    obtain ⟨vhi, hhi, hvhi⟩ := hhi
    have hkey : SpecTuple.key ⟨vt, vlo, vhi, unit⟩ = completeKey target minimum maximum unit := by
      simp only [SpecTuple.key, completeKey, hvt, hvlo, hvhi]
    refine ⟨⟨vt, vlo, vhi, unit⟩, ?_, hkey⟩
    unfold specTuple
    rw [hget]
    simp only [Option.filter_eq_some_iff, tupleOf_eq_some, isUsable_iff]
    exact ⟨⟨ht, hlo, hhi, hu⟩, target, minimum, maximum, hkey, hle, hblank⟩

omit [PyUnicode] in
/-- Every tuple of a row is complete for some values. -/
lemma specTuple_key {row : Dict} {spec : SpecTuple} (h : specTuple row = some spec) :
    ∃ target minimum maximum unit, spec.key = completeKey target minimum maximum unit := by
  unfold specTuple at h
  split at h
  · rw [Option.filter_eq_some_iff, isUsable_iff] at h
    obtain ⟨-, target, minimum, maximum, hkey, -⟩ := h
    exact ⟨target, minimum, maximum, _, hkey⟩
  · exact absurd h (by simp)

/-- A reading without gaps has the tuple of the pair's row. -/
lemma readSpec_missing_eq_nil {pair : String × String} {doc : Dict} :
    (readSpec pair doc).missing = [] ↔ ∃ row spec, characteristicAt doc (pairKey pair) = some row ∧
      specTuple row = some spec ∧
      (readSpec pair doc).values = [(doc.textAt "document_type", spec)] := by
  unfold readSpec
  cases hrow : characteristicAt doc (pairKey pair) with
  | none =>
      simp only [reduceCtorEq, false_and, exists_false, iff_false]
      unfold readMissingRow
      split <;> simp
  | some row =>
      cases hspec : specTuple row with
      | none => simp [readRow, hspec]
      | some spec => simp [readRow, hspec]

lemma readSpec_misbound_eq_nil {pair : String × String} {doc : Dict}
    (h : (readSpec pair doc).missing = []) : (readSpec pair doc).misbound = [] := by
  obtain ⟨row, spec, hrow, hspec, -⟩ := readSpec_missing_eq_nil.mp h
  simp [readSpec, hrow, readRow, hspec]

omit [PyUnicode] in
/-- Values do not conflict exactly when all have the key of any one. -/
lemma isConflict_eq_false {values : List (String × SpecTuple)} :
    isConflict values = false ↔ ∀ v ∈ values, ∀ w ∈ values, v.2.key = w.2.key := by
  cases values with
  | nil => simp [isConflict]
  | cons first rest =>
      unfold isConflict
      rw [List.any_eq_false]
      simp only [decide_eq_true_eq, ne_eq, not_not]
      constructor
      · intro h v hv w hw
        have hfirst : ∀ u ∈ first :: rest, u.2.key = first.2.key := fun u hu =>
          (List.mem_cons.mp hu).elim (fun heq => by rw [heq]) (h u)
        rw [hfirst v hv, hfirst w hw]
      · intro h v hv
        exact h v (List.mem_cons_of_mem _ hv) first List.mem_cons_self

/-- What no reading of a pair holds, no list collected from them holds. -/
lemma readings_eq_nil {docs : List Dict} {links : List (String × String)} {α : Type}
    (field : SpecReading → List α) :
    (links.flatMap fun pair => docs.map (readSpec pair)).flatMap field = [] ↔
      ∀ pair ∈ links, ∀ doc ∈ docs, field (readSpec pair doc) = [] := by
  simp only [List.flatMap_eq_nil_iff, List.mem_flatMap, List.mem_map]
  constructor
  · intro h pair hpair doc hdoc
    exact h _ ⟨pair, hpair, doc, hdoc, rfl⟩
  · rintro h _ ⟨pair, hpair, doc, hdoc, rfl⟩
    exact h pair hpair doc hdoc

lemma conflicts_eq_nil {docs : List Dict} {links : List (String × String)} :
    links.flatMap (conflictsOf docs) = [] ↔ ∀ pair ∈ links,
      isConflict (docs.flatMap fun doc => (readSpec pair doc).values) = false := by
  rw [List.flatMap_eq_nil_iff]
  refine forall₂_congr fun pair _ => ?_
  unfold conflictsOf
  simp

/-- **What the rule says of the pairs**, from its readings. -/
theorem compareSpecs_status (docs : List Dict) (plan : ImpactPlan) :
    (compareSpecs docs plan).status =
      if (∃ pair ∈ plan.affectedLinks,
          isConflict (docs.flatMap fun doc => (readSpec pair doc).values) = true) ∨
        ∃ pair ∈ plan.affectedLinks, ∃ doc ∈ docs, (readSpec pair doc).misbound ≠ [] then
        .contradicted
      else if ∃ pair ∈ plan.affectedLinks, ∃ doc ∈ docs, (readSpec pair doc).missing ≠ [] then
        .unverifiable
      else .pass := by
  have hconflicts : plan.affectedLinks.flatMap (conflictsOf docs) ≠ [] ↔
      ∃ pair ∈ plan.affectedLinks,
        isConflict (docs.flatMap fun doc => (readSpec pair doc).values) = true := by
    rw [ne_eq, conflicts_eq_nil]
    simp
  have hreadings : ∀ {α : Type} (field : SpecReading → List α),
      (plan.affectedLinks.flatMap fun pair => docs.map (readSpec pair)).flatMap field ≠ [] ↔
        ∃ pair ∈ plan.affectedLinks, ∃ doc ∈ docs, field (readSpec pair doc) ≠ [] := by
    intro α field
    rw [ne_eq, readings_eq_nil]
    simp
  simp only [compareSpecs, apply_ite Finding.status, finding_status]
  by_cases hconflict : plan.affectedLinks.flatMap (conflictsOf docs) ≠ []
  · rw [if_pos hconflict, if_pos (Or.inl (hconflicts.mp hconflict))]
  by_cases hmisbound :
      (plan.affectedLinks.flatMap fun pair => docs.map (readSpec pair)).flatMap
        SpecReading.misbound ≠ []
  · rw [if_neg hconflict, if_pos hmisbound, if_pos (Or.inr ((hreadings _).mp hmisbound))]
  rw [if_neg hconflict, if_neg hmisbound,
    if_neg (not_or.mpr ⟨mt hconflicts.mpr hconflict, mt (hreadings _).mpr hmisbound⟩)]
  exact if_congr (hreadings _) rfl rfl

lemma compareSpecs_pass_iff {docs : List Dict} {plan : ImpactPlan} :
    (compareSpecs docs plan).status = .pass ↔ ∀ pair ∈ plan.affectedLinks,
      (∀ doc ∈ docs, (readSpec pair doc).missing = []) ∧
        isConflict (docs.flatMap fun doc => (readSpec pair doc).values) = false := by
  rw [compareSpecs_status]
  constructor
  · intro h pair hpair
    split_ifs at h with hbad hmissing
    refine ⟨fun doc hdoc => ?_, ?_⟩
    · by_contra hne
      exact hmissing ⟨pair, hpair, doc, hdoc, hne⟩
    · by_contra hne
      exact hbad (Or.inl ⟨pair, hpair, by simpa using hne⟩)
  · intro h
    have hmissing : ¬∃ pair ∈ plan.affectedLinks, ∃ doc ∈ docs,
        (readSpec pair doc).missing ≠ [] := by
      rintro ⟨pair, hpair, doc, hdoc, hne⟩
      exact hne ((h pair hpair).1 doc hdoc)
    rw [if_neg ?_, if_neg hmissing]
    rintro (⟨pair, hpair, hconflict⟩ | ⟨pair, hpair, doc, hdoc, hne⟩)
    · rw [(h pair hpair).2] at hconflict
      exact absurd hconflict (by simp)
    · exact hne (readSpec_misbound_eq_nil ((h pair hpair).1 doc hdoc))

/-- No gaps and no conflict: the rows of the pair carry one complete specification. -/
lemma readings_agree_iff {docs : List Dict} (hne : docs ≠ [])
    (haccepted : ∀ doc ∈ docs, ∃ migrated referenceMigration,
      AcceptedDocument migrated referenceMigration doc) {pair : String × String} :
    ((∀ doc ∈ docs, (readSpec pair doc).missing = []) ∧
      isConflict (docs.flatMap fun doc => (readSpec pair doc).values) = false) ↔
      ∃ target minimum maximum unit, ∀ doc ∈ docs, ∃ row ∈ fieldRows doc "characteristics",
        NamesPair row (pairKey pair) ∧ CompleteSpecification row target minimum maximum unit := by
  rw [isConflict_eq_false]
  simp only [List.mem_flatMap]
  constructor
  · rintro ⟨hmissing, hkeys⟩
    obtain ⟨first, hfirst⟩ := List.exists_mem_of_ne_nil docs hne
    obtain ⟨row₀, spec₀, -, hspec₀, hvalues₀⟩ := readSpec_missing_eq_nil.mp (hmissing first hfirst)
    obtain ⟨target, minimum, maximum, unit, hkey⟩ := specTuple_key hspec₀
    refine ⟨target, minimum, maximum, unit, fun doc hdoc => ?_⟩
    obtain ⟨row, spec, hrow, hspec, hvalues⟩ := readSpec_missing_eq_nil.mp (hmissing doc hdoc)
    obtain ⟨_, _, hd⟩ := haccepted doc hdoc
    have hfound := (characteristicAt_eq_some hd).mp hrow
    have hsame : spec.key = spec₀.key :=
      hkeys (doc.textAt "document_type", spec) ⟨doc, hdoc, by simp [hvalues]⟩
        (first.textAt "document_type", spec₀) ⟨first, hfirst, by simp [hvalues₀]⟩
    exact ⟨row, hfound.1, hfound.2, specTuple_eq_some.mp ⟨spec, hspec, hsame.trans hkey⟩⟩
  · rintro ⟨target, minimum, maximum, unit, hall⟩
    have hread : ∀ doc ∈ docs, (readSpec pair doc).missing = [] ∧
        ∀ v ∈ (readSpec pair doc).values, v.2.key = completeKey target minimum maximum unit := by
      intro doc hdoc
      obtain ⟨row, hmem, hnames, hcomplete⟩ := hall doc hdoc
      obtain ⟨spec, hspec, hkey⟩ := specTuple_eq_some.mpr hcomplete
      obtain ⟨_, _, hd⟩ := haccepted doc hdoc
      have hrow := (characteristicAt_eq_some hd).mpr ⟨hmem, hnames⟩
      simp [readSpec, hrow, readRow, hspec, hkey]
    refine ⟨fun doc hdoc => (hread doc hdoc).1, ?_⟩
    rintro v ⟨d, hd, hv⟩ w ⟨e, he, hw⟩
    rw [(hread d hd).2 v hv, (hread e he).2 w hw]

/-- The rule's check of the rows' bindings, as a condition on the case. -/
lemma unboundSpecs_eq_nil {case control sop inspection : Dict} (hcase : AcceptedCase case)
    (hcontrol : documentByType case "CONTROL_PLAN" = some control)
    (hsop : documentByType case "SOP" = some sop)
    (hinspection : documentByType case "INSPECTION_RECORD" = some inspection) :
    legacyUnboundEvidence case [(control, "characteristics"), (sop, "characteristics"),
      (inspection, "characteristics")] = [] ↔
      ∀ documentType ∈ specDocumentTypes, RowsBound case documentType "characteristics" := by
  rw [legacyUnboundEvidence_eq_nil]
  simp only [specDocumentTypes, List.forall_mem_cons, List.not_mem_nil, IsEmpty.forall_iff,
    implies_true, and_true, rowsBound_iff hcase (Or.inl rfl) hcontrol,
    rowsBound_iff hcase (Or.inl rfl) hsop, rowsBound_iff hcase (Or.inl rfl) hinspection]
  exact ⟨fun h => ⟨fun hm => (h hm).1, fun hm => (h hm).2.1, fun hm => (h hm).2.2⟩,
    fun h hm => ⟨h.1 hm, h.2.1 hm, h.2.2 hm⟩⟩

/-- **R002.** -/
theorem ruleSpecConsistency_pass_iff {case : Dict} {plan : ImpactPlan}
    (hcase : AcceptedCase case) (hplan : buildImpactPlan case = .ok plan) :
    (ruleSpecConsistency case plan).status = .pass ↔ Consistent case := by
  obtain ⟨control, hcontrol⟩ := documentByType_accepted hcase (show "CONTROL_PLAN" ∈ _ by decide)
  obtain ⟨sop, hsop⟩ := documentByType_accepted hcase (show "SOP" ∈ _ by decide)
  obtain ⟨inspection, hinspection⟩ :=
    documentByType_accepted hcase (show "INSPECTION_RECORD" ∈ _ by decide)
  have hscope := scopeRelationshipsComplete_iff hcase hplan
  have hchars := (buildImpactPlan_scope hcase hplan).2.1
  have hdocs : ∀ P : Dict → Prop, (∀ documentType ∈ specDocumentTypes,
      Approved case documentType P) ↔ ∀ doc ∈ [control, sop, inspection], P doc := by
    intro P
    simp only [specDocumentTypes, List.forall_mem_cons, List.not_mem_nil, IsEmpty.forall_iff,
      implies_true, and_true, approved_iff hcontrol, approved_iff hsop, approved_iff hinspection]
  have hbound := unboundSpecs_eq_nil hcase hcontrol hsop hinspection
  have haccepted : ∀ doc ∈ [control, sop, inspection], ∃ migrated referenceMigration,
      AcceptedDocument migrated referenceMigration doc := by
    intro doc hdoc
    simp only [List.mem_cons, List.not_mem_nil, or_false] at hdoc
    rcases hdoc with rfl | rfl | rfl
    · exact ⟨_, _, acceptedDocument_of_mem hcase (documentByType_mem hcontrol).1⟩
    · exact ⟨_, _, acceptedDocument_of_mem hcase (documentByType_mem hsop).1⟩
    · exact ⟨_, _, acceptedDocument_of_mem hcase (documentByType_mem hinspection).1⟩
  simp only [ruleSpecConsistency, hcontrol, hsop, hinspection]
  split_ifs with hempty hcomplete
  · simp only [finding_status, reduceCtorEq, false_iff]
    intro hall
    rw [hchars, sortedSet_eq_nil] at hempty
    exact hall.characteristics hempty
  · simp only [finding_status, reduceCtorEq, false_iff]
    intro hall
    rw [hscope.mpr hall.scope] at hcomplete
    exact absurd hcomplete (by decide)
  · have hlinked := hscope.mp (by simpa using hcomplete)
    rw [hchars, sortedSet_eq_nil] at hempty
    split
    · rename_i hnil
      have hread : ∀ pair, ((∀ doc ∈ [control, sop, inspection], (readSpec pair doc).missing = []) ∧
          isConflict ([control, sop, inspection].flatMap fun doc => (readSpec pair doc).values) =
            false) ↔ SpecsAgree case (pairKey pair) := by
        intro pair
        rw [readings_agree_iff (List.cons_ne_nil _ _) haccepted]
        unfold SpecsAgree
        simp only [hdocs]
      rw [compareSpecs_pass_iff]
      simp only [hread]
      rw [forall_affectedLinks hcase hplan (P := SpecsAgree case)]
      constructor
      · intro hagree
        exact ⟨hempty, hlinked, hbound.mp hnil, hagree⟩
      · intro hall
        exact hall.agree
    · rename_i unbound hne
      simp only [finding_status, reduceCtorEq, false_iff]
      intro hall
      exact hne (hbound.mpr hall.bound)

end QualityCI

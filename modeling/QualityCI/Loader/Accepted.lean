import QualityCI.Loader.Validate

/-!
# What an accepted case looks like

The validator's success, stated as facts about the case: which fields are there, of which shape,
and which keys are distinct.  Each structure is the conclusion of one lemma `…_accepted` about the
function of the validator that checks it; later results use the structures and never the
validator.

* `IsLink`, `IsRequirement`, `IsEvidence`, `IsApproval` — the rows of an event.
* `AcceptedEvent` — an accepted event.
* `IsCharacteristic`, `IsRisk`, `AcceptedDocument` — rows of a document, and the document.
* `AcceptedCase`, **`validateCase_accepted`** — an accepted case.
* `sampleCase` — a small accepted case, with its event's revision, risk, approvals and further
  fields, and its documents, given.
-/

namespace QualityCI

open Py

/-! ## Shapes -/

/-- A string with something in it stands under the key. -/
def HasText (d : Dict) (key : String) : Prop :=
  d.get? key = some (.str (d.textAt key)) ∧ isBlank (d.textAt key) = false

/-- A list of dictionaries stands under the key, and `P` holds of them. -/
def RowsWith (d : Dict) (key : String) (P : List Dict → Prop) : Prop :=
  d.get? key = some (.arr ((d.rowsAt key).map .obj)) ∧ P (d.rowsAt key)

/-- Nothing or `None` stands under the key, or a list of dictionaries of which `P` holds. -/
def OptionalRowsWith (d : Dict) (key : String) (P : List Dict → Prop) : Prop :=
  d.present? key = none ∨ RowsWith d key P

/-- Nothing stands under the key, or a list of dictionaries of which `P` holds. -/
def DefaultRowsWith (d : Dict) (key : String) (P : List Dict → Prop) : Prop :=
  d.get? key = none ∨ RowsWith d key P

/-- A list of strings stands under the key. -/
def TextsAt (d : Dict) (key : String) : Prop :=
  d.get? key = some (.arr ((d.textsAt key).map .str)) ∧ ∀ s ∈ d.textsAt key, isBlank s = false

/-- One of some strings stands under the key. -/
def EnumAt (d : Dict) (key : String) (allowed : List String) : Prop :=
  d.get? key = some (.str (d.textAt key)) ∧ d.textAt key ∈ allowed

/-- A value under the key, if any, satisfies `P`. -/
def OptionalAt (d : Dict) (key : String) (P : Json → Prop) : Prop :=
  ∀ v, d.get? key = some v → P v

section Shapes

variable {d : Dict} {key : String}

lemma HasText.of_get? {s : String} (h : d.get? key = some (.str s)) (hs : isBlank s = false) :
    HasText d key := by
  rw [HasText, Dict.textAt_eq h]
  exact ⟨h, hs⟩

lemma hasText_iff_textAt : HasText d key ↔ isBlank (d.textAt key) = false := by
  have hblank : isBlank "" = true := by decide
  constructor
  · intro h
    exact h.2
  · intro h
    refine ⟨?_, h⟩
    unfold Dict.textAt at h ⊢
    cases hv : d.get? key with
    | none => simp [hv, hblank] at h
    | some v =>
        cases v with
        | str s => rfl
        | _ => simp [hv, Json.str?, hblank] at h

lemma EnumAt.of_get? {s : String} {allowed : List String} (h : d.get? key = some (.str s))
    (hs : s ∈ allowed) : EnumAt d key allowed := by
  rw [EnumAt, Dict.textAt_eq h]
  exact ⟨h, hs⟩

lemma RowsWith.of_get? {rows : List Dict} {P : List Dict → Prop}
    (h : d.get? key = some (.arr (rows.map .obj))) (hP : P rows) : RowsWith d key P := by
  rw [RowsWith, Dict.rowsAt_eq h]
  exact ⟨h, hP⟩

lemma TextsAt.of_get? {ss : List String} (h : d.get? key = some (.arr (ss.map .str)))
    (hs : ∀ s ∈ ss, isBlank s = false) : TextsAt d key := by
  rw [TextsAt, Dict.textsAt_eq h]
  exact ⟨h, hs⟩

lemma Dict.rowsAt_of_present?_none (h : d.present? key = none) : d.rowsAt key = [] := by
  rcases Dict.present?_eq_none.mp h with h | h <;> simp [Dict.rowsAt, h, Json.arr?]

lemma Dict.textsAt_of_present?_none (h : d.present? key = none) : d.textsAt key = [] := by
  rcases Dict.present?_eq_none.mp h with h | h <;> simp [Dict.textsAt, h, Json.arr?]

/-- What holds of the rows holds of an absent list's, when it holds of none. -/
lemma OptionalRowsWith.rows {P : List Dict → Prop} (h : OptionalRowsWith d key P) (h0 : P []) :
    P (d.rowsAt key) := by
  rcases h with h | h
  · rw [Dict.rowsAt_of_present?_none h]
    exact h0
  · exact h.2

lemma DefaultRowsWith.rows {P : List Dict → Prop} (h : DefaultRowsWith d key P) (h0 : P []) :
    P (d.rowsAt key) := by
  rcases h with h | h
  · rw [Dict.rowsAt_of_present?_none (Dict.present?_eq_none.mpr (Or.inl h))]
    exact h0
  · exact h.2

@[simp] lemma requireDict_eq_ok {v : Json} {m : String} : requireDict v m = .ok d ↔ v = .obj d := by
  cases v <;> simp [requireDict]

lemma requireDicts_eq_ok {items : List Json} {m : String} {rows : List Dict} :
    requireDicts items m = .ok rows ↔ items = rows.map .obj := by
  induction items generalizing rows with
  | nil => cases rows <;> simp [requireDicts]
  | cons x xs ih =>
      cases x with
      | obj e => cases rows <;> simp [requireDicts, ih, and_comm]
      | _ => cases rows <;> simp [requireDicts]

lemma requireOptionalString_eq_ok {m : String} {u : Unit} :
    requireOptionalString d key m = .ok u ↔ OptionalAt d key fun v => ∃ s, v = .str s := by
  unfold requireOptionalString OptionalAt
  cases d.get? key with
  | none => simp
  | some v => simp

lemma requireOptionalDate_eq_ok {label : String} {u : Unit}
    (h : requireOptionalDate d key label = .ok u) : OptionalAt d key IsIsoDate := by
  unfold requireOptionalDate at h
  intro v hv
  rw [hv] at h
  exact requireIsoDate_eq_ok h

lemma validateMarker_eq_ok {marker : Option Json} {check : Json → Result Unit} {u : Unit} :
    validateMarker marker check = .ok u ↔ ∀ m, marker = some m → check m = .ok () := by
  unfold validateMarker
  cases marker with
  | none => simp
  | some m => simp

/-- Members that are dictionaries make a list of dictionaries. -/
lemma exists_rows {items : List Json} {P : Dict → Prop}
    (h : ∀ x ∈ items, ∃ e, x = .obj e ∧ P e) :
    ∃ rows : List Dict, items = rows.map .obj ∧ ∀ r ∈ rows, P r := by
  induction items with
  | nil => exact ⟨[], rfl, by simp⟩
  | cons x xs ih =>
      obtain ⟨⟨e, rfl, he⟩, hxs⟩ := List.forall_mem_cons.mp h
      obtain ⟨rows, rfl, hrows⟩ := ih hxs
      exact ⟨e :: rows, rfl, List.forall_mem_cons.mpr ⟨he, hrows⟩⟩

end Shapes

section Accepted

variable [PyUnicode]

/-! ## The event -/

/-- The normalized pair a row names. -/
def pairOf (row : Dict) : String × String :=
  relationshipKey (row.textAt "process_step_id") (row.textAt "characteristic_id")

/-- A link between identities the event declares. -/
structure IsLink (event : Dict) (link : Dict) : Prop where
  step : HasText link "process_step_id"
  characteristic : HasText link "characteristic_id"
  stepDeclared :
    (pairOf link).1 ∈ (event.textsAt "affected_process_steps").map normalizedIdentity
  characteristicDeclared :
    (pairOf link).2 ∈ (event.textsAt "affected_characteristics").map normalizedIdentity

/-- The links of an event: no normalized pair twice. -/
structure AreLinks (event : Dict) (links : List Dict) : Prop where
  each : ∀ l ∈ links, IsLink event l
  distinct : (links.map pairOf).Nodup

/-- A required piece of evidence. -/
structure IsRequirement (requirement : Dict) : Prop where
  keys : requirement.keys = requirementKeys
  text : ∀ key ∈ requirementKeys, HasText requirement key
  window : ∃ s t, parseTimestamp (requirement.textAt "valid_from") = some s ∧
    parseTimestamp (requirement.textAt "valid_until") = some t ∧ instantOrder s ≤ instantOrder t

/-- The normalized identity of a piece of evidence. -/
def evidenceIdOf (row : Dict) : String := normalizedIdentity (row.textAt "evidence_id")

lemma map_evidenceIdOf (rows : List Dict) :
    rows.map evidenceIdOf = (rows.map fun r => r.textAt "evidence_id").map normalizedIdentity := by
  simp [evidenceIdOf]

/-- The required evidence of a plan. -/
structure AreRequirements (requirements : List Dict) : Prop where
  each : ∀ r ∈ requirements, IsRequirement r
  nonempty : requirements ≠ []
  distinct : (requirements.map evidenceIdOf).Nodup

/-- A validation plan. -/
structure IsPlan (plan : Dict) : Prop where
  keys : plan.keys = ["contract_version", "required_evidence"]
  version : plan.get? "contract_version" = some (.str "qualityci-validation-plan-0.1")
  evidence : RowsWith plan "required_evidence" AreRequirements

/-- A piece of validation evidence. -/
structure IsEvidence (item : Dict) : Prop where
  id : HasText item "evidence_id"
  result : EnumAt item "result" validationResults
  locator : item.get? "locator" = some (.str (item.textAt "locator"))

/-- The validation evidence of an event. -/
structure AreEvidence (items : List Dict) : Prop where
  each : ∀ r ∈ items, IsEvidence r
  distinct : (items.map evidenceIdOf).Nodup

/-- An approval. -/
structure IsApproval (item : Dict) : Prop where
  role : HasText item "role"
  decision : EnumAt item "decision" approvalDecisions
  revision : HasText item "event_revision"

/-- The subject of an approval, in raw spelling. -/
def approvalSubject (item : Dict) : String × String :=
  (item.textAt "role", item.textAt "event_revision")

/-- The approvals of an event: no raw subject twice. -/
structure AreApprovals (items : List Dict) : Prop where
  each : ∀ r ∈ items, IsApproval r
  distinct : (items.map approvalSubject).Nodup

/-- A list of the event's scope: distinct identities. -/
structure IsScope (event : Dict) (key : String) : Prop where
  texts : TextsAt event key
  distinct : ((event.textsAt key).map normalizedIdentity).Nodup

/-- An accepted event. -/
structure AcceptedEvent (event : Dict) (validationMigration : Option Json) : Prop where
  eventId : HasText event "event_id"
  revision : HasText event "revision"
  eventType : EnumAt event "event_type" eventTypes
  riskLevel : EnumAt event "risk_level" riskLevels
  steps : IsScope event "affected_process_steps"
  characteristics : IsScope event "affected_characteristics"
  links : OptionalRowsWith event "affected_links" (AreLinks event)
  approvedAt : OptionalAt event "approved_at" IsIsoDate
  plan : (event.present? "validation_plan" = none ∧ validationMigration.isSome = true) ∨
    ∃ plan, event.get? "validation_plan" = some (.obj plan) ∧ IsPlan plan
  evidence : OptionalRowsWith event "validation_evidence" AreEvidence
  approvals : OptionalRowsWith event "approvals" AreApprovals

lemma validateLink_accepted {stepKeys characteristicKeys : List String} {i : ℕ}
    {met met' : List (String × String)} {x : Json}
    (h : validateLink stepKeys characteristicKeys i met x = .ok met') :
    (∃ link, x = .obj link ∧ HasText link "process_step_id" ∧ HasText link "characteristic_id" ∧
      (pairOf link).1 ∈ stepKeys ∧ (pairOf link).2 ∈ characteristicKeys) ∧
    met' = (x.obj?.map pairOf).toList ++ met ∧ ∀ k ∈ x.obj?.map pairOf, k ∉ met := by
  simp only [validateLink, bind_eq_ok, requireDict_eq_ok, exists_unit, require_eq_ok,
    Dict.getItem_eq_ok, requireNonemptyString_eq_ok, Except.ok.injEq] at h
  obtain ⟨link, rfl, -, _, hstep, s, ⟨rfl, hs⟩, _, hchar, c, ⟨rfl, hc⟩, hnew, hmem, rfl⟩ := h
  have hpair : pairOf link = relationshipKey s c := by
    rw [pairOf, Dict.textAt_eq hstep, Dict.textAt_eq hchar]
  refine ⟨⟨link, rfl, .of_get? hstep hs, .of_get? hchar hc, ?_⟩, ?_, ?_⟩
  · rw [hpair]
    exact hmem
  · simp [Json.obj?, hpair]
  · simpa [Json.obj?, hpair] using hnew

omit [PyUnicode] in
lemma filterMap_obj?_map {α : Type} (f : Dict → α) (rows : List Dict) :
    (rows.map Json.obj).filterMap (fun x => x.obj?.map f) = rows.map f := by
  simp [List.filterMap_map, Json.obj?]

lemma validateAffectedLinks_accepted {event : Dict} {key : String} {v : Json}
    (hv : event.get? key = some v) {u : Unit}
    (h : validateAffectedLinks (event.textsAt "affected_process_steps")
      (event.textsAt "affected_characteristics") v = .ok u) :
    RowsWith event key (AreLinks event) := by
  simp only [validateAffectedLinks, bind_eq_ok, requireBoundedList_eq_ok] at h
  obtain ⟨items, ⟨rfl, -⟩, met, hloop, -⟩ := h
  obtain ⟨heach, hnodup, -⟩ := enumerateM_distinct (fun met => met) (fun x => x.obj?.map pairOf)
    _ (fun _ _ _ _ => validateLink_accepted) hloop
  obtain ⟨rows, rfl, hrows⟩ := exists_rows heach
  rw [filterMap_obj?_map] at hnodup
  exact .of_get? hv ⟨fun l hl => ⟨(hrows l hl).1, (hrows l hl).2.1, (hrows l hl).2.2.1,
    (hrows l hl).2.2.2⟩, hnodup⟩

lemma validateScope_accepted {event : Dict} {key : String} {ss : List String}
    (h : validateScope event key = .ok ss) : IsScope event key ∧ ss = event.textsAt key := by
  simp only [validateScope, bind_eq_ok, Dict.getItem_eq_ok, requireStringList_eq_ok, exists_unit,
    rejectNormalizedDuplicates_eq_ok, Except.ok.injEq] at h
  obtain ⟨_, hv, ss, ⟨rfl, -, hblank⟩, hnodup, rfl⟩ := h
  have heq := Dict.textsAt_eq hv
  refine ⟨⟨.of_get? hv hblank, ?_⟩, heq.symm⟩
  rw [heq]
  exact hnodup

omit [PyUnicode] in
lemma validateRequirement_accepted {i : ℕ} {ids ids' : List String} {x : Json}
    (h : validateRequirement i ids x = .ok ids') :
    (∃ requirement, x = .obj requirement ∧ IsRequirement requirement) ∧
      ids' = ((x.obj?.map fun r => r.textAt "evidence_id").getD "") :: ids := by
  simp only [validateRequirement, bind_eq_ok, requireDict_eq_ok, exists_unit, require_eq_ok,
    Dict.getItem_eq_ok, requireNonemptyString_eq_ok, forEach_eq_ok, parseRfc3339Utc_eq_ok,
    Except.ok.injEq] at h
  obtain ⟨req, rfl, hkeys, htext, _, hid, id, ⟨rfl, -⟩, _, hfrom, from', ⟨s, t, rfl, hs, rfl⟩, _,
    huntil, until', ⟨s', t', rfl, hs', rfl⟩, hle, rfl⟩ := h
  refine ⟨⟨req, rfl, hkeys, fun key hkey => ?_, t, t', ?_, ?_, hle⟩, ?_⟩
  · obtain ⟨_, hv, s, ⟨rfl, hblank⟩, -⟩ := htext key hkey
    exact .of_get? hv hblank
  · rw [Dict.textAt_eq hfrom]
    exact hs
  · rw [Dict.textAt_eq huntil]
    exact hs'
  · simp [Json.obj?, Dict.textAt_eq hid]

lemma validateValidationPlan_accepted {event : Dict} {migration : Option Json} {u : Unit}
    (h : validateValidationPlan (event.present? "validation_plan") migration = .ok u) :
    (event.present? "validation_plan" = none ∧ migration.isSome = true) ∨
      ∃ plan, event.get? "validation_plan" = some (.obj plan) ∧ IsPlan plan := by
  cases hplan : event.present? "validation_plan" with
  | none =>
      rw [hplan] at h
      simp only [validateValidationPlan, require_eq_ok] at h
      exact Or.inl ⟨rfl, h⟩
  | some v =>
      rw [hplan] at h
      simp only [validateValidationPlan, bind_eq_ok, requireDict_eq_ok, exists_unit, require_eq_ok,
        Dict.getItem_eq_ok, requireBoundedList_eq_ok, rejectNormalizedDuplicates_eq_ok] at h
      obtain ⟨plan, rfl, hkeys, _, hversion, rfl, _, hevidence, items, ⟨rfl, -⟩, hne, ids, hloop,
        hnodup⟩ := h
      obtain ⟨heach, hids⟩ := enumerateM_collect
        (fun x : Json => (x.obj?.map fun r => Dict.textAt r "evidence_id").getD "") _
        (fun _ _ _ _ => validateRequirement_accepted) hloop
      obtain ⟨rows, rfl, hrows⟩ := exists_rows heach
      refine Or.inr ⟨plan, (Dict.present?_eq_some.mp hplan).1, hkeys, hversion,
        .of_get? hevidence ⟨hrows, ?_, ?_⟩⟩
      · rintro rfl
        exact hne rfl
      · rw [hids] at hnodup
        rw [map_evidenceIdOf]
        simpa [Json.obj?, Function.comp_def] using hnodup

lemma validateEvidenceItem_accepted {i : ℕ} {ids ids' : List String} {item : Dict}
    (h : validateEvidenceItem i ids item = .ok ids') :
    IsEvidence item ∧ ids' = item.textAt "evidence_id" :: ids := by
  simp only [validateEvidenceItem, bind_eq_ok, exists_unit, require_eq_ok, Dict.getItem_eq_ok,
    requireNonemptyString_eq_ok, requireEnum_eq_ok, Json.isStr_iff, Except.ok.injEq] at h
  obtain ⟨-, _, hid, id, ⟨rfl, hblank⟩, _, hresult, r, ⟨rfl, hr⟩, _, hlocator, ⟨l, rfl⟩, -, rfl⟩ :=
    h
  refine ⟨⟨.of_get? hid hblank, .of_get? hresult hr, ?_⟩, ?_⟩
  · rw [Dict.textAt_eq hlocator]
    exact hlocator
  · rw [Dict.textAt_eq hid]

lemma validateValidationEvidence_accepted {event : Dict} {v : Json} {key : String}
    (hv : event.get? key = some v) {u : Unit} (h : validateValidationEvidence v = .ok u) :
    RowsWith event key AreEvidence := by
  simp only [validateValidationEvidence, bind_eq_ok, requireBoundedList_eq_ok, requireDicts_eq_ok,
    rejectNormalizedDuplicates_eq_ok] at h
  obtain ⟨items, ⟨rfl, -⟩, rows, rfl, ids, hloop, hnodup⟩ := h
  obtain ⟨heach, hids⟩ := enumerateM_collect (fun r : Dict => r.textAt "evidence_id") _
    (fun _ _ _ _ => validateEvidenceItem_accepted) hloop
  refine .of_get? hv ⟨heach, ?_⟩
  rw [hids] at hnodup
  rw [map_evidenceIdOf]
  simpa using hnodup

lemma validateApproval_accepted {i : ℕ} {met met' : List (String × String)} {item : Dict}
    (h : validateApproval i met item = .ok met') :
    IsApproval item ∧ met' = approvalSubject item :: met ∧ approvalSubject item ∉ met := by
  simp only [validateApproval, bind_eq_ok, exists_unit, require_eq_ok, Dict.getItem_eq_ok,
    requireNonemptyString_eq_ok, requireEnum_eq_ok, Except.ok.injEq] at h
  obtain ⟨-, _, hrole, role, ⟨rfl, hblank⟩, _, hdecision, r, ⟨rfl, hr⟩, _, hrev, rev,
    ⟨rfl, hblank'⟩, hnew, -, -, rfl⟩ := h
  have hsubject : approvalSubject item = (role, rev) := by
    rw [approvalSubject, Dict.textAt_eq hrole, Dict.textAt_eq hrev]
  rw [hsubject]
  exact ⟨⟨.of_get? hrole hblank, .of_get? hdecision hr, .of_get? hrev hblank'⟩, rfl, hnew⟩

lemma validateApprovals_accepted {event : Dict} {v : Json} {key : String}
    (hv : event.get? key = some v) {u : Unit} (h : validateApprovals v = .ok u) :
    RowsWith event key AreApprovals := by
  simp only [validateApprovals, bind_eq_ok, requireBoundedList_eq_ok, requireDicts_eq_ok] at h
  obtain ⟨items, ⟨rfl, -⟩, rows, rfl, met, hloop, -⟩ := h
  obtain ⟨heach, hnodup⟩ := enumerateM_distinct_keys approvalSubject _
    (fun _ _ _ _ => validateApproval_accepted) hloop
  exact .of_get? hv ⟨heach, hnodup⟩

omit [PyUnicode] in
/-- An optional section that is checked when present. -/
lemma optionalRows_accepted {event : Dict} {key : String} {check : Json → Result Unit}
    {P : List Dict → Prop} {u : Unit}
    (hcheck : ∀ v, event.get? key = some v → check v = .ok () → RowsWith event key P)
    (h : validateMarker (event.present? key) check = .ok u) : OptionalRowsWith event key P := by
  rw [validateMarker_eq_ok] at h
  cases hv : event.present? key with
  | none => exact Or.inl hv
  | some v => exact Or.inr (hcheck v (Dict.present?_eq_some.mp hv).1 (h v hv))

/-- **What an accepted event is.** -/
theorem validateEvent_accepted {v : Json} {migration : Option Json} {u : Unit}
    (h : validateEvent v migration = .ok u) :
    ∃ event, v = .obj event ∧ AcceptedEvent event migration := by
  simp only [validateEvent, bind_eq_ok, exists_unit, requireDict_eq_ok, Dict.getItem_eq_ok,
    requireNonemptyString_eq_ok, requireEnum_eq_ok] at h
  obtain ⟨event, rfl, -, _, hid, id, ⟨rfl, hidb⟩, _, hrev, rev, ⟨rfl, hrevb⟩, _, htype, type,
    ⟨rfl, htypem⟩, _, hrisk, risk, ⟨rfl, hriskm⟩, steps, hsteps, chars, hchars, hlinks, hdate, -,
    hplan, hevidence, happrovals⟩ := h
  obtain ⟨hstepScope, rfl⟩ := validateScope_accepted hsteps
  obtain ⟨hcharScope, rfl⟩ := validateScope_accepted hchars
  exact ⟨event, rfl, .of_get? hid hidb, .of_get? hrev hrevb, .of_get? htype htypem,
    .of_get? hrisk hriskm, hstepScope, hcharScope,
    optionalRows_accepted (fun _ hv h => validateAffectedLinks_accepted hv h) hlinks,
    requireOptionalDate_eq_ok hdate, validateValidationPlan_accepted hplan,
    optionalRows_accepted (fun _ hv h => validateValidationEvidence_accepted hv h) hevidence,
    optionalRows_accepted (fun _ hv h => validateApprovals_accepted hv h) happrovals⟩

/-! ## Documents -/

/-- A row that names its process step, as every row of a native case does. -/
structure IsBound (fields : Dict) (row : Dict) : Prop where
  step : HasText row "process_step_id"
  declared : (pairOf row).1 ∈ (fields.textsAt "process_steps").map normalizedIdentity

/-- A row without a process step, which only a migrated case may hold. -/
def IsUnbound (migrated : Bool) (row : Dict) : Prop :=
  row.getD "process_step_id" .null = .null ∧ migrated = true

/-- A finite number that is no boolean. -/
def IsFiniteNumber : Json → Prop
  | .int n => n.natAbs < overflowBound
  | .float x => x.isFinite = true
  | _ => False

/-- A specification: finite numbers and a unit, any of which may be missing. -/
structure IsSpecification (specification : Dict) : Prop where
  number : ∀ key ∈ ["target", "minimum", "maximum"], OptionalAt specification key IsFiniteNumber
  unit : OptionalAt specification "unit" fun v => ∃ s, v = .str s

/-- A characteristic row. -/
structure IsCharacteristic (migrated : Bool) (documentType : String) (fields : Dict)
    (row : Dict) : Prop where
  characteristic : HasText row "characteristic_id"
  bound : IsUnbound migrated row ∨ (IsBound fields row ∧
    (documentType = "CONTROL_PLAN" → HasText row "control_id"))
  locator : HasText row "locator"
  specification : ∀ v, row.present? "specification" = some v →
    ∃ specification, v = .obj specification ∧ IsSpecification specification
  text : ∀ key ∈ ["control_method", "frequency", "reaction_plan"],
    OptionalAt row key fun v => ∃ s, v = .str s

/-- The pair of a row that names its process step. -/
def boundPair (migrated : Bool) (row : Dict) : Option (String × String) :=
  if row.getD "process_step_id" .null = .null ∧ migrated = true then none else some (pairOf row)

/-- The characteristic rows of a document: no pair twice among those that name a process step. -/
structure AreCharacteristics (migrated : Bool) (documentType : String) (fields : Dict)
    (rows : List Dict) : Prop where
  each : ∀ r ∈ rows, IsCharacteristic migrated documentType fields r
  distinct : (rows.filterMap (boundPair migrated)).Nodup

/-- A risk row. -/
structure IsRisk (migrated : Bool) (fields : Dict) (row : Dict) : Prop where
  failureMode : HasText row "failure_mode_id"
  characteristic : HasText row "characteristic_id"
  locator : HasText row "locator"
  bound : IsUnbound migrated row ∨ IsBound fields row
  special : row.get? "special_characteristic" = some (.bool true) ∨
    row.get? "special_characteristic" = some (.bool false)
  effect : OptionalAt row "effect" fun v => ∃ s, v = .str s

/-- The normalized failure mode of a risk row. -/
def failureModeOf (row : Dict) : String := normalizedIdentity (row.textAt "failure_mode_id")

/-- The risk rows of a document: no failure mode twice. -/
structure AreRisks (migrated : Bool) (fields : Dict) (rows : List Dict) : Prop where
  each : ∀ r ∈ rows, IsRisk migrated fields r
  distinct : (rows.map failureModeOf).Nodup

/-- A native reference: an exact document identity. -/
structure IsNativeReference (identity : Dict) : Prop where
  keys : identity.keys = referenceIdentityKeys
  text : ∀ key ∈ referenceIdentityKeys, HasText identity key
  hash : isLowercaseSha256 (identity.textAt "source_hash") = true

/-- The references of a document. -/
inductive IsReferences (referenceMigration : Option Json) (references : Dict) : Prop
  | legacy (keys : references.keys = ["LEGACY_UNATTESTED"])
      (marker : referenceMigration.isSome = true)
  | native (keys : "LEGACY_UNATTESTED" ∉ references.keys)
      (distinct : (references.keys.map normalizedIdentity).Nodup)
      (each : ∀ e ∈ references, ∃ identity, e.2 = .obj identity ∧ IsNativeReference identity)

/-- The rows under a document's `fields`. -/
structure AcceptedFields (migrated : Bool) (documentType : String) (fields : Dict) : Prop where
  steps : fields.present? "process_steps" = none ∨ IsScope fields "process_steps"
  characteristics :
    DefaultRowsWith fields "characteristics" (AreCharacteristics migrated documentType fields)
  risks : DefaultRowsWith fields "risks" (AreRisks migrated fields)

/-- An accepted document. -/
structure AcceptedDocument (migrated : Bool) (referenceMigration : Option Json)
    (doc : Dict) : Prop where
  id : HasText doc "document_id"
  revision : HasText doc "revision"
  hash : HasText doc "source_hash"
  date : ∃ s, doc.get? "revision_date" = some (.str s) ∧ (parseIsoDate s).isSome = true
  type : EnumAt doc "document_type" requiredDocumentTypes
  status : EnumAt doc "status" documentStatuses
  fields : doc.get? "fields" = some (.obj (doc.dictAt "fields"))
  rows : AcceptedFields migrated (doc.textAt "document_type") (doc.dictAt "fields")
  waiver : ∀ v, doc.get? "approved_waiver" = some v → ∃ waiver, v = .obj waiver
  references : ∀ v, (doc.dictAt "fields").present? "references" = some v →
    ∃ references, v = .obj references ∧ IsReferences referenceMigration references

lemma validateControl_eq_ok {id label : String} {isControlPlan : Bool} {met met' : List String}
    {item : Dict} (h : validateControl id label isControlPlan met item = .ok met') :
    isControlPlan = true → HasText item "control_id" := by
  intro hc
  simp only [validateControl, hc, ↓reduceIte, bind_eq_ok, requireNonemptyString_eq_ok,
    exists_unit, require_eq_ok, Except.ok.injEq] at h
  obtain ⟨s, ⟨hs, hblank⟩, -⟩ := h
  refine .of_get? ?_ hblank
  unfold Dict.getD at hs
  cases hv : item.get? "control_id" with
  | none => simp [hv] at hs
  | some v => simpa [hv] using hs

omit [PyUnicode] in
lemma hasText_of_getD {row : Dict} {key s : String} (h : row.getD key .null = .str s)
    (hs : isBlank s = false) : HasText row key := by
  refine .of_get? ?_ hs
  unfold Dict.getD at h
  cases hv : row.get? key with
  | none => simp [hv] at h
  | some v => simpa [hv] using h

lemma validateCharacteristic_accepted {id documentType : String} {migrated : Bool} {fields : Dict}
    {i : ℕ} {met met' : CharacteristicKeys} {row : Dict}
    (h : validateCharacteristic id (documentType = "CONTROL_PLAN") migrated
      ((fields.textsAt "process_steps").map normalizedIdentity) i met row = .ok met') :
    (HasText row "characteristic_id" ∧ (IsUnbound migrated row ∨ (IsBound fields row ∧
      (documentType = "CONTROL_PLAN" → HasText row "control_id")))) ∧
    met'.relationships = (boundPair migrated row).toList ++ met.relationships ∧
      ∀ k ∈ boundPair migrated row, k ∉ met.relationships := by
  simp only [validateCharacteristic, bind_eq_ok, requireNonemptyString_eq_ok] at h
  obtain ⟨c, ⟨hc, hcb⟩, h⟩ := h
  have hchar := hasText_of_getD hc hcb
  unfold boundPair
  split_ifs at h ⊢ with hlegacy
  · obtain rfl := Except.ok.inj h
    exact ⟨⟨hchar, Or.inl hlegacy⟩, rfl, by simp⟩
  · simp only [validateBoundCharacteristic, bind_eq_ok, requireNonemptyString_eq_ok, exists_unit,
      require_eq_ok, Except.ok.injEq] at h
    obtain ⟨s, ⟨hs, hsb⟩, hnew, hmem, controls, hcontrols, rfl⟩ := h
    have hstep := hasText_of_getD hs hsb
    have hpair : pairOf row = relationshipKey s c := by
      have hs' := hstep.1
      have hc' := hchar.1
      rw [Dict.getD, hs', Option.getD_some, Json.str.injEq] at hs
      rw [Dict.getD, hc', Option.getD_some, Json.str.injEq] at hc
      rw [pairOf, hs, hc]
    refine ⟨⟨hchar, Or.inr ⟨⟨hstep, hpair ▸ hmem⟩, fun ht => ?_⟩⟩, by simp [hpair], ?_⟩
    · exact validateControl_eq_ok hcontrols (by simpa using ht)
    · simpa [hpair] using hnew

omit [PyUnicode] in
lemma requireFiniteNumber_eq_ok {v : Json} {m : String} {u : Unit}
    (h : requireFiniteNumber v m = .ok u) : IsFiniteNumber v := by
  cases v with
  | int n =>
      simp only [requireFiniteNumber] at h
      split_ifs at h with hn
      exact hn
  | float x =>
      simp only [requireFiniteNumber, require_eq_ok] at h
      exact h
  | _ => simp [requireFiniteNumber] at h

omit [PyUnicode] in
lemma validateSpecification_accepted {id : String} {v : Json} {u : Unit}
    (h : validateSpecification id v = .ok u) : ∃ s, v = .obj s ∧ IsSpecification s := by
  simp only [validateSpecification, bind_eq_ok, requireDict_eq_ok, exists_unit, forEach_eq_ok,
    requireOptionalString_eq_ok] at h
  obtain ⟨s, rfl, hnumbers, hunit⟩ := h
  refine ⟨s, rfl, fun key hkey v hv => ?_, hunit⟩
  have := hnumbers key hkey
  rw [hv] at this
  exact requireFiniteNumber_eq_ok this

lemma validateRisk_accepted {id : String} {migrated : Bool} {fields : Dict} {i : ℕ}
    {met met' : List String} {row : Dict}
    (h : validateRisk id migrated ((fields.textsAt "process_steps").map normalizedIdentity) i met
      row = .ok met') :
    IsRisk migrated fields row ∧ met' = failureModeOf row :: met ∧ failureModeOf row ∉ met := by
  simp only [validateRisk, bind_eq_ok, exists_unit, require_eq_ok, Dict.getItem_eq_ok,
    requireNonemptyString_eq_ok, forEach_eq_ok, requireOptionalString_eq_ok,
    Except.ok.injEq] at h
  obtain ⟨-, htext, _, hmode, mode, ⟨rfl, -⟩, hnew, hstep, special, hspecial, hbool, heffect,
    rfl⟩ := h
  have text : ∀ key ∈ ["failure_mode_id", "characteristic_id", "locator"], HasText row key := by
    intro key hkey
    obtain ⟨_, hv, s, ⟨rfl, hblank⟩, -⟩ := htext key hkey
    exact .of_get? hv hblank
  have hbound : IsUnbound migrated row ∨ IsBound fields row := by
    unfold validateRiskStep at hstep
    split_ifs at hstep with hlegacy
    · exact Or.inl hlegacy
    · simp only [bind_eq_ok, requireNonemptyString_eq_ok, require_eq_ok] at hstep
      obtain ⟨s, ⟨hs, hsb⟩, hmem⟩ := hstep
      have hstep := hasText_of_getD hs hsb
      rw [Dict.getD, hstep.1, Option.getD_some, Json.str.injEq] at hs
      refine Or.inr ⟨hstep, ?_⟩
      change normalizedIdentity (row.textAt "process_step_id") ∈ _
      rw [hs]
      exact hmem
  have hmodeOf : failureModeOf row = normalizedIdentity mode := by
    rw [failureModeOf, Dict.textAt_eq hmode]
  rw [hmodeOf]
  refine ⟨⟨text _ (by simp), text _ (by simp), text _ (by simp), hbound, ?_, heffect⟩, rfl, hnew⟩
  rcases hbool with rfl | rfl
  · exact Or.inl hspecial
  · exact Or.inr hspecial

lemma validateNativeReference_accepted {id : String} {e : String × Json} {u : Unit}
    (h : validateNativeReference id e = .ok u) :
    ∃ identity, e.2 = .obj identity ∧ IsNativeReference identity := by
  simp only [validateNativeReference, bind_eq_ok, exists_unit, requireDict_eq_ok, require_eq_ok,
    Dict.getItem_eq_ok, requireNonemptyString_eq_ok, forEach_eq_ok] at h
  obtain ⟨identity, hid, hkeys, htext, hash, hhash, hlower⟩ := h
  have text : ∀ key ∈ referenceIdentityKeys, HasText identity key := by
    intro key hkey
    obtain ⟨_, hv, s, ⟨rfl, hblank⟩, -⟩ := htext key hkey
    exact .of_get? hv hblank
  refine ⟨identity, hid, hkeys, text, ?_⟩
  have heq := (text "source_hash" (by simp [referenceIdentityKeys])).1
  rw [heq, Option.some.injEq] at hhash
  rw [← hhash] at hlower
  exact hlower

lemma validateReferences_accepted {id : String} {migration : Option Json} {v : Json} {u : Unit}
    (h : validateReferences id migration v = .ok u) :
    ∃ references, v = .obj references ∧ IsReferences migration references := by
  simp only [validateReferences, bind_eq_ok, exists_unit, requireDict_eq_ok, require_eq_ok,
    rejectNormalizedDuplicates_eq_ok] at h
  obtain ⟨references, rfl, -, hnodup, h⟩ := h
  refine ⟨references, rfl, ?_⟩
  split_ifs at h with hlegacy
  · simp only [bind_eq_ok, exists_unit, require_eq_ok] at h
    exact .legacy hlegacy h.1
  · simp only [bind_eq_ok, exists_unit, require_eq_ok, forEach_eq_ok] at h
    exact .native h.1 hnodup fun e he => validateNativeReference_accepted (h.2 e he)

lemma validateFields_accepted {id documentType : String} {migrated : Bool} {fields : Dict}
    {u : Unit} (h : validateFields id documentType migrated fields = .ok u) :
    AcceptedFields migrated documentType fields := by
  simp only [validateFields, bind_eq_ok, exists_unit, requireBoundedList_eq_ok,
    requireDicts_eq_ok, forEach_eq_ok] at h
  obtain ⟨steps, hsteps, _, ⟨hchars, -⟩, chars, rfl, met, hloop, hfields, _, ⟨hrisks, -⟩, risks,
    rfl, met', hloop', -⟩ := h
  have hscope : (fields.present? "process_steps" = none ∨ IsScope fields "process_steps") ∧
      steps = fields.textsAt "process_steps" := by
    cases hv : fields.present? "process_steps" with
    | none =>
        rw [hv] at hsteps
        obtain rfl := Except.ok.inj hsteps
        exact ⟨Or.inl rfl, (Dict.textsAt_of_present?_none hv).symm⟩
    | some v =>
        rw [hv] at hsteps
        simp only [validateProcessSteps, bind_eq_ok, requireStringList_eq_ok, exists_unit,
          rejectNormalizedDuplicates_eq_ok, Except.ok.injEq] at hsteps
        obtain ⟨ss, ⟨rfl, -, hblank⟩, hnodup, rfl⟩ := hsteps
        have hget := (Dict.present?_eq_some.mp hv).1
        have heq := Dict.textsAt_eq hget
        exact ⟨Or.inr ⟨.of_get? hget hblank, heq.symm ▸ hnodup⟩, heq.symm⟩
  obtain ⟨hscope, rfl⟩ := hscope
  -- a missing list is read as the empty one
  have hdefault : ∀ {key : String} {rows : List Dict} {P : List Dict → Prop},
      fields.getD key (.arr []) = .arr (rows.map .obj) → P rows → DefaultRowsWith fields key P := by
    intro key rows P hget hP
    unfold Dict.getD at hget
    cases hv : fields.get? key with
    | none => exact Or.inl hv
    | some v =>
        rw [hv, Option.getD_some] at hget
        exact Or.inr (.of_get? (hget ▸ hv) hP)
  refine ⟨hscope, hdefault hchars ?_, hdefault hrisks ?_⟩
  · obtain ⟨heach, hnodup, -⟩ := enumerateM_distinct CharacteristicKeys.relationships
      (boundPair migrated) _ (fun _ _ _ _ => validateCharacteristic_accepted) hloop
    refine ⟨fun r hr => ?_, hnodup⟩
    obtain ⟨hchar, hbound⟩ := heach r hr
    have hrest := hfields r hr
    simp only [validateCharacteristicFields, bind_eq_ok, exists_unit, Dict.getItem_eq_ok,
      requireNonemptyString_eq_ok, validateMarker_eq_ok, forEach_eq_ok,
      requireOptionalString_eq_ok] at hrest
    obtain ⟨_, -, l, ⟨hl, hlb⟩, hspec, htext⟩ := hrest
    exact ⟨hchar, hbound, hasText_of_getD hl hlb,
      fun v hv => validateSpecification_accepted (hspec v hv), htext⟩
  · obtain ⟨heach, hnodup⟩ := enumerateM_distinct_keys failureModeOf
      (IsRisk migrated fields) (fun _ _ _ _ h => validateRisk_accepted h) hloop'
    exact ⟨heach, hnodup⟩

/-- **What an accepted document is.** -/
theorem validateDocument_accepted {migration referenceMigration : Option Json} {doc : Dict}
    {u : Unit} (h : validateDocument migration referenceMigration doc = .ok u) :
    AcceptedDocument migration.isSome referenceMigration doc := by
  simp only [validateDocument, bind_eq_ok, exists_unit, requireDict_eq_ok, require_eq_ok,
    Dict.getItem_eq_ok, requireNonemptyString_eq_ok, requireEnum_eq_ok, validateMarker_eq_ok] at h
  obtain ⟨-, _, hid, id, ⟨rfl, hidb⟩, _, hrev, rev, ⟨rfl, hrevb⟩, _, -, owner, ⟨rfl, -⟩, _, hhash,
    hash, ⟨rfl, hhashb⟩, -, date, hdate, hiso, _, htype, type, ⟨rfl, htypem⟩, _, hstatus, status,
    ⟨rfl, hstatusm⟩, _, hfields, fields, rfl, hwaiver, hrows, -, hrefs⟩ := h
  obtain ⟨s, rfl, hs⟩ := requireIsoDate_eq_ok hiso
  have hdict := Dict.dictAt_eq hfields
  have htext := Dict.textAt_eq htype
  refine ⟨.of_get? hid hidb, .of_get? hrev hrevb, .of_get? hhash hhashb, ⟨s, hdate, hs⟩,
    .of_get? htype htypem, .of_get? hstatus hstatusm, by rw [hdict]; exact hfields, ?_, ?_, ?_⟩
  · rw [hdict, htext]
    exact validateFields_accepted hrows
  · intro v hv
    have := hwaiver v hv
    simp only [validateWaiver, bind_eq_ok, requireDict_eq_ok] at this
    obtain ⟨waiver, rfl, -⟩ := this
    exact ⟨waiver, rfl⟩
  · intro v hv
    rw [hdict] at hv
    exact validateReferences_accepted (hrefs v hv)

/-- The normalized identity of a document. -/
def documentIdOf (doc : Dict) : String := normalizedIdentity (doc.textAt "document_id")

lemma map_documentIdOf (docs : List Dict) :
    docs.map documentIdOf = (docs.map fun d => d.textAt "document_id").map normalizedIdentity := by
  simp [documentIdOf]

/-- The documents of a case. -/
structure AreDocuments (migrated : Bool) (referenceMigration : Option Json)
    (documents : List Dict) : Prop where
  each : ∀ d ∈ documents, AcceptedDocument migrated referenceMigration d
  distinct : (documents.map documentIdOf).Nodup
  approved : ∀ type ∈ requiredDocumentTypes, approvedCount documents type = 1

lemma validateDocuments_accepted {case : Dict} {key : String} {v : Json}
    {migration referenceMigration : Option Json} (hv : case.get? key = some v) {u : Unit}
    (h : validateDocuments v migration referenceMigration = .ok u) :
    RowsWith case key (AreDocuments migration.isSome referenceMigration) := by
  simp only [validateDocuments, bind_eq_ok, exists_unit, requireBoundedList_eq_ok,
    requireDicts_eq_ok, rejectNormalizedDuplicates_eq_ok, forEach_eq_ok, require_eq_ok] at h
  obtain ⟨items, ⟨rfl, -⟩, docs, rfl, ids, hids, hnodup, heach, hcount⟩ := h
  obtain ⟨-, heq⟩ := enumerateM_collect (fun d : Dict => d.textAt "document_id") (fun _ => True)
    (fun i s x s' hx => by
      simp only [validateDocumentId, bind_eq_ok, requireNonemptyString_eq_ok, Except.ok.injEq] at hx
      obtain ⟨id, ⟨hid, hb⟩, rfl⟩ := hx
      have htext := hasText_of_getD hid hb
      rw [Dict.getD, htext.1, Option.getD_some, Json.str.injEq] at hid
      exact ⟨trivial, by rw [hid]⟩) hids
  refine .of_get? hv ⟨fun d hd => validateDocument_accepted (heach d hd), ?_, fun type ht => ?_⟩
  · rw [map_documentIdOf]
    rw [heq] at hnodup
    simpa using hnodup
  · by_contra hne
    have : type ∈ requiredDocumentTypes.filter fun type => approvedCount docs type ≠ 1 := by
      simp [ht, hne]
    rw [hcount] at this
    simp at this

/-! ## The case -/

/-- An accepted case. -/
structure AcceptedCase (case : Dict) : Prop where
  version : case.get? "schema_version" = some (.str caseSchemaVersion)
  caseId : HasText case "case_id"
  event : case.get? "event" = some (.obj (case.dictAt "event"))
  acceptedEvent : AcceptedEvent (case.dictAt "event") (case.present? "validation_migration")
  documents : RowsWith case "documents"
    (AreDocuments (case.present? "relationship_migration").isSome
      (case.present? "reference_migration"))

/-- **What an accepted case is.** -/
theorem validateCase_accepted {case : Dict} {u : Unit} (h : validateCaseDict case = .ok u) :
    AcceptedCase case := by
  simp only [validateCaseDict, bind_eq_ok, exists_unit, require_eq_ok, Dict.getItem_eq_ok,
    requireNonemptyString_eq_ok, validateMarker_eq_ok] at h
  obtain ⟨-, _, hversion, rfl, _, hsynthetic, rfl, _, hid, id, ⟨rfl, hidb⟩, -, -, -, _, hevent,
    hvalid, docs, hdocs, hvalidDocs⟩ := h
  obtain ⟨event, rfl, haccepted⟩ := validateEvent_accepted hvalid
  have hdict := Dict.dictAt_eq hevent
  exact ⟨hversion, .of_get? hid hidb, by rw [hdict]; exact hevent, by rw [hdict]; exact haccepted,
    validateDocuments_accepted hdocs hvalidDocs⟩

end Accepted

/-! ## A small case

One process step, one characteristic and five documents: the least a case needs to be accepted.
The arguments are the parts that a particular question varies.  Its texts are ASCII, where the
Unicode operations are the identity and the lowercase letters.
-/

/-- One required piece of evidence. -/
def sampleRequirement : Json := .obj <| Dict.ofList
  [("evidence_id", .str "VAL-1"), ("evidence_type", .str "TRIAL"), ("claim", .str "torque holds"),
   ("issuer_id", .str "LAB"), ("issuer_role", .str "QUALITY"),
   ("valid_from", .str "2026-01-01T00:00:00Z"), ("valid_until", .str "2026-12-31T00:00:00Z")]

/-- An approval of a role at revision 2. -/
def sampleApproval (role : String) : Json := .obj <| Dict.ofList
  [("role", .str role), ("decision", .str "APPROVED"), ("event_revision", .str "2")]

/-- The event, with the fields in which it varies. -/
def sampleEvent (riskLevel : String) (approvals : List Json) (more : List (String × Json)) :
    Dict :=
  Dict.ofList <|
    [("event_id", .str "EV-1"), ("event_type", .str "ENGINEERING_CHANGE"), ("revision", .str "2"),
     ("risk_level", .str riskLevel), ("affected_process_steps", .arr [.str "S1"]),
     ("affected_characteristics", .arr [.str "C1"]),
     ("affected_links", .arr [.obj <| Dict.ofList
       [("process_step_id", .str "S1"), ("characteristic_id", .str "C1")]]),
     ("validation_plan", .obj <| Dict.ofList
       [("contract_version", .str "qualityci-validation-plan-0.1"),
        ("required_evidence", .arr [sampleRequirement])]),
     ("approvals", .arr approvals)] ++ more

/-- A document with the given type, status, fields and further entries. -/
def sampleDocument (id type status : String) (fields : List (String × Json))
    (more : List (String × Json)) : Json :=
  .obj <| Dict.ofList <|
    [("document_id", .str id), ("document_type", .str type), ("revision", .str "2"),
     ("status", .str status), ("owner", .str "QA"), ("revision_date", .str "2026-02-01"),
     ("source_hash", .str id), ("fields", .obj <| Dict.ofList <|
       ("process_steps", .arr [.str "S1"]) :: fields)] ++ more

/-- The specification all three rows carry. -/
def sampleSpecification : Json := .obj <| Dict.ofList
  [("target", .int 10), ("minimum", .int 9), ("maximum", .int 11), ("unit", .str "Nm")]

/-- A characteristic row with the given further entries. -/
def sampleRow (more : List (String × Json)) : Json :=
  .obj <| Dict.ofList <|
    [("process_step_id", .str "S1"), ("characteristic_id", .str "C1"), ("locator", .str "row 1"),
     ("specification", sampleSpecification)] ++ more

/-- A special risk. -/
def sampleRisk : Json := .obj <| Dict.ofList
  [("failure_mode_id", .str "FM-1"), ("process_step_id", .str "S1"),
   ("characteristic_id", .str "C1"), ("special_characteristic", .bool true),
   ("locator", .str "risk 1")]

/-- The five approved documents. -/
def sampleDocuments : List Json :=
  [sampleDocument "FLOW" "PROCESS_FLOW" "APPROVED" [] [],
   sampleDocument "PFMEA" "PFMEA" "APPROVED" [("risks", .arr [sampleRisk])] [],
   sampleDocument "CP" "CONTROL_PLAN" "APPROVED"
     [("characteristics", .arr [sampleRow
       [("control_id", .str "K1"), ("control_method", .str "torque wrench"),
        ("frequency", .str "every part"), ("reaction_plan", .str "stop")]])] [],
   sampleDocument "SOP" "SOP" "APPROVED" [("characteristics", .arr [sampleRow []])] [],
   sampleDocument "IR" "INSPECTION_RECORD" "APPROVED" [("characteristics", .arr [sampleRow []])]
     [("reference_contract_version", .str "qualityci-controlled-reference-0.1")]]

/-- The case with a given event and documents. -/
def sampleCase (event : Dict) (documents : List Json) : Dict :=
  Dict.ofList
    [("schema_version", .str caseSchemaVersion), ("case_id", .str "CASE-1"),
     ("synthetic_for_competition", .bool true), ("event", .obj event),
     ("documents", .arr documents)]

section Ascii

attribute [local instance] asciiUnicode

example : validateCase (.obj (sampleCase (sampleEvent "LOW" [] []) sampleDocuments)) = .ok () := by
  decide +kernel

end Ascii

end QualityCI

import QualityCI.Engine.AcceptedOrder
import QualityCI.Engine.Returns

/-!
# What a validation is about

Validation evidence is bound to a case by two hashes.  The subject hash is taken of the projection
of the case without the fields that come after the validation, the scope digest of the identity,
the scope and the plan of the event.  Both sort the arrays again, by keys of their own.

* `validationCaseSubject`, `validationCaseSubjectHash` — the case without what comes after.
* `validationScope`, `validationScopeDigest` — the scope of the event.
* `upstream` — the case as the subject hash sees it, before any sorting.
* `canonicalCaseProjection_upstream` — taking fields away and projecting do not interfere.
-/

namespace QualityCI

open Py

/-! ## Editing a dictionary -/

/-- `for key in keys: d.pop(key, None)`. -/
def popAll (d : Dict) (keys : List String) : Dict := keys.foldl Dict.erase d

/-- `if key in d: d[key] = f(d[key])`. -/
def adjust (d : Dict) (key : String) (f : Json → Json) : Dict :=
  match d.get? key with
  | some v => d.set key (f v)
  | none => d

/-- A function of dictionaries, on the values that are one. -/
def onDict (f : Dict → Dict) : Json → Json
  | .obj d => .obj (f d)
  | v => v

@[simp] lemma get?_popAll (d : Dict) (keys : List String) (key : String) :
    (popAll d keys).get? key = if key ∈ keys then none else d.get? key := by
  induction keys generalizing d with
  | nil => simp [popAll]
  | cons k rest ih =>
      have hpop : popAll d (k :: rest) = popAll (d.erase k) rest := rfl
      rw [hpop, ih, Dict.get?_erase]
      by_cases hk : key = k
      · simp [hk]
      · have hne : ¬k = key := fun e => hk e.symm
        simp [hk, hne]

@[simp] lemma get?_adjust (d : Dict) (key : String) (f : Json → Json) (k : String) :
    (adjust d key f).get? k = if key = k then (d.get? k).map f else d.get? k := by
  unfold adjust
  cases hv : d.get? key with
  | none =>
      by_cases hk : key = k
      · simp [← hk, hv]
      · simp [hk]
  | some v =>
      rw [Dict.get?_set]
      by_cases hk : key = k
      · simp [← hk, hv]
      · simp [hk]

lemma wf_popAll {d : Dict} (h : (Json.obj d).WF) (keys : List String) :
    (Json.obj (popAll d keys)).WF := by
  induction keys generalizing d with
  | nil => exact h
  | cons k rest ih => exact ih (h.erase k)

lemma wf_adjust {d : Dict} (h : (Json.obj d).WF) (key : String) {f : Json → Json}
    (hf : ∀ v, v.WF → (f v).WF) : (Json.obj (adjust d key f)).WF := by
  unfold adjust
  cases hv : d.get? key with
  | none => exact h
  | some v => exact h.set key (hf v (h.get? hv))

lemma wf_onDict {f : Dict → Dict} (hf : ∀ d : Dict, (Json.obj d).WF → (Json.obj (f d)).WF)
    (v : Json) (hv : v.WF) : (onDict f v).WF := by
  cases v with
  | obj d => exact hf d hv
  | _ => exact hv

/-! ## The subject -/

/-- The fields of an event that come after the subject. -/
def downstreamEventKeys : List String :=
  ["validation_evidence", "validation_context", "validation_evidence_set_hash", "approvals"]

/-- The fields of a case that come after the subject. -/
def downstreamCaseKeys : List String :=
  ["active_mutation", "run_result", "findings", "audit", "validation_context",
   "validation_evidence_set_hash"]

section Definitions

variable [PyUnicode]

/-- The key that required evidence is sorted by: its identity, without case and as it stands. -/
def evidenceOrder : Json → List String
  | .obj d =>
      let id := (Dict.getD d "evidence_id" (.str "")).toStr
      [PyUnicode.casefold id, id]
  | _ => ["", ""]

/-- The plan with its required evidence sorted. -/
def sortRequiredEvidence : Json → Json
  | .obj plan =>
      match Dict.get? plan "required_evidence" with
      | some (.arr items) =>
          .obj (Dict.set plan "required_evidence" (.arr (KeySort.sortBy evidenceOrder items)))
      | _ => .obj plan
  | v => v

/-- The event of the subject. -/
def subjectEvent (event : Dict) : Dict :=
  adjust (popAll event downstreamEventKeys) "validation_plan" sortRequiredEvidence

/-- The subject, from the projection. -/
def finishSubject (projection : Dict) : Dict :=
  popAll (adjust projection "event" (onDict subjectEvent)) downstreamCaseKeys

/-- What `validation_case_subject_hash` hashes. -/
def validationCaseSubject (case : Dict) : Result Dict := do
  let projection ← canonicalCaseProjection case
  .ok (finishSubject projection)

/-- `validation_case_subject_hash`. -/
def validationCaseSubjectHash (case : Dict) : Result String := do
  let subject ← validationCaseSubject case
  domainDigest "QualityCI/validation-case-subject/v1\x00" (.obj subject)

/-! ## The scope -/

/-- `sorted(values)` of a list of strings; an accepted event has no other list here. -/
def sortedTexts (value : Json) : Result Json :=
  match value with
  | .arr items =>
      if items.all Json.isStr then
        .ok (.arr ((KeySort.sortBy id (items.filterMap Json.str?)).map Json.str))
      else typeError "'<' not supported between these instances"
  | v => typeError s!"'{v.typeName}' object is not iterable"

/-- A field of a link, as part of a sort key; an accepted event has strings here. -/
def linkText (link : Dict) (key : String) : Result String :=
  match link.getD key (.str "") with
  | .str s => .ok s
  | _ => typeError "'<' not supported between these instances"

/-- The key that links are sorted by: both identities, as they stand. -/
def linkOrder : Dict → Result (List String) := fun link =>
  mapEach (linkText link) ["process_step_id", "characteristic_id"]

/-- `sorted(links, key=…)`. -/
def sortedLinks (value : Json) : Result Json :=
  match value with
  | .arr items =>
      match dictsOf items with
      | some links => do
          let sorted ← sortDicts linkOrder links
          .ok (.arr (sorted.map Json.obj))
      | none => attributeError "object has no attribute 'get'"
  | v => typeError s!"'{v.typeName}' object is not iterable"

/-- What `validation_scope_digest` hashes. -/
def validationScope (case : Dict) : Result Dict := do
  let event ← case.getItem "event"
  let plan ← event.get "validation_plan"
  let caseId ← case.getItem "case_id"
  let eventId ← event.getItem "event_id"
  let revision ← event.getItem "revision"
  let eventType ← event.getItem "event_type"
  let riskLevel ← event.getItem "risk_level"
  let steps ← event.get "affected_process_steps"
  let steps ← sortedTexts (steps.getD (.arr []))
  let characteristics ← event.get "affected_characteristics"
  let characteristics ← sortedTexts (characteristics.getD (.arr []))
  let links ← event.get "affected_links"
  let links ← sortedLinks (links.getD (.arr []))
  .ok <| Dict.ofList
    [("case_id", caseId), ("event_id", eventId), ("event_revision", revision),
     ("event_type", eventType), ("risk_level", riskLevel), ("affected_process_steps", steps),
     ("affected_characteristics", characteristics), ("affected_links", links),
     ("validation_plan", sortRequiredEvidence (plan.getD .null)),
     ("case_schema_version", case.getD "schema_version" .null),
     ("ruleset_version", .str rulesetVersion)]

/-- `validation_scope_digest`. -/
def validationScopeDigest (case : Dict) : Result String := do
  let scope ← validationScope case
  domainDigest "QualityCI/validation-scope/v1\x00" (.obj scope)

end Definitions

/-! ## What the subject hash sees -/

/-- The event without the fields that come after the subject. -/
def upstreamEvent (event : Dict) : Dict := popAll event downstreamEventKeys

/-- The case without the fields that come after the subject, as it stands. -/
def upstream (case : Dict) : Dict :=
  popAll (adjust case "event" (onDict upstreamEvent)) downstreamCaseKeys

lemma get?_upstream (case : Dict) (key : String) :
    (upstream case).get? key = if key ∈ downstreamCaseKeys then none
      else if key = "event" then (case.get? "event").map (onDict upstreamEvent)
      else case.get? key := by
  rw [upstream, get?_popAll, get?_adjust]
  by_cases hkey : key = "event"
  · simp [hkey]
  · have hne : ¬"event" = key := fun e => hkey e.symm
    simp [hkey, hne]

lemma wf_upstreamEvent {event : Dict} (h : (Json.obj event).WF) :
    (Json.obj (upstreamEvent event)).WF := wf_popAll h _

lemma wf_upstream {case : Dict} (h : (Json.obj case).WF) : (Json.obj (upstream case)).WF :=
  wf_popAll (wf_adjust h _ (wf_onDict fun _ => wf_upstreamEvent)) _

/-! ## Projecting and taking away -/

section Commuting

variable {blocks : List (String × (Json → Result Json))} {d p : Dict}

/-- What is taken away is not missed by the replacements of the rest. -/
lemma updateAll_popAll (hkeys : (blocks.map Prod.fst).Nodup) (hd : (Json.obj d).WF)
    (hp : (Json.obj p).WF) (h : d.updateAll blocks = .ok p) (keys : List String) :
    (popAll d keys).updateAll blocks = .ok (popAll p keys) := by
  have hvalues := (Dict.updateAll_eq_ok hkeys (Json.wf_obj.mp hd).1 h).2
  refine (Dict.updateAll_eq_ok_iff hkeys (Json.wf_obj.mp (wf_popAll hd keys)).1).mpr
    ⟨(Json.wf_obj.mp (wf_popAll hp keys)).1, fun k => ?_⟩
  rw [get?_popAll, get?_popAll]
  split_ifs
  · rfl
  · exact hvalues k

/-- An edit that passes through its replacement passes through all of them. -/
lemma updateAll_adjust (hkeys : (blocks.map Prod.fst).Nodup) (hd : (Json.obj d).WF)
    (hp : (Json.obj p).WF) (h : d.updateAll blocks = .ok p) {key : String} {f : Json → Json}
    (hf : ∀ v, v.WF → (f v).WF)
    (hpass : ∀ v w, v.WF → w.WF → Dict.blockOf blocks key v = .ok w →
      Dict.blockOf blocks key (f v) = .ok (f w)) :
    (adjust d key f).updateAll blocks = .ok (adjust p key f) := by
  have hvalues := (Dict.updateAll_eq_ok hkeys (Json.wf_obj.mp hd).1 h).2
  refine (Dict.updateAll_eq_ok_iff hkeys (Json.wf_obj.mp (wf_adjust hd key hf)).1).mpr
    ⟨(Json.wf_obj.mp (wf_adjust hp key hf)).1, fun k => ?_⟩
  have hk := hvalues k
  rw [get?_adjust, get?_adjust]
  split_ifs with hkey
  · subst hkey
    cases hv : d.get? key with
    | none =>
        rw [hv] at hk
        rw [← Except.ok.inj hk]
        rfl
    | some v =>
        simp only [hv, Dict.onValue, bind_eq_ok, Except.ok.injEq] at hk
        obtain ⟨w, hw, hpw⟩ := hk
        rw [← hpw]
        simp only [Option.map_some, Dict.onValue, hpass v w (hd.get? hv) (hp.get? hpw.symm) hw]
        rfl
  · exact hk

end Commuting

section Subject

variable [PyUnicode]

lemma eventBlocks_nodup : (eventBlocks.map Prod.fst).Nodup := by simp [eventBlocks]

lemma caseBlocks_nodup : (caseBlocks.map Prod.fst).Nodup := by simp [caseBlocks]

lemma wf_projection {case projection : Dict} (hwf : (Json.obj case).WF)
    (h : canonicalCaseProjection case = .ok projection) : (Json.obj projection).WF :=
  (keeps_updateAll isLocal_isFinite (keeps_caseBlocks isLocal_isFinite) hwf h).1

/-- The projection of an event passes through taking fields away. -/
lemma projectDict_upstreamEvent {v w : Json} (hv : v.WF) (hw : w.WF)
    (h : projectDict eventBlocks v = .ok w) :
    projectDict eventBlocks (onDict upstreamEvent v) = .ok (onDict upstreamEvent w) := by
  cases v with
  | obj e =>
      simp only [projectDict, bind_eq_ok, Except.ok.injEq] at h
      obtain ⟨e', he', rfl⟩ := h
      simp only [onDict, projectDict, bind_eq_ok, Except.ok.injEq, Json.obj.injEq, exists_eq_right]
      exact updateAll_popAll eventBlocks_nodup hv hw he' _
  | _ =>
      obtain rfl := Except.ok.inj h
      rfl

/-- **Taking fields away and projecting** do not interfere. -/
theorem canonicalCaseProjection_upstream {case projection : Dict} (hwf : (Json.obj case).WF)
    (h : canonicalCaseProjection case = .ok projection) :
    canonicalCaseProjection (upstream case) = .ok (upstream projection) := by
  have hwfp := wf_projection hwf h
  have hpass : ∀ v w, v.WF → w.WF → Dict.blockOf caseBlocks "event" v = .ok w →
      Dict.blockOf caseBlocks "event" (onDict upstreamEvent v) = .ok (onDict upstreamEvent w) :=
    fun v w hv hw hvw => projectDict_upstreamEvent hv hw hvw
  have hadjust := updateAll_adjust caseBlocks_nodup hwf hwfp h
    (wf_onDict fun _ => wf_upstreamEvent) hpass
  exact updateAll_popAll caseBlocks_nodup (wf_adjust hwf _ (wf_onDict fun _ => wf_upstreamEvent))
    (wf_adjust hwfp _ (wf_onDict fun _ => wf_upstreamEvent)) hadjust _

/-- The rows of a list, where it is one of dictionaries, have strings under the given keys, where
they have anything. -/
def RowsHaveStrings (keys : List String) (v : Json) : Prop := ∀ rows : List Dict,
  v = .arr (rows.map .obj) → ∀ row ∈ rows, ∀ key ∈ keys, StringOrAbsent row key

/-- The sort keys in the fields that come after the subject are strings. -/
def DownstreamKeysAreStrings (case : Dict) : Prop := ∀ (event : Dict) (v : Json),
  case.get? "event" = some (.obj event) →
  (event.get? "approvals" = some v → RowsHaveStrings ["role", "event_revision"] v) ∧
  (event.get? "validation_evidence" = some v → RowsHaveStrings ["evidence_id"] v)

lemma sortRows_succeeds {keys : List String} {v : Json} (h : RowsHaveStrings keys v) :
    ∃ w, sortRows (identityFields keys) v = .ok w := by
  unfold sortRows
  split
  · rename_i items
    cases hrows : dictsOf items with
    | none => exact ⟨_, rfl⟩
    | some rows =>
        obtain rfl := dictsOf_eq_some.mp hrows
        have hkey : ∀ row ∈ rows, ∃ k, identityFields keys row = .ok k := by
          intro row hrow
          have hall : ∀ fields : List String, (∀ field ∈ fields, field ∈ keys) →
              ∃ k, mapEach (identityField row) fields = .ok k := by
            intro fields
            induction fields with
            | nil => exact fun _ => ⟨[], rfl⟩
            | cons field rest ih =>
                intro hfields
                obtain ⟨hfield, hrest⟩ := List.forall_mem_cons.mp hfields
                obtain ⟨k, hk⟩ := identityField_succeeds_iff.mpr (h rows rfl row hrow field hfield)
                obtain ⟨ks, hks⟩ := ih hrest
                exact ⟨k :: ks, by simp [mapEach, hk, hks]⟩
          exact hall keys fun _ hfield => hfield
        refine ⟨_, bind_eq_ok.mpr ⟨_, sortDicts_eq_ok.mpr ⟨hkey, rfl⟩, rfl⟩⟩
  · exact ⟨v, rfl⟩

/-- The event of a case can be projected when what is upstream of it can. -/
lemma projectDict_event_succeeds {v w : Json} (hwf : v.WF)
    (hdown : ∀ (event : Dict) (u : Json), v = .obj event →
      (event.get? "approvals" = some u → RowsHaveStrings ["role", "event_revision"] u) ∧
      (event.get? "validation_evidence" = some u → RowsHaveStrings ["evidence_id"] u))
    (h : projectDict eventBlocks (onDict upstreamEvent v) = .ok w) :
    ∃ w', projectDict eventBlocks v = .ok w' := by
  cases v with
  | obj e =>
      simp only [onDict, projectDict, bind_eq_ok, Except.ok.injEq] at h
      obtain ⟨q, hq, -⟩ := h
      have hordered := (Json.wf_obj.mp (wf_upstreamEvent hwf)).1
      obtain ⟨p, hp⟩ : ∃ p, Dict.updateAll e eventBlocks = .ok p := by
        refine Dict.updateAll_succeeds eventBlocks_nodup (Json.wf_obj.mp hwf).1 fun k u hu => ?_
        by_cases happrovals : k = "approvals"
        · subst happrovals
          exact sortRows_succeeds ((hdown e u rfl).1 hu)
        by_cases hevidence : k = "validation_evidence"
        · subst hevidence
          exact sortRows_succeeds ((hdown e u rfl).2 hu)
        by_cases hkey : k ∈ downstreamEventKeys
        · refine ⟨u, ?_⟩
          rw [Dict.blockOf_of_notMem]
          simp only [downstreamEventKeys, List.mem_cons, List.not_mem_nil, or_false] at hkey
          rcases hkey with rfl | rfl | rfl | rfl
          · exact absurd rfl hevidence
          · simp [eventBlocks]
          · simp [eventBlocks]
          · exact absurd rfl happrovals
        · refine Dict.blockOf_succeeds eventBlocks_nodup hordered hq ?_
          rw [upstreamEvent, get?_popAll, if_neg hkey, hu]
      exact ⟨.obj p, bind_eq_ok.mpr ⟨p, hp, rfl⟩⟩
  | _ => exact ⟨_, rfl⟩

/-- A case can be projected when what is upstream of it can, and the rest can be sorted. -/
lemma canonicalCaseProjection_succeeds {case q : Dict} (hwf : (Json.obj case).WF)
    (hdown : DownstreamKeysAreStrings case) (h : canonicalCaseProjection (upstream case) = .ok q) :
    ∃ p, canonicalCaseProjection case = .ok p := by
  have hordered := (Json.wf_obj.mp (wf_upstream hwf)).1
  refine Dict.updateAll_succeeds caseBlocks_nodup (Json.wf_obj.mp hwf).1 fun k v hv => ?_
  have hget := get?_upstream case k
  by_cases hevent : k = "event"
  · subst hevent
    rw [if_neg (by decide), if_pos rfl, hv, Option.map_some] at hget
    obtain ⟨w, hw⟩ := Dict.blockOf_succeeds caseBlocks_nodup hordered h hget
    refine projectDict_event_succeeds (hwf.get? hv) (fun event u hu => ?_) hw
    exact hdown event u (hv.trans (congrArg some hu))
  by_cases hkey : k ∈ downstreamCaseKeys
  · refine ⟨v, ?_⟩
    rw [Dict.blockOf_of_notMem]
    have hapart : ∀ key ∈ downstreamCaseKeys, key ∉ caseBlocks.map Prod.fst := by
      simp [downstreamCaseKeys, caseBlocks]
    exact hapart k hkey
  · rw [if_neg hkey, if_neg hevent, hv] at hget
    exact Dict.blockOf_succeeds caseBlocks_nodup hordered h hget

lemma wf_sortRequiredEvidence (v : Json) (hv : v.WF) : (sortRequiredEvidence v).WF := by
  unfold sortRequiredEvidence
  split
  · rename_i plan
    split
    · rename_i items hitems
      refine hv.set _ (Json.wf_arr.mpr fun item hitem => ?_)
      exact Json.wf_arr.mp (hv.get? hitems) item ((KeySort.sortBy_perm items).mem_iff.mp hitem)
    · exact hv
  · exact hv

lemma wf_subjectEvent {event : Dict} (h : (Json.obj event).WF) :
    (Json.obj (subjectEvent event)).WF :=
  wf_adjust (wf_popAll h _) _ wf_sortRequiredEvidence

lemma wf_finishSubject {projection : Dict} (h : (Json.obj projection).WF) :
    (Json.obj (finishSubject projection)).WF :=
  wf_popAll (wf_adjust h _ (wf_onDict fun _ => wf_subjectEvent)) _

lemma get?_finishSubject (projection : Dict) (key : String) :
    (finishSubject projection).get? key = if key ∈ downstreamCaseKeys then none
      else if key = "event" then (projection.get? "event").map (onDict subjectEvent)
      else projection.get? key := by
  rw [finishSubject, get?_popAll, get?_adjust]
  by_cases hkey : key = "event"
  · simp [hkey]
  · have hne : ¬"event" = key := fun e => hkey e.symm
    simp [hkey, hne]

/-- Taking the fields away twice is taking them away once. -/
lemma subjectEvent_upstreamEvent {event : Dict} (h : (Json.obj event).WF) :
    subjectEvent (upstreamEvent event) = subjectEvent event := by
  refine Dict.ext (Json.wf_obj.mp (wf_subjectEvent (wf_upstreamEvent h))).1
    (Json.wf_obj.mp (wf_subjectEvent h)).1 fun key => ?_
  simp only [subjectEvent, upstreamEvent, get?_adjust, get?_popAll]
  split_ifs <;> rfl

lemma finishSubject_upstream {projection : Dict} (h : (Json.obj projection).WF) :
    finishSubject (upstream projection) = finishSubject projection := by
  refine Dict.ext (Json.wf_obj.mp (wf_finishSubject (wf_upstream h))).1
    (Json.wf_obj.mp (wf_finishSubject h)).1 fun key => ?_
  rw [get?_finishSubject, get?_finishSubject, get?_upstream, get?_upstream]
  have hevent : "event" ∉ downstreamCaseKeys := by decide
  split_ifs with hkey heq
  · rfl
  · cases hv : projection.get? "event" with
    | none => rfl
    | some v =>
        cases v with
        | obj e =>
            have hsame := subjectEvent_upstreamEvent (h.get? hv)
            simpa [onDict] using hsame
        | _ => rfl
  · rfl
  · rfl

/-- **The subject of a case is that of what is upstream of it**, where the rest can be sorted. -/
theorem validationCaseSubject_upstream {case : Dict} (hwf : (Json.obj case).WF)
    (hdown : DownstreamKeysAreStrings case) :
    (validationCaseSubject case).toOption = (validationCaseSubject (upstream case)).toOption := by
  cases hp : canonicalCaseProjection case with
  | ok p =>
      rw [validationCaseSubject, validationCaseSubject, hp,
        canonicalCaseProjection_upstream hwf hp]
      exact congrArg some (finishSubject_upstream (wf_projection hwf hp)).symm
  | error e =>
      cases hq : canonicalCaseProjection (upstream case) with
      | ok q =>
          obtain ⟨p, hp'⟩ := canonicalCaseProjection_succeeds hwf hdown hq
          rw [hp] at hp'
          cases hp'
      | error e' =>
          rw [validationCaseSubject, validationCaseSubject, hp, hq]
          rfl

end Subject

end QualityCI

import QualityCI.Validation.Subject

/-!
# Validation identities are stable

The subject hash of a case does not see the order of its unordered arrays, nor anything that comes
after the validation, and it sees everything else.  The scope digest sees the same order as little,
and no document at all.

* `SharesSubject`, `SharesScope` — the cases that share a subject, or a scope.
* `finishSubject_reorders` — the subject is a reordering of what is upstream of the case.
* `AcceptedCase.upstream`, `tiesKeepOrder_of_reordered` — upstream of a bound case nothing is tied.
* **`validationIdentity_stable`** — what the two hashes depend on.
-/

namespace QualityCI

open Py

/-- The cases agree upstream of their subjects, up to the order of the unordered arrays. -/
def SharesSubject (a b : Dict) : Prop := Reordered (upstream a) (upstream b)

/-- The cases agree outside their documents, up to the order of the unordered arrays. -/
def SharesScope (a b : Dict) : Prop := Reordered (a.erase "documents") (b.erase "documents")

/-! ## Edits of related dictionaries -/

section Related

variable {rel : String → Json → Json → Prop} {a b : Dict}

lemma related_popAll (h : Dict.Related rel a b) (keys : List String) :
    Dict.Related rel (popAll a keys) (popAll b keys) := by
  intro k
  rw [get?_popAll, get?_popAll]
  split_ifs
  · exact Option.Rel.none
  · exact h k

lemma related_adjust (h : Dict.Related rel a b) {key : String} {f g : Json → Json}
    (hfg : ∀ v w, rel key v w → rel key (f v) (g w)) :
    Dict.Related rel (adjust a key f) (adjust b key g) := by
  intro k
  rw [get?_adjust, get?_adjust]
  split_ifs with hkey
  · subst hkey
    cases hv : a.get? key with
    | none =>
        rw [h.get?_eq_none hv]
        exact Option.Rel.none
    | some v =>
        obtain ⟨w, hw, hvw⟩ := h.get? hv
        rw [hw]
        exact Option.Rel.some (hfg v w hvw)
  · exact h k

lemma RelatedDict.onDict {f g : Dict → Dict} {v w : Json} (h : RelatedDict rel v w)
    (hrefl : ∀ d, Dict.Related rel d d)
    (hfg : ∀ x y, Dict.Related rel x y → Dict.Related rel (f x) (g y)) :
    RelatedDict rel (onDict f v) (onDict g w) := by
  rcases h with rfl | ⟨x, y, rfl, rfl, hxy⟩
  · cases v with
    | obj d => exact Or.inr ⟨f d, g d, rfl, rfl, hfg d d (hrefl d)⟩
    | _ => exact Or.inl rfl
  · exact Or.inr ⟨f x, g y, rfl, rfl, hfg x y hxy⟩

end Related

/-! ## The subject as a reordering -/

section Subject

variable [PyUnicode]

/-- Sorting the required evidence reorders the plan. -/
lemma sortRequiredEvidence_reorders (v : Json) :
    RelatedDict (exceptAt planReorderings) v (sortRequiredEvidence v) := by
  unfold sortRequiredEvidence
  split
  · rename_i plan
    split
    · rename_i items hitems
      have hperm : PermutedList (.arr items) (.arr (KeySort.sortBy evidenceOrder items)) :=
        Or.inr ⟨items, _, rfl, rfl, (KeySort.sortBy_perm items).symm⟩
      refine Or.inr ⟨plan, _, rfl, rfl, Dict.related_set ?_ hitems hperm⟩
      exact fun key => (planReorderings_equivalence key).refl
    · exact Or.inl rfl
  · exact Or.inl rfl

/-- **The subject is a reordering** of what is upstream of the case, in whatever order the case
itself has been put. -/
theorem finishSubject_reorders {case projection : Dict} (h : Reordered case projection) :
    Reordered (upstream case) (finishSubject projection) := by
  refine related_popAll (related_adjust h fun v w hvw => ?_) _
  refine RelatedDict.onDict hvw (Dict.related_refl eventReorderings_equivalence) fun x y hxy => ?_
  have hpopped := related_popAll hxy downstreamEventKeys
  intro key
  rw [subjectEvent, get?_adjust]
  have hkey := hpopped key
  split_ifs with hplan
  · subst hplan
    cases hv : (popAll x downstreamEventKeys).get? "validation_plan" with
    | none =>
        rw [upstreamEvent, hv, hpopped.get?_eq_none hv]
        exact Option.Rel.none
    | some v =>
        obtain ⟨w, hw, hvw⟩ := hpopped.get? hv
        rw [upstreamEvent, hv, hw]
        exact Option.Rel.some ((eventReorderings_equivalence "validation_plan").trans hvw
          (sortRequiredEvidence_reorders w))
  · exact hkey

omit [PyUnicode] in
/-- What a hash has been taken of. -/
lemma domainDigest_eq_ok {domain : String} {value : Json} {digest : String} :
    domainDigest domain value = .ok digest ↔
      ∃ text, dumps value = .ok text ∧ sha256Hex (domain ++ text) = digest := by
  simp only [domainDigest, bind_eq_ok, Except.ok.injEq]

/-- **Cases whose subjects have one text share a subject.** -/
theorem sharesSubject_of_dumps_eq {a b subjectA subjectB : Dict} {text : String}
    (wa : (Json.obj a).WF) (wb : (Json.obj b).WF) (ha : validationCaseSubject a = .ok subjectA)
    (hb : validationCaseSubject b = .ok subjectB) (hta : dumps (.obj subjectA) = .ok text)
    (htb : dumps (.obj subjectB) = .ok text) : SharesSubject a b := by
  simp only [validationCaseSubject, bind_eq_ok, Except.ok.injEq] at ha hb
  obtain ⟨p, hp, rfl⟩ := ha
  obtain ⟨q, hq, rfl⟩ := hb
  have hsame := Json.obj.inj (dumps_injective (wf_finishSubject (wf_projection wa hp))
    (wf_finishSubject (wf_projection wb hq)) hta htb)
  have hup := finishSubject_reorders (canonicalCaseProjection_reorders wa hp)
  have huq := finishSubject_reorders (canonicalCaseProjection_reorders wb hq)
  rw [hsame] at hup
  exact Dict.related_trans caseReorderings_equivalence hup
    (Dict.related_symm caseReorderings_equivalence huq)

/-! ## Upstream of an accepted case -/

omit [PyUnicode] in
lemma get?_upstream_event {case event : Dict} (h : case.get? "event" = some (.obj event)) :
    (upstream case).get? "event" = some (.obj (upstreamEvent event)) := by
  rw [get?_upstream, if_neg (by decide), if_pos rfl, h]
  rfl

omit [PyUnicode] in
lemma get?_upstream_of_notMem {case : Dict} {key : String} (hkey : key ∉ downstreamCaseKeys)
    (hevent : key ≠ "event") : (upstream case).get? key = case.get? key := by
  rw [get?_upstream, if_neg hkey, if_neg hevent]

/-- The event of an accepted case, without what comes after. -/
lemma AcceptedEvent.upstream {event : Dict} {m : Option Json} (h : AcceptedEvent event m) :
    AcceptedEvent (upstreamEvent event) m := by
  have hget : ∀ key, key ∉ downstreamEventKeys →
      (upstreamEvent event).get? key = event.get? key := by
    intro key hkey
    rw [upstreamEvent, get?_popAll, if_neg hkey]
  have hnone : ∀ key ∈ downstreamEventKeys, (upstreamEvent event).present? key = none := by
    intro key hkey
    refine Dict.present?_eq_none.mpr (Or.inl ?_)
    rw [upstreamEvent, get?_popAll, if_pos hkey]
  refine h.of_parts (fun key hkey => (hget key ?_).symm) (fun key hkey => Or.inl (hget key ?_).symm)
    ?_ (Or.inl (hnone _ (by decide))) (Or.inl (hnone _ (by decide)))
  · exact (by decide : ∀ key ∈ eventEntries, key ∉ downstreamEventKeys) key hkey
  · exact (by decide : ∀ key ∈ scopeLists, key ∉ downstreamEventKeys) key hkey
  · have hplan := hget "validation_plan" (by decide)
    rw [Dict.present?, hplan]
    exact h.plan

/-- **What is upstream of an accepted case** is one. -/
theorem AcceptedCase.upstream {case : Dict} (h : AcceptedCase case) :
    AcceptedCase (QualityCI.upstream case) := by
  have hget : ∀ key, key ∉ downstreamCaseKeys → key ≠ "event" →
      (QualityCI.upstream case).get? key = case.get? key :=
    fun key => get?_upstream_of_notMem
  have hpresent : ∀ key, key ∉ downstreamCaseKeys → key ≠ "event" →
      (QualityCI.upstream case).present? key = case.present? key := by
    intro key hkey hne
    rw [Dict.present?, Dict.present?, hget key hkey hne]
  have hevent := get?_upstream_event h.event
  have hdocuments := hget "documents" (by decide) (by decide)
  refine ⟨?_, h.caseId.congr (hget _ (by decide) (by decide)).symm, ?_, ?_, ?_⟩
  · rw [hget _ (by decide) (by decide)]
    exact h.version
  · rw [hevent, Dict.dictAt_eq hevent]
  · rw [hpresent _ (by decide) (by decide), Dict.dictAt_eq hevent]
    exact h.acceptedEvent.upstream
  · rw [hpresent _ (by decide) (by decide), hpresent _ (by decide) (by decide)]
    exact .of_get? (hdocuments.trans h.documents.1) h.documents.2

/-- The rows of an accepted event that come after the subject can be sorted. -/
lemma AcceptedCase.downstreamKeysAreStrings {case : Dict} (h : AcceptedCase case) :
    DownstreamKeysAreStrings case := by
  intro event v hevent
  obtain rfl : case.dictAt "event" = event := Dict.dictAt_eq hevent
  have haccepted := h.acceptedEvent
  have hstring : ∀ {row : Dict} {key : String}, HasText row key → StringOrAbsent row key := by
    intro row key htext w hw
    exact ⟨_, Option.some.inj (hw.symm.trans htext.1)⟩
  refine ⟨fun hv rows hrows row hrow key hkey => ?_, fun hv rows hrows row hrow key hkey => ?_⟩
  · rcases haccepted.approvals.value hv with rfl | ⟨rows', rfl, happrovals⟩
    · cases hrows
    · obtain rfl := List.map_injective_iff.mpr (fun _ _ => Json.obj.inj) (Json.arr.inj hrows)
      have hitem := happrovals.each row hrow
      simp only [List.mem_cons, List.not_mem_nil, or_false] at hkey
      rcases hkey with rfl | rfl
      · exact hstring hitem.role
      · exact hstring hitem.revision
  · rcases haccepted.evidence.value hv with rfl | ⟨rows', rfl, hevidence⟩
    · cases hrows
    · obtain rfl := List.map_injective_iff.mpr (fun _ _ => Json.obj.inj) (Json.arr.inj hrows)
      obtain rfl := List.mem_singleton.mp hkey
      exact hstring (hevidence.each row hrow).id

/-! ## Nothing is tied -/

/-- Rows of one key have one pair. -/
lemma pairOf_of_characteristicKey {row : Dict} {k : List String}
    (h : characteristicKey row = .ok k) (hs : HasText row "process_step_id")
    (hc : HasText row "characteristic_id") : pairOf row = (k.getD 0 "", k.getD 1 "") := by
  unfold characteristicKey identityFields at h
  rw [mapEach_three] at h
  obtain ⟨step, characteristic, control, hstep, hcharacteristic, -, rfl⟩ := h
  rw [identityField_of_hasText hs, Except.ok.injEq] at hstep
  rw [identityField_of_hasText hc, Except.ok.injEq] at hcharacteristic
  subst hstep hcharacteristic
  rfl

/-- The characteristic rows of a bound document have distinct keys. -/
lemma length_rowsOf_characteristicKey {type : String} {fields : Dict} {rows : List Dict}
    (h : AreCharacteristics false type fields rows) (k : List String) :
    (rowsOf characteristicKey k rows).length ≤ 1 := by
  have hpairs : (rows.map pairOf).Nodup := by
    have hmap : rows.filterMap (boundPair false) = rows.map pairOf := by
      rw [← List.filterMap_eq_map]
      refine List.filterMap_congr fun row _ => ?_
      simp [boundPair]
    exact hmap ▸ h.distinct
  have hnodup : ((rowsOf characteristicKey k rows).map pairOf).Nodup :=
    hpairs.sublist (List.filter_sublist.map _)
  have hall : ∀ pair ∈ (rowsOf characteristicKey k rows).map pairOf,
      pair = (k.getD 0 "", k.getD 1 "") := by
    intro pair hpair
    obtain ⟨row, hrow, rfl⟩ := List.mem_map.mp hpair
    obtain ⟨hmem, hok⟩ := mem_rowsOf.mp hrow
    have hitem := h.each row hmem
    rcases hitem.bound with hunbound | ⟨hbound, -⟩
    · exact absurd hunbound.2 (by decide)
    · exact pairOf_of_characteristicKey hok hbound.step hitem.characteristic
  rw [List.eq_replicate_of_mem hall, List.nodup_replicate, List.length_map] at hnodup
  exact hnodup

/-- **Upstream of bound cases nothing is tied**: reordering moves no two rows of one key past each
other. -/
theorem tiesKeepOrder_of_reordered {a b : Dict} (ha : AcceptedCase a) (hb : AcceptedCase b)
    (hbound : a.present? "relationship_migration" = none)
    (happrovals : (a.dictAt "event").present? "approvals" = none) (h : Reordered a b) :
    TiesKeepOrder a b := by
  constructor
  · obtain ⟨w, hw, hevent⟩ := h.get? ha.event
    rw [hb.event, Option.some.injEq] at hw
    subst hw
    have haligned := alignedEvent_of_reordered hevent
    have hnone := (haligned.lists "approvals" (by decide)).present?_eq_none happrovals
    intro k
    rw [Dict.rowsAt_of_present?_none happrovals, Dict.rowsAt_of_present?_none hnone]
  · intro x hx y hy hid
    obtain ⟨w, hw, hdocuments⟩ := h.get? ha.documents.1
    rw [hb.documents.1, Option.some.injEq] at hw
    subst hw
    obtain ⟨zs, hperm, hall⟩ := reorderedDocuments_iff.mp hdocuments
    obtain ⟨z, hz, hxz⟩ := forall₂_exists_right hall hx
    have hzy : z = y := List.inj_on_of_nodup_map hb.documents.2.distinct (hperm.mem_iff.mp hz) hy
      (hxz.documentIdOf.symm.trans hid)
    subst hzy
    have haccepted := ha.documents.2.each x hx
    rw [hbound] at haccepted
    have hrows := ((alignedDocument_of_reordered hxz haccepted.fields).lists "characteristics"
      (by decide)).rows
    intro k
    have hone := length_rowsOf_characteristicKey (DefaultRowsWith.of_fields haccepted.rows) k
    exact eq_of_perm_of_length_le_one (hrows.filter _) hone

/-- Reordered cases are projected alike, where nothing is tied, or not at all. -/
lemma canonicalCaseProjection_reordered {a b : Dict} (wa : (Json.obj a).WF) (wb : (Json.obj b).WF)
    (ha : AcceptedCase a) (hbound : a.present? "relationship_migration" = none)
    (happrovals : (a.dictAt "event").present? "approvals" = none) (h : Reordered a b) :
    (canonicalCaseProjection a).toOption = (canonicalCaseProjection b).toOption := by
  have hb := ha.of_reordered wa wb h
  have hties := tiesKeepOrder_of_reordered ha hb hbound happrovals h
  have hagree := agree_projection_iff wa wb ha hb
  cases hp : canonicalCaseProjection a with
  | ok p =>
      have hkeys := (canonicalCaseProjection_returns_iff wa ha).mp ⟨p, hp⟩
      obtain ⟨r, hr, hr'⟩ := hagree.mpr ⟨h, hkeys, hties⟩
      rw [hr', ← hr, hp]
  | error e =>
      cases hq : canonicalCaseProjection b with
      | error e' => rfl
      | ok q =>
          have hback := Dict.related_symm caseReorderings_equivalence h
          have hties' : TiesKeepOrder b a := ⟨fun k => (hties.1 k).symm, fun y hy x hx hid k =>
            (hties.2 x hx y hy hid.symm k).symm⟩
          have hkeys := (canonicalCaseProjection_returns_iff wb hb).mp ⟨q, hq⟩
          obtain ⟨r, -, hr⟩ := (agree_projection_iff wb wa hb ha).mpr ⟨hback, hkeys, hties'⟩
          rw [hp] at hr
          cases hr

/-- **Cases that share a subject share its hash**, or have none. -/
theorem validationCaseSubjectHash_of_sharesSubject {a b : Dict} (wa : (Json.obj a).WF)
    (wb : (Json.obj b).WF) (ha : AcceptedCase a)
    (hbound : a.present? "relationship_migration" = none) (hdown : DownstreamKeysAreStrings b)
    (h : SharesSubject a b) :
    (validationCaseSubjectHash a).toOption = (validationCaseSubjectHash b).toOption := by
  have hboundUp : (upstream a).present? "relationship_migration" = none := by
    rw [Dict.present?, get?_upstream_of_notMem (by decide) (by decide)]
    exact hbound
  have happrovals : ((upstream a).dictAt "event").present? "approvals" = none := by
    rw [Dict.dictAt_eq (get?_upstream_event ha.event), Dict.present?_eq_none, upstreamEvent,
      get?_popAll, if_pos (by decide)]
    exact Or.inl rfl
  have hprojection := canonicalCaseProjection_reordered (wf_upstream wa) (wf_upstream wb)
    ha.upstream hboundUp happrovals h
  have hfinish : ∀ case : Dict, (validationCaseSubject case).toOption =
      (canonicalCaseProjection case).toOption.map finishSubject := by
    intro case
    unfold validationCaseSubject
    cases canonicalCaseProjection case <;> rfl
  have hsubject : (validationCaseSubject a).toOption = (validationCaseSubject b).toOption := by
    rw [validationCaseSubject_upstream wa ha.downstreamKeysAreStrings,
      validationCaseSubject_upstream wb hdown, hfinish, hfinish, hprojection]
  have hhash : ∀ case : Dict, (validationCaseSubjectHash case).toOption =
      (validationCaseSubject case).toOption.bind fun subject =>
        (domainDigest "QualityCI/validation-case-subject/v1\x00" (.obj subject)).toOption := by
    intro case
    unfold validationCaseSubjectHash
    cases validationCaseSubject case <;> rfl
  rw [hhash, hhash, hsubject]

/-! ## The scope -/

/-- The raw identities of a link. -/
def linkTexts (link : Dict) : List String :=
  [link.textAt "process_step_id", link.textAt "characteristic_id"]

/-- The scope of an accepted event. -/
def scopeOf (case event : Dict) : Dict :=
  Dict.ofList
    [("case_id", case.getD "case_id" .null), ("event_id", event.getD "event_id" .null),
     ("event_revision", event.getD "revision" .null),
     ("event_type", event.getD "event_type" .null),
     ("risk_level", event.getD "risk_level" .null),
     ("affected_process_steps",
       .arr ((KeySort.sortBy id (event.textsAt "affected_process_steps")).map .str)),
     ("affected_characteristics",
       .arr ((KeySort.sortBy id (event.textsAt "affected_characteristics")).map .str)),
     ("affected_links", .arr ((KeySort.sortBy linkTexts (event.rowsAt "affected_links")).map .obj)),
     ("validation_plan", sortRequiredEvidence (event.getD "validation_plan" .null)),
     ("case_schema_version", case.getD "schema_version" .null),
     ("ruleset_version", .str rulesetVersion)]

omit [PyUnicode] in
lemma sortedTexts_map (texts : List String) :
    sortedTexts (.arr (texts.map .str)) = .ok (.arr ((KeySort.sortBy id texts).map .str)) := by
  have hall : (texts.map Json.str).all Json.isStr = true := by simp [Json.isStr]
  have htexts : (texts.map Json.str).filterMap Json.str? = texts := by
    simp [List.filterMap_map, Function.comp_def, Json.str?]
  simp only [sortedTexts, hall, ↓reduceIte, htexts]

lemma linkOrder_eq {event link : Dict} (h : IsLink event link) :
    linkOrder link = .ok (linkTexts link) := by
  have htext : ∀ key, HasText link key → linkText link key = .ok (link.textAt key) := by
    intro key hkey
    rw [linkText, Dict.getD, hkey.1]
    rfl
  simp [linkOrder, linkTexts, mapEach, htext _ h.step, htext _ h.characteristic, bind, Except.bind]

lemma sortedLinks_map {event : Dict} {links : List Dict} (h : AreLinks event links) :
    sortedLinks (.arr (links.map .obj)) =
      .ok (.arr ((KeySort.sortBy linkTexts links).map .obj)) := by
  have hsort : sortDicts linkOrder links = .ok (KeySort.sortBy linkTexts links) := by
    refine sortDicts_eq_ok.mpr ⟨fun link hlink => ⟨_, linkOrder_eq (h.each link hlink)⟩, ?_⟩
    refine KeySort.sortBy_congr fun link hlink => ?_
    simp [keyOr, linkOrder_eq (h.each link hlink), Except.toOption]
  simp only [sortedLinks, dictsOf_map, hsort, bind, Except.bind]

/-- **The scope of an accepted event** is there, whatever the documents are. -/
theorem validationScope_eq {case event : Dict} {m : Option Json}
    (hevent : case.get? "event" = some (.obj event)) (hid : HasText case "case_id")
    (haccepted : AcceptedEvent event m)
    (hlinks : RowsWith event "affected_links" (AreLinks event)) :
    validationScope case = .ok (scopeOf case event) := by
  have hentry : ∀ {d : Dict} {key : String} {v : Json}, d.get? key = some v →
      d.getItem key = .ok (d.getD key .null) := by
    intro d key v hv
    rw [Dict.getItem_eq_ok, Dict.getD, hv]
    rfl
  have hcaseId := hentry hid.1
  have heventId := hentry haccepted.eventId.1
  have hrevision := hentry haccepted.revision.1
  have htype := hentry haccepted.eventType.1
  have hrisk := hentry haccepted.riskLevel.1
  have hgetEvent : case.getItem "event" = .ok (.obj event) := Dict.getItem_eq_ok.mpr hevent
  have hsteps := sortedTexts_map (event.textsAt "affected_process_steps")
  have hcharacteristics := sortedTexts_map (event.textsAt "affected_characteristics")
  have hsorted := sortedLinks_map hlinks.2
  simp only [validationScope, hgetEvent, bind_eq_ok, Json.get, Json.getItem, hcaseId, heventId,
    hrevision, htype, hrisk, haccepted.steps.texts.1, haccepted.characteristics.texts.1, hlinks.1,
    Option.getD_some, hsteps, hcharacteristics, hsorted, Except.ok.injEq, exists_eq_left']
  rfl

/-- Required evidence is sorted alike in whatever order it comes. -/
lemma sortRequiredEvidence_of_permuted {p q : Dict} (hp : IsPlan p) (wp : (Json.obj p).WF)
    (wq : (Json.obj q).WF) (h : Dict.Related (exceptAt planReorderings) p q) :
    sortRequiredEvidence (.obj p) = sortRequiredEvidence (.obj q) := by
  have hq := hp.of_related (Json.wf_obj.mp wp).1 (Json.wf_obj.mp wq).1 h
  have hrows : (p.rowsAt "required_evidence").Perm (q.rowsAt "required_evidence") :=
    (permutedAt_of_related h rfl).rows
  have hkeys : ((p.rowsAt "required_evidence").map fun r => evidenceOrder (.obj r)).Nodup := by
    have hdistinct := hp.evidence.2.distinct
    refine List.Nodup.of_map (fun k => normalizedIdentity (k.getD 1 "")) ?_
    rw [List.map_map]
    refine (List.map_congr_left fun r hr => ?_) ▸ hdistinct
    have htext := (hp.evidence.2.each r hr).text "evidence_id" (by decide)
    simp [evidenceOrder, evidenceIdOf, Dict.getD, htext.1, Json.toStr]
  have hsorted : KeySort.sortBy evidenceOrder ((p.rowsAt "required_evidence").map Json.obj) =
      KeySort.sortBy evidenceOrder ((q.rowsAt "required_evidence").map Json.obj) := by
    refine KeySort.sortBy_eq_of_perm ?_ (hrows.map _)
    rw [List.map_map]
    exact hkeys
  have hset : ∀ {plan : Dict}, IsPlan plan → sortRequiredEvidence (.obj plan) =
      .obj (plan.set "required_evidence" (.arr (KeySort.sortBy evidenceOrder
        ((plan.rowsAt "required_evidence").map Json.obj)))) := by
    intro plan hplan
    simp only [sortRequiredEvidence, hplan.evidence.1]
  rw [hset hp, hset hq, hsorted, Json.obj.injEq]
  refine Dict.ext ((Json.wf_obj.mp wp).1.set _ _) ((Json.wf_obj.mp wq).1.set _ _) fun key => ?_
  rw [Dict.get?_set, Dict.get?_set]
  split_ifs with hkey
  · rfl
  · refine related_get?_eq h ?_
    rintro hmem
    exact hkey (List.mem_singleton.mp hmem).symm

/-- **Events that are reorderings of each other have one scope.** -/
theorem scopeOf_reordered {a b x y : Dict} {m : Option Json} (hx : AcceptedEvent x m)
    (wx : (Json.obj x).WF) (wy : (Json.obj y).WF) (hlinks : RowsWith x "affected_links" (AreLinks x))
    (hid : a.get? "case_id" = b.get? "case_id")
    (hversion : a.get? "schema_version" = b.get? "schema_version")
    (h : ReorderedEvent (.obj x) (.obj y)) : scopeOf a x = scopeOf b y := by
  have haligned := alignedEvent_of_reordered h
  have hrel := (relatedDict_obj eventReorderings_refl).mp h
  have hentry : ∀ key ∈ eventEntries, x.getD key .null = y.getD key .null := by
    intro key hkey
    have hapart : ∀ key ∈ eventEntries, key ∉ eventReorderings.map Prod.fst := by decide
    rw [Dict.getD, Dict.getD, haligned.entry key (hapart key hkey)]
  have htexts : ∀ key ∈ eventLists, KeySort.sortBy id (x.textsAt key) =
      KeySort.sortBy id (y.textsAt key) := by
    intro key hkey
    have hperm := (haligned.lists key hkey).texts
    refine List.Perm.eq_of_pairwise (fun s t _ _ => le_antisymm) (KeySort.sortBy_sorted _)
      (KeySort.sortBy_sorted _) ?_
    exact (KeySort.sortBy_perm _).trans (hperm.trans (KeySort.sortBy_perm _).symm)
  have hlink : KeySort.sortBy linkTexts (x.rowsAt "affected_links") =
      KeySort.sortBy linkTexts (y.rowsAt "affected_links") := by
    refine KeySort.sortBy_eq_of_perm ?_ (haligned.lists "affected_links" (by decide)).rows
    refine List.Nodup.of_map (fun k => relationshipKey (k.getD 0 "") (k.getD 1 "")) ?_
    rw [List.map_map]
    exact hlinks.2.distinct
  have hplan : sortRequiredEvidence (x.getD "validation_plan" .null) =
      sortRequiredEvidence (y.getD "validation_plan" .null) := by
    cases hv : x.get? "validation_plan" with
    | none => rw [Dict.getD, Dict.getD, hv, hrel.get?_eq_none hv]
    | some v =>
        obtain ⟨w, hw, hvw⟩ := hrel.get? hv
        rw [Dict.getD, Dict.getD, hv, hw, Option.getD_some, Option.getD_some]
        rcases (hvw : RelatedDict (exceptAt planReorderings) _ _) with rfl | ⟨p, q, rfl, rfl, hpq⟩
        · rfl
        · have hp : IsPlan p := by
            rcases hx.plan with ⟨hnone, -⟩ | ⟨plan, hget, hplan⟩
            · rcases Dict.present?_eq_none.mp hnone with hnone | hnull
              · simp [hnone] at hv
              · simp [hnull] at hv
            · rw [hv, Option.some.injEq, Json.obj.injEq] at hget
              exact hget ▸ hplan
          exact sortRequiredEvidence_of_permuted hp (wx.get? hv) (wy.get? hw) hpq
  have hcase : ∀ {key : String}, a.get? key = b.get? key → a.getD key .null = b.getD key .null :=
    fun heq => by rw [Dict.getD, Dict.getD, heq]
  rw [scopeOf, scopeOf, hcase hid, hcase hversion, hentry "event_id" (by decide), hentry "revision" (by decide), hentry "event_type" (by decide),
    hentry "risk_level" (by decide), htexts "affected_process_steps" (by decide),
    htexts "affected_characteristics" (by decide), hlink, hplan]

/-- **Cases that share a scope share its digest.** -/
theorem validationScopeDigest_of_sharesScope {a b : Dict} (wa : (Json.obj a).WF)
    (wb : (Json.obj b).WF) (ha : AcceptedCase a)
    (hlinks : RowsWith (a.dictAt "event") "affected_links" (AreLinks (a.dictAt "event")))
    (h : SharesScope a b) : validationScopeDigest a = validationScopeDigest b := by
  have hget : ∀ {case : Dict} {key : String}, key ≠ "documents" →
      (case.erase "documents").get? key = case.get? key := by
    intro case key hkey
    rw [Dict.get?_erase, if_neg fun e => hkey e.symm]
  have hentry : ∀ key, key ≠ "documents" → key ∉ caseReorderings.map Prod.fst →
      a.get? key = b.get? key := by
    intro key hne hkey
    rw [← hget hne, ← @hget b _ hne]
    exact related_get?_eq h hkey
  obtain ⟨w, hw, hevent⟩ := h.get? ((hget (by decide)).trans ha.event)
  rw [hget (by decide)] at hw
  have hobj : ∃ y, w = .obj y := by
    rcases (hevent : RelatedDict (exceptAt eventReorderings) _ _) with rfl | ⟨p, q, -, rfl, -⟩
    · exact ⟨_, rfl⟩
    · exact ⟨q, rfl⟩
  obtain ⟨y, rfl⟩ := hobj
  have wx := wa.get? ha.event
  have wy := wb.get? hw
  have hy := ha.acceptedEvent.of_reordered wx wy hevent
  have hid := hentry "case_id" (by decide) (by decide)
  have haligned := alignedEvent_of_reordered hevent
  have hlinksY : RowsWith y "affected_links" (AreLinks y) :=
    (haligned.lists "affected_links" (by decide)).rowsWith (fun _ _ hperm =>
      AreLinks.of_permuted (haligned.lists "affected_process_steps" (by decide))
        (haligned.lists "affected_characteristics" (by decide)) hperm) hlinks
  rw [validationScopeDigest, validationScopeDigest,
    validationScope_eq ha.event ha.caseId ha.acceptedEvent hlinks,
    validationScope_eq hw (ha.caseId.congr hid) hy hlinksY,
    scopeOf_reordered ha.acceptedEvent wx wy hlinks hid
      (hentry "schema_version" (by decide) (by decide)) hevent]

/-! ## The two hashes -/

/-- SHA-256 gives the texts of the two subjects different digests, unless they are one text. -/
def SubjectTextsApart (a b : Dict) : Prop := ∀ subjectA subjectB textA textB,
  validationCaseSubject a = .ok subjectA → validationCaseSubject b = .ok subjectB →
  dumps (.obj subjectA) = .ok textA → dumps (.obj subjectB) = .ok textB →
  sha256Hex ("QualityCI/validation-case-subject/v1\x00" ++ textA) =
    sha256Hex ("QualityCI/validation-case-subject/v1\x00" ++ textB) → textA = textB

/-- A hash that two cases have in common is that of one subject. -/
theorem sharesSubject_of_hash_eq {a b : Dict} {digest : String} (wa : (Json.obj a).WF)
    (wb : (Json.obj b).WF) (hapart : SubjectTextsApart a b)
    (ha : validationCaseSubjectHash a = .ok digest)
    (hb : validationCaseSubjectHash b = .ok digest) : SharesSubject a b := by
  simp only [validationCaseSubjectHash, bind_eq_ok, domainDigest_eq_ok] at ha hb
  obtain ⟨subjectA, hsa, textA, hta, hda⟩ := ha
  obtain ⟨subjectB, hsb, textB, htb, hdb⟩ := hb
  have htext := hapart subjectA subjectB textA textB hsa hsb hta htb (hda.trans hdb.symm)
  subst htext
  exact sharesSubject_of_dumps_eq wa wb hsa hsb hta htb

/-- **Validation identities are stable.**  Of a bound case whose links are a list, the subject hash
is that of every case that agrees with it upstream, up to order, where the rows that come after can
be sorted; the scope digest is that of every case that agrees with it outside the documents; and a
case with the same subject hash agrees with it upstream. -/
theorem validationIdentity_stable {case : Dict} (hwf : (Json.obj case).WF)
    (hvalid : validateCase (.obj case) = .ok ())
    (hbound : case.present? "relationship_migration" = none)
    (hlinks : ((case.dictAt "event").getD "affected_links" .null).isList = true) :
    (∀ other : Dict, (Json.obj other).WF → SharesSubject case other →
      DownstreamKeysAreStrings other →
      (validationCaseSubjectHash case).toOption = (validationCaseSubjectHash other).toOption) ∧
    (∀ other : Dict, (Json.obj other).WF → SharesScope case other →
      validationScopeDigest case = validationScopeDigest other) ∧
    ∀ (other : Dict) (digest : String), (Json.obj other).WF → SubjectTextsApart case other →
      validationCaseSubjectHash case = .ok digest → validationCaseSubjectHash other = .ok digest →
      SharesSubject case other := by
  simp only [validateCase, bind_eq_ok, requireDict_eq_ok, Json.obj.injEq, exists_eq_left'] at hvalid
  have haccepted := validateCase_accepted hvalid
  have hrows : RowsWith (case.dictAt "event") "affected_links" (AreLinks (case.dictAt "event")) := by
    rcases haccepted.acceptedEvent.links with hnone | hrows
    · rcases Dict.present?_eq_none.mp hnone with hnone | hnull
      · simp [Dict.getD, hnone] at hlinks
      · simp [Dict.getD, hnull] at hlinks
    · exact hrows
  refine ⟨fun other wother hsame hdown => ?_, fun other wother hsame => ?_,
    fun other digest wother hapart ha hb => ?_⟩
  · exact validationCaseSubjectHash_of_sharesSubject hwf wother haccepted hbound hdown hsame
  · exact validationScopeDigest_of_sharesScope hwf wother haccepted hrows hsame
  · exact sharesSubject_of_hash_eq hwf wother hapart ha hb

/-! ## What leaves the scope alone -/

omit [PyUnicode] in
/-- The documents may be anything for the scope. -/
theorem sharesScope_set {case : Dict} (hwf : (Json.obj case).WF) {v : Json} (hv : v.WF) :
    SharesScope case (case.set "documents" v) := by
  have hsame : (case.set "documents" v).erase "documents" = case.erase "documents" := by
    refine Dict.ext (Json.wf_obj.mp ((hwf.set _ hv).erase _)).1 (Json.wf_obj.mp (hwf.erase _)).1
      fun k => ?_
    rw [Dict.get?_erase, Dict.get?_erase, Dict.get?_set]
    split_ifs <;> rfl
  rw [SharesScope, hsame]
  exact Dict.related_refl caseReorderings_equivalence _

end Subject

section Ascii

attribute [local instance] asciiUnicode

/-- The small case, with no approvals. -/
def boundCase : Dict := sampleCase (sampleEvent "LOW" [] []) sampleDocuments

/-- The same with its findings filled in and its event approved. -/
def concludedCase : Dict :=
  (sampleCase (sampleEvent "LOW" [sampleApproval "Owner"] []) sampleDocuments).set "findings"
    (.arr [.str "none"])

lemma boundCase_sharesSubject : SharesSubject boundCase concludedCase := by
  have hsame : upstream boundCase = upstream concludedCase := by decide +kernel
  rw [SharesSubject, hsame]
  exact Dict.related_refl caseReorderings_equivalence _

lemma boundCase_hash : ∃ digest, validationCaseSubjectHash boundCase = .ok digest := by
  obtain ⟨text, htext⟩ := exists_ok_of_isSome (show ((validationCaseSubject boundCase).bind
    fun subject => dumps (.obj subject)).toOption.isSome = true by decide +kernel)
  obtain ⟨subject, hok, hdumps⟩ := bind_eq_ok.mp htext
  exact ⟨_, bind_eq_ok.mpr ⟨subject, hok, domainDigest_eq_ok.mpr ⟨text, hdumps, rfl⟩⟩⟩

/-- The two hashes of the small case, concluded, and with no document left. -/
theorem validationIdentity_stable_sample :
    (validationCaseSubjectHash boundCase).toOption =
      (validationCaseSubjectHash concludedCase).toOption ∧
    validationScopeDigest boundCase =
      validationScopeDigest (boundCase.set "documents" (.arr [])) ∧
    ∃ digest, validationCaseSubjectHash boundCase = .ok digest ∧
      validationCaseSubjectHash concludedCase = .ok digest ∧
      SharesSubject boundCase concludedCase := by
  have hwf : (Json.obj boundCase).WF := by decide +kernel
  have wconcluded : (Json.obj concludedCase).WF := by decide +kernel
  have hstable := validationIdentity_stable hwf (by decide +kernel) (by decide +kernel)
    (by decide +kernel)
  have hdown : DownstreamKeysAreStrings concludedCase :=
    AcceptedCase.downstreamKeysAreStrings (validateCase_accepted
      (show validateCaseDict concludedCase = .ok () by decide +kernel))
  have hhash := hstable.1 concludedCase wconcluded boundCase_sharesSubject hdown
  refine ⟨hhash, hstable.2.1 _ (by decide +kernel) (sharesScope_set hwf (by decide +kernel)), ?_⟩
  have hsubject : validationCaseSubject boundCase = validationCaseSubject concludedCase := by
    decide +kernel
  have hboth : validationCaseSubjectHash boundCase = validationCaseSubjectHash concludedCase := by
    rw [validationCaseSubjectHash, validationCaseSubjectHash, hsubject]
  obtain ⟨digest, hdigest⟩ := boundCase_hash
  refine ⟨digest, hdigest, hboth ▸ hdigest, hstable.2.2 concludedCase _ wconcluded ?_ hdigest
    (hboth ▸ hdigest)⟩
  intro subjectA subjectB textA textB hA hB htA htB _
  rw [← hsubject, hA, Except.ok.injEq] at hB
  subst hB
  exact Except.ok.inj (htA.symm.trans htB)

/-- **Two more fields are taken away than those that were said to be, and an approval need not have
a sort key.**  An accepted case keeps its subject hash when a validation context is written into
it; and it loses its hash when its approvals are edited into one that has a number for a role. -/
theorem validationIdentity_not_exact :
    (∃ case other : Dict, ∃ digest : String, validateCase (.obj case) = .ok () ∧
      validateCase (.obj other) = .ok () ∧ case.present? "relationship_migration" = none ∧
      case.get? "validation_context" ≠ other.get? "validation_context" ∧
      validationCaseSubjectHash case = .ok digest ∧
      validationCaseSubjectHash other = .ok digest) ∧
    ∃ event edited : Dict, boundCase.get? "event" = some (.obj event) ∧
      edited = boundCase.set "event" (.obj (event.set "approvals"
        (.arr [.obj (Dict.ofList [("role", .int 5)])]))) ∧
      validationCaseSubjectHash edited =
        typeError "normalize() argument 2 must be str, not int" := by
  obtain ⟨digest, hdigest⟩ := boundCase_hash
  constructor
  · refine ⟨boundCase, boundCase.set "validation_context" (.str "other"), digest, by decide +kernel,
      by decide +kernel, by decide +kernel, by decide +kernel, hdigest, ?_⟩
    have hsubject : validationCaseSubject boundCase =
        validationCaseSubject (boundCase.set "validation_context" (.str "other")) := by
      decide +kernel
    rw [validationCaseSubjectHash, ← hsubject]
    exact hdigest
  · refine ⟨sampleEvent "LOW" [] [], _, by decide +kernel, rfl, ?_⟩
    have hraises : validationCaseSubject (boundCase.set "event"
        (.obj ((sampleEvent "LOW" [] []).set "approvals"
          (.arr [.obj (Dict.ofList [("role", .int 5)])])))) =
        typeError "normalize() argument 2 must be str, not int" := by
      decide +kernel
    rw [validationCaseSubjectHash, hraises]
    rfl

end Ascii

end QualityCI

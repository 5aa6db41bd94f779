import QualityCI.Loader.Accepted
import QualityCI.Loader.Projection

/-!
# Which reorderings the projection forgets

The projection sorts by normalized keys with a stable sort, so it forgets the order of an array
exactly when no two of its members have one key.  The validator keeps the keys of most arrays
apart, but it compares approvals by their raw spelling and leaves out of its comparison the
characteristic rows of a migrated case that name no process step.  Some sort keys are read from
fields that it lets hold anything.

* `SortKeysAreStrings`, `TiesKeepOrder` — what the validator leaves open.
* `agree_event_iff`, `agree_documents_iff` — the comparison, section by section.
* **`agree_projection_iff`** — two accepted cases have one projection exactly when one is a
  reordering of the other that keeps the order of tied rows, and the sort keys are strings.
* **`projection_decides_reordering_iff`** — when the projection decides reordering.
-/

namespace QualityCI

open Py KeySort

section Projection

variable [PyUnicode]

/-! ## What the validator leaves open -/

/-- The key is missing or holds a string. -/
def StringOrAbsent (row : Dict) (key : String) : Prop := OptionalAt row key fun v => ∃ s, v = .str s

/-- The sort-key fields of a document's rows that the validator does not check hold strings where
they are present. -/
def FieldKeysAreStrings (fields : Dict) : Prop :=
  (∀ row ∈ fields.rowsAt "characteristics",
    StringOrAbsent row "process_step_id" ∧ StringOrAbsent row "control_id") ∧
  ∀ row ∈ fields.rowsAt "risks", StringOrAbsent row "process_step_id"

/-- No sort key of the case meets a value that is no string. -/
def SortKeysAreStrings (case : Dict) : Prop :=
  ∀ doc ∈ case.rowsAt "documents", FieldKeysAreStrings (doc.dictAt "fields")

/-- The characteristic rows of a document. -/
def characteristicsOf (doc : Dict) : List Dict := (doc.dictAt "fields").rowsAt "characteristics"

/-- Approvals with one normalized role and revision stand in one order in both events. -/
def ApprovalTies (a b : Dict) : Prop :=
  ∀ k, rowsOf approvalKey k (a.rowsAt "approvals") = rowsOf approvalKey k (b.rowsAt "approvals")

/-- Characteristic rows with one normalized key stand in one order in both documents. -/
def CharacteristicTies (a b : Dict) : Prop :=
  ∀ k, rowsOf characteristicKey k (characteristicsOf a) =
    rowsOf characteristicKey k (characteristicsOf b)

/-- Rows that tie under their normalized keys stand in one order in both cases. -/
def TiesKeepOrder (a b : Dict) : Prop :=
  ApprovalTies (a.dictAt "event") (b.dictAt "event") ∧
    ∀ x ∈ a.rowsAt "documents", ∀ y ∈ b.rowsAt "documents",
      documentIdOf x = documentIdOf y → CharacteristicTies x y

/-! ## Sort keys of accepted rows -/

omit [PyUnicode] in
lemma mapEach_three {f : String → Result String} {x y z : String} {out : List String} :
    mapEach f [x, y, z] = .ok out ↔
      ∃ a b c, f x = .ok a ∧ f y = .ok b ∧ f z = .ok c ∧ out = [a, b, c] := by
  simp only [mapEach, bind_eq_ok, Except.ok.injEq]
  constructor
  · rintro ⟨a, ha, _, ⟨b, hb, _, ⟨c, hc, _, rfl, rfl⟩, rfl⟩, rfl⟩
    exact ⟨a, b, c, ha, hb, hc, rfl⟩
  · rintro ⟨a, b, c, ha, hb, hc, rfl⟩
    exact ⟨a, ha, _, ⟨b, hb, _, ⟨c, hc, _, rfl, rfl⟩, rfl⟩, rfl⟩

lemma identityField_of_text {row : Dict} {key s : String} (h : row.get? key = some (.str s)) :
    identityField row key = .ok (normalizedIdentity s) := by
  simp [identityField, Dict.getD, h, normalizedIdentityOf]

lemma identityField_of_hasText {row : Dict} {key : String} (h : HasText row key) :
    identityField row key = .ok (normalizedIdentity (row.textAt key)) :=
  identityField_of_text h.1

lemma identityField_succeeds_iff {row : Dict} {key : String} :
    (∃ k, identityField row key = .ok k) ↔ StringOrAbsent row key := by
  unfold identityField StringOrAbsent OptionalAt Dict.getD
  cases h : row.get? key with
  | none => simp [normalizedIdentityOf]
  | some v => cases v <;> simp [normalizedIdentityOf]

lemma linkKey_eq {link : Dict} (hs : HasText link "process_step_id")
    (hc : HasText link "characteristic_id") :
    linkKey link = .ok [(pairOf link).1, (pairOf link).2] := by
  simp [linkKey, identityFields, mapEach, identityField_of_hasText hs, identityField_of_hasText hc,
    pairOf, relationshipKey, bind, Except.bind]

lemma approvalKey_eq {item : Dict} (h : IsApproval item) :
    approvalKey item = .ok [normalizedIdentity (item.textAt "role"),
      normalizedIdentity (item.textAt "event_revision")] := by
  simp [approvalKey, identityFields, mapEach, identityField_of_hasText h.role,
    identityField_of_hasText h.revision, bind, Except.bind]

lemma evidenceKey_eq {item : Dict} (h : HasText item "evidence_id") :
    evidenceKey item = .ok [evidenceIdOf item] := by
  simp [evidenceKey, identityFields, mapEach, identityField_of_hasText h, evidenceIdOf, bind,
    Except.bind]

lemma requiredEvidenceKey_eq {item : Dict} (h : HasText item "evidence_id") :
    requiredEvidenceKey item = .ok [evidenceIdOf item, item.textAt "evidence_id"] := by
  simp [requiredEvidenceKey, identityField_of_hasText h, evidenceIdOf, Dict.getD, h.1, bind,
    Except.bind]

lemma documentKey_eq {doc : Dict} (h : HasText doc "document_id") :
    documentKey doc = .ok [documentIdOf doc] := by
  simp [documentKey, identityFields, mapEach, identityField_of_hasText h, documentIdOf, bind,
    Except.bind]

lemma riskKey_eq_ok {row : Dict} (hm : HasText row "failure_mode_id") {k : List String}
    (h : riskKey row = .ok k) : ∃ s c, k = [s, c, failureModeOf row] := by
  unfold riskKey identityFields at h
  rw [mapEach_three] at h
  obtain ⟨a, b, c, -, -, hc, rfl⟩ := h
  rw [identityField_of_hasText hm, Except.ok.injEq] at hc
  exact ⟨a, b, by rw [← hc]; rfl⟩

/-! ## Lists -/

omit [PyUnicode] in
lemma perm_map_obj {xs ys : List Dict} : (xs.map Json.obj).Perm (ys.map Json.obj) ↔ xs.Perm ys :=
  List.map_perm_map_iff fun _ _ => Json.obj.inj

omit [PyUnicode] in
/-- Permuted lists of dictionaries. -/
lemma permutedList_rows {xs ys : List Dict} :
    PermutedList (.arr (xs.map .obj)) (.arr (ys.map .obj)) ↔ xs.Perm ys := by
  constructor
  · rintro (h | ⟨us, vs, hu, hv, hperm⟩)
    · rw [Json.arr.injEq] at h
      rw [← perm_map_obj, h]
    · rw [Json.arr.injEq] at hu hv
      subst hu hv
      exact perm_map_obj.mp hperm
  · intro h
    exact Or.inr ⟨_, _, rfl, rfl, perm_map_obj.mpr h⟩

omit [PyUnicode] in
lemma permutedList_texts {xs ys : List String} :
    PermutedList (.arr (xs.map .str)) (.arr (ys.map .str)) ↔ xs.Perm ys := by
  have hmap : (xs.map Json.str).Perm (ys.map Json.str) ↔ xs.Perm ys :=
    List.map_perm_map_iff fun _ _ => Json.str.inj
  constructor
  · rintro (h | ⟨us, vs, hu, hv, hperm⟩)
    · rw [Json.arr.injEq] at h
      rw [← hmap, h]
    · rw [Json.arr.injEq] at hu hv
      subst hu hv
      exact hmap.mp hperm
  · intro h
    exact Or.inr ⟨_, _, rfl, rfl, hmap.mpr h⟩

/-- The value under a key of an optional list of rows. -/
def IsRowsOr (P : List Dict → Prop) (v : Json) : Prop :=
  v = .null ∨ ∃ rows : List Dict, v = .arr (rows.map .obj) ∧ P rows

omit [PyUnicode] in
lemma OptionalRowsWith.value {d : Dict} {key : String} {P : List Dict → Prop} {v : Json}
    (h : OptionalRowsWith d key P) (hv : d.get? key = some v) : IsRowsOr P v := by
  rcases h with h | h
  · rcases Dict.present?_eq_none.mp h with h | h
    · rw [h] at hv
      cases hv
    · rw [h, Option.some.injEq] at hv
      exact Or.inl hv.symm
  · rw [h.1, Option.some.injEq] at hv
    exact Or.inr ⟨_, hv.symm, h.2⟩

omit [PyUnicode] in
lemma DefaultRowsWith.value {d : Dict} {key : String} {P : List Dict → Prop} {v : Json}
    (h : DefaultRowsWith d key P) (hv : d.get? key = some v) :
    v = .arr ((d.rowsAt key).map .obj) ∧ P (d.rowsAt key) := by
  rcases h with h | h
  · rw [h] at hv
    cases hv
  · rw [h.1, Option.some.injEq] at hv
    exact ⟨hv.symm, h.2⟩

omit [PyUnicode] in
lemma agree_sortRows_null {key : Dict → Result (List String)} {v : Json} {P : List Dict → Prop}
    (hv : IsRowsOr P v) : Agree (sortRows key) .null v ↔ PermutedList .null v := by
  constructor
  · rintro ⟨r, h1, h2⟩
    obtain rfl := Except.ok.inj h1
    rcases hv with rfl | ⟨rows, rfl, -⟩
    · exact Or.inl rfl
    · rw [sortRows_map_eq_ok] at h2
      cases h2.2
  · rintro (rfl | ⟨xs, ys, hx, -⟩)
    · exact ⟨.null, rfl, rfl⟩
    · cases hx

omit [PyUnicode] in
lemma PermutedList.symm {v w : Json} (h : PermutedList v w) : PermutedList w v := by
  rcases h with rfl | ⟨xs, ys, rfl, rfl, h⟩
  · exact Or.inl rfl
  · exact Or.inr ⟨ys, xs, rfl, rfl, h.symm⟩

omit [PyUnicode] in
/-- Rows whose keys are told apart: sorting decides permutation. -/
lemma agree_sortRows_permuted {key : Dict → Result (List String)} {P Q : List Dict → Prop}
    (hP : ∀ rows, P rows → (∀ r ∈ rows, ∃ k, key r = .ok k) ∧ (rows.map (keyOr key)).Nodup)
    {v w : Json} (hv : IsRowsOr P v) (hw : IsRowsOr Q w) :
    Agree (sortRows key) v w ↔ PermutedList v w := by
  rcases hv with rfl | ⟨xs, rfl, hx⟩
  · exact agree_sortRows_null hw
  rcases hw with rfl | ⟨ys, rfl, -⟩
  · have hxs : IsRowsOr P (.arr (xs.map .obj)) := Or.inr ⟨xs, rfl, hx⟩
    exact ⟨fun h => ((agree_sortRows_null hxs).mp h.symm).symm,
      fun h => ((agree_sortRows_null hxs).mpr h.symm).symm⟩
  · rw [agree_sortRows_iff_perm (hP xs hx).1 (hP xs hx).2, permutedList_rows]

/-- Identities told apart: sorting decides permutation. -/
lemma agree_sortIdentities {xs ys : List String} (hx : (xs.map normalizedIdentity).Nodup) :
    Agree sortIdentities (.arr (xs.map .str)) (.arr (ys.map .str)) ↔
      PermutedList (.arr (xs.map .str)) (.arr (ys.map .str)) := by
  have hsort : ∀ ss : List String, sortIdentities (.arr (ss.map .str)) =
      .ok (.arr ((sortBy normalizedIdentity ss).map .str)) := by
    intro ss
    have hall : (ss.map Json.str).all Json.isStr = true := by simp [Json.isStr]
    have htexts : (ss.map Json.str).filterMap Json.str? = ss := by
      simp [List.filterMap_map, Function.comp_def, Json.str?]
    simp only [sortIdentities, hall, ↓reduceIte, htexts]
  have hinj : Function.Injective Json.str := fun _ _ => Json.str.inj
  rw [permutedList_texts]
  constructor
  · rintro ⟨r, h1, h2⟩
    rw [hsort, Except.ok.injEq] at h1 h2
    rw [← h2, Json.arr.injEq, (List.map_injective_iff.mpr hinj).eq_iff] at h1
    exact perm_of_sortBy_eq h1
  · intro hperm
    refine ⟨_, hsort xs, ?_⟩
    rw [hsort, sortBy_eq_of_perm hx hperm]

/-- An optional list of identities. -/
lemma agree_sortIdentities_optional {a b : Dict} {key : String} {v w : Json}
    (ha : a.present? key = none ∨ IsScope a key) (hb : b.present? key = none ∨ IsScope b key)
    (hv : a.get? key = some v) (hw : b.get? key = some w) :
    Agree sortIdentities v w ↔ PermutedList v w := by
  have hvalue : ∀ (d : Dict) (u : Json), d.present? key = none ∨ IsScope d key →
      d.get? key = some u → u = .null ∨ (u = .arr ((d.textsAt key).map .str) ∧
        ((d.textsAt key).map normalizedIdentity).Nodup) := by
    intro d u hd hu
    rcases hd with h | h
    · rcases Dict.present?_eq_none.mp h with h | h
      · rw [h] at hu
        cases hu
      · rw [h, Option.some.injEq] at hu
        exact Or.inl hu.symm
    · rw [h.texts.1, Option.some.injEq] at hu
      exact Or.inr ⟨hu.symm, h.distinct⟩
  have hnull : ∀ ss : List String, sortIdentities (.arr (ss.map .str)) ≠ .ok .null := by
    intro ss h
    simp only [sortIdentities] at h
    split_ifs at h <;> cases h
  have hperm : ∀ ss : List String, ¬PermutedList .null (.arr (ss.map .str)) := by
    rintro ss (h | ⟨xs, ys, hx, -⟩)
    · cases h
    · cases hx
  rcases hvalue a v ha hv with rfl | ⟨rfl, hda⟩
  · rcases hvalue b w hb hw with rfl | ⟨rfl, -⟩
    · exact ⟨fun _ => Or.inl rfl, fun _ => ⟨.null, rfl, rfl⟩⟩
    · refine ⟨fun h => ?_, fun h => absurd h (hperm _)⟩
      obtain ⟨r, h1, h2⟩ := h
      obtain rfl := Except.ok.inj h1
      exact absurd h2 (hnull _)
  · rcases hvalue b w hb hw with rfl | ⟨rfl, -⟩
    · refine ⟨fun h => ?_, fun h => absurd h.symm (hperm _)⟩
      obtain ⟨r, h1, h2⟩ := h
      obtain rfl := Except.ok.inj h2
      exact absurd h1 (hnull _)
    · exact agree_sortIdentities hda

/-! ## Sections of a case -/

omit [PyUnicode] in
lemma exceptAt_cons (k : String) (rel : Json → Json → Prop)
    (rest : List (String × (Json → Json → Prop))) (key : String) :
    exceptAt ((k, rel) :: rest) key = if k = key then rel else exceptAt rest key := by
  unfold exceptAt
  rw [List.lookup_cons]
  by_cases h : k = key
  · simp [h]
  · have : (key == k) = false := by simpa using fun e => h e.symm
    simp [h, this]

omit [PyUnicode] in
lemma exceptAt_of_notMem {special : List (String × (Json → Json → Prop))} {key : String}
    (h : key ∉ special.map Prod.fst) : exceptAt special key = Eq := by
  induction special with
  | nil => rfl
  | cons e rest ih =>
      obtain ⟨k, rel⟩ := e
      simp only [List.map_cons, List.mem_cons, not_or] at h
      rw [exceptAt_cons, if_neg fun e => h.1 e.symm, ih h.2]

omit [PyUnicode] in
lemma exceptAt_nil (key : String) : exceptAt [] key = Eq := rfl

omit [PyUnicode] in
lemma blockOf_nil (key : String) : Dict.blockOf [] key = .ok := rfl

omit [PyUnicode] in
/-- The projections of two dictionaries agree when their values do. -/
lemma agree_projectDict_iff {blocks : List (String × (Json → Result Json))}
    (hkeys : (blocks.map Prod.fst).Nodup) {a b : Dict} (ha : a.Ordered) (hb : b.Ordered) :
    Agree (projectDict blocks) (.obj a) (.obj b) ↔
      Dict.Related (fun k => Agree (Dict.blockOf blocks k)) a b := by
  rw [← Dict.agree_updateAll_iff hkeys ha hb]
  constructor
  · rintro ⟨r, h1, h2⟩
    simp only [projectDict, bind_eq_ok, Except.ok.injEq] at h1 h2
    obtain ⟨p, hp, rfl⟩ := h1
    obtain ⟨q, hq, heq⟩ := h2
    rw [Json.obj.injEq] at heq
    exact ⟨p, hp, heq ▸ hq⟩
  · rintro ⟨p, h1, h2⟩
    exact ⟨.obj p, by simp [projectDict, h1], by simp [projectDict, h2]⟩

omit [PyUnicode] in
lemma relatedDict_obj {rel : String → Json → Json → Prop} (hrefl : ∀ k v, rel k v v) {a b : Dict} :
    RelatedDict rel (.obj a) (.obj b) ↔ Dict.Related rel a b := by
  constructor
  · rintro (h | ⟨x, y, hx, hy, h⟩)
    · rw [Json.obj.injEq] at h
      subst h
      intro k
      cases a.get? k with
      | none => exact Option.Rel.none
      | some v => exact Option.Rel.some (hrefl k v)
    · rw [Json.obj.injEq] at hx hy
      subst hx hy
      exact h
  · exact fun h => Or.inr ⟨a, b, rfl, rfl, h⟩

omit [PyUnicode] in
lemma exceptAt_refl {special : List (String × (Json → Json → Prop))}
    (h : ∀ e ∈ special, ∀ v, e.2 v v) (k : String) (v : Json) : exceptAt special k v v := by
  induction special with
  | nil => exact Eq.refl v
  | cons e rest ih =>
      rw [exceptAt_cons]
      split_ifs
      · exact h e List.mem_cons_self v
      · exact ih fun e he => h e (List.mem_cons_of_mem _ he)

omit [PyUnicode] in
lemma PermutedList.refl (v : Json) : PermutedList v v := Or.inl rfl

omit [PyUnicode] in
lemma RelatedDict.refl (rel : String → Json → Json → Prop) (v : Json) : RelatedDict rel v v :=
  Or.inl rfl

omit [PyUnicode] in
/-- Keys are told apart when something read off them is. -/
lemma keys_distinct {α : Type} {key : Dict → Result (List String)} {rows : List Dict}
    (f : Dict → α) (g : List String → α)
    (hkey : ∀ r ∈ rows, ∃ k, key r = .ok k ∧ g k = f r) (h : (rows.map f).Nodup) :
    (∀ r ∈ rows, ∃ k, key r = .ok k) ∧ (rows.map (keyOr key)).Nodup := by
  refine ⟨fun r hr => (hkey r hr).imp fun _ hk => hk.1, List.Nodup.of_map g ?_⟩
  have hmap : (rows.map (keyOr key)).map g = rows.map f := by
    rw [List.map_map]
    refine List.map_congr_left fun r hr => ?_
    obtain ⟨k, hk, hg⟩ := hkey r hr
    simp [keyOr, hk, Except.toOption, hg]
  rw [hmap]
  exact h

omit [PyUnicode] in
lemma eventReorderings_refl : ∀ k v, exceptAt eventReorderings k v v :=
  exceptAt_refl (by simp [eventReorderings, PermutedList.refl, RelatedDict.refl])

omit [PyUnicode] in
lemma caseReorderings_refl : ∀ k v, exceptAt caseReorderings k v v :=
  exceptAt_refl (by simp [caseReorderings, ReorderedEvent, RelatedDict.refl, ReorderedDocuments])

/-! ### The event -/

lemma requirementKeys_distinct {rows : List Dict} (h : AreRequirements rows) :
    (∀ r ∈ rows, ∃ k, requiredEvidenceKey r = .ok k) ∧
      (rows.map (keyOr requiredEvidenceKey)).Nodup := by
  refine keys_distinct (fun r => some (evidenceIdOf r)) List.head? (fun r hr => ?_) ?_
  · exact ⟨_, requiredEvidenceKey_eq ((h.each r hr).text _ (by simp [requirementKeys])), rfl⟩
  · have := h.distinct.map (Option.some_injective _)
    rwa [List.map_map] at this

lemma linkKeys_distinct {event : Dict} {rows : List Dict} (h : AreLinks event rows) :
    (∀ r ∈ rows, ∃ k, linkKey r = .ok k) ∧ (rows.map (keyOr linkKey)).Nodup := by
  refine keys_distinct pairOf (fun k => (k.getD 0 "", k.getD 1 "")) (fun r hr => ?_) h.distinct
  exact ⟨_, linkKey_eq (h.each r hr).step (h.each r hr).characteristic, rfl⟩

lemma evidenceKeys_distinct {rows : List Dict} (h : AreEvidence rows) :
    (∀ r ∈ rows, ∃ k, evidenceKey r = .ok k) ∧ (rows.map (keyOr evidenceKey)).Nodup := by
  refine keys_distinct evidenceIdOf (fun k => k.getD 0 "") (fun r hr => ?_) h.distinct
  exact ⟨_, evidenceKey_eq (h.each r hr).id, rfl⟩

lemma agree_plan_iff {a b : Dict} (ha : IsPlan a) (hb : IsPlan b) (wa : a.Ordered)
    (wb : b.Ordered) :
    Agree (projectDict planBlocks) (.obj a) (.obj b) ↔
      RelatedDict (exceptAt planReorderings) (.obj a) (.obj b) := by
  rw [agree_projectDict_iff (by simp [planBlocks]) wa wb,
    relatedDict_obj (exceptAt_refl (by simp [planReorderings, PermutedList.refl]))]
  have hvalue : ∀ k v w, a.get? k = some v → b.get? k = some w →
      (Agree (Dict.blockOf planBlocks k) v w ↔
        exceptAt planReorderings k v w) := by
    intro k v w hv hw
    simp only [planBlocks, planReorderings, Dict.blockOf_cons, exceptAt_cons, exceptAt_nil,
      blockOf_nil]
    split_ifs with hk
    · subst hk
      rw [ha.evidence.1, Option.some.injEq] at hv
      rw [hb.evidence.1, Option.some.injEq] at hw
      exact agree_sortRows_permuted (fun _ h => requirementKeys_distinct h)
        (Or.inr ⟨_, hv.symm, ha.evidence.2⟩) (Or.inr ⟨_, hw.symm, hb.evidence.2⟩)
    · exact agree_ok_iff
  exact ⟨Dict.Related.imp fun k v w hv hw => (hvalue k v w hv hw).mp,
    Dict.Related.imp fun k v w hv hw => (hvalue k v w hv hw).mpr⟩

/-- A value under `validation_plan`: a plan or nothing. -/
lemma agree_planValue_iff {a b : Dict} {m m' : Option Json} (ha : AcceptedEvent a m)
    (hb : AcceptedEvent b m') (wa : (Json.obj a).WF) (wb : (Json.obj b).WF) {v w : Json}
    (hv : a.get? "validation_plan" = some v) (hw : b.get? "validation_plan" = some w) :
    Agree (projectDict planBlocks) v w ↔
      RelatedDict (exceptAt planReorderings) v w := by
  have hcases : ∀ {d : Dict} {m : Option Json} {u : Json}, AcceptedEvent d m →
      d.get? "validation_plan" = some u → u = .null ∨ ∃ plan, u = .obj plan ∧ IsPlan plan := by
    intro d m u hd hu
    rcases hd.plan with ⟨h, -⟩ | ⟨plan, h, hplan⟩
    · rcases Dict.present?_eq_none.mp h with h | h
      · rw [h] at hu
        cases hu
      · rw [h, Option.some.injEq] at hu
        exact Or.inl hu.symm
    · rw [h, Option.some.injEq] at hu
      exact Or.inr ⟨plan, hu.symm, hplan⟩
  have hsides : ∀ (p : Dict), ¬Agree (projectDict planBlocks) .null (.obj p) ∧
      ¬RelatedDict (exceptAt planReorderings) .null (.obj p) := by
    refine fun p => ⟨?_, ?_⟩
    · rintro ⟨r, h1, h2⟩
      obtain rfl := Except.ok.inj h1
      simp [projectDict] at h2
    · rintro (h | ⟨x, y, hx, -⟩)
      · cases h
      · cases hx
  have hsides' : ∀ (p : Dict),
      ¬RelatedDict (exceptAt planReorderings) (.obj p) .null := by
    rintro p (h | ⟨x, y, -, hy, -⟩)
    · cases h
    · cases hy
  rcases hcases ha hv with rfl | ⟨p, rfl, hp⟩
  · rcases hcases hb hw with rfl | ⟨q, rfl, hq⟩
    · exact ⟨fun _ => Or.inl rfl, fun _ => ⟨.null, rfl, rfl⟩⟩
    · exact ⟨fun h => absurd h (hsides q).1, fun h => absurd h (hsides q).2⟩
  · rcases hcases hb hw with rfl | ⟨q, rfl, hq⟩
    · exact ⟨fun h => absurd h.symm (hsides p).1, fun h => absurd h (hsides' p)⟩
    · exact agree_plan_iff hp hq (Json.wf_obj.mp (wa.get? hv)).1 (Json.wf_obj.mp (wb.get? hw)).1

/-- Approvals sort alike when one list permutes the other and ties keep their order. -/
lemma agree_approvals_iff {a b : Dict} {m m' : Option Json} (ha : AcceptedEvent a m)
    (hb : AcceptedEvent b m') {v w : Json} (hv : a.get? "approvals" = some v)
    (hw : b.get? "approvals" = some w) :
    Agree (sortRows approvalKey) v w ↔ PermutedList v w ∧ ApprovalTies a b := by
  have hkeys : ∀ {d : Dict} {m : Option Json}, AcceptedEvent d m → ∀ r ∈ d.rowsAt "approvals",
      ∃ k, approvalKey r = .ok k := by
    intro d m hd r hr
    have happrovals := hd.approvals.rows ⟨by simp, by simp⟩
    exact ⟨_, approvalKey_eq (happrovals.each r hr)⟩
  have hrows : ∀ {d : Dict} {u : Json}, IsRowsOr AreApprovals u →
      d.get? "approvals" = some u →
      (u = .null ∧ d.rowsAt "approvals" = []) ∨ u = .arr ((d.rowsAt "approvals").map .obj) := by
    rintro d u (rfl | ⟨rows, rfl, -⟩) hu
    · exact Or.inl ⟨rfl, Dict.rowsAt_of_present?_none (Dict.present?_eq_none.mpr (Or.inr hu))⟩
    · exact Or.inr (by rw [Dict.rowsAt_eq hu])
  have hva := ha.approvals.value hv
  have hwb := hb.approvals.value hw
  rcases hrows hva hv with ⟨rfl, hnil⟩ | hva'
  · rw [agree_sortRows_null hwb]
    refine ⟨fun h => ⟨h, fun k => ?_⟩, fun h => h.1⟩
    rcases hrows hwb hw with ⟨-, hnil'⟩ | rfl
    · rw [hnil, hnil']
    · rcases h with h | ⟨xs, ys, hx, -⟩
      · cases h
      · cases hx
  · rcases hrows hwb hw with ⟨rfl, hnil⟩ | hwb'
    · constructor
      · intro h
        have hperm := (agree_sortRows_null hva).mp h.symm
        rw [hva'] at hperm
        rcases hperm with h | ⟨xs, ys, hx, -⟩
        · cases h
        · cases hx
      · rintro ⟨hperm, -⟩
        exact ((agree_sortRows_null hva).mpr hperm.symm).symm
    · rw [hva', hwb', agree_sortRows_iff, permutedList_rows]
      exact ⟨fun h => ⟨h.1, h.2.2⟩, fun h => ⟨h.1, hkeys ha, h.2⟩⟩

/-- **Two accepted events are projected alike exactly when they are reorderings that keep the
order of tied approvals.** -/
theorem agree_event_iff {a b : Dict} {m m' : Option Json} (ha : AcceptedEvent a m)
    (hb : AcceptedEvent b m') (wa : (Json.obj a).WF) (wb : (Json.obj b).WF) :
    Agree (projectDict eventBlocks) (.obj a) (.obj b) ↔
      ReorderedEvent (.obj a) (.obj b) ∧ ApprovalTies a b := by
  unfold ReorderedEvent
  rw [agree_projectDict_iff (by simp [eventBlocks]) (Json.wf_obj.mp wa).1 (Json.wf_obj.mp wb).1,
    relatedDict_obj eventReorderings_refl]
  have hvalue : ∀ k v w, a.get? k = some v → b.get? k = some w →
      (Agree (Dict.blockOf eventBlocks k) v w ↔
        exceptAt eventReorderings k v w ∧ (k = "approvals" → ApprovalTies a b)) := by
    intro k v w hv hw
    by_cases hk : k ∈ eventBlocks.map Prod.fst
    · simp only [eventBlocks, List.map_cons, List.map_nil, List.mem_cons, List.not_mem_nil,
        or_false] at hk
      rcases hk with rfl | rfl | rfl | rfl | rfl | rfl
      · simpa [eventBlocks, eventReorderings, Dict.blockOf_cons, exceptAt_cons] using
          agree_sortIdentities_optional (Or.inr ha.steps) (Or.inr hb.steps) hv hw
      · simpa [eventBlocks, eventReorderings, Dict.blockOf_cons, exceptAt_cons] using
          agree_sortIdentities_optional (Or.inr ha.characteristics) (Or.inr hb.characteristics)
            hv hw
      · simpa [eventBlocks, eventReorderings, Dict.blockOf_cons, exceptAt_cons] using
          agree_sortRows_permuted (fun _ h => linkKeys_distinct h) (ha.links.value hv)
            (hb.links.value hw)
      · simpa [eventBlocks, eventReorderings, Dict.blockOf_cons, exceptAt_cons] using
          agree_approvals_iff ha hb hv hw
      · simpa [eventBlocks, eventReorderings, Dict.blockOf_cons, exceptAt_cons] using
          agree_sortRows_permuted (fun _ h => evidenceKeys_distinct h) (ha.evidence.value hv)
            (hb.evidence.value hw)
      · simpa [eventBlocks, eventReorderings, Dict.blockOf_cons, exceptAt_cons] using
          agree_planValue_iff ha hb wa wb hv hw
    · have hno : k ≠ "approvals" := by
        rintro rfl
        exact hk (by simp [eventBlocks])
      rw [Dict.blockOf_of_notMem hk, exceptAt_of_notMem (by simpa [eventBlocks, eventReorderings]
        using hk), agree_ok_iff]
      simp [hno]
  constructor
  · intro h
    refine ⟨h.imp fun k v w hv hw hk => ((hvalue k v w hv hw).mp hk).1, ?_⟩
    cases hv : a.get? "approvals" with
    | none =>
        have hb' : b.get? "approvals" = none := h.get?_eq_none hv
        intro k
        rw [Dict.rowsAt_of_present?_none (Dict.present?_eq_none.mpr (Or.inl hv)),
          Dict.rowsAt_of_present?_none (Dict.present?_eq_none.mpr (Or.inl hb'))]
    | some v =>
        obtain ⟨w, hw, hk⟩ := h.get? hv
        exact ((hvalue _ v w hv hw).mp hk).2 rfl
  · rintro ⟨h, hties⟩
    exact h.imp fun k v w hv hw hk => (hvalue k v w hv hw).mpr ⟨hk, fun _ => hties⟩

/-! ### Documents -/

lemma characteristicKey_succeeds_iff {row : Dict} (h : HasText row "characteristic_id") :
    (∃ k, characteristicKey row = .ok k) ↔
      StringOrAbsent row "process_step_id" ∧ StringOrAbsent row "control_id" := by
  unfold characteristicKey identityFields
  simp only [mapEach_three, ← identityField_succeeds_iff]
  constructor
  · rintro ⟨_, a, b, c, ha, -, hc, -⟩
    exact ⟨⟨a, ha⟩, ⟨c, hc⟩⟩
  · rintro ⟨⟨a, ha⟩, ⟨c, hc⟩⟩
    exact ⟨_, a, _, c, ha, identityField_of_hasText h, hc, rfl⟩

lemma riskKey_succeeds_iff {row : Dict} (hc : HasText row "characteristic_id")
    (hm : HasText row "failure_mode_id") :
    (∃ k, riskKey row = .ok k) ↔ StringOrAbsent row "process_step_id" := by
  unfold riskKey identityFields
  simp only [mapEach_three, ← identityField_succeeds_iff]
  constructor
  · rintro ⟨_, a, b, c, ha, -⟩
    exact ⟨a, ha⟩
  · rintro ⟨a, ha⟩
    exact ⟨_, a, _, _, ha, identityField_of_hasText hc, identityField_of_hasText hm, rfl⟩

/-- What the fields of two documents leave open: the order of tied rows. -/
def FieldTies (a b : Dict) : Prop :=
  ∀ k, rowsOf characteristicKey k (a.rowsAt "characteristics") =
    rowsOf characteristicKey k (b.rowsAt "characteristics")

lemma agree_characteristics_iff {xs : List Dict} (ys : List Dict)
    (hx : ∀ r ∈ xs, HasText r "characteristic_id") :
    Agree (sortRows characteristicKey) (.arr (xs.map .obj)) (.arr (ys.map .obj)) ↔
      PermutedList (.arr (xs.map .obj)) (.arr (ys.map .obj)) ∧
      (∀ r ∈ xs, StringOrAbsent r "process_step_id" ∧ StringOrAbsent r "control_id") ∧
      ∀ k, rowsOf characteristicKey k xs = rowsOf characteristicKey k ys := by
  rw [agree_sortRows_iff, permutedList_rows]
  exact and_congr_right fun _ => and_congr_left fun _ =>
    forall₂_congr fun r hr => characteristicKey_succeeds_iff (hx r hr)

lemma agree_risks_iff {migrated : Bool} {fields : Dict} {xs : List Dict} (ys : List Dict)
    (hx : AreRisks migrated fields xs) :
    Agree (sortRows riskKey) (.arr (xs.map .obj)) (.arr (ys.map .obj)) ↔
      PermutedList (.arr (xs.map .obj)) (.arr (ys.map .obj)) ∧
      ∀ r ∈ xs, StringOrAbsent r "process_step_id" := by
  have hsucceeds : ∀ r ∈ xs,
      ((∃ k, riskKey r = .ok k) ↔ StringOrAbsent r "process_step_id") := fun r hr =>
    riskKey_succeeds_iff (hx.each r hr).characteristic (hx.each r hr).failureMode
  constructor
  · intro h
    have h' := agree_sortRows_iff.mp h
    exact ⟨permutedList_rows.mpr h'.1, fun r hr => (hsucceeds r hr).mp (h'.2.1 r hr)⟩
  · rintro ⟨hperm, hkeys⟩
    have hdistinct : (∀ r ∈ xs, ∃ k, riskKey r = .ok k) ∧ (xs.map (keyOr riskKey)).Nodup :=
      keys_distinct failureModeOf (fun k => k.getD 2 "") (fun r hr => by
        obtain ⟨k, hk⟩ := (hsucceeds r hr).mpr (hkeys r hr)
        obtain ⟨s, c, rfl⟩ := riskKey_eq_ok (hx.each r hr).failureMode hk
        exact ⟨_, hk, rfl⟩) hx.distinct
    exact (agree_sortRows_iff_perm hdistinct.1 hdistinct.2).mpr (permutedList_rows.mp hperm)

/-- The fields of two accepted documents. -/
lemma agree_fields_iff {migrated migrated' : Bool} {type type' : String} {a b : Dict}
    (ha : AcceptedFields migrated type a) (hb : AcceptedFields migrated' type' b)
    (wa : a.Ordered) (wb : b.Ordered) :
    Agree (projectDict fieldsBlocks) (.obj a) (.obj b) ↔
      RelatedDict (exceptAt fieldsReorderings) (.obj a) (.obj b) ∧
        FieldKeysAreStrings a ∧ FieldTies a b := by
  rw [agree_projectDict_iff (by simp [fieldsBlocks]) wa wb,
    relatedDict_obj (exceptAt_refl (by simp [fieldsReorderings, PermutedList.refl]))]
  have hvalue : ∀ k v w, a.get? k = some v → b.get? k = some w →
      (Agree (Dict.blockOf fieldsBlocks k) v w ↔ exceptAt fieldsReorderings k v w ∧
        (k = "characteristics" → (∀ r ∈ a.rowsAt "characteristics",
          StringOrAbsent r "process_step_id" ∧ StringOrAbsent r "control_id") ∧ FieldTies a b) ∧
        (k = "risks" → ∀ r ∈ a.rowsAt "risks", StringOrAbsent r "process_step_id")) := by
    intro k v w hv hw
    by_cases hk : k ∈ fieldsBlocks.map Prod.fst
    · simp only [fieldsBlocks, List.map_cons, List.map_nil, List.mem_cons, List.not_mem_nil,
        or_false] at hk
      rcases hk with rfl | rfl | rfl
      · simpa [fieldsBlocks, fieldsReorderings, Dict.blockOf_cons, exceptAt_cons] using
          agree_sortIdentities_optional ha.steps hb.steps hv hw
      · obtain ⟨rfl, hxs⟩ := ha.characteristics.value hv
        obtain ⟨rfl, -⟩ := hb.characteristics.value hw
        simpa [fieldsBlocks, fieldsReorderings, Dict.blockOf_cons, exceptAt_cons, FieldTies] using
          agree_characteristics_iff (b.rowsAt "characteristics") fun r hr =>
            (hxs.each r hr).characteristic
      · obtain ⟨rfl, hxs⟩ := ha.risks.value hv
        obtain ⟨rfl, -⟩ := hb.risks.value hw
        simpa [fieldsBlocks, fieldsReorderings, Dict.blockOf_cons, exceptAt_cons] using
          agree_risks_iff (b.rowsAt "risks") hxs
    · have hno : k ≠ "characteristics" ∧ k ≠ "risks" := by
        refine ⟨?_, ?_⟩ <;> rintro rfl <;> exact hk (by simp [fieldsBlocks])
      rw [Dict.blockOf_of_notMem hk, exceptAt_of_notMem (by simpa [fieldsBlocks, fieldsReorderings]
        using hk), agree_ok_iff]
      simp [hno]
  -- a list that is missing in one document is missing in the other
  have hmissing : ∀ {rel : String → Json → Json → Prop} (key : String), Dict.Related rel a b →
      a.get? key = none → a.rowsAt key = [] ∧ b.rowsAt key = [] := by
    intro rel key h hnone
    have hb' : b.get? key = none := h.get?_eq_none hnone
    exact ⟨Dict.rowsAt_of_present?_none (Dict.present?_eq_none.mpr (Or.inl hnone)),
      Dict.rowsAt_of_present?_none (Dict.present?_eq_none.mpr (Or.inl hb'))⟩
  constructor
  · intro h
    refine ⟨h.imp fun k v w hv hw hk => ((hvalue k v w hv hw).mp hk).1, ⟨?_, ?_⟩, ?_⟩
    · cases hv : a.get? "characteristics" with
      | none => simp [(hmissing _ h hv).1]
      | some v =>
          obtain ⟨w, hw, hk⟩ := h.get? hv
          exact (((hvalue _ v w hv hw).mp hk).2.1 rfl).1
    · cases hv : a.get? "risks" with
      | none => simp [(hmissing _ h hv).1]
      | some v =>
          obtain ⟨w, hw, hk⟩ := h.get? hv
          exact ((hvalue _ v w hv hw).mp hk).2.2 rfl
    · cases hv : a.get? "characteristics" with
      | none =>
          intro k
          rw [(hmissing _ h hv).1, (hmissing _ h hv).2]
      | some v =>
          obtain ⟨w, hw, hk⟩ := h.get? hv
          exact (((hvalue _ v w hv hw).mp hk).2.1 rfl).2
  · rintro ⟨h, hkeys, hties⟩
    exact h.imp fun k v w hv hw hk =>
      (hvalue k v w hv hw).mpr ⟨hk, fun _ => ⟨hkeys.1, hties⟩, fun _ => hkeys.2⟩

/-- Two accepted documents. -/
lemma agree_document_iff {migrated migrated' : Bool} {m m' : Option Json} {a b : Dict}
    (ha : AcceptedDocument migrated m a) (hb : AcceptedDocument migrated' m' b)
    (wa : (Json.obj a).WF) (wb : (Json.obj b).WF) :
    Agree (projectDict documentBlocks) (.obj a) (.obj b) ↔
      ReorderedDocument (.obj a) (.obj b) ∧
        FieldKeysAreStrings (a.dictAt "fields") ∧ CharacteristicTies a b := by
  unfold ReorderedDocument
  rw [agree_projectDict_iff (by simp [documentBlocks]) (Json.wf_obj.mp wa).1
    (Json.wf_obj.mp wb).1,
    relatedDict_obj (exceptAt_refl (by simp [documentReorderings, RelatedDict.refl]))]
  have hfields := agree_fields_iff ha.rows hb.rows (Json.wf_obj.mp (wa.get? ha.fields)).1
    (Json.wf_obj.mp (wb.get? hb.fields)).1
  have hvalue : ∀ k v w, a.get? k = some v → b.get? k = some w →
      (Agree (Dict.blockOf documentBlocks k) v w ↔ exceptAt documentReorderings k v w ∧
        (k = "fields" → FieldKeysAreStrings (a.dictAt "fields") ∧ CharacteristicTies a b)) := by
    intro k v w hv hw
    by_cases hk : "fields" = k
    · subst hk
      rw [ha.fields, Option.some.injEq] at hv
      rw [hb.fields, Option.some.injEq] at hw
      subst hv hw
      simpa [documentBlocks, documentReorderings, Dict.blockOf_cons, exceptAt_cons,
        CharacteristicTies, characteristicsOf, FieldTies] using hfields
    · have hno : ¬k = "fields" := fun e => hk e.symm
      simp [documentBlocks, documentReorderings, Dict.blockOf_cons, exceptAt_cons, exceptAt_nil,
        blockOf_nil, hk, hno]
  constructor
  · intro h
    obtain ⟨w, hw, hk⟩ := h.get? ha.fields
    exact ⟨h.imp fun k v w hv hw hk => ((hvalue k v w hv hw).mp hk).1,
      ((hvalue _ _ w ha.fields hw).mp hk).2 rfl⟩
  · rintro ⟨h, hrest⟩
    exact h.imp fun k v w hv hw hk => (hvalue k v w hv hw).mpr ⟨hk, fun _ => hrest⟩

omit [PyUnicode] in
lemma documentReorderings_refl : ∀ k v, exceptAt documentReorderings k v v :=
  exceptAt_refl (by simp [documentReorderings, RelatedDict.refl])

omit [PyUnicode] in
/-- Away from the special keys, related dictionaries have equal values. -/
lemma related_get?_eq {special : List (String × (Json → Json → Prop))} {a b : Dict}
    (h : Dict.Related (exceptAt special) a b) {key : String} (hkey : key ∉ special.map Prod.fst) :
    a.get? key = b.get? key := by
  have hk := h key
  rw [exceptAt_of_notMem hkey] at hk
  cases ha : a.get? key with
  | none => exact (h.get?_eq_none ha).symm
  | some v =>
      obtain ⟨w, hw, hvw⟩ := h.get? ha
      rw [exceptAt_of_notMem hkey] at hvw
      rw [hw, hvw]

omit [PyUnicode] in
/-- A reordered document keeps its identity. -/
lemma ReorderedDocument.documentId {a b : Dict} (h : ReorderedDocument (.obj a) (.obj b)) :
    a.get? "document_id" = b.get? "document_id" := by
  have h' := (relatedDict_obj documentReorderings_refl).mp h
  exact related_get?_eq h' (by simp [documentReorderings])

lemma ReorderedDocument.documentIdOf {a b : Dict} (h : ReorderedDocument (.obj a) (.obj b)) :
    documentIdOf a = documentIdOf b := by
  simp only [QualityCI.documentIdOf, Dict.textAt, h.documentId]

omit [PyUnicode] in
/-- The documents of two cases, as lists of dictionaries. -/
lemma reorderedDocuments_iff {xs ys : List Dict} :
    ReorderedDocuments (.arr (xs.map .obj)) (.arr (ys.map .obj)) ↔
      ∃ zs : List Dict, zs.Perm ys ∧
        List.Forall₂ (fun a b => ReorderedDocument (.obj a) (.obj b)) xs zs := by
  constructor
  · rintro (h | ⟨us, vs, ws, hu, hv, hperm, hall⟩)
    · rw [Json.arr.injEq, (List.map_injective_iff.mpr fun _ _ => Json.obj.inj).eq_iff] at h
      subst h
      exact ⟨xs, List.Perm.refl _, List.forall₂_same.mpr fun _ _ => RelatedDict.refl _ _⟩
    rw [Json.arr.injEq] at hu hv
    subst hu hv
    obtain ⟨zs, rfl, -⟩ := exists_rows (P := fun _ => True) fun w hw => by
      obtain ⟨d, -, rfl⟩ := List.mem_map.mp (hperm.mem_iff.mp hw)
      exact ⟨d, rfl, trivial⟩
    rw [List.forall₂_map_left_iff, List.forall₂_map_right_iff] at hall
    exact ⟨zs, perm_map_obj.mp hperm, hall⟩
  · rintro ⟨zs, hperm, hall⟩
    refine Or.inr ⟨_, _, zs.map .obj, rfl, rfl, perm_map_obj.mpr hperm, ?_⟩
    rw [List.forall₂_map_left_iff, List.forall₂_map_right_iff]
    exact hall

/-- The projection of a list of documents. -/
def projectedDocument (doc : Dict) : Result Json := projectDict documentBlocks (.obj doc)

lemma projectDocuments_map_eq_ok {docs : List Dict} {r : Json}
    (hkeys : ∀ d ∈ docs, HasText d "document_id") :
    projectDocuments (.arr (docs.map .obj)) = .ok r ↔
      ∃ out, mapEach projectedDocument (sortBy (keyOr documentKey) docs) = .ok out ∧
        .arr out = r := by
  have hsucceeds : ∀ d ∈ docs, ∃ k, documentKey d = .ok k := fun d hd =>
    ⟨_, documentKey_eq (hkeys d hd)⟩
  simp only [projectDocuments, dictsOf_map, bind_eq_ok, sortDicts_eq_ok, Except.ok.injEq]
  constructor
  · rintro ⟨sorted, ⟨-, rfl⟩, out, hout, rfl⟩
    exact ⟨out, hout, rfl⟩
  · rintro ⟨out, hout, rfl⟩
    exact ⟨_, ⟨hsucceeds, rfl⟩, out, hout, rfl⟩

/-- Document keys are told apart. -/
lemma documentKeys_nodup {migrated : Bool} {m : Option Json} {docs : List Dict}
    (h : AreDocuments migrated m docs) : (docs.map (keyOr documentKey)).Nodup :=
  (keys_distinct documentIdOf (fun k => k.getD 0 "")
    (fun d hd => ⟨_, documentKey_eq (h.each d hd).id, rfl⟩) h.distinct).2

/-- Two lists of documents are projected alike when one, permuted, is document by document. -/
lemma agree_projectDocuments_iff {migrated migrated' : Bool} {m m' : Option Json}
    {xs ys : List Dict} (hx : AreDocuments migrated m xs) (hy : AreDocuments migrated' m' ys)
    (wx : ∀ d ∈ xs, (Json.obj d).WF) (wy : ∀ d ∈ ys, (Json.obj d).WF) :
    Agree projectDocuments (.arr (xs.map .obj)) (.arr (ys.map .obj)) ↔
      ∃ zs : List Dict, zs.Perm ys ∧ List.Forall₂ (Agree projectedDocument) xs zs := by
  have hsorted : Agree projectDocuments (.arr (xs.map .obj)) (.arr (ys.map .obj)) ↔
      List.Forall₂ (Agree projectedDocument) (sortBy (keyOr documentKey) xs)
        (sortBy (keyOr documentKey) ys) := by
    rw [← agree_mapEach_iff]
    unfold Agree
    simp only [projectDocuments_map_eq_ok fun d hd => (hx.each d hd).id,
      projectDocuments_map_eq_ok fun d hd => (hy.each d hd).id]
    constructor
    · rintro ⟨r, ⟨out, hout, rfl⟩, out', hout', heq⟩
      rw [Json.arr.injEq] at heq
      exact ⟨out, hout, heq ▸ hout'⟩
    · rintro ⟨out, hout, hout'⟩
      exact ⟨_, ⟨out, hout, rfl⟩, out, hout', rfl⟩
  rw [hsorted]
  constructor
  · intro h
    obtain ⟨zs, hall, hperm⟩ := List.perm_comp_forall₂ (sortBy_perm xs).symm h
    exact ⟨zs, hperm.trans (sortBy_perm ys), hall⟩
  · rintro ⟨zs, hperm, hall⟩
    have hkeys : (zs.map (keyOr documentKey)).Nodup :=
      ((hperm.map _).nodup_iff).mpr (documentKeys_nodup hy)
    rw [← sortBy_eq_of_perm hkeys hperm]
    -- documents that are projected alike keep their identity, so they sort to one place
    have hall' : List.Forall₂ (fun a b => Agree projectedDocument a b ∧
        keyOr documentKey a = keyOr documentKey b) xs zs := by
      refine forall₂_imp_mem hall fun a ha b hb hab => ⟨hab, ?_⟩
      have hb' := hperm.mem_iff.mp hb
      have hre := (agree_document_iff (hx.each a ha) (hy.each b hb') (wx a ha) (wy b hb')).mp hab
      simp [keyOr, documentKey_eq (hx.each a ha).id, documentKey_eq (hy.each b hb').id,
        hre.1.documentIdOf]
    exact (forall₂_sortBy (fun a b h => h.2) hall').imp fun a b h => h.1

/-- **The documents of two accepted cases.** -/
lemma agree_documents_iff {migrated migrated' : Bool} {m m' : Option Json}
    {xs ys : List Dict} (hx : AreDocuments migrated m xs) (hy : AreDocuments migrated' m' ys)
    (wx : ∀ d ∈ xs, (Json.obj d).WF) (wy : ∀ d ∈ ys, (Json.obj d).WF) :
    Agree projectDocuments (.arr (xs.map .obj)) (.arr (ys.map .obj)) ↔
      ReorderedDocuments (.arr (xs.map .obj)) (.arr (ys.map .obj)) ∧
        (∀ x ∈ xs, FieldKeysAreStrings (x.dictAt "fields")) ∧
        ∀ x ∈ xs, ∀ y ∈ ys, documentIdOf x = documentIdOf y → CharacteristicTies x y := by
  rw [agree_projectDocuments_iff hx hy wx wy, reorderedDocuments_iff]
  have hpair : ∀ x ∈ xs, ∀ y ∈ ys, Agree projectedDocument x y ↔
      ReorderedDocument (.obj x) (.obj y) ∧
        FieldKeysAreStrings (x.dictAt "fields") ∧ CharacteristicTies x y := fun x hx' y hy' =>
    agree_document_iff (hx.each x hx') (hy.each y hy') (wx x hx') (wy y hy')
  constructor
  · rintro ⟨zs, hperm, hall⟩
    have hmem : ∀ z ∈ zs, z ∈ ys := fun z hz => hperm.mem_iff.mp hz
    have hall' := forall₂_imp_mem hall fun x hx' z hz => (hpair x hx' z (hmem z hz)).mp
    refine ⟨⟨zs, hperm, hall'.imp fun _ _ h => h.1⟩, fun x hx' => ?_, fun x hx' y hy' hid => ?_⟩
    · obtain ⟨z, -, hxz⟩ := forall₂_exists_right hall' hx'
      exact hxz.2.1
    · -- the document paired with `x` has its identity, so it is `y`
      obtain ⟨z, hz, hxz⟩ := forall₂_exists_right hall' hx'
      have hzy : z = y := List.inj_on_of_nodup_map hy.distinct (hmem z hz) hy'
        (hxz.1.documentIdOf.symm.trans hid)
      exact hzy ▸ hxz.2.2
  · rintro ⟨⟨zs, hperm, hall⟩, hkeys, hties⟩
    refine ⟨zs, hperm, forall₂_imp_mem hall fun x hx' z hz hxz => ?_⟩
    have hz' := hperm.mem_iff.mp hz
    exact (hpair x hx' z hz').mpr ⟨hxz, hkeys x hx', hties x hx' z hz' hxz.documentIdOf⟩

/-! ## The case -/

/-- **Two accepted cases have one projection exactly when one is a reordering of the other that
keeps the order of tied rows, and the sort keys are strings.** -/
theorem agree_projection_iff {a b : Dict} (wa : (Json.obj a).WF) (wb : (Json.obj b).WF)
    (ha : AcceptedCase a) (hb : AcceptedCase b) :
    Agree canonicalCaseProjection a b ↔
      Reordered a b ∧ SortKeysAreStrings a ∧ TiesKeepOrder a b := by
  have hevent := agree_event_iff ha.acceptedEvent hb.acceptedEvent (wa.get? ha.event)
    (wb.get? hb.event)
  have hwf : ∀ {d : Dict}, (Json.obj d).WF → AcceptedCase d →
      ∀ x ∈ d.rowsAt "documents", (Json.obj x).WF := fun wd hd x hx =>
    Json.wf_arr.mp (wd.get? hd.documents.1) _ (List.mem_map_of_mem hx)
  have hdocs := agree_documents_iff ha.documents.2 hb.documents.2 (hwf wa ha) (hwf wb hb)
  unfold Reordered canonicalCaseProjection
  rw [Dict.agree_updateAll_iff (by simp [caseBlocks]) (Json.wf_obj.mp wa).1 (Json.wf_obj.mp wb).1]
  have hvalue : ∀ k v w, a.get? k = some v → b.get? k = some w →
      (Agree (Dict.blockOf caseBlocks k) v w ↔ exceptAt caseReorderings k v w ∧
        (k = "event" → ApprovalTies (a.dictAt "event") (b.dictAt "event")) ∧
        (k = "documents" → SortKeysAreStrings a ∧
          ∀ x ∈ a.rowsAt "documents", ∀ y ∈ b.rowsAt "documents",
            documentIdOf x = documentIdOf y → CharacteristicTies x y)) := by
    intro k v w hv hw
    by_cases h1 : k = "event"
    · subst h1
      rw [ha.event, Option.some.injEq] at hv
      rw [hb.event, Option.some.injEq] at hw
      subst hv hw
      simpa [caseBlocks, caseReorderings, Dict.blockOf_cons, exceptAt_cons] using hevent
    by_cases h2 : k = "documents"
    · subst h2
      rw [ha.documents.1, Option.some.injEq] at hv
      rw [hb.documents.1, Option.some.injEq] at hw
      subst hv hw
      simpa [caseBlocks, caseReorderings, Dict.blockOf_cons, exceptAt_cons, SortKeysAreStrings]
        using hdocs
    · rw [Dict.blockOf_of_notMem (by simp [caseBlocks, h1, h2]),
        exceptAt_of_notMem (by simp [caseReorderings, h1, h2]), agree_ok_iff]
      simp [h1, h2]
  constructor
  · intro h
    obtain ⟨w, hw, hk⟩ := h.get? ha.event
    obtain ⟨w', hw', hk'⟩ := h.get? ha.documents.1
    have hties := ((hvalue _ _ w ha.event hw).mp hk).2.1 rfl
    have hrest := ((hvalue _ _ w' ha.documents.1 hw').mp hk').2.2 rfl
    exact ⟨h.imp fun k v w hv hw hk => ((hvalue k v w hv hw).mp hk).1, hrest.1, hties, hrest.2⟩
  · rintro ⟨h, hkeys, hties⟩
    exact h.imp fun k v w hv hw hk =>
      (hvalue k v w hv hw).mpr ⟨hk, fun _ => hties.1, fun _ => ⟨hkeys, hties.2⟩⟩

/-- **When the projection decides reordering**: for two accepted cases, equal projections mean
"the same up to the order of the unordered arrays" exactly when no reordering of the one into the
other moves tied rows past each other or meets a sort key that is no string. -/
theorem projection_decides_reordering_iff (a b : Dict) (wa : (Json.obj a).WF)
    (wb : (Json.obj b).WF) (ha : validateCase (.obj a) = .ok ())
    (hb : validateCase (.obj b) = .ok ()) :
    (Agree canonicalCaseProjection a b ↔ Reordered a b) ↔
      (Reordered a b → SortKeysAreStrings a ∧ TiesKeepOrder a b) := by
  simp only [validateCase, bind_eq_ok, requireDict_eq_ok, Json.obj.injEq, exists_eq_left'] at ha hb
  rw [agree_projection_iff wa wb (validateCase_accepted ha) (validateCase_accepted hb)]
  exact ⟨fun h hr => (h.mpr hr).2, fun h => ⟨fun hr => hr.1, fun hr => ⟨hr, h hr⟩⟩⟩

end Projection

section Ascii

attribute [local instance] asciiUnicode

/-- Approvals of two roles. -/
def distinctApprovals : List Json := [sampleApproval "OWNER", sampleApproval "MANAGER"]

/-- Approvals of two roles that only letter case tells apart. -/
def casedApprovals : List Json := [sampleApproval "Owner", sampleApproval "OWNER"]

/-- The case with those approvals in the given order. -/
def casedCase (approvals : List Json) : Dict :=
  sampleCase (sampleEvent "LOW" approvals []) sampleDocuments

/-- Both orders of the approvals are accepted, and differ in the approvals only. -/
lemma casedCase_accepted : ∀ approvals ∈ [distinctApprovals, casedApprovals],
    ((Json.obj (casedCase approvals)).WF ∧ (Json.obj (casedCase approvals.reverse)).WF) ∧
    (validateCase (.obj (casedCase approvals)) = .ok () ∧
      validateCase (.obj (casedCase approvals.reverse)) = .ok ()) ∧
    casedCase approvals.reverse = (casedCase approvals).set "event"
      (.obj ((sampleEvent "LOW" approvals []).set "approvals" (.arr approvals.reverse))) ∧
    (casedCase approvals).get? "event" = some (.obj (sampleEvent "LOW" approvals [])) ∧
    (sampleEvent "LOW" approvals []).get? "approvals" = some (.arr approvals) := by
  decide +kernel

lemma casedCase_reordered {approvals : List Json}
    (h : approvals ∈ [distinctApprovals, casedApprovals]) :
    Reordered (casedCase approvals) (casedCase approvals.reverse) := by
  obtain ⟨-, -, hreverse, hevent, happrovals⟩ := casedCase_accepted approvals h
  have hperm : PermutedList (.arr approvals) (.arr approvals.reverse) :=
    Or.inr ⟨_, _, rfl, rfl, (List.reverse_perm _).symm⟩
  have hreordered : ReorderedEvent (.obj (sampleEvent "LOW" approvals []))
      (.obj ((sampleEvent "LOW" approvals []).set "approvals" (.arr approvals.reverse))) := by
    refine Or.inr ⟨_, _, rfl, rfl, Dict.related_set eventReorderings_refl happrovals ?_⟩
    simpa [eventReorderings, exceptAt_cons] using hperm
  rw [hreverse]
  refine Dict.related_set caseReorderings_refl hevent ?_
  simpa [caseReorderings, exceptAt_cons] using hreordered

/-- The approvals of two roles in both orders. -/
theorem projection_decides_reordering_sample :
    Reordered (casedCase distinctApprovals) (casedCase distinctApprovals.reverse) ∧
    ((Agree canonicalCaseProjection (casedCase distinctApprovals)
        (casedCase distinctApprovals.reverse) ↔
      Reordered (casedCase distinctApprovals) (casedCase distinctApprovals.reverse)) ↔
    (Reordered (casedCase distinctApprovals) (casedCase distinctApprovals.reverse) →
      SortKeysAreStrings (casedCase distinctApprovals) ∧
        TiesKeepOrder (casedCase distinctApprovals) (casedCase distinctApprovals.reverse))) := by
  have hin : distinctApprovals ∈ [distinctApprovals, casedApprovals] := List.mem_cons_self
  obtain ⟨⟨hwf, hwf'⟩, ⟨hvalid, hvalid'⟩, -⟩ := casedCase_accepted _ hin
  exact ⟨casedCase_reordered hin, projection_decides_reordering_iff _ _ hwf hwf' hvalid hvalid'⟩

/-- **Two roles spelled apart only by letter case**: both orders of their approvals are accepted,
the cases are reorderings of each other, and their projections differ. -/
theorem projection_keeps_order_of_cased_roles :
    validateCase (.obj (casedCase casedApprovals)) = .ok () ∧
    validateCase (.obj (casedCase casedApprovals.reverse)) = .ok () ∧
    Reordered (casedCase casedApprovals) (casedCase casedApprovals.reverse) ∧
    ¬Agree canonicalCaseProjection (casedCase casedApprovals)
      (casedCase casedApprovals.reverse) := by
  have hin : casedApprovals ∈ [distinctApprovals, casedApprovals] :=
    List.mem_cons_of_mem _ List.mem_cons_self
  obtain ⟨-, ⟨hvalid, hvalid'⟩, -⟩ := casedCase_accepted _ hin
  refine ⟨hvalid, hvalid', casedCase_reordered hin, ?_⟩
  rintro ⟨r, ha, hb⟩
  exact absurd (ha.trans hb.symm) (by decide +kernel)

end Ascii

end QualityCI

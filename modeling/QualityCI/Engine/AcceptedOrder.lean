import QualityCI.Engine.Aligned
import QualityCI.Loader.Reordering

/-!
# Acceptance and order

What makes a case an accepted one does not depend on the order of the unordered arrays: scopes and
keys are compared as sets, each row is looked at for itself, and the approved documents of a type
are counted.

* `PermutedAt.isScope`, `PermutedAt.optionalRows` — what a permuted list keeps.
* `AcceptedEvent.of_parts` — an event is accepted for its own lists.
* **`AcceptedCase.of_reordered`** — a reordering of an accepted case is one.
-/

namespace QualityCI

open Py

/-! ## Permuted lists -/

/-- A permutation of a mapped list is the mapped list of a permutation. -/
lemma exists_perm_of_map {α β : Type} {f : α → β} {xs : List α} {ys : List β}
    (h : (xs.map f).Perm ys) : ∃ zs, xs.Perm zs ∧ ys = zs.map f := by
  have hmap : List.Forall₂ (fun b a => b = f a) (xs.map f) xs := by
    rw [List.forall₂_map_left_iff]
    exact List.forall₂_same.mpr fun _ _ => rfl
  obtain ⟨zs, hall, hperm⟩ := List.perm_comp_forall₂ h.symm hmap
  refine ⟨zs, hperm.symm, ?_⟩
  rwa [← List.forall₂_eq_eq_eq, List.forall₂_map_right_iff]

/-- Related dictionaries list the same keys. -/
lemma keys_eq_of_related {rel : String → Json → Json → Prop} {a b : Dict}
    (h : Dict.Related rel a b) (ha : a.Ordered) (hb : b.Ordered) : a.keys = b.keys := by
  have hsorted : ∀ {d : Dict}, d.Ordered → d.keys.Pairwise (· < ·) := fun hd =>
    List.pairwise_map.mpr hd
  have hmem : ∀ key, key ∈ a.keys ↔ key ∈ b.keys := by
    intro key
    rw [Dict.mem_keys_iff, Dict.mem_keys_iff, Dict.contains, Dict.contains]
    cases hv : a.get? key with
    | none => rw [h.get?_eq_none hv]
    | some v =>
        obtain ⟨w, hw, -⟩ := h.get? hv
        rw [hw]
        simp
  have hnodup : ∀ {d : Dict}, d.Ordered → d.keys.Nodup := fun hd =>
    (hsorted hd).imp fun hlt => hlt.ne
  have hperm := (List.perm_ext_iff_of_nodup (hnodup ha) (hnodup hb)).mpr hmem
  exact hperm.eq_of_pairwise (fun s t _ _ hst hts => absurd hts hst.asymm) (hsorted ha) (hsorted hb)

namespace PermutedAt

variable {x y : Dict} {key : String}

lemma textsAt (h : PermutedAt x y key) (hx : TextsAt x key) : TextsAt y key := by
  rcases h with h | ⟨xs, ys, hget, hget', hperm⟩
  · rw [TextsAt, Dict.textsAt, ← h]
    exact hx
  · obtain rfl : xs = (x.textsAt key).map .str := by
      rw [hx.1, Option.some.injEq, Json.arr.injEq] at hget
      exact hget.symm
    obtain ⟨zs, hzs, rfl⟩ := exists_perm_of_map hperm
    exact .of_get? hget' fun s hs => hx.2 s (hzs.mem_iff.mpr hs)

/-- A list of rows stays one, with what does not depend on their order. -/
lemma rowsWith {P Q : List Dict → Prop} (h : PermutedAt x y key)
    (hPQ : ∀ xs ys : List Dict, xs.Perm ys → P xs → Q ys) (hx : RowsWith x key P) :
    RowsWith y key Q := by
  rcases h with h | ⟨xs, ys, hget, hget', hperm⟩
  · have hrows : y.rowsAt key = x.rowsAt key := by rw [Dict.rowsAt, Dict.rowsAt, h]
    rw [RowsWith, hrows, ← h]
    exact ⟨hx.1, hPQ _ _ (List.Perm.refl _) hx.2⟩
  · obtain rfl : xs = (x.rowsAt key).map .obj := by
      rw [hx.1, Option.some.injEq, Json.arr.injEq] at hget
      exact hget.symm
    obtain ⟨zs, hzs, rfl⟩ := exists_perm_of_map hperm
    exact .of_get? hget' (hPQ _ _ hzs hx.2)

lemma present?_eq_none (h : PermutedAt x y key) (hx : x.present? key = none) :
    y.present? key = none := by
  rcases h with h | ⟨xs, ys, hget, -, -⟩
  · rw [Dict.present?_eq_none, ← h]
    exact Dict.present?_eq_none.mp hx
  · rcases Dict.present?_eq_none.mp hx with hnone | hnull
    · simp [hnone] at hget
    · simp [hnull] at hget

lemma optionalRows {P Q : List Dict → Prop} (h : PermutedAt x y key)
    (hPQ : ∀ xs ys : List Dict, xs.Perm ys → P xs → Q ys) (hx : OptionalRowsWith x key P) :
    OptionalRowsWith y key Q :=
  hx.imp h.present?_eq_none (h.rowsWith hPQ)

lemma defaultRows {P Q : List Dict → Prop} (h : PermutedAt x y key)
    (hPQ : ∀ xs ys : List Dict, xs.Perm ys → P xs → Q ys) (hx : DefaultRowsWith x key P) :
    DefaultRowsWith y key Q := by
  refine hx.imp (fun hnone => ?_) (h.rowsWith hPQ)
  rcases h with h | ⟨xs, ys, hget, -, -⟩
  · exact h ▸ hnone
  · simp [hnone] at hget

end PermutedAt

/-! ## Entries that stay -/

lemma HasText.congr {x y : Dict} {key : String} (h : x.get? key = y.get? key) (hx : HasText x key) :
    HasText y key := by
  rw [HasText, Dict.textAt, ← h]
  exact hx

lemma EnumAt.congr {x y : Dict} {key : String} {allowed : List String} (h : x.get? key = y.get? key)
    (hx : EnumAt x key allowed) : EnumAt y key allowed := by
  rw [EnumAt, Dict.textAt, ← h]
  exact hx

lemma OptionalAt.congr {x y : Dict} {key : String} {P : Json → Prop} (h : x.get? key = y.get? key)
    (hx : OptionalAt x key P) : OptionalAt y key P := by
  rw [OptionalAt, ← h]
  exact hx

section Accepted

variable [PyUnicode] {x y : Dict}

lemma PermutedAt.isScope {key : String} (h : PermutedAt x y key) (hx : IsScope x key) :
    IsScope y key :=
  ⟨h.textsAt hx.texts, (h.texts.map normalizedIdentity).nodup_iff.mp hx.distinct⟩

/-- The normalized names of a scope, in whatever order. -/
lemma PermutedAt.mem_names {key : String} (h : PermutedAt x y key) {name : String}
    (hname : name ∈ (x.textsAt key).map normalizedIdentity) :
    name ∈ (y.textsAt key).map normalizedIdentity :=
  (h.texts.map normalizedIdentity).mem_iff.mp hname

/-! ## The event -/

/-- Links stay declared and distinct. -/
lemma AreLinks.of_permuted (hsteps : PermutedAt x y "affected_process_steps")
    (hcharacteristics : PermutedAt x y "affected_characteristics") {us vs : List Dict}
    (hperm : us.Perm vs) (hlinks : AreLinks x us) : AreLinks y vs := by
  refine ⟨fun link hlink => ?_, (hperm.map pairOf).nodup_iff.mp hlinks.distinct⟩
  have hold := hlinks.each link (hperm.mem_iff.mpr hlink)
  exact ⟨hold.step, hold.characteristic, hsteps.mem_names hold.stepDeclared,
    hcharacteristics.mem_names hold.characteristicDeclared⟩

/-- The entries of an event that hold one value each. -/
def eventEntries : List String := ["event_id", "revision", "event_type", "risk_level", "approved_at"]

/-- The lists of an event that say what it affects. -/
def scopeLists : List String :=
  ["affected_process_steps", "affected_characteristics", "affected_links"]

/-- **An event is accepted** for its entries, its scope, its plan, its evidence and its
approvals. -/
theorem AcceptedEvent.of_parts {m : Option Json} (hx : AcceptedEvent x m)
    (hentry : ∀ key ∈ eventEntries, x.get? key = y.get? key)
    (hlists : ∀ key ∈ scopeLists, PermutedAt x y key)
    (hplan : (y.present? "validation_plan" = none ∧ m.isSome = true) ∨
      ∃ plan, y.get? "validation_plan" = some (.obj plan) ∧ IsPlan plan)
    (hevidence : OptionalRowsWith y "validation_evidence" AreEvidence)
    (happrovals : OptionalRowsWith y "approvals" AreApprovals) : AcceptedEvent y m := by
  have hsteps := hlists "affected_process_steps" (by decide)
  have hcharacteristics := hlists "affected_characteristics" (by decide)
  refine ⟨hx.eventId.congr (hentry _ (by decide)), hx.revision.congr (hentry _ (by decide)),
    hx.eventType.congr (hentry _ (by decide)), hx.riskLevel.congr (hentry _ (by decide)),
    hsteps.isScope hx.steps, hcharacteristics.isScope hx.characteristics, ?_,
    hx.approvedAt.congr (hentry _ (by decide)), hplan, hevidence, happrovals⟩
  exact (hlists "affected_links" (by decide)).optionalRows
    (fun _ _ hperm => AreLinks.of_permuted hsteps hcharacteristics hperm) hx.links

/-- A plan keeps being one when its required evidence is permuted. -/
lemma IsPlan.of_related {p q : Dict} (hp : IsPlan p) (hpo : p.Ordered) (hqo : q.Ordered)
    (h : Dict.Related (exceptAt planReorderings) p q) : IsPlan q := by
  refine ⟨(keys_eq_of_related h hpo hqo).symm.trans hp.keys, ?_, ?_⟩
  · rw [← related_get?_eq h (by decide : "contract_version" ∉ planReorderings.map Prod.fst)]
    exact hp.version
  · refine (permutedAt_of_related h rfl).rowsWith (fun us vs hperm hrows => ?_) hp.evidence
    refine ⟨fun r hr => hrows.each r (hperm.mem_iff.mpr hr), ?_,
      (hperm.map evidenceIdOf).nodup_iff.mp hrows.distinct⟩
    rintro rfl
    exact hrows.nonempty (List.perm_nil.mp hperm)

/-- **A reordering of an accepted event** is one. -/
theorem AcceptedEvent.of_reordered {m : Option Json} (hx : AcceptedEvent x m)
    (wx : (Json.obj x).WF) (wy : (Json.obj y).WF) (h : ReorderedEvent (.obj x) (.obj y)) :
    AcceptedEvent y m := by
  have hrel := (relatedDict_obj eventReorderings_refl).mp h
  have haligned := alignedEvent_of_reordered h
  have hentries : ∀ key ∈ eventEntries, key ∉ eventReorderings.map Prod.fst := by decide
  have hscope : ∀ key ∈ scopeLists, key ∈ eventLists := by decide
  refine hx.of_parts (fun key hkey => haligned.entry key (hentries key hkey))
    (fun key hkey => haligned.lists key (hscope key hkey)) ?_ ?_ ?_
  · rcases hx.plan with ⟨hnone, hm⟩ | ⟨plan, hget, hplan⟩
    · refine Or.inl ⟨Dict.present?_eq_none.mpr ?_, hm⟩
      rcases Dict.present?_eq_none.mp hnone with hnone | hnull
      · exact Or.inl (hrel.get?_eq_none hnone)
      · obtain ⟨w, hw, hvw⟩ := hrel.get? hnull
        rcases (hvw : RelatedDict (exceptAt planReorderings) _ _) with rfl | ⟨p, q, hp, -, -⟩
        · exact Or.inr hw
        · cases hp
    · obtain ⟨w, hw, hvw⟩ := hrel.get? hget
      have hrelated : ∃ q, w = .obj q ∧ Dict.Related (exceptAt planReorderings) plan q := by
        rcases (hvw : RelatedDict (exceptAt planReorderings) _ _) with rfl | ⟨p, q, hp, rfl, hpq⟩
        · exact ⟨plan, rfl, Dict.related_refl planReorderings_equivalence plan⟩
        · obtain rfl := Json.obj.inj hp
          exact ⟨q, rfl, hpq⟩
      obtain ⟨q, rfl, hpq⟩ := hrelated
      exact Or.inr ⟨q, hw, hplan.of_related (Json.wf_obj.mp (wx.get? hget)).1
        (Json.wf_obj.mp (wy.get? hw)).1 hpq⟩
  · refine (haligned.lists _ (by decide)).optionalRows (fun us vs hperm hrows => ?_) hx.evidence
    exact ⟨fun r hr => hrows.each r (hperm.mem_iff.mpr hr),
      (hperm.map evidenceIdOf).nodup_iff.mp hrows.distinct⟩
  · refine (haligned.lists _ (by decide)).optionalRows (fun us vs hperm hrows => ?_) hx.approvals
    exact ⟨fun r hr => hrows.each r (hperm.mem_iff.mpr hr),
      (hperm.map approvalSubject).nodup_iff.mp hrows.distinct⟩

/-! ## Documents -/

/-- A row stays bound to its process step. -/
lemma IsBound.of_permuted {f g row : Dict} (h : PermutedAt f g "process_steps")
    (hrow : IsBound f row) : IsBound g row :=
  ⟨hrow.step, h.mem_names hrow.declared⟩

/-- The rows of a document keep being accepted. -/
lemma AcceptedFields.of_permuted {migrated : Bool} {documentType : String} {f g : Dict}
    (hf : AcceptedFields migrated documentType f)
    (h : ∀ key ∈ fieldsReorderings.map Prod.fst, PermutedAt f g key) :
    AcceptedFields migrated documentType g := by
  have hsteps := h "process_steps" (by decide)
  refine ⟨hf.steps.imp hsteps.present?_eq_none hsteps.isScope, ?_, ?_⟩
  · refine (h "characteristics" (by decide)).defaultRows (fun us vs hperm hrows => ?_)
      hf.characteristics
    refine ⟨fun row hrow => ?_, (hperm.filterMap _).nodup_iff.mp hrows.distinct⟩
    have hold := hrows.each row (hperm.mem_iff.mpr hrow)
    exact ⟨hold.characteristic, hold.bound.imp id fun hbound =>
      ⟨hbound.1.of_permuted hsteps, hbound.2⟩, hold.locator, hold.specification, hold.text⟩
  · refine (h "risks" (by decide)).defaultRows (fun us vs hperm hrows => ?_) hf.risks
    refine ⟨fun row hrow => ?_, (hperm.map failureModeOf).nodup_iff.mp hrows.distinct⟩
    have hold := hrows.each row (hperm.mem_iff.mpr hrow)
    exact ⟨hold.failureMode, hold.characteristic, hold.locator,
      hold.bound.imp id fun hbound => hbound.of_permuted hsteps, hold.special, hold.effect⟩

/-- **A reordering of an accepted document** is one. -/
theorem AcceptedDocument.of_reordered {migrated : Bool} {m : Option Json}
    (hx : AcceptedDocument migrated m x) (h : ReorderedDocument (.obj x) (.obj y)) :
    AcceptedDocument migrated m y := by
  have hrel := (relatedDict_obj documentReorderings_refl).mp h
  have haligned := alignedDocument_of_reordered h hx.fields
  have hentry : ∀ key, key ≠ "fields" → x.get? key = y.get? key := haligned.entry
  have hfields : y.get? "fields" = some (.obj (y.dictAt "fields")) := by
    obtain ⟨w, hw, hvw⟩ := hrel.get? hx.fields
    rcases (hvw : RelatedDict (exceptAt fieldsReorderings) _ _) with rfl | ⟨p, q, -, rfl, -⟩
    · rw [hw, Dict.dictAt_eq hw]
    · rw [hw, Dict.dictAt_eq hw]
  refine ⟨hx.id.congr (hentry _ (by decide)), hx.revision.congr (hentry _ (by decide)),
    hx.hash.congr (hentry _ (by decide)), ?_, hx.type.congr (hentry _ (by decide)),
    hx.status.congr (hentry _ (by decide)), hfields, ?_, ?_, ?_⟩
  · rw [← hentry "revision_date" (by decide)]
    exact hx.date
  · rw [← haligned.textAt (by decide)]
    exact hx.rows.of_permuted haligned.lists
  · rw [← hentry "approved_waiver" (by decide)]
    exact hx.waiver
  · have hsame : (x.dictAt "fields").present? "references" =
        (y.dictAt "fields").present? "references" := by
      rw [Dict.present?, Dict.present?, haligned.field "references" (by decide)]
    rw [← hsame]
    exact hx.references

/-! ## The case -/

omit [PyUnicode] in
/-- Reordered documents are dictionaries too. -/
lemma exists_documents {xs : List Dict} {v : Json}
    (h : ReorderedDocuments (.arr (xs.map .obj)) v) : ∃ ys : List Dict, v = .arr (ys.map .obj) := by
  rcases h with rfl | ⟨us, vs, ws, hus, rfl, hperm, hall⟩
  · exact ⟨xs, rfl⟩
  · obtain rfl := Json.arr.inj hus
    have hobj : ∀ w ∈ ws, ∃ d, w = .obj d ∧ True := by
      intro w hw
      obtain ⟨u, hu, hrel⟩ := forall₂_exists_right hall.flip hw
      obtain ⟨d, -, rfl⟩ := List.mem_map.mp hu
      rcases (hrel : RelatedDict _ _ _) with rfl | ⟨p, q, -, rfl, -⟩
      · exact ⟨d, rfl, trivial⟩
      · exact ⟨q, rfl, trivial⟩
    obtain ⟨ds, rfl, -⟩ := exists_rows hobj
    obtain ⟨ys, -, rfl⟩ := exists_perm_of_map hperm
    exact ⟨ys, rfl⟩

/-- The documents of a reordering. -/
lemma AreDocuments.of_reordered {migrated : Bool} {m : Option Json} {xs ys : List Dict}
    (hx : AreDocuments migrated m xs)
    (h : ReorderedDocuments (.arr (xs.map .obj)) (.arr (ys.map .obj))) :
    AreDocuments migrated m ys := by
  obtain ⟨zs, hperm, hall⟩ := reorderedDocuments_iff.mp h
  have hids : xs.map documentIdOf = zs.map documentIdOf := by
    rw [← List.forall₂_eq_eq_eq, List.forall₂_map_left_iff, List.forall₂_map_right_iff]
    exact hall.imp fun _ _ hxz => hxz.documentIdOf
  have hcounts : ∀ type, xs.countP (isApprovedOf type) = zs.countP (isApprovedOf type) := by
    intro type
    have hsame : xs.map (isApprovedOf type) = zs.map (isApprovedOf type) := by
      rw [← List.forall₂_eq_eq_eq, List.forall₂_map_left_iff, List.forall₂_map_right_iff]
      refine hall.imp fun a b hab => ?_
      have hrel := (relatedDict_obj documentReorderings_refl).mp hab
      rw [isApprovedOf, isApprovedOf, related_get?_eq hrel (by decide),
        related_get?_eq hrel (by decide : "status" ∉ documentReorderings.map Prod.fst)]
    have hcount := congrArg (List.countP id) hsame
    simpa [List.countP_map, Function.comp_def] using hcount
  refine ⟨fun d hd => ?_, ?_, fun type htype => ?_⟩
  · obtain ⟨a, ha, had⟩ := forall₂_exists_right hall.flip (hperm.mem_iff.mpr hd)
    exact (hx.each a ha).of_reordered had
  · rw [← (hperm.map documentIdOf).nodup_iff, ← hids]
    exact hx.distinct
  · rw [approvedCount, ← hperm.countP_eq, ← hcounts]
    exact hx.approved type htype

/-- **A reordering of an accepted case** is one. -/
theorem AcceptedCase.of_reordered {a b : Dict} (ha : AcceptedCase a) (wa : (Json.obj a).WF)
    (wb : (Json.obj b).WF) (h : Reordered a b) : AcceptedCase b := by
  have hentry : ∀ key, key ∉ caseReorderings.map Prod.fst → a.get? key = b.get? key :=
    fun key hkey => related_get?_eq h hkey
  have hpresent : ∀ key, key ∉ caseReorderings.map Prod.fst → a.present? key = b.present? key :=
    fun key hkey => by rw [Dict.present?, Dict.present?, hentry key hkey]
  obtain ⟨v, hv, hevent⟩ := h.get? ha.event
  obtain ⟨w, hw, hdocuments⟩ := h.get? ha.documents.1
  have hobj : ∃ e, v = .obj e := by
    rcases (hevent : RelatedDict (exceptAt eventReorderings) _ _) with rfl | ⟨p, q, -, rfl, -⟩
    · exact ⟨_, rfl⟩
    · exact ⟨q, rfl⟩
  obtain ⟨e, rfl⟩ := hobj
  obtain ⟨docs, rfl⟩ := exists_documents hdocuments
  refine ⟨?_, ha.caseId.congr (hentry _ (by decide)), ?_, ?_, .of_get? hw ?_⟩
  · rw [← hentry "schema_version" (by decide)]
    exact ha.version
  · rw [hv, Dict.dictAt_eq hv]
  · rw [← hpresent "validation_migration" (by decide), Dict.dictAt_eq hv]
    exact ha.acceptedEvent.of_reordered (wa.get? ha.event) (wb.get? hv) hevent
  · rw [← hpresent "relationship_migration" (by decide),
      ← hpresent "reference_migration" (by decide)]
    exact ha.documents.2.of_reordered hdocuments

end Accepted

end QualityCI

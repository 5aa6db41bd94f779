import QualityCI.Loader.OrderFree

/-!
# Reordering as an equivalence

Reordering relates two cases that differ in the order of some lists.  It is an equivalence
relation, and whatever the projection does to a value is a reordering of it, accepted or not:
sorting permutes a list, and everything else is left alone.  Two cases with one projection are
therefore reorderings of each other without any check of either.

* `exceptAt_equivalence`, `relatedDict_equivalence` — the relations on dictionaries.
* **`reorderedDocuments_equivalence`** — documents permuted, each reordered inside.
* `Reorders` — a replacement that reorders what it is given.
* **`canonicalCaseProjection_reorders`** — the projection of a case is a reordering of it.
-/

namespace QualityCI

open Py

/-! ## Equivalences -/

lemma permutedList_equivalence : Equivalence PermutedList where
  refl := PermutedList.refl
  symm := PermutedList.symm
  trans := by
    rintro u v w (rfl | ⟨xs, ys, rfl, rfl, hxy⟩) hvw
    · exact hvw
    · rcases hvw with rfl | ⟨ys', zs, hys, rfl, hyz⟩
      · exact Or.inr ⟨xs, ys, rfl, rfl, hxy⟩
      · obtain rfl := Json.arr.inj hys
        exact Or.inr ⟨xs, zs, rfl, rfl, hxy.trans hyz⟩

lemma exceptAt_equivalence {special : List (String × (Json → Json → Prop))}
    (h : ∀ e ∈ special, Equivalence e.2) (key : String) : Equivalence (exceptAt special key) := by
  induction special with
  | nil => exact eq_equivalence
  | cons e rest ih =>
      obtain ⟨k, rel⟩ := e
      rw [exceptAt_cons]
      split_ifs
      · exact h _ List.mem_cons_self
      · exact ih fun e he => h e (List.mem_cons_of_mem _ he)

section Related

variable {rel : String → Json → Json → Prop}

lemma Dict.related_refl (h : ∀ key, Equivalence (rel key)) (a : Dict) : Dict.Related rel a a := by
  intro key
  cases a.get? key with
  | none => exact Option.Rel.none
  | some v => exact Option.Rel.some ((h key).refl v)

lemma Dict.related_symm (h : ∀ key, Equivalence (rel key)) {a b : Dict}
    (hab : Dict.Related rel a b) : Dict.Related rel b a := by
  intro key
  cases hv : a.get? key with
  | none =>
      rw [hab.get?_eq_none hv]
      exact Option.Rel.none
  | some v =>
      obtain ⟨w, hw, hvw⟩ := hab.get? hv
      rw [hw]
      exact Option.Rel.some ((h key).symm hvw)

lemma Dict.related_trans (h : ∀ key, Equivalence (rel key)) {a b c : Dict}
    (hab : Dict.Related rel a b) (hbc : Dict.Related rel b c) : Dict.Related rel a c := by
  intro key
  cases hv : a.get? key with
  | none =>
      rw [hbc.get?_eq_none (hab.get?_eq_none hv)]
      exact Option.Rel.none
  | some v =>
      obtain ⟨w, hw, hvw⟩ := hab.get? hv
      obtain ⟨u, hu, hwu⟩ := hbc.get? hw
      rw [hu]
      exact Option.Rel.some ((h key).trans hvw hwu)

lemma relatedDict_equivalence (h : ∀ key, Equivalence (rel key)) :
    Equivalence (RelatedDict rel) where
  refl := RelatedDict.refl rel
  symm := by
    rintro v w (rfl | ⟨a, b, rfl, rfl, hab⟩)
    · exact Or.inl rfl
    · exact Or.inr ⟨b, a, rfl, rfl, Dict.related_symm h hab⟩
  trans := by
    rintro u v w (rfl | ⟨a, b, rfl, rfl, hab⟩) hvw
    · exact hvw
    · rcases hvw with rfl | ⟨b', c, hb, rfl, hbc⟩
      · exact Or.inr ⟨a, b, rfl, rfl, hab⟩
      · obtain rfl := Json.obj.inj hb
        exact Or.inr ⟨a, c, rfl, rfl, Dict.related_trans h hab hbc⟩

end Related

lemma planReorderings_equivalence (key : String) : Equivalence (exceptAt planReorderings key) :=
  exceptAt_equivalence (by simp [planReorderings, permutedList_equivalence]) key

lemma eventReorderings_equivalence (key : String) : Equivalence (exceptAt eventReorderings key) :=
  exceptAt_equivalence (by simp [eventReorderings, permutedList_equivalence,
    relatedDict_equivalence planReorderings_equivalence]) key

lemma fieldsReorderings_equivalence (key : String) :
    Equivalence (exceptAt fieldsReorderings key) :=
  exceptAt_equivalence (by simp [fieldsReorderings, permutedList_equivalence]) key

lemma documentReorderings_equivalence (key : String) :
    Equivalence (exceptAt documentReorderings key) :=
  exceptAt_equivalence (by simp [documentReorderings,
    relatedDict_equivalence fieldsReorderings_equivalence]) key

lemma reorderedDocument_equivalence : Equivalence ReorderedDocument :=
  relatedDict_equivalence documentReorderings_equivalence

lemma forall₂_reorderedDocument_trans {xs ys zs : List Json}
    (hxy : List.Forall₂ ReorderedDocument xs ys)
    (hyz : List.Forall₂ ReorderedDocument ys zs) : List.Forall₂ ReorderedDocument xs zs := by
  induction hxy generalizing zs with
  | nil => exact hyz
  | cons hfirst _ ih =>
      cases hyz with
      | cons hnext hrest =>
          exact .cons (reorderedDocument_equivalence.trans hfirst hnext) (ih hrest)

/-- **Documents permuted and reordered inside**: the permutations pass each other's members. -/
theorem reorderedDocuments_equivalence : Equivalence ReorderedDocuments where
  refl _ := Or.inl rfl
  symm := by
    rintro v w (rfl | ⟨xs, ys, zs, rfl, rfl, hperm, hall⟩)
    · exact Or.inl rfl
    · have hback : List.Forall₂ ReorderedDocument zs xs :=
        hall.flip.imp fun _ _ h => reorderedDocument_equivalence.symm h
      obtain ⟨us, hus, hperm'⟩ := List.perm_comp_forall₂ hperm.symm hback
      exact Or.inr ⟨ys, xs, us, rfl, rfl, hperm', hus⟩
  trans := by
    rintro u v w (rfl | ⟨xs, ys, zs, rfl, rfl, hperm, hall⟩) hvw
    · exact hvw
    · rcases hvw with rfl | ⟨ys', ws, zs', hys, rfl, hperm', hall'⟩
      · exact Or.inr ⟨xs, ys, zs, rfl, rfl, hperm, hall⟩
      · obtain rfl := Json.arr.inj hys
        obtain ⟨us, hus, hperm''⟩ := List.perm_comp_forall₂ hperm hall'
        exact Or.inr ⟨xs, ws, us, rfl, rfl, hperm''.trans hperm',
          forall₂_reorderedDocument_trans hall hus⟩

lemma caseReorderings_equivalence (key : String) : Equivalence (exceptAt caseReorderings key) :=
  exceptAt_equivalence (by simp [caseReorderings, reorderedDocuments_equivalence, ReorderedEvent,
    relatedDict_equivalence eventReorderings_equivalence]) key

/-! ## The projection reorders -/

/-- The replacement gives a value in the relation to the one it is given. -/
def Reorders (f : Json → Result Json) (rel : Json → Json → Prop) : Prop :=
  ∀ v w, v.WF → f v = .ok w → rel v w

/-- Replacements that reorder, under the same keys as the relations. -/
def ReorderAll (blocks : List (String × (Json → Result Json)))
    (special : List (String × (Json → Json → Prop))) : Prop :=
  List.Forall₂ (fun b s => b.1 = s.1 ∧ Reorders b.2 s.2) blocks special

lemma ReorderAll.blockOf {blocks : List (String × (Json → Result Json))}
    {special : List (String × (Json → Json → Prop))} (h : ReorderAll blocks special)
    (key : String) : Reorders (Dict.blockOf blocks key) (exceptAt special key) := by
  induction h with
  | nil =>
      intro v w _ hw
      exact Except.ok.inj hw
  | @cons b s _ _ hfirst _ ih =>
      obtain ⟨k, f⟩ := b
      obtain ⟨k', rel⟩ := s
      obtain ⟨rfl, hreorders⟩ := hfirst
      rw [Dict.blockOf_cons, exceptAt_cons]
      split_ifs
      · exact hreorders
      · exact ih

/-- The replacements under distinct keys reorder a dictionary key by key. -/
lemma ReorderAll.updateAll {blocks : List (String × (Json → Result Json))}
    {special : List (String × (Json → Json → Prop))} (h : ReorderAll blocks special)
    (hkeys : (blocks.map Prod.fst).Nodup) {d p : Dict} (hwf : (Json.obj d).WF)
    (hp : d.updateAll blocks = .ok p) : Dict.Related (exceptAt special) d p := by
  have hvalues := (Dict.updateAll_eq_ok hkeys (Json.wf_obj.mp hwf).1 hp).2
  intro key
  have hkey := hvalues key
  cases hv : d.get? key with
  | none =>
      rw [hv] at hkey
      rw [← Except.ok.inj hkey]
      exact Option.Rel.none
  | some v =>
      simp only [hv, Dict.onValue, bind_eq_ok, Except.ok.injEq] at hkey
      obtain ⟨w, hw, hpw⟩ := hkey
      rw [← hpw]
      exact Option.Rel.some (h.blockOf key v w (hwf.get? hv) hw)

lemma ReorderAll.projectDict {blocks : List (String × (Json → Result Json))}
    {special : List (String × (Json → Json → Prop))} (h : ReorderAll blocks special)
    (hkeys : (blocks.map Prod.fst).Nodup) :
    Reorders (projectDict blocks) (RelatedDict (exceptAt special)) := by
  intro v w hwf hw
  unfold QualityCI.projectDict at hw
  split at hw
  · simp only [bind_eq_ok, Except.ok.injEq] at hw
    obtain ⟨p, hp, rfl⟩ := hw
    exact Or.inr ⟨_, p, rfl, rfl, h.updateAll hkeys hwf hp⟩
  · exact Or.inl (Except.ok.inj hw)

lemma reorders_sortRows (key : Dict → Result (List String)) :
    Reorders (sortRows key) PermutedList := by
  intro v w _ hw
  unfold sortRows at hw
  split at hw
  · split at hw
    · rename_i rows hrows
      obtain rfl := dictsOf_eq_some.mp hrows
      simp only [bind_eq_ok, sortDicts_eq_ok, Except.ok.injEq] at hw
      obtain ⟨_, ⟨-, rfl⟩, rfl⟩ := hw
      exact Or.inr ⟨_, _, rfl, rfl, (KeySort.sortBy_perm rows).symm.map _⟩
    · exact Or.inl (Except.ok.inj hw)
  · exact Or.inl (Except.ok.inj hw)

section Projection

variable [PyUnicode]

lemma reorders_sortIdentities : Reorders sortIdentities PermutedList := by
  intro v w _ hw
  unfold sortIdentities at hw
  split at hw
  · split_ifs at hw with hall
    · obtain rfl := Except.ok.inj hw
      refine Or.inr ⟨_, _, rfl, rfl, ?_⟩
      conv_lhs => rw [← Json.map_str?_of_all hall]
      exact (KeySort.sortBy_perm _).symm.map _
    · exact Or.inl (Except.ok.inj hw)
  · exact Or.inl (Except.ok.inj hw)

lemma reorders_document : Reorders (projectDict documentBlocks) ReorderedDocument := by
  have hfields : ReorderAll fieldsBlocks fieldsReorderings :=
    .cons ⟨rfl, reorders_sortIdentities⟩ <| .cons ⟨rfl, reorders_sortRows _⟩ <|
      .cons ⟨rfl, reorders_sortRows _⟩ .nil
  have hdocument : ReorderAll documentBlocks documentReorderings :=
    .cons ⟨rfl, hfields.projectDict (by simp [fieldsBlocks])⟩ .nil
  exact hdocument.projectDict (by simp [documentBlocks])

lemma reorders_projectDocuments : Reorders projectDocuments ReorderedDocuments := by
  intro v w hwf hw
  unfold projectDocuments at hw
  split at hw
  · split at hw
    · rename_i rows hrows
      obtain rfl := dictsOf_eq_some.mp hrows
      simp only [bind_eq_ok, sortDicts_eq_ok, Except.ok.injEq] at hw
      obtain ⟨_, ⟨-, rfl⟩, projected, hprojected, rfl⟩ := hw
      have hperm : (rows.map Json.obj).Perm
          ((KeySort.sortBy (keyOr documentKey) rows).map Json.obj) :=
        (KeySort.sortBy_perm rows).symm.map _
      have hall : List.Forall₂ ReorderedDocument
          ((KeySort.sortBy (keyOr documentKey) rows).map Json.obj) projected := by
        rw [List.forall₂_map_left_iff]
        refine forall₂_imp_mem (mapEach_eq_ok.mp hprojected) fun d hd p _ hdp => ?_
        refine reorders_document _ _ ?_ hdp
        exact Json.wf_arr.mp hwf _ (hperm.mem_iff.mpr (List.mem_map_of_mem hd))
      obtain ⟨zs, hzs, hperm'⟩ := List.perm_comp_forall₂ hperm hall
      exact Or.inr ⟨_, projected, zs, rfl, rfl, hperm', hzs⟩
    · exact Or.inl (Except.ok.inj hw)
  · exact Or.inl (Except.ok.inj hw)

lemma reorders_plan : Reorders (projectDict planBlocks) (RelatedDict (exceptAt planReorderings)) :=
  ReorderAll.projectDict (.cons ⟨rfl, reorders_sortRows _⟩ .nil) (by simp [planBlocks])

lemma reorderAll_event : ReorderAll eventBlocks eventReorderings :=
  .cons ⟨rfl, reorders_sortIdentities⟩ <| .cons ⟨rfl, reorders_sortIdentities⟩ <|
    .cons ⟨rfl, reorders_sortRows _⟩ <| .cons ⟨rfl, reorders_sortRows _⟩ <|
    .cons ⟨rfl, reorders_sortRows _⟩ <| .cons ⟨rfl, reorders_plan⟩ .nil

lemma reorderAll_case : ReorderAll caseBlocks caseReorderings :=
  .cons ⟨rfl, reorderAll_event.projectDict (by simp [eventBlocks])⟩ <|
    .cons ⟨rfl, reorders_projectDocuments⟩ .nil

/-- **The projection of a case is a reordering of it.** -/
theorem canonicalCaseProjection_reorders {case projection : Dict} (hwf : (Json.obj case).WF)
    (h : canonicalCaseProjection case = .ok projection) : Reordered case projection :=
  reorderAll_case.updateAll (by simp [caseBlocks]) hwf h

end Projection

end QualityCI

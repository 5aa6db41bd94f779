import QualityCI.Loader.OrderFree
import QualityCI.Rules.Coverage
import QualityCI.Rules.Gates
import QualityCI.Rules.Verdict

/-!
# Identities spelt in another way

Steps and characteristics are compared by their normalized identities only: two cases that differ
in how the names are spelt have the same pairs, the same rows of each pair and the same gaps, so
the rules on relationships, on dates and on approvals give them the same statuses.

* `SameIdentity`, `Respelt` — names, and cases, spelt in another way.
* `rowsOfPair_respelt`, `RespeltDocument.readSpec_values` — the rows of a pair correspond.
* **`respelling_inert`** — five rules have the same statuses.
-/

namespace QualityCI

open Py

section Respelling

variable [PyUnicode]

/-! ## Respelt values -/

/-- The values are equal, or two texts with one normalized identity. -/
def SameIdentity (v w : Json) : Prop :=
  v = w ∨ ∃ s t, v = .str s ∧ w = .str t ∧ normalizedIdentity s = normalizedIdentity t

omit [PyUnicode] in
/-- The values are equal, or two lists with related members. -/
def EachRelated (rel : Json → Json → Prop) (v w : Json) : Prop :=
  v = w ∨ ∃ xs ys, v = .arr xs ∧ w = .arr ys ∧ List.Forall₂ rel xs ys

def rowSpellings : List (String × (Json → Json → Prop)) :=
  [("process_step_id", SameIdentity), ("characteristic_id", SameIdentity)]

/-- The rows differ in the spelling of their step and characteristic. -/
def RespeltRow : Json → Json → Prop := RelatedDict (exceptAt rowSpellings)

def fieldsSpellings : List (String × (Json → Json → Prop)) :=
  [("process_steps", EachRelated SameIdentity), ("characteristics", EachRelated RespeltRow),
   ("risks", EachRelated RespeltRow)]

def documentSpellings : List (String × (Json → Json → Prop)) :=
  [("fields", RelatedDict (exceptAt fieldsSpellings))]

def eventSpellings : List (String × (Json → Json → Prop)) :=
  [("affected_process_steps", EachRelated SameIdentity),
   ("affected_characteristics", EachRelated SameIdentity),
   ("affected_links", EachRelated RespeltRow)]

def caseSpellings : List (String × (Json → Json → Prop)) :=
  [("event", RelatedDict (exceptAt eventSpellings)),
   ("documents", EachRelated (RelatedDict (exceptAt documentSpellings)))]

/-- **The cases differ in the spelling of steps and characteristics**: in the event's scope, in
the documents' steps and in their rows. -/
def Respelt (a b : Dict) : Prop := Dict.Related (exceptAt caseSpellings) a b

/-- The event, a document and a row, as the rules read them. -/
def RespeltEvent (x y : Dict) : Prop := Dict.Related (exceptAt eventSpellings) x y

def RespeltDocument (x y : Dict) : Prop := Dict.Related (exceptAt documentSpellings) x y

def RespeltFields (x y : Dict) : Prop := Dict.Related (exceptAt fieldsSpellings) x y

def RespeltEntries (x y : Dict) : Prop := Dict.Related (exceptAt rowSpellings) x y

lemma SameIdentity.refl (v : Json) : SameIdentity v v := Or.inl rfl

omit [PyUnicode] in
lemma EachRelated.refl (rel : Json → Json → Prop) (v : Json) : EachRelated rel v v := Or.inl rfl

lemma rowSpellings_refl : ∀ k v, exceptAt rowSpellings k v v :=
  exceptAt_refl (by simp [rowSpellings, SameIdentity.refl])

lemma fieldsSpellings_refl : ∀ k v, exceptAt fieldsSpellings k v v :=
  exceptAt_refl (by simp [fieldsSpellings, EachRelated.refl])

lemma documentSpellings_refl : ∀ k v, exceptAt documentSpellings k v v :=
  exceptAt_refl (by simp [documentSpellings, RelatedDict.refl])

lemma eventSpellings_refl : ∀ k v, exceptAt eventSpellings k v v :=
  exceptAt_refl (by simp [eventSpellings, EachRelated.refl])

/-! ## Reading respelt values -/

omit [PyUnicode] in
/-- The dictionaries of related lists are related. -/
lemma forall₂_dicts {rel : String → Json → Json → Prop} (hrefl : ∀ k v, rel k v v)
    {xs ys : List Json} (h : List.Forall₂ (RelatedDict rel) xs ys) :
    List.Forall₂ (Dict.Related rel) (xs.filterMap Json.obj?) (ys.filterMap Json.obj?) := by
  induction h with
  | nil => exact List.Forall₂.nil
  | @cons v w xs ys hvw _ ih =>
      rcases hvw with rfl | ⟨p, q, rfl, rfl, hpq⟩
      · cases v with
        | obj p => exact List.Forall₂.cons ((relatedDict_obj hrefl).mp (Or.inl rfl)) ih
        | _ => exact ih
      · exact List.Forall₂.cons hpq ih

omit [PyUnicode] in
lemma EachRelated.dicts {rel : String → Json → Json → Prop} (hrefl : ∀ k v, rel k v v)
    {v w : Json} (h : EachRelated (RelatedDict rel) v w) :
    List.Forall₂ (Dict.Related rel) ((v.arr?.getD []).filterMap Json.obj?)
      ((w.arr?.getD []).filterMap Json.obj?) := by
  rcases h with rfl | ⟨xs, ys, rfl, rfl, hall⟩
  · refine List.forall₂_same.mpr fun p _ => ?_
    exact (relatedDict_obj hrefl).mp (Or.inl rfl)
  · exact forall₂_dicts hrefl hall

/-- The texts of respelt lists have the same identities. -/
lemma EachRelated.identities {v w : Json} (h : EachRelated SameIdentity v w) :
    ((v.arr?.getD []).filterMap Json.str?).map normalizedIdentity =
      ((w.arr?.getD []).filterMap Json.str?).map normalizedIdentity := by
  rcases h with rfl | ⟨xs, ys, rfl, rfl, hall⟩
  · rfl
  · show (xs.filterMap Json.str?).map normalizedIdentity =
      (ys.filterMap Json.str?).map normalizedIdentity
    induction hall with
    | nil => rfl
    | @cons v w xs ys hvw _ ih =>
        rcases hvw with rfl | ⟨s, t, rfl, rfl, hst⟩
        · cases v with
          | str s =>
              show normalizedIdentity s :: _ = normalizedIdentity s :: _
              rw [ih]
          | _ => exact ih
        · show normalizedIdentity s :: _ = normalizedIdentity t :: _
          rw [ih, hst]




omit [PyUnicode] in
/-- Related entries read as lists. -/
lemma related_rows {special : List (String × (Json → Json → Prop))} {x y : Dict}
    (h : Dict.Related (exceptAt special) x y) {rel : String → Json → Json → Prop}
    (hrefl : ∀ k v, rel k v v) {key : String}
    (hkey : exceptAt special key = EachRelated (RelatedDict rel)) :
    List.Forall₂ (Dict.Related rel) (x.rowsAt key) (y.rowsAt key) := by
  cases hx : x.get? key with
  | none =>
      simp [Dict.rowsAt, hx, h.get?_eq_none hx]
  | some v =>
      obtain ⟨w, hw, hvw⟩ := h.get? hx
      rw [hkey] at hvw
      simpa [Dict.rowsAt, hx, hw] using hvw.dicts hrefl

lemma related_identities {special : List (String × (Json → Json → Prop))} {x y : Dict}
    (h : Dict.Related (exceptAt special) x y) {key : String}
    (hkey : exceptAt special key = EachRelated SameIdentity) :
    (x.textsAt key).map normalizedIdentity = (y.textsAt key).map normalizedIdentity := by
  cases hx : x.get? key with
  | none =>
      simp [Dict.textsAt, hx, h.get?_eq_none hx]
  | some v =>
      obtain ⟨w, hw, hvw⟩ := h.get? hx
      rw [hkey] at hvw
      simpa [Dict.textsAt, hx, hw] using hvw.identities

omit [PyUnicode] in
lemma related_dict {special : List (String × (Json → Json → Prop))} {x y : Dict}
    (h : Dict.Related (exceptAt special) x y) {rel : String → Json → Json → Prop}
    (hrefl : ∀ k v, rel k v v) {key : String} (hkey : exceptAt special key = RelatedDict rel) :
    Dict.Related rel (x.dictAt key) (y.dictAt key) := by
  have hsame : ∀ d : Dict, Dict.Related rel d d := fun d =>
    (relatedDict_obj hrefl).mp (Or.inl rfl)
  cases hx : x.get? key with
  | none =>
      simpa [Dict.dictAt, hx, h.get?_eq_none hx] using hsame []
  | some v =>
      obtain ⟨w, hw, hvw⟩ := h.get? hx
      rw [hkey] at hvw
      rcases hvw with rfl | ⟨p, q, rfl, rfl, hpq⟩
      · simp only [Dict.dictAt, hx, hw]
        exact hsame _
      · simpa [Dict.dictAt, hx, hw, Json.obj?] using hpq

namespace RespeltEntries

variable {x y : Dict}

lemma get? (h : RespeltEntries x y) {key : String} (hkey : key ∉ rowSpellings.map Prod.fst) :
    x.get? key = y.get? key := related_get?_eq h hkey

lemma identity (h : RespeltEntries x y) {key : String}
    (hkey : exceptAt rowSpellings key = SameIdentity) :
    normalizedIdentity (x.textAt key) = normalizedIdentity (y.textAt key) := by
  cases hx : x.get? key with
  | none => simp [Dict.textAt, hx, Dict.Related.get?_eq_none h hx]
  | some v =>
      obtain ⟨w, hw, hvw⟩ := Dict.Related.get? h hx
      rw [hkey] at hvw
      rcases hvw with rfl | ⟨s, t, rfl, rfl, hst⟩
      · simp [Dict.textAt, hx, hw]
      · simpa [Dict.textAt, hx, hw, Json.str?] using hst

lemma pairOf (h : RespeltEntries x y) : QualityCI.pairOf x = QualityCI.pairOf y := by
  rw [QualityCI.pairOf, QualityCI.pairOf, relationshipKey, relationshipKey, h.identity rfl,
    h.identity rfl]

lemma namesStep (h : RespeltEntries x y) : QualityCI.namesStep x = QualityCI.namesStep y := by
  unfold QualityCI.namesStep
  cases hx : x.get? "process_step_id" with
  | none => rw [Dict.Related.get?_eq_none h hx]
  | some v =>
      obtain ⟨w, hw, hvw⟩ := Dict.Related.get? h hx
      have hkey : exceptAt rowSpellings "process_step_id" = SameIdentity := rfl
      rw [hkey] at hvw
      rw [hw]
      rcases hvw with rfl | ⟨s, t, rfl, rfl, -⟩
      · rfl
      · rfl

lemma namesPair (h : RespeltEntries x y) {key : String × String} :
    NamesPair x key ↔ NamesPair y key := by
  rw [NamesPair, NamesPair, h.namesStep, h.pairOf]

lemma specTuple (h : RespeltEntries x y) : QualityCI.specTuple x = QualityCI.specTuple y := by
  have hkey : "specification" ∉ rowSpellings.map Prod.fst := by simp [rowSpellings]
  simp only [QualityCI.specTuple, h.get? hkey]

lemma isControlled (h : RespeltEntries x y) :
    QualityCI.isControlled x = QualityCI.isControlled y := by
  have hfield : ∀ field ∈ controlFields, x.textAt field = y.textAt field := by
    intro field hfield
    have hkey : field ∉ rowSpellings.map Prod.fst := by
      intro hmem
      simp only [controlFields, rowSpellings, List.map_cons, List.map_nil, List.mem_cons,
        List.not_mem_nil, or_false] at hfield hmem
      rcases hfield with rfl | rfl | rfl <;> simp at hmem
    simp only [Dict.textAt, h.get? hkey]
  rw [Bool.eq_iff_iff]
  simp only [QualityCI.isControlled, List.all_eq_true]
  exact forall₂_congr fun field hmem => by rw [hfield field hmem]

lemma special (h : RespeltEntries x y) :
    (x.getD "special_characteristic" .null).truthy =
      (y.getD "special_characteristic" .null).truthy := by
  rw [Dict.getD, Dict.getD, h.get? (by simp [rowSpellings])]

end RespeltEntries

/-! ## The rows of a pair -/

/-- Respelt rows have the same members of a pair. -/
lemma rowsOfPair_respelt {rows rows' : List Dict} (h : List.Forall₂ RespeltEntries rows rows')
    (key : String × String) :
    List.Forall₂ RespeltEntries (rowsOfPair rows key) (rowsOfPair rows' key) := by
  simp only [rowsOfPair, boundRows, List.filter_filter]
  induction h with
  | nil => exact List.Forall₂.nil
  | @cons x y xs ys hxy _ ih =>
      rw [List.filter_cons, List.filter_cons, hxy.namesStep, hxy.pairOf]
      split_ifs
      · exact List.Forall₂.cons hxy ih
      · exact ih

omit [PyUnicode] in
lemma forall₂_getLast? {α β : Type} {rel : α → β → Prop} {xs : List α} {ys : List β}
    (h : List.Forall₂ rel xs ys) : Option.Rel rel xs.getLast? ys.getLast? := by
  induction h with
  | nil => exact Option.Rel.none
  | @cons x y xs ys hxy hrest ih =>
      cases hrest with
      | nil => exact Option.Rel.some hxy
      | cons _ _ => simpa [List.getLast?_cons_cons] using ih

omit [PyUnicode] in
lemma optionRel_eq_none {α β : Type} {rel : α → β → Prop} {o : Option α} {o' : Option β}
    (h : Option.Rel rel o o') : o = none ↔ o' = none := by
  cases h with
  | none => simp
  | some _ => simp

omit [PyUnicode] in
lemma optionRel_bind {α β γ : Type} {rel : α → β → Prop} {o : Option α} {o' : Option β}
    (h : Option.Rel rel o o') {f : α → Option γ} {g : β → Option γ}
    (hfg : ∀ a b, rel a b → f a = g b) : o.bind f = o'.bind g := by
  cases h with
  | none => rfl
  | some hab => exact hfg _ _ hab

omit [PyUnicode] in
/-- Some member of the one list satisfies what some member of the other does. -/
lemma forall₂_exists_iff {α β : Type} {rel : α → β → Prop} {xs : List α} {ys : List β}
    (h : List.Forall₂ rel xs ys) {P : α → Prop} {Q : β → Prop}
    (hPQ : ∀ a b, rel a b → (P a ↔ Q b)) : (∃ a ∈ xs, P a) ↔ ∃ b ∈ ys, Q b := by
  induction h with
  | nil => simp
  | @cons a b _ _ hab _ ih => simp only [List.exists_mem_cons_iff, hPQ a b hab, ih]

omit [PyUnicode] in
lemma forall₂_flatMap_eq {α β γ : Type} {rel : α → β → Prop} {xs : List α} {ys : List β}
    (h : List.Forall₂ rel xs ys) {f : α → List γ} {g : β → List γ}
    (hfg : ∀ a b, rel a b → f a = g b) : xs.flatMap f = ys.flatMap g := by
  induction h with
  | nil => rfl
  | @cons a b _ _ hab _ ih => rw [List.flatMap_cons, List.flatMap_cons, hfg a b hab, ih]

namespace RespeltDocument

variable {x y : Dict}

lemma get? (h : RespeltDocument x y) {key : String} (hkey : key ≠ "fields") :
    x.get? key = y.get? key :=
  related_get?_eq h (by simpa [documentSpellings] using hkey)

lemma fields (h : RespeltDocument x y) : RespeltFields (x.dictAt "fields") (y.dictAt "fields") :=
  related_dict h fieldsSpellings_refl rfl

lemma characteristics (h : RespeltDocument x y) :
    List.Forall₂ RespeltEntries (fieldRows x "characteristics") (fieldRows y "characteristics") :=
  related_rows h.fields rowSpellings_refl rfl

lemma risks (h : RespeltDocument x y) :
    List.Forall₂ RespeltEntries (fieldRows x "risks") (fieldRows y "risks") :=
  related_rows h.fields rowSpellings_refl rfl

lemma steps (h : RespeltDocument x y) :
    ((x.dictAt "fields").textsAt "process_steps").map normalizedIdentity =
      ((y.dictAt "fields").textsAt "process_steps").map normalizedIdentity :=
  related_identities h.fields rfl

/-- The rows of a pair correspond. -/
lemma characteristicAt (h : RespeltDocument x y) (key : String × String) :
    Option.Rel RespeltEntries (QualityCI.characteristicAt x key)
      (QualityCI.characteristicAt y key) :=
  forall₂_getLast? (rowsOfPair_respelt h.characteristics key)

lemma risksAt (h : RespeltDocument x y) (key : String × String) :
    List.Forall₂ RespeltEntries (QualityCI.risksAt x key) (QualityCI.risksAt y key) :=
  rowsOfPair_respelt h.risks key

end RespeltDocument

/-- Related rows include the same pairs' candidates. -/
lemma relationshipCandidates_respelt {rows rows' : List Dict}
    (h : List.Forall₂ RespeltEntries rows rows') (key : String × String) :
    relationshipCandidates rows key = [] ↔ relationshipCandidates rows' key = [] := by
  rw [← not_iff_not, ← ne_eq, ← ne_eq, relationshipCandidates_ne_nil,
    relationshipCandidates_ne_nil]
  induction h with
  | nil => rfl
  | @cons x y xs ys hxy _ ih =>
      simp only [List.exists_mem_cons_iff, hxy.namesStep, hxy.pairOf, ih]

/-! ## The pairs of the scope -/

/-- The plans have the same normalized pairs. -/
def SamePairs (plan plan' : ImpactPlan) : Prop :=
  ∀ key, key ∈ plan.affectedLinks.map pairKey ↔ key ∈ plan'.affectedLinks.map pairKey

/-- What depends on the normalized pair only holds of some pair of the one plan when it does of
some pair of the other. -/
lemma SamePairs.exists_iff {plan plan' : ImpactPlan} (h : SamePairs plan plan')
    {P Q : String × String → Prop}
    (hPQ : ∀ pair pair', pairKey pair = pairKey pair' → (P pair ↔ Q pair')) :
    (∃ pair ∈ plan.affectedLinks, P pair) ↔ ∃ pair ∈ plan'.affectedLinks, Q pair := by
  constructor
  · rintro ⟨pair, hpair, hP⟩
    obtain ⟨pair', hpair', hkey⟩ := List.mem_map.mp ((h _).mp (List.mem_map_of_mem hpair))
    exact ⟨pair', hpair', (hPQ pair pair' hkey.symm).mp hP⟩
  · rintro ⟨pair', hpair', hQ⟩
    obtain ⟨pair, hpair, hkey⟩ := List.mem_map.mp ((h _).mpr (List.mem_map_of_mem hpair'))
    exact ⟨pair, hpair, (hPQ pair pair' hkey).mpr hQ⟩

/-! ## Specifications -/

/-- The values of a reading are the specification of the pair's row. -/
lemma readSpec_values {pair : String × String} {doc : Dict} :
    (readSpec pair doc).values =
      (((characteristicAt doc (pairKey pair)).bind specTuple).map
        fun spec => (doc.textAt "document_type", spec)).toList := by
  unfold readSpec
  cases hrow : characteristicAt doc (pairKey pair) with
  | none =>
      simp only [readMissingRow]
      split <;> rfl
  | some row =>
      cases hspec : specTuple row with
      | none => simp [readRow, hspec]
      | some spec => simp [readRow, hspec]

/-- A reading reports a gap exactly when it has no values. -/
lemma readSpec_missing {pair : String × String} {doc : Dict} :
    (readSpec pair doc).missing ≠ [] ↔
      (characteristicAt doc (pairKey pair)).bind specTuple = none := by
  unfold readSpec
  cases hrow : characteristicAt doc (pairKey pair) with
  | none =>
      simp only [readMissingRow]
      split <;> simp
  | some row =>
      cases hspec : specTuple row with
      | none => simp [readRow, hspec]
      | some spec => simp [readRow, hspec]

section Readings

variable {x y : Dict} {pair pair' : String × String}

lemma RespeltDocument.specAt (h : RespeltDocument x y) (key : String × String) :
    (QualityCI.characteristicAt x key).bind specTuple =
      (QualityCI.characteristicAt y key).bind specTuple :=
  optionRel_bind (h.characteristicAt key) fun _ _ hrows => hrows.specTuple

lemma RespeltDocument.readSpec_values (h : RespeltDocument x y)
    (hkey : pairKey pair = pairKey pair') :
    (readSpec pair x).values = (readSpec pair' y).values := by
  have htype : x.textAt "document_type" = y.textAt "document_type" := by
    simp only [Dict.textAt, h.get? (show "document_type" ≠ "fields" by decide)]
  rw [QualityCI.readSpec_values, QualityCI.readSpec_values, hkey, h.specAt, htype]

lemma RespeltDocument.readSpec_missing (h : RespeltDocument x y)
    (hkey : pairKey pair = pairKey pair') :
    (readSpec pair x).missing ≠ [] ↔ (readSpec pair' y).missing ≠ [] := by
  rw [QualityCI.readSpec_missing, QualityCI.readSpec_missing, hkey, h.specAt]

lemma RespeltDocument.readSpec_misbound (h : RespeltDocument x y)
    (hkey : pairKey pair = pairKey pair') :
    (readSpec pair x).misbound ≠ [] ↔ (readSpec pair' y).misbound ≠ [] := by
  rw [readSpec_misbound_ne_nil, readSpec_misbound_ne_nil, hkey, ne_eq, ne_eq,
    optionRel_eq_none (h.characteristicAt _), relationshipCandidates_respelt h.characteristics]

end Readings

/-- **The comparison of specifications has the same status.** -/
theorem compareSpecs_respelt {docs docs' : List Dict} {plan plan' : ImpactPlan}
    (hdocs : List.Forall₂ RespeltDocument docs docs') (hpairs : SamePairs plan plan') :
    (compareSpecs docs plan).status = (compareSpecs docs' plan').status := by
  have hconflict : (∃ pair ∈ plan.affectedLinks,
      isConflict (docs.flatMap fun doc => (readSpec pair doc).values) = true) ↔
        ∃ pair ∈ plan'.affectedLinks,
          isConflict (docs'.flatMap fun doc => (readSpec pair doc).values) = true := by
    refine hpairs.exists_iff fun pair pair' hkey => ?_
    rw [forall₂_flatMap_eq hdocs fun x y hxy => hxy.readSpec_values hkey]
  have hmisbound : (∃ pair ∈ plan.affectedLinks, ∃ doc ∈ docs,
      (readSpec pair doc).misbound ≠ []) ↔
        ∃ pair ∈ plan'.affectedLinks, ∃ doc ∈ docs', (readSpec pair doc).misbound ≠ [] := by
    refine hpairs.exists_iff fun pair pair' hkey => ?_
    exact forall₂_exists_iff hdocs fun x y hxy => hxy.readSpec_misbound hkey
  have hmissing : (∃ pair ∈ plan.affectedLinks, ∃ doc ∈ docs,
      (readSpec pair doc).missing ≠ []) ↔
        ∃ pair ∈ plan'.affectedLinks, ∃ doc ∈ docs', (readSpec pair doc).missing ≠ [] := by
    refine hpairs.exists_iff fun pair pair' hkey => ?_
    exact forall₂_exists_iff hdocs fun x y hxy => hxy.readSpec_missing hkey
  rw [compareSpecs_status, compareSpecs_status]
  exact if_congr (or_congr hconflict hmisbound) rfl (if_congr hmissing rfl rfl)

/-! ## Relations and controls -/

lemma coverRelations_status {event pfmea control : Dict} {plan : ImpactPlan}
    {evidence : List Citation} :
    (coverRelations event pfmea control plan evidence).status =
      if ∃ pair ∈ plan.affectedLinks, relationGaps pfmea control pair ≠ [] then .contradicted
      else .pass := by
  have hgaps : plan.affectedLinks.flatMap (relationGaps pfmea control) ≠ [] ↔
      ∃ pair ∈ plan.affectedLinks, relationGaps pfmea control pair ≠ [] := by
    simp [List.flatMap_eq_nil_iff]
  simp only [coverRelations, apply_ite Finding.status, finding_status]
  exact if_congr hgaps rfl rfl

/-- What R003 says of the pairs: first whether each has risks, then whether the special ones are
controlled. -/
lemma controlSpecials_status {event pfmea control : Dict} {plan : ImpactPlan} :
    (controlSpecials event pfmea control plan).status =
      if ∃ pair ∈ plan.affectedLinks, risksAt pfmea (pairKey pair) = [] then
        if ∃ pair ∈ plan.affectedLinks, risksAt pfmea (pairKey pair) = [] ∧
            relationshipCandidates (fieldRows pfmea "risks") (pairKey pair) ≠ [] then
          .contradicted
        else .unverifiable
      else if ∃ pair ∈ plan.affectedLinks, (controlOfPair pfmea control pair).2 ≠ [] then
        .contradicted
      else .pass := by
  have hmissing : (plan.affectedLinks.filter fun pair => (risksAt pfmea (pairKey pair)).isEmpty) =
      [] ↔ ¬∃ pair ∈ plan.affectedLinks, risksAt pfmea (pairKey pair) = [] := by
    simp [List.filter_eq_nil_iff]
  have hgaps : (plan.affectedLinks.flatMap fun pair => (controlOfPair pfmea control pair).2) ≠ [] ↔
      ∃ pair ∈ plan.affectedLinks, (controlOfPair pfmea control pair).2 ≠ [] := by
    simp [List.flatMap_eq_nil_iff]
  have hmisbound : ((plan.affectedLinks.filter
      fun pair => (risksAt pfmea (pairKey pair)).isEmpty).any fun pair =>
        !(relationshipCandidates (fieldRows pfmea "risks") (pairKey pair)).isEmpty) = true ↔
      ∃ pair ∈ plan.affectedLinks, risksAt pfmea (pairKey pair) = [] ∧
        relationshipCandidates (fieldRows pfmea "risks") (pairKey pair) ≠ [] := by
    simp
  unfold controlSpecials
  split
  · rename_i hnil
    rw [if_neg (hmissing.mp hnil)]
    simp only [apply_ite Finding.status, finding_status]
    exact if_congr hgaps rfl rfl
  · rename_i missing hne
    rw [if_pos (not_not.mp fun h => hne (hmissing.mpr h)), missingRiskFinding, finding_status]
    exact if_congr hmisbound rfl rfl

/-- A special pair is covered when its row is a complete control. -/
lemma specialCoverage_eq_nil_iff {control : Dict} {pair : String × String} :
    (specialCoverage control pair).2 = [] ↔
      ((characteristicAt control (pairKey pair)).bind fun row => some (isControlled row)) =
        some true := by
  unfold specialCoverage
  cases characteristicAt control (pairKey pair) with
  | none => simp
  | some row =>
      by_cases hrow : isControlled row = true
      · simp [hrow]
      · simp [hrow]

lemma controlOfPair_ne_nil {pfmea control : Dict} {pair : String × String} :
    (controlOfPair pfmea control pair).2 ≠ [] ↔
      isSpecialPair pfmea pair = true ∧ (specialCoverage control pair).2 ≠ [] := by
  unfold controlOfPair
  by_cases hspecial : isSpecialPair pfmea pair = true
  · simp [hspecial]
  · simp [hspecial]

section Pairs

variable {pfmea pfmea' control control' : Dict} {pair pair' : String × String}

lemma RespeltDocument.risksAt_nil (h : RespeltDocument pfmea pfmea')
    (hkey : pairKey pair = pairKey pair') :
    QualityCI.risksAt pfmea (pairKey pair) = [] ↔
      QualityCI.risksAt pfmea' (pairKey pair') = [] := by
  rw [← List.length_eq_zero_iff, ← List.length_eq_zero_iff, hkey, (h.risksAt _).length_eq]

lemma RespeltDocument.isSpecialPair (h : RespeltDocument pfmea pfmea')
    (hkey : pairKey pair = pairKey pair') :
    QualityCI.isSpecialPair pfmea pair = QualityCI.isSpecialPair pfmea' pair' := by
  rw [Bool.eq_iff_iff]
  simp only [QualityCI.isSpecialPair, List.any_eq_true, hkey]
  exact forall₂_exists_iff (h.risksAt _) fun x y hxy => by rw [hxy.special]

lemma RespeltDocument.specialCoverage (h : RespeltDocument control control')
    (hkey : pairKey pair = pairKey pair') :
    (QualityCI.specialCoverage control pair).2 = [] ↔
      (QualityCI.specialCoverage control' pair').2 = [] := by
  rw [specialCoverage_eq_nil_iff, specialCoverage_eq_nil_iff, hkey,
    optionRel_bind (h.characteristicAt _) fun x y hxy => by rw [hxy.isControlled]]

lemma controlOfPair_respelt (hpfmea : RespeltDocument pfmea pfmea')
    (hcontrol : RespeltDocument control control') (hkey : pairKey pair = pairKey pair') :
    (controlOfPair pfmea control pair).2 ≠ [] ↔ (controlOfPair pfmea' control' pair').2 ≠ [] := by
  rw [controlOfPair_ne_nil, controlOfPair_ne_nil, hpfmea.isSpecialPair hkey, ne_eq, ne_eq,
    hcontrol.specialCoverage hkey]

lemma relationGaps_respelt (hpfmea : RespeltDocument pfmea pfmea')
    (hcontrol : RespeltDocument control control') (hkey : pairKey pair = pairKey pair') :
    relationGaps pfmea control pair ≠ [] ↔ relationGaps pfmea' control' pair' ≠ [] := by
  rw [ne_eq, ne_eq, relationGaps_eq_nil, relationGaps_eq_nil, hkey,
    forall₂_exists_iff hpfmea.risks fun x y hxy => hxy.namesPair,
    forall₂_exists_iff hcontrol.characteristics fun x y hxy => hxy.namesPair]

variable {event event' : Dict} {plan plan' : ImpactPlan}

/-- **The relations have the same status.** -/
theorem coverRelations_respelt (hpfmea : RespeltDocument pfmea pfmea')
    (hcontrol : RespeltDocument control control') (hpairs : SamePairs plan plan')
    (evidence evidence' : List Citation) :
    (coverRelations event pfmea control plan evidence).status =
      (coverRelations event' pfmea' control' plan' evidence').status := by
  rw [coverRelations_status, coverRelations_status]
  refine if_congr (hpairs.exists_iff fun pair pair' hkey => ?_) rfl rfl
  exact relationGaps_respelt hpfmea hcontrol hkey

/-- **The controls have the same status.** -/
theorem controlSpecials_respelt (hpfmea : RespeltDocument pfmea pfmea')
    (hcontrol : RespeltDocument control control') (hpairs : SamePairs plan plan') :
    (controlSpecials event pfmea control plan).status =
      (controlSpecials event' pfmea' control' plan').status := by
  rw [controlSpecials_status, controlSpecials_status]
  refine if_congr (hpairs.exists_iff fun pair pair' hkey => hpfmea.risksAt_nil hkey)
    (if_congr (hpairs.exists_iff fun pair pair' hkey => ?_) rfl rfl)
    (if_congr (hpairs.exists_iff fun pair pair' hkey => ?_) rfl rfl)
  · rw [hpfmea.risksAt_nil hkey, hkey, ne_eq, ne_eq, relationshipCandidates_respelt hpfmea.risks]
  · exact controlOfPair_respelt hpfmea hcontrol hkey

end Pairs

/-! ## Cases -/

namespace Respelt

variable {a b : Dict}

lemma get? (h : Respelt a b) {key : String} (hkey : key ∉ caseSpellings.map Prod.fst) :
    a.get? key = b.get? key := related_get?_eq h hkey

lemma event (h : Respelt a b) : RespeltEvent (a.dictAt "event") (b.dictAt "event") :=
  related_dict h eventSpellings_refl rfl

lemma documents (h : Respelt a b) :
    List.Forall₂ RespeltDocument (documentsOf a) (documentsOf b) :=
  related_rows h documentSpellings_refl rfl

lemma eventEntry (h : Respelt a b) {key : String} (hkey : key ∉ eventSpellings.map Prod.fst) :
    (a.dictAt "event").get? key = (b.dictAt "event").get? key := related_get?_eq h.event hkey

lemma filter_documents (h : Respelt a b) {P : Dict → Bool}
    (hP : ∀ x y, RespeltDocument x y → P x = P y) :
    List.Forall₂ RespeltDocument ((documentsOf a).filter P) ((documentsOf b).filter P) := by
  have hdocs := h.documents
  revert hdocs
  generalize documentsOf a = xs
  generalize documentsOf b = ys
  intro hdocs
  induction hdocs with
  | nil => exact List.Forall₂.nil
  | @cons x y _ _ hxy _ ih =>
      rw [List.filter_cons, List.filter_cons, hP x y hxy]
      split_ifs
      · exact List.Forall₂.cons hxy ih
      · exact ih

lemma approvedDocuments (h : Respelt a b) :
    List.Forall₂ RespeltDocument (QualityCI.approvedDocuments a)
      (QualityCI.approvedDocuments b) :=
  h.filter_documents fun x y hxy => by rw [hxy.get? (by decide)]

/-- The approved documents of a type correspond. -/
lemma documentByType (h : Respelt a b) (documentType : String) :
    Option.Rel RespeltDocument (QualityCI.documentByType a documentType)
      (QualityCI.documentByType b documentType) := by
  have hdocs := h.filter_documents (P := isApprovedOf documentType) fun x y hxy => by
    rw [isApprovedOf, isApprovedOf, hxy.get? (show "document_type" ≠ "fields" by decide),
      hxy.get? (show "status" ≠ "fields" by decide)]
  rw [documentByType_eq, documentByType_eq]
  revert hdocs
  generalize (documentsOf a).filter (isApprovedOf documentType) = xs
  generalize (documentsOf b).filter (isApprovedOf documentType) = ys
  intro hdocs
  cases hdocs with
  | nil => exact Option.Rel.none
  | cons hxy hrest =>
      cases hrest with
      | nil => exact Option.Rel.some hxy
      | cons _ _ => exact Option.Rel.none

lemma exists_document (h : Respelt a b) (ha : AcceptedCase a) {documentType : String}
    (htype : documentType ∈ requiredDocumentTypes) :
    ∃ x y, QualityCI.documentByType a documentType = some x ∧
      QualityCI.documentByType b documentType = some y ∧ RespeltDocument x y := by
  obtain ⟨x, hx⟩ := documentByType_accepted ha htype
  have hrel := h.documentByType documentType
  rw [hx] at hrel
  cases hy : QualityCI.documentByType b documentType with
  | none =>
      rw [hy] at hrel
      cases hrel
  | some y =>
      rw [hy] at hrel
      cases hrel with
      | some hxy => exact ⟨x, y, hx, rfl, hxy⟩

end Respelt

/-! ## Scopes -/

/-- The plans have the same scope, up to spelling. -/
structure SameScope (plan plan' : ImpactPlan) : Prop where
  pairs : SamePairs plan plan'
  steps : ∀ key, key ∈ plan.affectedProcessSteps.map normalizedIdentity ↔
    key ∈ plan'.affectedProcessSteps.map normalizedIdentity
  characteristics : ∀ key, key ∈ plan.affectedCharacteristics.map normalizedIdentity ↔
    key ∈ plan'.affectedCharacteristics.map normalizedIdentity

omit [PyUnicode] in
lemma eq_nil_iff_of_mem_iff {α β : Type} {xs ys : List α} {f : α → β}
    (h : ∀ key, key ∈ xs.map f ↔ key ∈ ys.map f) : xs = [] ↔ ys = [] := by
  rw [← List.map_eq_nil_iff (f := f), ← List.map_eq_nil_iff (f := f) (l := ys),
    List.eq_nil_iff_forall_not_mem, List.eq_nil_iff_forall_not_mem]
  exact forall_congr' fun key => not_congr (h key)

/-- **The scopes of respelt cases are the same.** -/
theorem Respelt.sameScope {a b : Dict} (h : Respelt a b) (ha : AcceptedCase a)
    (hb : AcceptedCase b) {plan plan' : ImpactPlan} (hplan : buildImpactPlan a = .ok plan)
    (hplan' : buildImpactPlan b = .ok plan') : SameScope plan plan' := by
  obtain ⟨hsteps, hchars, hlinks⟩ := buildImpactPlan_scope ha hplan
  obtain ⟨hsteps', hchars', hlinks'⟩ := buildImpactPlan_scope hb hplan'
  have hrows : List.Forall₂ RespeltEntries ((a.dictAt "event").rowsAt "affected_links")
      ((b.dictAt "event").rowsAt "affected_links") :=
    related_rows h.event rowSpellings_refl rfl
  have hnames : ∀ key, exceptAt eventSpellings key = EachRelated SameIdentity →
      ((a.dictAt "event").textsAt key).map normalizedIdentity =
        ((b.dictAt "event").textsAt key).map normalizedIdentity :=
    fun key hkey => related_identities h.event hkey
  have hstepNames := hnames "affected_process_steps" rfl
  have hcharNames := hnames "affected_characteristics" rfl
  refine ⟨fun key => ?_, fun key => ?_, fun key => ?_⟩
  · rw [hlinks, hlinks']
    simp only [List.mem_map, mem_sortPairs, exists_exists_and_eq_and]
    exact forall₂_exists_iff hrows fun x y hxy => by
      show QualityCI.pairOf x = key ↔ QualityCI.pairOf y = key
      rw [hxy.pairOf]
  · rw [hsteps, hsteps', mem_map_sortedSet, mem_map_sortedSet, hstepNames]
  · rw [hchars, hchars', mem_map_sortedSet, mem_map_sortedSet, hcharNames]

section Scope

variable {plan plan' : ImpactPlan}

lemma scopeRelationshipsComplete_iff_keys :
    scopeRelationshipsComplete plan = true ↔ plan.affectedLinks ≠ [] ∧
      ∀ key ∈ plan.affectedCharacteristics.map normalizedIdentity,
        ∃ pair ∈ plan.affectedLinks.map pairKey, pair.2 = key := by
  simp [scopeRelationshipsComplete, pairKey, relationshipKey]

lemma SameScope.complete (h : SameScope plan plan') :
    scopeRelationshipsComplete plan = scopeRelationshipsComplete plan' := by
  rw [Bool.eq_iff_iff, scopeRelationshipsComplete_iff_keys, scopeRelationshipsComplete_iff_keys,
    ne_eq, ne_eq, eq_nil_iff_of_mem_iff h.pairs]
  simp only [h.pairs _, h.characteristics _]

/-- The lists name the same identities. -/
def SameNames (steps steps' : List String) : Prop :=
  ∀ key, key ∈ steps.map normalizedIdentity ↔ key ∈ steps'.map normalizedIdentity

lemma SameScope.missingSteps (h : SameScope plan plan') {lists lists' : List (List String)}
    (hlists : List.Forall₂ SameNames lists lists') :
    QualityCI.missingSteps plan.affectedProcessSteps lists = [] ↔
      QualityCI.missingSteps plan'.affectedProcessSteps lists' = [] := by
  have hkeys : ∀ (plan : ImpactPlan) (lists : List (List String)),
      QualityCI.missingSteps plan.affectedProcessSteps lists = [] ↔
        ∀ key ∈ plan.affectedProcessSteps.map normalizedIdentity,
          ¬∃ steps ∈ lists, key ∉ steps.map normalizedIdentity := by
    intro plan lists
    rw [missingSteps_eq_nil]
    simp
  rw [hkeys, hkeys]
  refine forall_congr' fun key => imp_congr (h.steps key) (not_congr ?_)
  exact forall₂_exists_iff hlists fun steps steps' hsame => not_congr (hsame key)

end Scope

/-! ## The rules -/

section Rules

variable {a b : Dict} {plan plan' : ImpactPlan}

omit [PyUnicode] in
lemma legacyUnboundEvidence_unmarked {case : Dict}
    (h : case.contains "relationship_migration" = false) (documents : List (Dict × String)) :
    legacyUnboundEvidence case documents = [] := by
  rw [legacyUnboundEvidence, h]
  rfl

lemma Respelt.unmarked (h : Respelt a b) (ha : a.contains "relationship_migration" = false) :
    b.contains "relationship_migration" = false := by
  rwa [Dict.contains, ← h.get? (by simp [caseSpellings])]

/-- The status of R001 once the steps are read. -/
lemma coverListed_unmarked {case flow pfmea control : Dict}
    (h : case.contains "relationship_migration" = false) {flowSteps pfmeaSteps controlSteps} :
    (coverListed case plan flow pfmea control flowSteps pfmeaSteps controlSteps).status =
      if missingSteps plan.affectedProcessSteps [flowSteps, pfmeaSteps, controlSteps] ≠ [] then
        .contradicted
      else if scopeRelationshipsComplete plan = false then .unverifiable
      else (coverRelations (case.dictAt "event") pfmea control plan []).status := by
  simp only [coverListed, apply_ite Finding.status, finding_status,
    legacyUnboundEvidence_unmarked h, coverRelations_status]

/-- The normalized steps of corresponding documents are the same. -/
lemma processStepSet_respelt {x y : Dict} (h : RespeltDocument x y) {migrated migrated' : Bool}
    {reference reference' : Option Json} (hx : AcceptedDocument migrated reference x)
    (hy : AcceptedDocument migrated' reference' y) {steps steps' : List String}
    (hsteps : processStepSet x = .ok steps) (hsteps' : processStepSet y = .ok steps') :
    SameNames steps steps' := by
  intro key
  rw [processStepSet_eq_ok hx hsteps, processStepSet_eq_ok hy hsteps', mem_map_sortedSet,
    mem_map_sortedSet, h.steps]

theorem ruleProcessCoverage_respelt (h : Respelt a b) (ha : AcceptedCase a) (hb : AcceptedCase b)
    (hmarker : a.contains "relationship_migration" = false) (hscope : SameScope plan plan')
    {f g : Finding Citation} (hf : ruleProcessCoverage a plan = .ok f)
    (hg : ruleProcessCoverage b plan' = .ok g) : f.status = g.status := by
  obtain ⟨flow, flow', hflow, hflow', hflows⟩ :=
    h.exists_document ha (show "PROCESS_FLOW" ∈ _ by decide)
  obtain ⟨pfmea, pfmea', hpfmea, hpfmea', hpfmeas⟩ :=
    h.exists_document ha (show "PFMEA" ∈ _ by decide)
  obtain ⟨control, control', hcontrol, hcontrol', hcontrols⟩ :=
    h.exists_document ha (show "CONTROL_PLAN" ∈ _ by decide)
  have hempty := eq_nil_iff_of_mem_iff hscope.steps
  simp only [ruleProcessCoverage, hflow, hpfmea, hcontrol] at hf
  simp only [ruleProcessCoverage, hflow', hpfmea', hcontrol'] at hg
  by_cases hnil : plan.affectedProcessSteps = []
  · rw [if_pos hnil] at hf
    rw [if_pos (hempty.mp hnil)] at hg
    rw [← Except.ok.inj hf, ← Except.ok.inj hg, finding_status, finding_status]
  · rw [if_neg hnil] at hf
    rw [if_neg (mt hempty.mpr hnil)] at hg
    simp only [coverSteps, bind_eq_ok, Except.ok.injEq] at hf hg
    obtain ⟨flowSteps, hfs, pfmeaSteps, hps, controlSteps, hcs, rfl⟩ := hf
    obtain ⟨flowSteps', hfs', pfmeaSteps', hps', controlSteps', hcs', rfl⟩ := hg
    have hx := fun {type doc} (hd : documentByType a type = some doc) =>
      acceptedDocument_of_mem ha (documentByType_mem hd).1
    have hy := fun {type doc} (hd : documentByType b type = some doc) =>
      acceptedDocument_of_mem hb (documentByType_mem hd).1
    have hflowSteps := processStepSet_respelt hflows (hx hflow) (hy hflow') hfs hfs'
    have hpfmeaSteps := processStepSet_respelt hpfmeas (hx hpfmea) (hy hpfmea') hps hps'
    have hcontrolSteps := processStepSet_respelt hcontrols (hx hcontrol) (hy hcontrol') hcs hcs'
    have hmissing : missingSteps plan.affectedProcessSteps [flowSteps, pfmeaSteps, controlSteps] =
        [] ↔ missingSteps plan'.affectedProcessSteps
          [flowSteps', pfmeaSteps', controlSteps'] = [] := by
      refine hscope.missingSteps ?_
      simp [hflowSteps, hpfmeaSteps, hcontrolSteps]
    rw [coverListed_unmarked hmarker, coverListed_unmarked (h.unmarked hmarker), hscope.complete,
      coverRelations_respelt hpfmeas hcontrols hscope.pairs [] []]
    exact if_congr (not_congr hmissing) rfl rfl

theorem ruleSpecConsistency_respelt (h : Respelt a b) (ha : AcceptedCase a)
    (hmarker : a.contains "relationship_migration" = false) (hscope : SameScope plan plan') :
    (ruleSpecConsistency a plan).status = (ruleSpecConsistency b plan').status := by
  obtain ⟨control, control', hcontrol, hcontrol', hcontrols⟩ :=
    h.exists_document ha (show "CONTROL_PLAN" ∈ _ by decide)
  obtain ⟨sop, sop', hsop, hsop', hsops⟩ := h.exists_document ha (show "SOP" ∈ _ by decide)
  obtain ⟨inspection, inspection', hinspection, hinspection', hinspections⟩ :=
    h.exists_document ha (show "INSPECTION_RECORD" ∈ _ by decide)
  have hdocs : List.Forall₂ RespeltDocument [control, sop, inspection]
      [control', sop', inspection'] := by
    simp [hcontrols, hsops, hinspections]
  simp only [ruleSpecConsistency, hcontrol, hsop, hinspection, hcontrol', hsop', hinspection',
    legacyUnboundEvidence_unmarked hmarker, legacyUnboundEvidence_unmarked (h.unmarked hmarker),
    apply_ite Finding.status, finding_status, hscope.complete,
    compareSpecs_respelt hdocs hscope.pairs]
  exact if_congr (eq_nil_iff_of_mem_iff hscope.characteristics) rfl rfl

theorem ruleSpecialCharacteristicControl_respelt (h : Respelt a b) (ha : AcceptedCase a)
    (hmarker : a.contains "relationship_migration" = false) (hscope : SameScope plan plan') :
    (ruleSpecialCharacteristicControl a plan).status =
      (ruleSpecialCharacteristicControl b plan').status := by
  obtain ⟨pfmea, pfmea', hpfmea, hpfmea', hpfmeas⟩ :=
    h.exists_document ha (show "PFMEA" ∈ _ by decide)
  obtain ⟨control, control', hcontrol, hcontrol', hcontrols⟩ :=
    h.exists_document ha (show "CONTROL_PLAN" ∈ _ by decide)
  simp only [ruleSpecialCharacteristicControl, hpfmea, hcontrol, hpfmea', hcontrol',
    legacyUnboundEvidence_unmarked hmarker, legacyUnboundEvidence_unmarked (h.unmarked hmarker),
    apply_ite Finding.status, finding_status, hscope.complete]
  rw [controlSpecials_respelt hpfmeas hcontrols hscope.pairs]

/-- The loop over the revisions stops with the same status. -/
lemma reviewRevisions_respelt {event event' : Dict} (hrevision : event.get? "revision" =
    event'.get? "revision") (approvalDate : CalendarDate) {docs docs' : List Dict}
    (hdocs : List.Forall₂ RespeltDocument docs docs') (stale : List String)
    (evidence evidence' : List Citation) :
    (reviewRevisions event approvalDate docs stale evidence).map Finding.status =
      (reviewRevisions event' approvalDate docs' stale evidence').map Finding.status := by
  induction hdocs generalizing stale evidence evidence' with
  | nil =>
      unfold reviewRevisions
      split_ifs <;> simp [Except.map]
  | @cons x y xs ys hxy _ ih =>
      have hget : ∀ key, key ≠ "fields" → x.get? key = y.get? key := fun key hkey =>
        hxy.get? hkey
      have hdate : x.getD "revision_date" .null = y.getD "revision_date" .null := by
        rw [Dict.getD, Dict.getD, hget _ (by decide)]
      have htext : ∀ key, key ≠ "fields" → x.textAt key = y.textAt key := fun key hkey => by
        rw [Dict.textAt, Dict.textAt, hget key hkey]
      have hwaiver : validRevisionDateWaiver x event approvalDate =
          validRevisionDateWaiver y event' approvalDate := by
        simp only [validRevisionDateWaiver, coversRevision,
          hget "approved_waiver" (by decide), hget "document_id" (by decide), hrevision]
        rfl
      unfold reviewRevisions
      rw [hdate, hwaiver, htext "revision_date" (by decide), htext "document_id" (by decide)]
      split_ifs
      · simp [Except.map]
      · cases fromIsoformat (y.textAt "revision_date") with
        | error e => rfl
        | ok revisionDate =>
            show (ite _ _ _ : Result (Finding Citation)).map Finding.status =
              (ite _ _ _ : Result (Finding Citation)).map Finding.status
            split_ifs
            · cases validRevisionDateWaiver y event' approvalDate with
              | none => exact ih _ _ _
              | some waiver => exact ih _ _ _
            · exact ih _ _ _

theorem ruleRevisionAfterApproval_respelt (h : Respelt a b) :
    (ruleRevisionAfterApproval a).map Finding.status =
      (ruleRevisionAfterApproval b).map Finding.status := by
  have hrevision := h.eventEntry (show "revision" ∉ _ by simp [eventSpellings])
  have happroved := h.eventEntry (show "approved_at" ∉ _ by simp [eventSpellings])
  have hgetD : (a.dictAt "event").getD "approved_at" .null =
      (b.dictAt "event").getD "approved_at" .null := by
    rw [Dict.getD, Dict.getD, happroved]
  have htext : (a.dictAt "event").textAt "approved_at" =
      (b.dictAt "event").textAt "approved_at" := by
    rw [Dict.textAt, Dict.textAt, happroved]
  unfold ruleRevisionAfterApproval
  simp only [hgetD, htext]
  by_cases habsent : ((b.dictAt "event").getD "approved_at" .null).truthy = false
  · rw [if_pos habsent, if_pos habsent]
    simp [Except.map]
  · rw [if_neg habsent, if_neg habsent]
    cases fromIsoformat ((b.dictAt "event").textAt "approved_at") with
    | error e => rfl
    | ok approvalDate =>
        exact reviewRevisions_respelt hrevision approvalDate h.approvedDocuments _ _ _

omit [PyUnicode] in
lemma reviewApprovals_status {event : Dict} :
    (reviewApprovals event).status =
      if (currentApprovals event).any
          (fun item => decide (item.textAt "decision" ∈ stoppingDecisions)) = true then
        .contradicted
      else if (requiredRoles.filter fun role => !(currentApprovals event).any fun item =>
          decide (item.textAt "decision" = "APPROVED" ∧ item.get? "role" = some (.str role))) ≠
            [] then
        .contradicted
      else .pass := by
  simp only [reviewApprovals, apply_ite Finding.status, finding_status]

omit [PyUnicode] in
lemma ruleHighRiskApproval_status {case : Dict} :
    (ruleHighRiskApproval case).status =
      if (case.dictAt "event").textAt "risk_level" ∉ riskLevels then .unverifiable
      else if (case.dictAt "event").textAt "risk_level" ≠ "HIGH" then .pass
      else if ((case.dictAt "event").getD "approvals" .null).truthy = false then .contradicted
      else (reviewApprovals (case.dictAt "event")).status := by
  simp only [ruleHighRiskApproval, apply_ite Finding.status, finding_status]

theorem ruleHighRiskApproval_respelt (h : Respelt a b) :
    (ruleHighRiskApproval a).status = (ruleHighRiskApproval b).status := by
  have hrisk := h.eventEntry (show "risk_level" ∉ _ by simp [eventSpellings])
  have happrovals := h.eventEntry (show "approvals" ∉ _ by simp [eventSpellings])
  have hrevision := h.eventEntry (show "revision" ∉ _ by simp [eventSpellings])
  have hcurrent : currentApprovals (a.dictAt "event") = currentApprovals (b.dictAt "event") := by
    rw [currentApprovals, currentApprovals, Dict.rowsAt, Dict.rowsAt, happrovals, hrevision]
  rw [ruleHighRiskApproval_status, ruleHighRiskApproval_status, reviewApprovals_status,
    reviewApprovals_status, hcurrent, Dict.textAt, Dict.textAt, Dict.getD, Dict.getD, hrisk,
    happrovals]

/-- **The spelling of steps and characteristics is inert**: five rules have the same statuses. -/
theorem respelling_inert (ha : validateCaseDict a = .ok ()) (hb : validateCaseDict b = .ok ())
    (hmarker : a.contains "relationship_migration" = false) (h : Respelt a b)
    (hplan : buildImpactPlan a = .ok plan) (hplan' : buildImpactPlan b = .ok plan')
    {coverage coverage' revision revision' : Finding Citation}
    (hcoverage : ruleProcessCoverage a plan = .ok coverage)
    (hcoverage' : ruleProcessCoverage b plan' = .ok coverage')
    (hrevision : ruleRevisionAfterApproval a = .ok revision)
    (hrevision' : ruleRevisionAfterApproval b = .ok revision') :
    coverage.status = coverage'.status ∧
      (ruleSpecConsistency a plan).status = (ruleSpecConsistency b plan').status ∧
      (ruleSpecialCharacteristicControl a plan).status =
        (ruleSpecialCharacteristicControl b plan').status ∧
      revision.status = revision'.status ∧
      (ruleHighRiskApproval a).status = (ruleHighRiskApproval b).status := by
  have hcaseA := validateCase_accepted ha
  have hcaseB := validateCase_accepted hb
  have hscope := h.sameScope hcaseA hcaseB hplan hplan'
  have hdates := ruleRevisionAfterApproval_respelt h
  rw [hrevision, hrevision'] at hdates
  exact ⟨ruleProcessCoverage_respelt h hcaseA hcaseB hmarker hscope hcoverage hcoverage',
    ruleSpecConsistency_respelt h hcaseA hmarker hscope,
    ruleSpecialCharacteristicControl_respelt h hcaseA hmarker hscope,
    Except.ok.inj hdates, ruleHighRiskApproval_respelt h⟩

end Rules

end Respelling

section Ascii

attribute [local instance] asciiUnicode

/-- The sample's risk analysis, and its only risk. -/
def samplePfmea : Dict :=
  ((sampleDocument "PFMEA" "PFMEA" "APPROVED" [("risks", .arr [sampleRisk])] []).obj?).getD []

def sampleRiskRow : Dict := sampleRisk.obj?.getD []

/-- The risk analysis whose risk writes its step in lowercase. -/
def respeltPfmea : Dict :=
  samplePfmea.set "fields" (.obj ((samplePfmea.dictAt "fields").set "risks"
    (.arr [.obj (sampleRiskRow.set "process_step_id" (.str "s1"))])))

/-- The sample with that risk analysis. -/
def respeltCase : Dict :=
  (sampleCase (sampleEvent "LOW" [] []) sampleDocuments).set "documents"
    (.arr (sampleDocuments.set 1 (.obj respeltPfmea)))

lemma respelt_sample :
    Respelt (sampleCase (sampleEvent "LOW" [] []) sampleDocuments) respeltCase := by
  have hrefl : ∀ k v, exceptAt caseSpellings k v v :=
    exceptAt_refl (by simp [caseSpellings, EachRelated.refl, RelatedDict.refl])
  have hrow : RespeltRow (.obj sampleRiskRow)
      (.obj (sampleRiskRow.set "process_step_id" (.str "s1"))) := by
    refine Or.inr ⟨_, _, rfl, rfl, Dict.related_set rowSpellings_refl
      (show sampleRiskRow.get? "process_step_id" = some (.str "S1") by decide +kernel) ?_⟩
    exact Or.inr ⟨"S1", "s1", rfl, rfl, by decide +kernel⟩
  have hrisks : exceptAt fieldsSpellings "risks" (.arr [.obj sampleRiskRow])
      (.arr [.obj (sampleRiskRow.set "process_step_id" (.str "s1"))]) :=
    Or.inr ⟨_, _, rfl, rfl, List.Forall₂.cons hrow List.Forall₂.nil⟩
  have hfields : exceptAt documentSpellings "fields" (.obj (samplePfmea.dictAt "fields"))
      (.obj ((samplePfmea.dictAt "fields").set "risks"
        (.arr [.obj (sampleRiskRow.set "process_step_id" (.str "s1"))]))) :=
    Or.inr ⟨_, _, rfl, rfl, Dict.related_set fieldsSpellings_refl (by decide +kernel) hrisks⟩
  have hpfmea : RelatedDict (exceptAt documentSpellings) (.obj samplePfmea) (.obj respeltPfmea) :=
    Or.inr ⟨_, _, rfl, rfl, Dict.related_set documentSpellings_refl (by decide +kernel) hfields⟩
  refine Dict.related_set hrefl (show Dict.get? _ "documents" = some (.arr sampleDocuments) by
    decide +kernel) (Or.inr ⟨_, _, rfl, rfl, ?_⟩)
  refine List.Forall₂.cons (Or.inl rfl) (List.Forall₂.cons hpfmea ?_)
  exact List.forall₂_same.mpr fun _ _ => Or.inl rfl

/-- The sample and its respelling. -/
theorem respelling_inert_sample : ∃ plan plan' coverage coverage' revision revision',
    buildImpactPlan (sampleCase (sampleEvent "LOW" [] []) sampleDocuments) = .ok plan ∧
    buildImpactPlan respeltCase = .ok plan' ∧
    ruleProcessCoverage (sampleCase (sampleEvent "LOW" [] []) sampleDocuments) plan =
      .ok coverage ∧
    ruleProcessCoverage respeltCase plan' = .ok coverage' ∧
    ruleRevisionAfterApproval (sampleCase (sampleEvent "LOW" [] []) sampleDocuments) =
      .ok revision ∧
    ruleRevisionAfterApproval respeltCase = .ok revision' ∧
    coverage.status = coverage'.status ∧ revision.status = revision'.status := by
  have hreturns : ((buildImpactPlan (sampleCase (sampleEvent "LOW" [] []) sampleDocuments)).bind
      (ruleProcessCoverage
        (sampleCase (sampleEvent "LOW" [] []) sampleDocuments))).toOption.isSome = true := by
    decide +kernel
  have hreturns' : ((buildImpactPlan respeltCase).bind
      (ruleProcessCoverage respeltCase)).toOption.isSome = true := by
    decide +kernel
  have hrevisions : (ruleRevisionAfterApproval
      (sampleCase (sampleEvent "LOW" [] []) sampleDocuments)).toOption.isSome = true := by
    decide +kernel
  have hrevisions' : (ruleRevisionAfterApproval respeltCase).toOption.isSome = true := by
    decide +kernel
  obtain ⟨coverage, hboth⟩ := exists_ok_of_isSome hreturns
  obtain ⟨coverage', hboth'⟩ := exists_ok_of_isSome hreturns'
  obtain ⟨revision, hrevision⟩ := exists_ok_of_isSome hrevisions
  obtain ⟨revision', hrevision'⟩ := exists_ok_of_isSome hrevisions'
  obtain ⟨plan, hplan, hcoverage⟩ := bind_eq_ok.mp hboth
  obtain ⟨plan', hplan', hcoverage'⟩ := bind_eq_ok.mp hboth'
  obtain ⟨hfirst, -, -, hfourth, -⟩ := respelling_inert (by decide +kernel) (by decide +kernel)
    (by decide +kernel) respelt_sample hplan hplan' hcoverage hcoverage' hrevision hrevision'
  exact ⟨plan, plan', coverage, coverage', revision, revision', hplan, hplan', hcoverage,
    hcoverage', hrevision, hrevision', hfirst, hfourth⟩

end Ascii

end QualityCI

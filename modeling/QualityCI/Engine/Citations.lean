import QualityCI.Engine.Aligned
import QualityCI.Lib.JsonRoundTrip
import Mathlib.Data.Finset.Dedup
import Mathlib.Data.Finset.Card

/-!
# What a printed citation gives away

A rule cites rows in the order in which it meets them, and the run holds the citations as text.
For citations of lists and dictionaries the text is as good as the citation, and a cited row is
as good as the row: so two rules' findings print alike exactly when the rows come in one order.

* `Citation.Structured` — the excerpt is a list or a dictionary.
* **`agree_print_iff`** — structured findings print alike exactly when they are equal.
* `flatMap_eq_iff` — blocks of equal lengths join to one list exactly when they are equal.
* `length_relationshipCandidates` — how many rows are close to a pair does not depend on order.
* **`map_relationshipEvidence_iff`** — bound rows are told apart by their citations.
-/

namespace QualityCI

open Py

/-! ## Lists -/

section Lists

variable {α β γ : Type}

/-- Blocks of equal lengths join to one list exactly when they are equal. -/
lemma flatMap_eq_iff {f : α → List γ} {g : β → List γ} {xs : List α} {ys : List β}
    (hlen : List.Forall₂ (fun x y => (f x).length = (g y).length) xs ys) :
    xs.flatMap f = ys.flatMap g ↔ List.Forall₂ (fun x y => f x = g y) xs ys := by
  induction hlen with
  | nil => simp
  | cons hxy _ ih =>
      rw [List.flatMap_cons, List.flatMap_cons, List.forall₂_cons, ← ih]
      constructor
      · intro h
        exact List.append_inj h hxy
      · rintro ⟨h1, h2⟩
        rw [h1, h2]

lemma length_flatMap_eq {f : α → List γ} {g : β → List γ} {xs : List α} {ys : List β}
    (hlen : List.Forall₂ (fun x y => (f x).length = (g y).length) xs ys) :
    (xs.flatMap f).length = (ys.flatMap g).length := by
  induction hlen with
  | nil => rfl
  | cons hxy _ ih =>
      rw [List.flatMap_cons, List.flatMap_cons, List.length_append, List.length_append, hxy, ih]

/-- The same over one list. -/
lemma flatMap_eq_flatMap_iff {f g : α → List γ} {xs : List α}
    (hlen : ∀ x ∈ xs, (f x).length = (g x).length) :
    xs.flatMap f = xs.flatMap g ↔ ∀ x ∈ xs, f x = g x := by
  rw [flatMap_eq_iff (List.forall₂_same.mpr hlen), List.forall₂_same]

/-- Lists whose members a function tells apart. -/
lemma map_eq_map_iff_of_injOn {f : α → β} {xs ys : List α}
    (hf : ∀ x ∈ xs, ∀ y ∈ ys, f x = f y → x = y) : xs.map f = ys.map f ↔ xs = ys := by
  constructor
  · intro h
    induction xs generalizing ys with
    | nil => exact (List.map_eq_nil_iff.mp h.symm).symm
    | cons x xs ih =>
        cases ys with
        | nil => exact absurd h (by simp)
        | cons y ys =>
            rw [List.map_cons, List.map_cons, List.cons.injEq] at h
            rw [hf x List.mem_cons_self y List.mem_cons_self h.1]
            rw [ih (fun x hx y hy => hf x (List.mem_cons_of_mem _ hx) y
              (List.mem_cons_of_mem _ hy)) h.2]
  · rintro rfl
    rfl

/-- Two functions that tell the same members apart tell the same lists apart. -/
lemma map_eq_map_iff_of_same {f : α → β} {g : α → γ} {xs ys : List α}
    (h : ∀ x ∈ xs, ∀ y ∈ ys, (f x = f y ↔ g x = g y)) :
    xs.map f = ys.map f ↔ xs.map g = ys.map g := by
  rw [← List.forall₂_eq_eq_eq, ← List.forall₂_eq_eq_eq, List.forall₂_map_left_iff,
    List.forall₂_map_right_iff, List.forall₂_map_left_iff, List.forall₂_map_right_iff]
  exact ⟨fun hf => forall₂_imp_mem hf fun x hx y hy => (h x hx y hy).mp,
    fun hg => forall₂_imp_mem hg fun x hx y hy => (h x hx y hy).mpr⟩

/-- Relations that agree where a third holds. -/
lemma forall₂_iff_of_forall₂ {R S T : α → β → Prop} {xs : List α} {ys : List β}
    (h : List.Forall₂ R xs ys) (hST : ∀ x y, R x y → (S x y ↔ T x y)) :
    List.Forall₂ S xs ys ↔ List.Forall₂ T xs ys := by
  induction h with
  | nil => simp
  | cons hxy _ ih => rw [List.forall₂_cons, List.forall₂_cons, hST _ _ hxy, ih]

end Lists

/-! ## Well-formed parts -/

lemma rowsAt_wf {d : Dict} (h : (Json.obj d).WF) {key : String} {row : Dict}
    (hrow : row ∈ d.rowsAt key) : (Json.obj row).WF := by
  rw [Dict.rowsAt, List.mem_filterMap] at hrow
  obtain ⟨v, hv, hobj⟩ := hrow
  cases hget : d.get? key with
  | none => simp [hget] at hv
  | some w =>
      cases w with
      | arr items =>
          rw [hget] at hv
          have hwf := Json.wf_arr.mp (h.get? hget) v hv
          rwa [Json.obj?_eq_some.mp hobj] at hwf
      | _ => simp [hget, Json.arr?] at hv

lemma dictAt_wf {d : Dict} (h : (Json.obj d).WF) (key : String) :
    (Json.obj (d.dictAt key)).WF := by
  have hempty : (Json.obj []).WF := Json.wf_obj.mpr ⟨List.Pairwise.nil, by simp⟩
  unfold Dict.dictAt
  cases hget : d.get? key with
  | none => exact hempty
  | some v =>
      cases v with
      | obj e => exact h.get? hget
      | _ => exact hempty

lemma fieldRows_wf {doc : Dict} (h : (Json.obj doc).WF) {collection : String} {row : Dict}
    (hrow : row ∈ fieldRows doc collection) : (Json.obj row).WF :=
  rowsAt_wf (dictAt_wf h "fields") hrow

lemma getD_wf {d : Dict} (h : (Json.obj d).WF) (key : String) {default : Json}
    (hdefault : default.WF) : (d.getD key default).WF := by
  unfold Dict.getD
  cases hget : d.get? key with
  | none => exact hdefault
  | some v => exact h.get? hget

lemma relationshipExcerpt_wf {row : Dict} (h : (Json.obj row).WF) :
    (Json.obj (relationshipExcerpt row)).WF := by
  rw [Json.wf_obj] at h ⊢
  exact ⟨h.1.filter _, fun e he => h.2 e (List.mem_filter.mp he).1⟩

/-! ## Structured citations -/

/-- The excerpt is a list or a dictionary, in order inside. -/
structure Citation.Structured (citation : Citation) : Prop where
  wf : citation.excerpt.WF
  container : citation.excerpt.isList = true ∨ citation.excerpt.isDict = true

lemma structured_of_obj {citation : Citation} {entries : Dict}
    (h : citation.excerpt = .obj entries) (hwf : (Json.obj entries).WF) : citation.Structured :=
  ⟨h ▸ hwf, Or.inr (by rw [h]; rfl)⟩

lemma structured_of_arr {citation : Citation} {items : List Json}
    (h : citation.excerpt = .arr items) (hwf : (Json.arr items).WF) : citation.Structured :=
  ⟨h ▸ hwf, Or.inl (by rw [h]; rfl)⟩

lemma structured_texts {citation : Citation} {texts : List String}
    (h : citation.excerpt = textsJson texts) : citation.Structured :=
  structured_of_arr h (by simp)

lemma structured_relationship {doc row : Dict} (h : (Json.obj row).WF) :
    (relationshipEvidence doc row).Structured :=
  structured_of_obj rfl (relationshipExcerpt_wf h)

lemma structured_missing {doc : Dict} {collection : String} {pair : String × String} :
    (missingRelationshipEvidence doc collection pair).Structured := by
  refine structured_of_obj rfl (Json.wf_ofList ?_)
  have hpair : (Json.obj (Dict.ofList [("process_step_id", .str pair.1),
      ("characteristic_id", .str pair.2)])).WF := Json.wf_ofList (by simp)
  simpa using hpair

lemma structured_eventPair {event : Dict} {pair : String × String} :
    (eventRelationshipEvidence event pair).Structured :=
  structured_of_obj rfl (Json.wf_ofList (by simp))

lemma structured_unbound {doc row : Dict} {collection : String} (h : (Json.obj row).WF) :
    (unboundEvidence doc collection row).Structured := by
  have hnull : (Json.null).WF := by simp [Json.WF]
  refine structured_of_obj rfl (Json.wf_ofList ?_)
  simp only [List.forall_mem_cons, List.not_mem_nil, IsEmpty.forall_iff, implies_true, and_true]
  exact ⟨Json.wf_str _, by simp [textsJson], getD_wf h _ hnull, getD_wf h _ hnull⟩

section Printing

variable [PyUnicode]

lemma Citation.Structured.stableExcerpt {citation : Citation} (h : citation.Structured) :
    QualityCI.stableExcerpt citation.excerpt = dumps citation.excerpt := by
  rcases h.container with hc | hc
  · obtain ⟨items, heq⟩ := Json.isList_iff.mp hc
    rw [heq]
    rfl
  · obtain ⟨entries, heq⟩ := Json.isDict_iff.mp hc
    rw [heq]
    rfl

/-- Structured citations print alike only when they are equal. -/
lemma Citation.Structured.eq_of_print {c d : Citation} (hc : c.Structured) (hd : d.Structured)
    (h : Agree Citation.print c d) : c = d := by
  obtain ⟨e, h1, h2⟩ := h
  simp only [Citation.print, hc.stableExcerpt, hd.stableExcerpt, bind_eq_ok,
    Except.ok.injEq] at h1 h2
  obtain ⟨text, htext, rfl⟩ := h1
  obtain ⟨text', htext', heq⟩ := h2
  rw [EvidenceRef.mk.injEq] at heq
  obtain ⟨hid, hrev, hloc, rfl, hhash⟩ := heq
  have hexcerpt := dumps_injective hc.wf hd.wf htext htext'
  cases c
  cases d
  simp_all

lemma Finding.agree_print {f g : Finding Citation} :
    Agree Finding.print f g ↔ Agree (mapEach Citation.print) f.evidence g.evidence ∧
      { f with evidence := g.evidence } = g := by
  constructor
  · rintro ⟨p, hf, hg⟩
    rw [Finding.print_eq_ok] at hf hg
    obtain ⟨e, he, rfl⟩ := hf
    obtain ⟨e', he', heq⟩ := hg
    rw [Finding.mk.injEq] at heq
    obtain ⟨h1, h2, h3, h4, h5, rfl, h7, h8⟩ := heq
    refine ⟨⟨e, he, he'⟩, ?_⟩
    cases g
    simp_all
  · rintro ⟨⟨e, he, he'⟩, heq⟩
    refine ⟨{ f with evidence := e }, Finding.print_eq_ok.mpr ⟨e, he, rfl⟩, ?_⟩
    refine Finding.print_eq_ok.mpr ⟨e, he', ?_⟩
    rw [← heq]

/-- **Structured findings print alike exactly when they are equal.** -/
theorem agree_print_iff {f g : Finding Citation} (hf : ∀ c ∈ f.evidence, c.Structured)
    (hg : ∀ c ∈ g.evidence, c.Structured) (hprints : ∃ p, f.print = .ok p) :
    Agree Finding.print f g ↔ f = g := by
  constructor
  · intro h
    obtain ⟨hevidence, heq⟩ := Finding.agree_print.mp h
    have hsame := forall₂_imp_mem (agree_mapEach_iff.mp hevidence)
      fun c hc d hd hcd => (hf c hc).eq_of_print (hg d hd) hcd
    rw [List.forall₂_eq_eq_eq] at hsame
    rw [← heq, ← hsame]
  · rintro rfl
    obtain ⟨p, hp⟩ := hprints
    exact ⟨p, hp, hp⟩

/-- Findings that differ at most in structured evidence. -/
lemma agree_printRule_finding {ruleId title summary severity remediation : String}
    {status : CheckStatus} {acceptance : List String} {evidence evidence' : List Citation}
    (hprints : ∃ p, printRule (.ok (finding ruleId title status summary evidence severity
      remediation acceptance)) = .ok p)
    (hf : ∀ c ∈ evidence, c.Structured) (hg : ∀ c ∈ evidence', c.Structured) :
    Agree printRule
      (.ok (finding ruleId title status summary evidence severity remediation acceptance))
      (.ok (finding ruleId title status summary evidence' severity remediation acceptance)) ↔
      evidence = evidence' := by
  have h := agree_print_iff (f := finding ruleId title status summary evidence severity
    remediation acceptance) (g := finding ruleId title status summary evidence' severity
    remediation acceptance) hf hg hprints
  refine h.trans ?_
  simp [finding]

lemma agree_of_eq {rule rule' : Result (Finding Citation)} (h : rule = rule')
    (hprints : ∃ p, printRule rule = .ok p) : Agree printRule rule rule' := by
  obtain ⟨p, hp⟩ := hprints
  exact ⟨p, hp, h ▸ hp⟩

end Printing

/-! ## Rows close to a pair -/

section Rows

lemma mem_appendUnseen {rows : List Dict} {row : Dict} :
    ∀ {acc : List Dict}, row ∈ appendUnseen acc rows → row ∈ acc ∨ row ∈ rows := by
  induction rows with
  | nil =>
      intro acc h
      exact Or.inl h
  | cons first rest ih =>
      intro acc h
      unfold appendUnseen at h
      split_ifs at h
      · exact (ih h).imp id (List.mem_cons_of_mem _)
      · rw [List.mem_append, List.mem_singleton] at h
        rcases h with h | rfl
        · exact Or.inl h
        · exact Or.inr List.mem_cons_self
      · rcases ih h with h | h
        · rw [List.mem_append, List.mem_singleton] at h
          rcases h with h | rfl
          · exact Or.inl h
          · exact Or.inr List.mem_cons_self
        · exact Or.inr (List.mem_cons_of_mem _ h)

/-- The loop keeps three rows, or all distinct ones if they are fewer. -/
lemma length_appendUnseen {rows : List Dict} : ∀ {acc : List Dict}, acc.Nodup → acc.length < 3 →
    (appendUnseen acc rows).length = min 3 (acc ++ rows).toFinset.card := by
  induction rows with
  | nil =>
      intro acc hnodup hlen
      rw [List.append_nil, List.toFinset_card_of_nodup hnodup]
      show acc.length = _
      omega
  | cons first rest ih =>
      intro acc hnodup hlen
      have hcard : acc.toFinset.card = acc.length := List.toFinset_card_of_nodup hnodup
      unfold appendUnseen
      split_ifs with hmem hfull
      · rw [ih hnodup hlen]
        have hsame : (acc ++ first :: rest).toFinset = (acc ++ rest).toFinset := by
          ext row
          simp only [List.toFinset_append, List.toFinset_cons, Finset.mem_union,
            Finset.mem_insert, List.mem_toFinset]
          constructor
          · rintro (h | rfl | h)
            · exact Or.inl h
            · exact Or.inl hmem
            · exact Or.inr h
          · rintro (h | h)
            · exact Or.inl h
            · exact Or.inr (Or.inr h)
        rw [hsame]
      · -- the third row: there are at least three distinct ones
        have hnew : (acc ++ [first]).Nodup :=
          List.nodup_append.mpr ⟨hnodup, List.nodup_singleton _, fun x hx y hy => by
            rintro rfl
            exact hmem ((List.mem_singleton.mp hy) ▸ hx)⟩
        have hsub : (acc ++ [first]).toFinset ⊆ (acc ++ first :: rest).toFinset := by
          intro row hrow
          simp only [List.toFinset_append, List.toFinset_cons, Finset.mem_union,
            Finset.mem_insert, List.mem_toFinset, List.toFinset_nil, Finset.notMem_empty,
            or_false] at hrow ⊢
          exact hrow.imp id Or.inl
        have hle := Finset.card_le_card hsub
        rw [List.toFinset_card_of_nodup hnew] at hle
        simp only [List.length_append, List.length_singleton] at hle ⊢
        omega
      · have hnew : (acc ++ [first]).Nodup :=
          List.nodup_append.mpr ⟨hnodup, List.nodup_singleton _, fun x hx y hy => by
            rintro rfl
            exact hmem ((List.mem_singleton.mp hy) ▸ hx)⟩
        rw [ih hnew (by simp only [List.length_append, List.length_singleton]; omega),
          List.append_assoc]
        rfl

variable [PyUnicode]

/-- **How many rows are close to a pair does not depend on their order.** -/
theorem length_relationshipCandidates {rows rows' : List Dict} (h : rows.Perm rows')
    (key : String × String) :
    (relationshipCandidates rows key).length = (relationshipCandidates rows' key).length := by
  have hbound : (boundRows rows).Perm (boundRows rows') := h.filter _
  unfold relationshipCandidates
  rw [length_appendUnseen List.nodup_nil (by decide),
    length_appendUnseen List.nodup_nil (by decide), List.nil_append, List.nil_append,
    List.toFinset_eq_of_perm _ _ ((hbound.filter _).append (hbound.filter _))]

lemma relationshipCandidates_bound {rows : List Dict} {key : String × String} {row : Dict}
    (h : row ∈ relationshipCandidates rows key) : row ∈ boundRows rows := by
  unfold relationshipCandidates at h
  rcases mem_appendUnseen h with h | h
  · exact absurd h List.not_mem_nil
  · rcases List.mem_append.mp h with h | h
    · exact (List.mem_filter.mp h).1
    · exact (List.mem_filter.mp h).1

lemma rowsOfPair_bound {rows : List Dict} {key : String × String} {row : Dict}
    (h : row ∈ rowsOfPair rows key) : row ∈ boundRows rows := (List.mem_filter.mp h).1

lemma rowsOfPair_perm {rows rows' : List Dict} (h : rows.Perm rows') (key : String × String) :
    (rowsOfPair rows key).Perm (rowsOfPair rows' key) := (h.filter _).filter _

omit [PyUnicode] in
lemma get?_relationshipExcerpt {row : Dict} {key : String}
    (hkey : key ∈ ["process_step_id", "characteristic_id", "failure_mode_id", "control_id"]) :
    (relationshipExcerpt row).get? key = row.get? key := by
  unfold relationshipExcerpt
  induction row with
  | nil => rfl
  | cons e rest ih =>
      obtain ⟨k, v⟩ := e
      rw [Dict.get?_cons]
      by_cases hk : k ∈ ["process_step_id", "characteristic_id", "failure_mode_id", "control_id"]
      · rw [List.filter_cons_of_pos (by simpa using hk), Dict.get?_cons, ih]
      · rw [List.filter_cons_of_neg (by simpa using hk), ih, if_neg]
        rintro rfl
        exact hk hkey

/-- Bound rows of an accepted document are told apart by their citations. -/
lemma relationshipEvidence_injOn {migrated : Bool} {referenceMigration : Option Json} {doc : Dict}
    (hdoc : AcceptedDocument migrated referenceMigration doc) {collection : String}
    (hc : collection = "characteristics" ∨ collection = "risks") {row row' : Dict}
    (hrow : row ∈ boundRows (fieldRows doc collection))
    (hrow' : row' ∈ boundRows (fieldRows doc collection))
    (h : relationshipEvidence doc row = relationshipEvidence doc row') : row = row' := by
  have hexcerpt : relationshipExcerpt row = relationshipExcerpt row' := by
    have := congrArg Citation.excerpt h
    exact Json.obj.inj this
  have htext : ∀ key ∈ ["process_step_id", "characteristic_id", "failure_mode_id", "control_id"],
      row.textAt key = row'.textAt key := by
    intro key hkey
    rw [Dict.textAt, Dict.textAt, ← get?_relationshipExcerpt hkey, hexcerpt,
      get?_relationshipExcerpt hkey]
  obtain ⟨hmem, hstep⟩ := List.mem_filter.mp hrow
  obtain ⟨hmem', hstep'⟩ := List.mem_filter.mp hrow'
  rcases hc with rfl | rfl
  · -- characteristic rows: no pair is named twice
    have hpair : pairOf row' = pairOf row := by
      rw [pairOf, pairOf, htext "process_step_id" (by simp), htext "characteristic_id" (by simp)]
    have h1 : characteristicAt doc (pairOf row) = some row :=
      (characteristicAt_eq_some hdoc).mpr ⟨hmem, hstep, rfl⟩
    have h2 : characteristicAt doc (pairOf row) = some row' :=
      (characteristicAt_eq_some hdoc).mpr ⟨hmem', hstep', hpair⟩
    rw [h1] at h2
    exact Option.some.inj h2
  · -- risk rows: no failure mode is named twice
    have hrisks := (risks_of_fields hdoc.rows).distinct
    refine List.inj_on_of_nodup_map hrisks hmem hmem' ?_
    rw [failureModeOf, failureModeOf, htext "failure_mode_id" (by simp)]

/-- **Bound rows of two aligned documents are cited alike exactly when they are the same.** -/
theorem map_relationshipEvidence_iff {migrated : Bool} {referenceMigration : Option Json}
    {x y : Dict} (hx : AcceptedDocument migrated referenceMigration x) (hxy : AlignedDocument x y)
    {collection : String} (hc : collection = "characteristics" ∨ collection = "risks")
    {rows rows' : List Dict} (hrows : ∀ row ∈ rows, row ∈ boundRows (fieldRows x collection))
    (hrows' : ∀ row ∈ rows', row ∈ boundRows (fieldRows y collection)) :
    rows.map (relationshipEvidence x) = rows'.map (relationshipEvidence y) ↔ rows = rows' := by
  rw [← hxy.relationshipEvidence]
  refine map_eq_map_iff_of_injOn fun row hrow row' hrow' h => ?_
  have hperm : (boundRows (fieldRows x collection)).Perm (boundRows (fieldRows y collection)) :=
    (hxy.rows hc).filter _
  exact relationshipEvidence_injOn hx hc (hrows row hrow) (hperm.mem_iff.mpr (hrows' row' hrow')) h

end Rows

end QualityCI

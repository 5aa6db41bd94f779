import QualityCI.Engine.CitedOrder

/-!
# The order that R002 shows

The rule reads three documents for every pair of the plan.  A pair has at most one row in each, so
only the rows close to a pair without a row can come in different orders.

* **`Comparable.ruleSpecConsistency_agree_iff`** — R002's findings print alike exactly when the
  lists it cites come in one order.
-/

namespace QualityCI

open Py

variable [PyUnicode] {a b : Dict} {plan : ImpactPlan} {documentType : String} {x y : Dict}

omit [PyUnicode] in
lemma specTuple_toJson_wf {row : Dict} {spec : SpecTuple} (hwf : (Json.obj row).WF)
    (h : specTuple row = some spec) : spec.toJson.WF := by
  unfold specTuple at h
  split at h
  · rename_i specification hget
    rw [Option.filter_eq_some_iff, tupleOf_eq_some] at h
    obtain ⟨⟨ht, hlo, hhi, -⟩, -⟩ := h
    have hspec : (Json.obj specification).WF := hwf.get? hget
    have hall : ∀ v ∈ [spec.target, spec.minimum, spec.maximum, .str spec.unit], v.WF := by
      intro v hv
      simp only [List.mem_cons, List.not_mem_nil, or_false] at hv
      rcases hv with rfl | rfl | rfl | rfl
      · exact hspec.get? ht
      · exact hspec.get? hlo
      · exact hspec.get? hhi
      · exact Json.wf_str _
    exact Json.wf_arr.mpr hall
  · exact absurd h (by simp)

lemma readMissingRow_evidence {doc : Dict} {pair : String × String} :
    (readMissingRow doc pair).evidence = missingRowEvidence doc "characteristics" pair := by
  simp only [readMissingRow, missingRowEvidence]
  split
  · rename_i hnil
    rw [hnil]
    rfl
  · rfl

lemma structured_readSpec {doc : Dict} (hwf : (Json.obj doc).WF) (pair : String × String) :
    ∀ c ∈ (readSpec pair doc).evidence, c.Structured := by
  unfold readSpec
  cases hrow : characteristicAt doc (pairKey pair) with
  | none =>
      rw [readMissingRow_evidence]
      exact structured_missingRow hwf pair
  | some row =>
      have hmem := List.mem_of_getLast? hrow
      have hrowWF := fieldRows_wf hwf (List.mem_filter.mp (rowsOfPair_bound hmem)).1
      have hexcerpt := relationshipExcerpt_wf hrowWF
      intro e he
      simp only [readRow] at he
      cases hspec : specTuple row with
      | none =>
          simp only [hspec, List.mem_singleton] at he
          subst he
          refine structured_of_obj rfl (Json.wf_ofList ?_)
          simp only [List.forall_mem_cons, List.not_mem_nil, IsEmpty.forall_iff, implies_true,
            and_true]
          exact ⟨hexcerpt, getD_wf hrowWF _ (Json.wf_str _), Json.wf_str _⟩
      | some spec =>
          simp only [hspec, List.mem_singleton] at he
          subst he
          refine structured_of_obj rfl (Json.wf_ofList ?_)
          simp only [List.forall_mem_cons, List.not_mem_nil, IsEmpty.forall_iff, implies_true,
            and_true]
          exact ⟨hexcerpt, specTuple_toJson_wf hrowWF hspec⟩

/-- What a document says of a pair, the other case's document says too; the evidence is the same
exactly when the rows close to the pair come in one order. -/
lemma Paired.readSpec_iff (h : Paired a b documentType x y) (pair : String × String) :
    ((readSpec pair x).missing = (readSpec pair y).missing ∧
      (readSpec pair x).misbound = (readSpec pair y).misbound ∧
      (readSpec pair x).values = (readSpec pair y).values) ∧
    (readSpec pair x).evidence.length = (readSpec pair y).evidence.length ∧
    ((readSpec pair x).evidence = (readSpec pair y).evidence ↔
      SameCandidates a b documentType "characteristics" (pairKey pair)) := by
  have heq := h.characteristicAt_eq (pairKey pair)
  have htype := h.aligned.textAt (show "document_type" ≠ "fields" by decide)
  cases hx : characteristicAt x (pairKey pair) with
  | none =>
      rw [hx] at heq
      have hnil := characteristicAt_eq_none.mp hx
      have hlength := length_relationshipCandidates (h.aligned.rows (Or.inl rfl)) (pairKey pair)
      simp only [readSpec, hx, ← heq, readMissingRow_evidence]
      refine ⟨?_, h.missingRow_length (Or.inl rfl) pair, h.missingRow_iff (Or.inl rfl) hnil⟩
      simp only [readMissingRow, htype]
      -- one list of close rows is empty when the other is
      cases hxs : relationshipCandidates (fieldRows x "characteristics") (pairKey pair) with
      | nil =>
          rw [hxs] at hlength
          rw [List.eq_nil_of_length_eq_zero hlength.symm]
          exact ⟨rfl, rfl, rfl⟩
      | cons r rs =>
          cases hys : relationshipCandidates (fieldRows y "characteristics") (pairKey pair) with
          | nil =>
              rw [hxs, hys] at hlength
              exact absurd hlength (by simp)
          | cons r' rs' => exact ⟨rfl, rfl, rfl⟩
  | some row =>
      rw [hx] at heq
      have hsame : readRow x pair row = readRow y pair row := by
        simp only [readRow, h.aligned.documentEvidence, htype]
      simp only [readSpec, hx, ← heq, hsame, true_and]
      have hne := rowsOfPair_ne_nil_of_characteristicAt hx
      exact ⟨fun _ => sameCandidates_of_ne_nil h hne, fun _ => trivial⟩

lemma flatMap_readings {γ : Type} {links : List (String × String)} {docs : List Dict}
    (field : SpecReading → List γ) :
    (links.flatMap fun pair => docs.map (readSpec pair)).flatMap field =
      links.flatMap fun pair => docs.flatMap fun doc => field (readSpec pair doc) := by
  simp only [List.flatMap_assoc, List.flatMap_map]

/-- A list read off the documents that does not depend on the order of rows. -/
lemma flatMap_eq_of_paired {γ : Type} {docs docs' : List Dict} {f : Dict → List γ}
    (h : List.Forall₂ (fun x y => ∃ documentType, Paired a b documentType x y) docs docs')
    (hf : ∀ documentType x y, Paired a b documentType x y → f x = f y) :
    docs.flatMap f = docs'.flatMap f := by
  induction h with
  | nil => rfl
  | cons hxy _ ih =>
      obtain ⟨_, hpaired⟩ := hxy
      rw [List.flatMap_cons, List.flatMap_cons, hf _ _ _ hpaired, ih]

/-- The readings of a pair are cited alike exactly when the rows close to it come in one order. -/
lemma specEvidence_iff {c c' s s' i i' : Dict} (hc : Paired a b "CONTROL_PLAN" c c')
    (hs : Paired a b "SOP" s s') (hi : Paired a b "INSPECTION_RECORD" i i')
    (pair : String × String) :
    ([c, s, i].flatMap fun doc => (readSpec pair doc).evidence).length =
      ([c', s', i'].flatMap fun doc => (readSpec pair doc).evidence).length ∧
    (([c, s, i].flatMap fun doc => (readSpec pair doc).evidence) =
      ([c', s', i'].flatMap fun doc => (readSpec pair doc).evidence) ↔
      ∀ documentType ∈ specDocumentTypes,
        SameCandidates a b documentType "characteristics" (pairKey pair)) := by
  have hlen : List.Forall₂ (fun x y => (readSpec pair x).evidence.length =
      (readSpec pair y).evidence.length) [c, s, i] [c', s', i'] :=
    .cons (hc.readSpec_iff pair).2.1 (.cons (hs.readSpec_iff pair).2.1
      (.cons (hi.readSpec_iff pair).2.1 .nil))
  refine ⟨length_flatMap_eq hlen, ?_⟩
  rw [flatMap_eq_iff hlen]
  simp only [List.forall₂_cons, List.forall₂_nil_left_iff, and_true, (hc.readSpec_iff pair).2.2,
    (hs.readSpec_iff pair).2.2, (hi.readSpec_iff pair).2.2, specDocumentTypes,
    List.forall_mem_cons, List.not_mem_nil, IsEmpty.forall_iff, implies_true]

/-- The comparison of specifications shows the order of the rows close to a pair without a row. -/
lemma Comparable.compareSpecs_iff (h : Comparable a b plan) {c c' s s' i i' : Dict}
    (hc : Paired a b "CONTROL_PLAN" c c') (hs : Paired a b "SOP" s s')
    (hi : Paired a b "INSPECTION_RECORD" i i')
    (hprints : ∃ f, printRule (.ok (compareSpecs [c, s, i] plan)) = .ok f) :
    Agree printRule (.ok (compareSpecs [c, s, i] plan)) (.ok (compareSpecs [c', s', i'] plan)) ↔
      ∀ link ∈ linksOf a, ∀ documentType ∈ specDocumentTypes,
        SameCandidates a b documentType "characteristics" (pairOf link) := by
  have hdocs : List.Forall₂ (fun x y => ∃ documentType, Paired a b documentType x y)
      [c, s, i] [c', s', i'] := .cons ⟨_, hc⟩ (.cons ⟨_, hs⟩ (.cons ⟨_, hi⟩ .nil))
  have hmissing : ∀ pair, ([c, s, i].flatMap fun doc => (readSpec pair doc).missing) =
      [c', s', i'].flatMap fun doc => (readSpec pair doc).missing :=
    fun pair => flatMap_eq_of_paired hdocs fun _ _ _ hp => (hp.readSpec_iff pair).1.1
  have hmisbound : ∀ pair, ([c, s, i].flatMap fun doc => (readSpec pair doc).misbound) =
      [c', s', i'].flatMap fun doc => (readSpec pair doc).misbound :=
    fun pair => flatMap_eq_of_paired hdocs fun _ _ _ hp => (hp.readSpec_iff pair).1.2.1
  have hconflicts : conflictsOf [c, s, i] = conflictsOf [c', s', i'] := by
    funext pair
    have hvalues : ([c, s, i].flatMap fun doc => (readSpec pair doc).values) =
        [c', s', i'].flatMap fun doc => (readSpec pair doc).values :=
      flatMap_eq_of_paired hdocs fun _ _ _ hp => (hp.readSpec_iff pair).1.2.2
    simp only [conflictsOf, hvalues]
  have hstructured : ∀ docs : List Dict, (∀ d ∈ docs, (Json.obj d).WF) →
      ∀ e ∈ plan.affectedLinks.flatMap fun pair => docs.flatMap fun doc =>
        (readSpec pair doc).evidence, e.Structured := by
    intro docs hwf e he
    obtain ⟨pair, -, he⟩ := List.mem_flatMap.mp he
    obtain ⟨doc, hdoc, he⟩ := List.mem_flatMap.mp he
    exact structured_readSpec (hwf doc hdoc) pair e he
  have hleft := hstructured [c, s, i] (by simp [hc.leftWF, hs.leftWF, hi.leftWF])
  have hright := hstructured [c', s', i'] (by simp [hc.rightWF, hs.rightWF, hi.rightWF])
  have hiff : (plan.affectedLinks.flatMap fun pair => [c, s, i].flatMap fun doc =>
        (readSpec pair doc).evidence) =
      (plan.affectedLinks.flatMap fun pair => [c', s', i'].flatMap fun doc =>
        (readSpec pair doc).evidence) ↔
      ∀ link ∈ linksOf a, ∀ documentType ∈ specDocumentTypes,
        SameCandidates a b documentType "characteristics" (pairOf link) := by
    rw [flatMap_eq_flatMap_iff fun pair _ => (specEvidence_iff hc hs hi pair).1]
    simp only [(specEvidence_iff hc hs hi _).2]
    exact h.plan_links (P := fun key => ∀ documentType ∈ specDocumentTypes,
      SameCandidates a b documentType "characteristics" key)
  rw [← hiff]
  simp only [compareSpecs, flatMap_readings, hconflicts, hmissing, hmisbound] at hprints ⊢
  split_ifs at hprints ⊢
  all_goals exact agree_printRule_finding hprints hleft hright

/-- The unbound rows that R002 cites. -/
lemma Paired.specs {c c' s s' i i' : Dict} (hc : Paired a b "CONTROL_PLAN" c c')
    (hs : Paired a b "SOP" s s') (hi : Paired a b "INSPECTION_RECORD" i i') :
    List.Forall₂ SearchedAlike
      [(c, "characteristics"), (s, "characteristics"), (i, "characteristics")]
      [(c', "characteristics"), (s', "characteristics"), (i', "characteristics")] :=
  .cons ⟨hc.aligned, rfl, Or.inl rfl⟩ (.cons ⟨hs.aligned, rfl, Or.inl rfl⟩
    (.cons ⟨hi.aligned, rfl, Or.inl rfl⟩ .nil))

lemma Comparable.unboundSpecs_iff (h : Comparable a b plan) {c c' s s' i i' : Dict}
    (hc : Paired a b "CONTROL_PLAN" c c') (hs : Paired a b "SOP" s s')
    (hi : Paired a b "INSPECTION_RECORD" i i') :
    legacyUnboundEvidence a
        [(c, "characteristics"), (s, "characteristics"), (i, "characteristics")] =
      legacyUnboundEvidence b
        [(c', "characteristics"), (s', "characteristics"), (i', "characteristics")] ↔
      ∀ documentType ∈ specDocumentTypes, SameUnbound a b documentType "characteristics" := by
  rw [legacyUnboundEvidence_eq_iff h.aligned (hc.specs hs hi)]
  simp only [SameUnbound, specDocumentTypes, List.forall_mem_cons, List.not_mem_nil,
    IsEmpty.forall_iff, implies_true, bothApproved_iff hc.left hc.right,
    bothApproved_iff hs.left hs.right, bothApproved_iff hi.left hi.right, List.forall₂_cons,
    List.forall₂_nil_left_iff, and_true]
  exact ⟨fun hall => ⟨fun hm => (hall hm).1, fun hm => (hall hm).2.1, fun hm => (hall hm).2.2⟩,
    fun hall hm => ⟨hall.1 hm, hall.2.1 hm, hall.2.2 hm⟩⟩

/-- **R002 shows exactly the order named.** -/
theorem Comparable.ruleSpecConsistency_agree_iff (h : Comparable a b plan)
    (hprints : ∃ f, printRule (.ok (ruleSpecConsistency a plan)) = .ok f) :
    Agree printRule (.ok (ruleSpecConsistency a plan)) (.ok (ruleSpecConsistency b plan)) ↔
      SpecsAlike a b := by
  obtain ⟨c, c', hc⟩ := h.paired (show "CONTROL_PLAN" ∈ _ by decide)
  obtain ⟨s, s', hs⟩ := h.paired (show "SOP" ∈ _ by decide)
  obtain ⟨i, i', hi⟩ := h.paired (show "INSPECTION_RECORD" ∈ _ by decide)
  have hplanned := (buildImpactPlan_scope h.left h.planned).2.1
  simp only [ruleSpecConsistency, hc.left, hs.left, hi.left] at hprints
  simp only [ruleSpecConsistency, hc.left, hs.left, hi.left, hc.right, hs.right, hi.right]
  by_cases hempty : plan.affectedCharacteristics = []
  · -- no characteristic is named: the types of the documents are cited
    have hnone : (a.dictAt "event").textsAt "affected_characteristics" = [] := by
      rwa [hplanned, sortedSet_eq_nil] at hempty
    have hstructured : ∀ case, ∀ e ∈ [eventEvidence (case.dictAt "event")
        "affected_characteristics" (textsJson plan.affectedCharacteristics),
        documentTypesEvidence case], e.Structured := by
      intro case e he
      simp only [List.mem_cons, List.not_mem_nil, or_false] at he
      rcases he with rfl | rfl <;> exact structured_texts rfl
    rw [if_pos hempty] at hprints ⊢
    rw [if_pos hempty, agree_printRule_finding hprints (hstructured a) (hstructured b),
      h.aligned.eventEvidence, List.cons.injEq, List.cons.injEq, documentTypesEvidence_iff]
    simp only [true_and, and_true]
    constructor
    · intro htypes
      exact ⟨fun _ => htypes, fun hs => absurd hnone hs, fun hs => absurd hnone hs,
        fun hs => absurd hnone hs⟩
    · intro hal
      exact hal.unlisted hnone
  · have hsome : (a.dictAt "event").textsAt "affected_characteristics" ≠ [] := by
      intro hnil
      rw [hplanned, sortedSet_eq_nil] at hempty
      exact hempty hnil
    rw [if_neg hempty] at hprints ⊢
    rw [if_neg hempty]
    by_cases hscope : scopeRelationshipsComplete plan = true
    · have hlinked := h.plan_scope.mp hscope
      have hno : ¬scopeRelationshipsComplete plan = false := by simp [hscope]
      rw [if_neg hno] at hprints ⊢
      rw [if_neg hno]
      have hbound := unboundSpecs_eq_nil h.left hc.left hs.left hi.left
      refine (h.agree_unbound (hc.specs hs hi) (by simp [hc.leftWF, hs.leftWF, hi.leftWF])
        (by simp [hc.rightWF, hs.rightWF, hi.rightWF]) hprints).trans ?_
      rw [h.unboundSpecs_iff hc hs hi]
      constructor
      · rintro ⟨hunbound, hrest⟩
        refine ⟨fun hnil => absurd hnil hsome, fun _ hno => absurd hlinked hno,
          fun _ _ => hunbound, fun _ _ hrows => ?_⟩
        have hnil := hbound.mpr hrows
        exact (h.compareSpecs_iff hc hs hi (prints_rest hprints hnil)).mp (hrest hnil)
      · intro hal
        refine ⟨hal.unbound hsome hlinked, fun hnil => ?_⟩
        exact (h.compareSpecs_iff hc hs hi (prints_rest hprints hnil)).mpr
          (hal.read hsome hlinked (hbound.mp hnil))
    · have hlinked : ¬ScopeLinked (a.dictAt "event") := fun hl => hscope (h.plan_scope.mpr hl)
      have hyes : scopeRelationshipsComplete plan = false := by simpa using hscope
      rw [if_pos hyes] at hprints ⊢
      rw [if_pos hyes, h.agree_links hprints]
      constructor
      · intro hlinks
        exact ⟨fun hnil => absurd hnil hsome, fun _ _ => hlinks, fun _ hl => absurd hl hlinked,
          fun _ hl => absurd hl hlinked⟩
      · intro hal
        exact hal.unlinked hsome hlinked

end QualityCI

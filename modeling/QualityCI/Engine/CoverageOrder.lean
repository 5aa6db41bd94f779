import QualityCI.Engine.CitedOrder

/-!
# The order that R001 and R003 show

Both rules walk the pairs of the plan, which are sorted, and cite for each pair the rows that
carry it, or the rows close to it when there are none.

* **`Comparable.ruleProcessCoverage_agree_iff`** — R001's findings print alike exactly when the
  lists it cites come in one order.
* **`Comparable.ruleSpecialCharacteristicControl_agree_iff`** — the same for R003.
-/

namespace QualityCI

open Py

variable [PyUnicode] {a b : Dict} {plan : ImpactPlan} {documentType : String} {x y : Dict}

/-! ## R001 -/

lemma riskCoverage_nil {doc : Dict} {pair : String × String}
    (h : risksAt doc (pairKey pair) = []) :
    riskCoverage doc pair =
      (missingRowEvidence doc "risks" pair, ["PFMEA:" ++ pairLabel pair]) := by
  rw [riskCoverage, h]
  rfl

lemma riskCoverage_cons {doc : Dict} {pair : String × String}
    (h : risksAt doc (pairKey pair) ≠ []) :
    riskCoverage doc pair =
      ((risksAt doc (pairKey pair)).map (relationshipEvidence doc), []) := by
  cases hrisks : risksAt doc (pairKey pair) with
  | nil => exact absurd hrisks h
  | cons risk rest => rw [riskCoverage, hrisks]

/-- What the PFMEA has of a pair: the same gaps, as much evidence, and the same evidence exactly
when the rows come in one order. -/
lemma Paired.riskCoverage_iff (h : Paired a b documentType x y) (pair : String × String) :
    (riskCoverage x pair).2 = (riskCoverage y pair).2 ∧
    (riskCoverage x pair).1.length = (riskCoverage y pair).1.length ∧
    ((riskCoverage x pair).1 = (riskCoverage y pair).1 ↔
      SameRows a b documentType "risks" (pairKey pair) ∧
        SameCandidates a b documentType "risks" (pairKey pair)) := by
  have hperm := h.risks_perm (pairKey pair)
  by_cases hx : risksAt x (pairKey pair) = []
  · have hx' : rowsOfPair (fieldRows x "risks") (pairKey pair) = [] := hx
    have hy : risksAt y (pairKey pair) = [] := by
      rw [hx'] at hperm
      exact List.nil_perm.mp hperm
    rw [riskCoverage_nil hx, riskCoverage_nil hy]
    refine ⟨rfl, h.missingRow_length (Or.inr rfl) pair, ?_⟩
    rw [h.missingRow_iff (Or.inr rfl) hx']
    exact ⟨fun hc => ⟨(bothApproved_iff h.left h.right).mpr (hx.trans hy.symm), hc⟩, And.right⟩
  · have hx' : rowsOfPair (fieldRows x "risks") (pairKey pair) ≠ [] := hx
    have hy : risksAt y (pairKey pair) ≠ [] := by
      intro hnil
      change rowsOfPair (fieldRows y "risks") (pairKey pair) = [] at hnil
      rw [hnil] at hperm
      exact hx' (List.perm_nil.mp hperm)
    rw [riskCoverage_cons hx, riskCoverage_cons hy]
    refine ⟨rfl, ?_, ?_⟩
    · rw [List.length_map, List.length_map]
      exact hperm.length_eq
    · rw [h.risks_iff]
      exact ⟨fun hr => ⟨hr, sameCandidates_of_ne_nil h hx'⟩, And.left⟩

/-- What the control plan has of a pair. -/
lemma Paired.controlCoverage_iff (h : Paired a b documentType x y) (pair : String × String) :
    (controlCoverage x pair).2 = (controlCoverage y pair).2 ∧
    (controlCoverage x pair).1.length = (controlCoverage y pair).1.length ∧
    ((controlCoverage x pair).1 = (controlCoverage y pair).1 ↔
      SameCandidates a b documentType "characteristics" (pairKey pair)) := by
  have heq := h.characteristicAt_eq (pairKey pair)
  cases hx : characteristicAt x (pairKey pair) with
  | none =>
      rw [hx] at heq
      have hnil := characteristicAt_eq_none.mp hx
      rw [controlCoverage, controlCoverage, hx, ← heq]
      exact ⟨rfl, h.missingRow_length (Or.inl rfl) pair, h.missingRow_iff (Or.inl rfl) hnil⟩
  | some row =>
      rw [hx] at heq
      rw [controlCoverage, controlCoverage, hx, ← heq, h.aligned.relationshipEvidence]
      refine ⟨rfl, rfl, fun _ => ?_, fun _ => rfl⟩
      exact sameCandidates_of_ne_nil h (rowsOfPair_ne_nil_of_characteristicAt hx)

lemma Comparable.eventPair (h : Comparable a b plan) :
    eventRelationshipEvidence (a.dictAt "event") = eventRelationshipEvidence (b.dictAt "event") := by
  funext pair
  simp only [eventRelationshipEvidence, h.aligned.eventEvidence]

lemma structured_riskCoverage {doc : Dict} (hwf : (Json.obj doc).WF) (pair : String × String) :
    ∀ c ∈ (riskCoverage doc pair).1, c.Structured := by
  by_cases hrisks : risksAt doc (pairKey pair) = []
  · rw [riskCoverage_nil hrisks]
    exact structured_missingRow hwf pair
  · rw [riskCoverage_cons hrisks]
    exact structured_risks hwf (pairKey pair)

lemma structured_controlCoverage {doc : Dict} (hwf : (Json.obj doc).WF) (pair : String × String) :
    ∀ c ∈ (controlCoverage doc pair).1, c.Structured := by
  unfold controlCoverage
  cases hrow : characteristicAt doc (pairKey pair) with
  | none => exact structured_missingRow hwf pair
  | some row =>
      have hmem := List.mem_of_getLast? hrow
      simpa using structured_relationship
        (fieldRows_wf hwf (List.mem_filter.mp (rowsOfPair_bound hmem)).1)

/-- The last stage of R001 shows the order of the rows of every pair. -/
lemma Comparable.coverRelations_iff (h : Comparable a b plan) {p p' c c' : Dict}
    (hp : Paired a b "PFMEA" p p') (hc : Paired a b "CONTROL_PLAN" c c')
    {evidence : List Citation} (hevidence : ∀ e ∈ evidence, e.Structured)
    (hprints : ∃ f, printRule (.ok (coverRelations (a.dictAt "event") p c plan evidence)) = .ok f) :
    Agree printRule (.ok (coverRelations (a.dictAt "event") p c plan evidence))
      (.ok (coverRelations (b.dictAt "event") p' c' plan evidence)) ↔
      ∀ link ∈ linksOf a, SameRows a b "PFMEA" "risks" (pairOf link) ∧
        SameCandidates a b "PFMEA" "risks" (pairOf link) ∧
        SameCandidates a b "CONTROL_PLAN" "characteristics" (pairOf link) := by
  have hgaps : relationGaps p c = relationGaps p' c' := by
    funext pair
    rw [relationGaps, relationGaps, (hp.riskCoverage_iff pair).1, (hc.controlCoverage_iff pair).1]
  have hlen : ∀ pair ∈ plan.affectedLinks,
      (relationEvidence (a.dictAt "event") p c pair).length =
        (relationEvidence (b.dictAt "event") p' c' pair).length := by
    intro pair _
    simp only [relationEvidence, List.length_cons, List.length_append,
      (hp.riskCoverage_iff pair).2.1, (hc.controlCoverage_iff pair).2.1]
  have hpair : ∀ pair, relationEvidence (a.dictAt "event") p c pair =
      relationEvidence (b.dictAt "event") p' c' pair ↔
      SameRows a b "PFMEA" "risks" (pairKey pair) ∧
        SameCandidates a b "PFMEA" "risks" (pairKey pair) ∧
        SameCandidates a b "CONTROL_PLAN" "characteristics" (pairKey pair) := by
    intro pair
    rw [relationEvidence, relationEvidence, h.eventPair, List.cons.injEq, ← and_assoc,
      ← (hp.riskCoverage_iff pair).2.2, ← (hc.controlCoverage_iff pair).2.2]
    constructor
    · rintro ⟨-, heq⟩
      exact List.append_inj heq (hp.riskCoverage_iff pair).2.1
    · rintro ⟨h1, h2⟩
      exact ⟨rfl, by rw [h1, h2]⟩
  have hstructured : ∀ {event q d : Dict}, (Json.obj q).WF → (Json.obj d).WF →
      ∀ e ∈ evidence ++ plan.affectedLinks.flatMap (relationEvidence event q d), e.Structured := by
    intro event q d hq hd e he
    rcases List.mem_append.mp he with he | he
    · exact hevidence e he
    · obtain ⟨pair, -, he⟩ := List.mem_flatMap.mp he
      rcases List.mem_cons.mp he with rfl | he
      · exact structured_eventPair
      · rcases List.mem_append.mp he with he | he
        · exact structured_riskCoverage hq pair e he
        · exact structured_controlCoverage hd pair e he
  have hiff : evidence ++ plan.affectedLinks.flatMap (relationEvidence (a.dictAt "event") p c) =
      evidence ++ plan.affectedLinks.flatMap (relationEvidence (b.dictAt "event") p' c') ↔
      ∀ link ∈ linksOf a, SameRows a b "PFMEA" "risks" (pairOf link) ∧
        SameCandidates a b "PFMEA" "risks" (pairOf link) ∧
        SameCandidates a b "CONTROL_PLAN" "characteristics" (pairOf link) := by
    rw [List.append_cancel_left_eq, flatMap_eq_flatMap_iff hlen]
    simp only [hpair]
    exact h.plan_links (P := fun key => SameRows a b "PFMEA" "risks" key ∧
      SameCandidates a b "PFMEA" "risks" key ∧
      SameCandidates a b "CONTROL_PLAN" "characteristics" key)
  rw [← hiff]
  simp only [coverRelations, ← hgaps] at hprints ⊢
  split_ifs at hprints ⊢ with hnone
  · exact agree_printRule_finding hprints (hstructured hp.leftWF hc.leftWF)
      (hstructured hp.rightWF hc.rightWF)
  · exact agree_printRule_finding hprints (hstructured hp.leftWF hc.leftWF)
      (hstructured hp.rightWF hc.rightWF)

/-- R001, once the steps are read, shows exactly the order named. -/
lemma Comparable.coverListed_agree_iff (h : Comparable a b plan) {flow flow' p p' c c' : Dict}
    (hf : Paired a b "PROCESS_FLOW" flow flow') (hp : Paired a b "PFMEA" p p')
    (hc : Paired a b "CONTROL_PLAN" c c') {fs ps cs : List String}
    (hsome : (a.dictAt "event").textsAt "affected_process_steps" ≠ [])
    (hlisted : missingSteps plan.affectedProcessSteps [fs, ps, cs] = [] ↔
      ∀ step ∈ (a.dictAt "event").textsAt "affected_process_steps",
        ∀ documentType ∈ ["PROCESS_FLOW", "PFMEA", "CONTROL_PLAN"], ListsStep a documentType step)
    (hprints : ∃ f, printRule (.ok (coverListed a plan flow p c fs ps cs)) = .ok f) :
    Agree printRule (.ok (coverListed a plan flow p c fs ps cs))
      (.ok (coverListed b plan flow' p' c' fs ps cs)) ↔ CoverageAlike a b := by
  have hunlisted : (a.dictAt "event").textsAt "affected_process_steps" = [] → SameTypes a b :=
    fun hnil => absurd hnil hsome
  simp only [coverListed, ← hf.aligned.documentEvidence, ← hp.aligned.documentEvidence,
    ← hc.aligned.documentEvidence] at hprints ⊢
  by_cases hmissing : missingSteps plan.affectedProcessSteps [fs, ps, cs] = []
  · have hsteps : StepsListed a := ⟨hsome, hlisted.mp hmissing⟩
    rw [if_neg (not_not.mpr hmissing)] at hprints ⊢
    rw [if_neg (not_not.mpr hmissing)]
    by_cases hscope : scopeRelationshipsComplete plan = true
    · have hlinked := h.plan_scope.mp hscope
      have hno : ¬scopeRelationshipsComplete plan = false := by simp [hscope]
      rw [if_neg hno] at hprints ⊢
      rw [if_neg hno]
      have hsets : ∀ e ∈ [documentEvidence flow "fields.process_steps" (textsJson fs),
          documentEvidence p "fields.process_steps" (textsJson ps),
          documentEvidence c "fields.process_steps" (textsJson cs)], e.Structured := by
        intro e he
        simp only [List.mem_cons, List.not_mem_nil, or_false] at he
        rcases he with rfl | rfl | rfl <;> exact structured_texts rfl
      have hbound := unboundRisksAndControls_eq_nil h.left hp.left hc.left
      refine (h.agree_unbound (hp.risksAndControls hc) (by simp [hp.leftWF, hc.leftWF])
        (by simp [hp.rightWF, hc.rightWF]) hprints).trans ?_
      rw [h.unboundRisks_iff hp hc]
      constructor
      · rintro ⟨hunbound, hrest⟩
        refine ⟨hunlisted, fun _ hno => absurd hlinked hno, fun _ _ => hunbound,
          fun _ _ hrows => ?_⟩
        have hnil := hbound.mpr hrows
        exact (h.coverRelations_iff hp hc hsets (prints_rest hprints hnil)).mp (hrest hnil)
      · intro hal
        refine ⟨hal.unbound hsteps hlinked, fun hnil => ?_⟩
        exact (h.coverRelations_iff hp hc hsets (prints_rest hprints hnil)).mpr
          (hal.related hsteps hlinked (hbound.mp hnil))
    · have hlinked : ¬ScopeLinked (a.dictAt "event") := fun hl => hscope (h.plan_scope.mpr hl)
      have hyes : scopeRelationshipsComplete plan = false := by simpa using hscope
      rw [if_pos hyes] at hprints ⊢
      rw [if_pos hyes, h.agree_links hprints]
      constructor
      · intro hlinks
        exact ⟨hunlisted, fun _ _ => hlinks, fun _ hl => absurd hl hlinked,
          fun _ hl => absurd hl hlinked⟩
      · intro hal
        exact hal.unlinked hsteps hlinked
  · -- a step is missing: what is cited is sorted
    have hsteps : ¬StepsListed a := fun hs => hmissing (hlisted.mpr hs.2)
    rw [if_pos hmissing] at hprints ⊢
    rw [if_pos hmissing]
    constructor
    · intro _
      exact ⟨hunlisted, fun hs => absurd hs hsteps, fun hs => absurd hs hsteps,
        fun hs => absurd hs hsteps⟩
    · intro _
      exact agree_of_eq rfl hprints

/-- **R001 shows exactly the order named.** -/
theorem Comparable.ruleProcessCoverage_agree_iff (h : Comparable a b plan)
    (hprints : ∃ f, printRule (ruleProcessCoverage a plan) = .ok f) :
    Agree printRule (ruleProcessCoverage a plan) (ruleProcessCoverage b plan) ↔
      CoverageAlike a b := by
  obtain ⟨flow, flow', hf⟩ := h.paired (show "PROCESS_FLOW" ∈ _ by decide)
  obtain ⟨p, p', hp⟩ := h.paired (show "PFMEA" ∈ _ by decide)
  obtain ⟨c, c', hc⟩ := h.paired (show "CONTROL_PLAN" ∈ _ by decide)
  have hplanSteps := (buildImpactPlan_scope h.left h.planned).1
  simp only [ruleProcessCoverage, hf.left, hp.left, hc.left] at hprints
  simp only [ruleProcessCoverage, hf.left, hp.left, hc.left, hf.right, hp.right, hc.right]
  by_cases hempty : plan.affectedProcessSteps = []
  · -- no step is named: the types of the documents are cited
    have hnone : (a.dictAt "event").textsAt "affected_process_steps" = [] := by
      rwa [hplanSteps, sortedSet_eq_nil] at hempty
    have hstructured : ∀ case, ∀ e ∈ [eventEvidence (case.dictAt "event") "affected_process_steps"
        (textsJson plan.affectedProcessSteps), documentTypesEvidence case], e.Structured := by
      intro case e he
      simp only [List.mem_cons, List.not_mem_nil, or_false] at he
      rcases he with rfl | rfl <;> exact structured_texts rfl
    rw [if_pos hempty] at hprints ⊢
    rw [if_pos hempty, agree_printRule_finding hprints (hstructured a) (hstructured b),
      h.aligned.eventEvidence, List.cons.injEq, List.cons.injEq, documentTypesEvidence_iff]
    simp only [true_and, and_true]
    constructor
    · intro htypes
      exact ⟨fun _ => htypes, fun hs => absurd hnone hs.1, fun hs => absurd hnone hs.1,
        fun hs => absurd hnone hs.1⟩
    · intro hal
      exact hal.unlisted hnone
  · have hsome : (a.dictAt "event").textsAt "affected_process_steps" ≠ [] := by
      intro hnil
      rw [hplanSteps, sortedSet_eq_nil] at hempty
      exact hempty hnil
    rw [if_neg hempty] at hprints ⊢
    rw [if_neg hempty]
    obtain ⟨fs, hfs, ps, hps, cs, hcs⟩ : ∃ fs, processStepSet flow = .ok fs ∧
        ∃ ps, processStepSet p = .ok ps ∧ ∃ cs, processStepSet c = .ok cs := by
      obtain ⟨f, hprint⟩ := hprints
      simp only [printRule, coverSteps, bind_eq_ok] at hprint
      obtain ⟨_, ⟨fs, hfs, ps, hps, cs, hcs, -⟩, -⟩ := hprint
      exact ⟨fs, hfs, ps, hps, cs, hcs⟩
    have hlisted := missingSteps_iff_listed h.left h.planned hf.left hp.left hc.left hfs hps hcs
    simp only [coverSteps, ← hf.aligned.processStepSet, ← hp.aligned.processStepSet,
      ← hc.aligned.processStepSet, hfs, hps, hcs] at hprints ⊢
    exact h.coverListed_agree_iff hf hp hc hsome hlisted hprints

/-! ## R003 -/

lemma structured_specialCoverage {doc : Dict} (hwf : (Json.obj doc).WF) (pair : String × String) :
    ∀ c ∈ (specialCoverage doc pair).1, c.Structured := by
  unfold specialCoverage
  cases hrow : characteristicAt doc (pairKey pair) with
  | none => exact structured_missingRow hwf pair
  | some row =>
      have hmem := List.mem_of_getLast? hrow
      have hrowWF := fieldRows_wf hwf (List.mem_filter.mp (rowsOfPair_bound hmem)).1
      have hnull : (Json.null).WF := by simp [Json.WF]
      simp only
      split_ifs
      · simp only [List.mem_singleton, forall_eq]
        refine structured_of_obj rfl (Json.wf_ofList ?_)
        have hcontrol : (Json.obj (Dict.ofList
            (controlFields.map fun field => (field, row.getD field .null)))).WF := by
          refine Json.wf_ofList fun e he => ?_
          obtain ⟨field, -, rfl⟩ := List.mem_map.mp he
          exact getD_wf hrowWF _ hnull
        simp only [List.forall_mem_cons, List.not_mem_nil, IsEmpty.forall_iff, implies_true,
          and_true]
        exact ⟨relationshipExcerpt_wf hrowWF, hcontrol⟩
      · simpa using structured_relationship hrowWF

/-- What the control plan has of a special pair. -/
lemma Paired.specialCoverage_iff (h : Paired a b documentType x y) (pair : String × String) :
    (specialCoverage x pair).2 = (specialCoverage y pair).2 ∧
    (specialCoverage x pair).1.length = (specialCoverage y pair).1.length ∧
    ((specialCoverage x pair).1 = (specialCoverage y pair).1 ↔
      SameCandidates a b documentType "characteristics" (pairKey pair)) := by
  have heq := h.characteristicAt_eq (pairKey pair)
  cases hx : characteristicAt x (pairKey pair) with
  | none =>
      rw [hx] at heq
      have hnil := characteristicAt_eq_none.mp hx
      rw [specialCoverage, specialCoverage, hx, ← heq]
      exact ⟨rfl, h.missingRow_length (Or.inl rfl) pair, h.missingRow_iff (Or.inl rfl) hnil⟩
  | some row =>
      rw [hx] at heq
      have hne := rowsOfPair_ne_nil_of_characteristicAt hx
      rw [specialCoverage, specialCoverage, hx, ← heq, h.aligned.relationshipEvidence,
        h.aligned.documentEvidence]
      exact ⟨rfl, rfl, fun _ => sameCandidates_of_ne_nil h hne, fun _ => rfl⟩

lemma Paired.risks_isEmpty (h : Paired a b documentType x y) (key : String × String) :
    (risksAt x key).isEmpty = (risksAt y key).isEmpty := by
  have hlen := (h.risks_perm key).length_eq
  change (risksAt x key).length = (risksAt y key).length at hlen
  rw [Bool.eq_iff_iff]
  simp only [List.isEmpty_iff_length_eq_zero, hlen]

lemma Paired.isSpecialPair_eq (h : Paired a b documentType x y) (pair : String × String) :
    isSpecialPair x pair = isSpecialPair y pair := by
  have hperm := h.risks_perm (pairKey pair)
  rw [Bool.eq_iff_iff]
  simp only [isSpecialPair, List.any_eq_true, risksAt, hperm.mem_iff]

/-- The rows of a pair that has risks are cited alike exactly when they come in one order. -/
lemma Comparable.controlOfPair_iff (h : Comparable a b plan) {p p' c c' : Dict}
    (hp : Paired a b "PFMEA" p p') (hc : Paired a b "CONTROL_PLAN" c c')
    (pair : String × String) :
    (controlOfPair p c pair).2 = (controlOfPair p' c' pair).2 ∧
    (controlOfPair p c pair).1.length = (controlOfPair p' c' pair).1.length ∧
    ((controlOfPair p c pair).1 = (controlOfPair p' c' pair).1 ↔
      SameRows a b "PFMEA" "risks" (pairKey pair) ∧ (SpecialPair a (pairKey pair) →
        SameCandidates a b "CONTROL_PLAN" "characteristics" (pairKey pair))) := by
  have hperm := hp.risks_perm (pairKey pair)
  have hlen : ((risksAt p (pairKey pair)).map (relationshipEvidence p)).length =
      ((risksAt p' (pairKey pair)).map (relationshipEvidence p')).length := by
    rw [List.length_map, List.length_map]
    exact hperm.length_eq
  have hspecial : isSpecialPair p pair = true ↔ SpecialPair a (pairKey pair) :=
    isSpecialPair_iff h.left hp.left
  obtain ⟨hgaps, hlenControl, hcontrol⟩ := hc.specialCoverage_iff pair
  simp only [controlOfPair, ← hp.isSpecialPair_eq, ← hspecial]
  split_ifs with hs
  · refine ⟨hgaps, by rw [List.length_append, List.length_append, hlen, hlenControl], ?_⟩
    rw [← hp.risks_iff, ← hcontrol]
    constructor
    · intro heq
      have hparts := List.append_inj heq hlen
      exact ⟨hparts.1, fun _ => hparts.2⟩
    · rintro ⟨h1, h2⟩
      rw [h1, h2 hs]
  · refine ⟨rfl, hlen, ?_⟩
    rw [← hp.risks_iff]
    exact ⟨fun heq => ⟨heq, fun hno => absurd hno hs⟩, And.left⟩

lemma structured_controlOfPair {p c : Dict} (hp : (Json.obj p).WF) (hc : (Json.obj c).WF)
    (pair : String × String) : ∀ e ∈ (controlOfPair p c pair).1, e.Structured := by
  intro e he
  simp only [controlOfPair] at he
  split_ifs at he
  · rcases List.mem_append.mp he with he | he
    · exact structured_risks hp (pairKey pair) e he
    · exact structured_specialCoverage hc pair e he
  · exact structured_risks hp (pairKey pair) e he

/-- Pairs without risks show the order of the rows close to them. -/
lemma Comparable.missingRisk_iff (h : Comparable a b plan) {p p' : Dict}
    (hp : Paired a b "PFMEA" p p') {missing : List (String × String)}
    (hmissing : ∀ pair ∈ missing, risksAt p (pairKey pair) = [])
    (hprints : ∃ f, printRule (.ok (missingRiskFinding (a.dictAt "event") p missing)) = .ok f) :
    Agree printRule (.ok (missingRiskFinding (a.dictAt "event") p missing))
      (.ok (missingRiskFinding (b.dictAt "event") p' missing)) ↔
      ∀ pair ∈ missing, SameCandidates a b "PFMEA" "risks" (pairKey pair) := by
  have hempty : ∀ pair, (relationshipCandidates (fieldRows p "risks") (pairKey pair)).isEmpty =
      (relationshipCandidates (fieldRows p' "risks") (pairKey pair)).isEmpty := by
    intro pair
    have hlen := length_relationshipCandidates (hp.aligned.rows (Or.inr rfl)) (pairKey pair)
    rw [Bool.eq_iff_iff]
    simp only [List.isEmpty_iff_length_eq_zero, hlen]
  have hrow : ∀ (event q : Dict) (pair : String × String), missingRiskEvidence event q pair =
      eventRelationshipEvidence event pair :: missingRowEvidence q "risks" pair :=
    fun _ _ _ => rfl
  have hstructured : ∀ (event : Dict) {q : Dict}, (Json.obj q).WF →
      ∀ e ∈ missing.flatMap (missingRiskEvidence event q), e.Structured := by
    intro event q hq e he
    obtain ⟨pair, -, he⟩ := List.mem_flatMap.mp he
    rcases List.mem_cons.mp he with rfl | he
    · exact structured_eventPair
    · exact structured_missingRow hq pair e he
  have hlen : ∀ pair ∈ missing, (missingRiskEvidence (a.dictAt "event") p pair).length =
      (missingRiskEvidence (b.dictAt "event") p' pair).length := by
    intro pair _
    rw [hrow, hrow, List.length_cons, List.length_cons, hp.missingRow_length (Or.inr rfl)]
  simp only [missingRiskFinding, ← hempty] at hprints ⊢
  rw [agree_printRule_finding hprints (hstructured _ hp.leftWF) (hstructured _ hp.rightWF),
    flatMap_eq_flatMap_iff hlen]
  refine forall₂_congr fun pair hpair => ?_
  rw [hrow, hrow, h.eventPair, List.cons.injEq, hp.missingRow_iff (Or.inr rfl)
    (hmissing pair hpair)]
  exact and_iff_right rfl

/-- The pairs without risks are the same in both cases. -/
lemma Paired.missingPairs_eq (h : Paired a b documentType x y) (pairs : List (String × String)) :
    (pairs.filter fun pair => (risksAt x (pairKey pair)).isEmpty) =
      pairs.filter fun pair => (risksAt y (pairKey pair)).isEmpty :=
  List.filter_congr fun pair _ => h.risks_isEmpty (pairKey pair)

lemma hasRisk_iff {p p' : Dict} (hp : Paired a b "PFMEA" p p') {key : String × String} :
    HasRisk a key ↔ risksAt p key ≠ [] := by
  rw [HasRisk, approved_iff hp.left, risksAt_ne_nil]

/-- The order that R003 shows once every row names its step. -/
lemma Comparable.controlSpecials_iff (h : Comparable a b plan) {p p' c c' : Dict}
    (hp : Paired a b "PFMEA" p p') (hc : Paired a b "CONTROL_PLAN" c c')
    (hprints : ∃ f, printRule (.ok (controlSpecials (a.dictAt "event") p c plan)) = .ok f) :
    Agree printRule (.ok (controlSpecials (a.dictAt "event") p c plan))
      (.ok (controlSpecials (b.dictAt "event") p' c' plan)) ↔
      (∀ link ∈ linksOf a, SameCandidates a b "PFMEA" "risks" (pairOf link)) ∧
      ((∀ link ∈ linksOf a, HasRisk a (pairOf link)) →
        ∀ link ∈ linksOf a, SameRows a b "PFMEA" "risks" (pairOf link) ∧
          (SpecialPair a (pairOf link) →
            SameCandidates a b "CONTROL_PLAN" "characteristics" (pairOf link))) := by
  rw [← h.plan_links (P := SameCandidates a b "PFMEA" "risks"),
    ← h.plan_links (P := HasRisk a),
    ← h.plan_links (P := fun key => SameRows a b "PFMEA" "risks" key ∧
      (SpecialPair a key → SameCandidates a b "CONTROL_PLAN" "characteristics" key))]
  have hcandidates : ∀ pair, risksAt p (pairKey pair) ≠ [] →
      SameCandidates a b "PFMEA" "risks" (pairKey pair) :=
    fun pair hne => sameCandidates_of_ne_nil hp hne
  simp only [controlSpecials, ← hp.missingPairs_eq] at hprints ⊢
  cases hmissing : plan.affectedLinks.filter
      (fun pair => (risksAt p (pairKey pair)).isEmpty) with
  | nil =>
      have hall : ∀ pair ∈ plan.affectedLinks, risksAt p (pairKey pair) ≠ [] := by
        intro pair hpair hnil
        have := List.filter_eq_nil_iff.mp hmissing pair hpair
        rw [hnil] at this
        exact this rfl
      have hgaps : (fun pair => (controlOfPair p c pair).2) =
          fun pair => (controlOfPair p' c' pair).2 := by
        funext pair
        exact (h.controlOfPair_iff hp hc pair).1
      have hstructured : ∀ {q d : Dict}, (Json.obj q).WF → (Json.obj d).WF →
          ∀ e ∈ plan.affectedLinks.flatMap fun pair => (controlOfPair q d pair).1,
            e.Structured := by
        intro q d hq hd e he
        obtain ⟨pair, -, he⟩ := List.mem_flatMap.mp he
        exact structured_controlOfPair hq hd pair e he
      have hiff : (plan.affectedLinks.flatMap fun pair => (controlOfPair p c pair).1) =
          (plan.affectedLinks.flatMap fun pair => (controlOfPair p' c' pair).1) ↔
          (∀ pair ∈ plan.affectedLinks, SameCandidates a b "PFMEA" "risks" (pairKey pair)) ∧
          ((∀ pair ∈ plan.affectedLinks, HasRisk a (pairKey pair)) →
            ∀ pair ∈ plan.affectedLinks, SameRows a b "PFMEA" "risks" (pairKey pair) ∧
              (SpecialPair a (pairKey pair) →
                SameCandidates a b "CONTROL_PLAN" "characteristics" (pairKey pair))) := by
        rw [flatMap_eq_flatMap_iff fun pair _ => (h.controlOfPair_iff hp hc pair).2.1]
        simp only [(h.controlOfPair_iff hp hc _).2.2]
        constructor
        · intro hsame
          exact ⟨fun pair hpair => hcandidates pair (hall pair hpair), fun _ => hsame⟩
        · rintro ⟨-, hsame⟩
          exact hsame fun pair hpair => (hasRisk_iff hp).mpr (hall pair hpair)
      rw [hmissing] at hprints
      rw [← hiff]
      simp only [← hgaps] at hprints ⊢
      have hleft := hstructured hp.leftWF hc.leftWF
      have hright := hstructured hp.rightWF hc.rightWF
      split_ifs at hprints ⊢
      all_goals exact agree_printRule_finding hprints hleft hright
  | cons pair rest =>
      have hmem : ∀ pair' ∈ pair :: rest, pair' ∈ plan.affectedLinks ∧
          risksAt p (pairKey pair') = [] := by
        intro pair' hpair'
        rw [← hmissing] at hpair'
        obtain ⟨hin, hnil⟩ := List.mem_filter.mp hpair'
        exact ⟨hin, List.isEmpty_iff.mp hnil⟩
      rw [hmissing] at hprints
      rw [h.missingRisk_iff hp (fun q hq => (hmem q hq).2) hprints]
      constructor
      · intro hsame
        refine ⟨fun q hq => ?_, fun hrisk => ?_⟩
        · by_cases hnil : risksAt p (pairKey q) = []
          · refine hsame q ?_
            rw [← hmissing]
            exact List.mem_filter.mpr ⟨hq, List.isEmpty_iff.mpr hnil⟩
          · exact hcandidates q hnil
        · -- the first pair has no risk
          obtain ⟨hin, hnil⟩ := hmem pair List.mem_cons_self
          exact absurd hnil ((hasRisk_iff hp).mp (hrisk pair hin))
      · rintro ⟨hsame, -⟩ q hq
        exact hsame q (hmem q hq).1

/-- **R003 shows exactly the order named.** -/
theorem Comparable.ruleSpecialCharacteristicControl_agree_iff (h : Comparable a b plan)
    (hprints : ∃ f, printRule (.ok (ruleSpecialCharacteristicControl a plan)) = .ok f) :
    Agree printRule (.ok (ruleSpecialCharacteristicControl a plan))
      (.ok (ruleSpecialCharacteristicControl b plan)) ↔ SpecialsAlike a b := by
  obtain ⟨p, p', hp⟩ := h.paired (show "PFMEA" ∈ _ by decide)
  obtain ⟨c, c', hc⟩ := h.paired (show "CONTROL_PLAN" ∈ _ by decide)
  simp only [ruleSpecialCharacteristicControl, hp.left, hc.left] at hprints
  simp only [ruleSpecialCharacteristicControl, hp.left, hc.left, hp.right, hc.right]
  by_cases hscope : scopeRelationshipsComplete plan = true
  · have hlinked := h.plan_scope.mp hscope
    have hno : ¬scopeRelationshipsComplete plan = false := by simp [hscope]
    rw [if_neg hno] at hprints ⊢
    rw [if_neg hno]
    have hbound := unboundRisksAndControls_eq_nil h.left hp.left hc.left
    refine (h.agree_unbound (hp.risksAndControls hc) (by simp [hp.leftWF, hc.leftWF])
      (by simp [hp.rightWF, hc.rightWF]) hprints).trans ?_
    rw [h.unboundRisks_iff hp hc]
    constructor
    · rintro ⟨hunbound, hrest⟩
      have hspecials := fun hrows : RiskRowsBound a =>
        (h.controlSpecials_iff hp hc (prints_rest hprints (hbound.mpr hrows))).mp
          (hrest (hbound.mpr hrows))
      exact ⟨fun hl => absurd hlinked hl, fun _ => hunbound, fun _ hrows => (hspecials hrows).1,
        fun _ hrows => (hspecials hrows).2⟩
    · intro hal
      refine ⟨hal.unbound hlinked, fun hnil => ?_⟩
      exact (h.controlSpecials_iff hp hc (prints_rest hprints hnil)).mpr
        ⟨hal.missing hlinked (hbound.mp hnil), hal.controlled hlinked (hbound.mp hnil)⟩
  · have hlinked : ¬ScopeLinked (a.dictAt "event") := fun hl => hscope (h.plan_scope.mpr hl)
    have hyes : scopeRelationshipsComplete plan = false := by simpa using hscope
    rw [if_pos hyes] at hprints ⊢
    rw [if_pos hyes, h.agree_links hprints]
    constructor
    · intro hlinks
      exact ⟨fun _ => hlinks, fun hl => absurd hl hlinked, fun hl => absurd hl hlinked,
        fun hl => absurd hl hlinked⟩
    · intro hal
      exact hal.unlinked hlinked

end QualityCI

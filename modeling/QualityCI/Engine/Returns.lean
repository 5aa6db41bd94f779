import QualityCI.Engine.Printable
import QualityCI.Lib.Surrogates
import QualityCI.Loader.ErrorContract
import QualityCI.Loader.OrderFree

/-!
# When a run returns

`run_case` prepares a case and evaluates it without contexts.  Of what the validator accepts, the
planner walks a null list of links, the first rule walks null lists of process steps, the projection
sorts under keys that need not be strings, and the hash prints floats that JSON does not have and
encodes texts that UTF-8 does not have; each of these raises.  A run also prepares the case two
calls deeper than `prepare_case` itself does, where the stack may be too short for the copies.
Nothing else raises.

* `RunResult.postInit`, `runCaseWithin` — the constructor's checks and the run of an untrusted case.
* `RunsThrough` — what the readers of a prepared case ask of it beyond the validator.
* `IsLocal`, `Keeps` — properties of the members of a value, and the replacements that keep them.
* **`canonicalHashIn_returns_iff`** — the hash of an accepted case.
* **`runCase_returns_iff`** — a prepared case is run exactly when it runs through.
-/

namespace QualityCI

open Py

/-! ## The constructor of a run -/

def sourceBound : String := "BOUND_RAW_SOURCE_CASE"
def sourceDerived : String := "SOURCE_ROOTED_DERIVATION"
def sourcePackVersion : String := "qualityci-case-source-pack-0.1"
def sourceSetVersion : String := "qualityci-case-source-set-0.1"
def sourceLineageVersion : String := "qualityci-case-source-lineage-0.1"

instance : DecidablePred IsHexDigit := fun _ => inferInstanceAs (Decidable (_ ∨ _))

/-- The text has the given length and only lowercase hexadecimal digits. -/
def IsHexText (n : ℕ) (text : String) : Prop :=
  text.toList.length = n ∧ ∀ c ∈ text.toList, IsHexDigit c

instance (n : ℕ) (text : String) : Decidable (IsHexText n text) :=
  inferInstanceAs (Decidable (_ ∧ _))

/-- `_lower_hash_or_none`. -/
def lowerHashOrNone (value : Option String) (label : String) : Result Unit :=
  match value with
  | none => .ok ()
  | some text =>
      require (IsHexText 64 text) s!"{label} must be one lowercase SHA-256 value or null"

/-- `_lower_hash`. -/
def lowerHash (value : Option String) (label : String) : Result Unit := do
  lowerHashOrNone value label
  require (value.isSome = true) s!"{label} must be one lowercase SHA-256 value"

/-- The identities of a run's source, state by state. -/
def checkSource (source : CaseSourceAssurance) : Result Unit :=
  if source.state = caseSourceUnbound then
    require (source = { state := caseSourceUnbound })
      "unbound RunResult requires null source identities"
  else if source.state = sourceBound ∨ source.state = sourceDerived then do
    require (source.packContractVersion = some sourcePackVersion ∧
        source.setContractVersion = some sourceSetVersion)
      "source-rooted RunResult has inconsistent versions"
    lowerHash source.setHash "case source set hash"
    lowerHash source.bindingHash "case source binding hash"
    if source.state = sourceBound then
      require (source.lineageContractVersion = none ∧ source.lineageHash = none)
        "bound RunResult cannot claim source lineage"
    else do
      require (source.lineageContractVersion = some sourceLineageVersion ∧
          source.lineageHash.isSome = true)
        "derived RunResult requires exact source lineage"
      lowerHashOrNone source.lineageHash "case source lineage hash"
  else valueError "RunResult source assurance state is unsupported"

/-- The identities of an attested context, or none. -/
def checkAttested (subject state unattested attested version hashLabel : String)
    (hash contractVersion : Option String) : Result Unit :=
  if state = unattested then
    require (hash = none ∧ contractVersion = none)
      s!"unattested {subject} assurance requires null identities"
  else if state = attested then do
    lowerHash hash hashLabel
    require (contractVersion = some version) s!"attested {subject} assurance has an invalid version"
  else valueError s!"RunResult {subject} assurance state is unsupported"

/-- `RunResult.__post_init__`. -/
def RunResult.postInit (run : RunResult) : Result Unit := do
  require (run.runResultContractVersion = QualityCI.runResultContractVersion)
    "RunResult contract version is unsupported"
  require (run.runIdentityVersion = QualityCI.runIdentityVersion)
    "RunResult identity version is unsupported"
  require (IsHexText 16 run.runId)
    "RunResult run_id must be one lowercase v4 identity"
  require (isBlank run.caseId = false) "RunResult case_id must be a non-empty string"
  lowerHash (some run.caseHash) "RunResult case_hash"
  checkSource run.caseSourceAssurance
  checkAttested "reference" run.assurance.referenceState unattestedReferenceAssurance
    attestedReferenceAssurance "qualityci-controlled-reference-0.1" "reference set hash"
    run.assurance.referenceSetHash run.assurance.referenceContractVersion
  checkAttested "validation" run.assurance.validationState validationAssuranceUnattested
    validationAssuranceAttested "qualityci-validation-evidence-0.1" "validation evidence set hash"
    run.assurance.validationEvidenceSetHash run.assurance.validationEvidenceContractVersion
  -- the identity is rebuilt with the ruleset the run names
  let identity := (runIdentity run.caseHash run.caseSourceAssurance run.assurance).set
    "ruleset_version" (.str run.rulesetVersion)
  let digest ← domainDigest "QualityCI/run-identity/v4\x00" (.obj identity)
  require (run.runId = String.ofList (digest.toList.take 16))
    "RunResult run_id differs from its v4 identity"

section Run

variable [PyUnicode]

/-- `run_case(case)`, of a case without lone surrogates, where the stack is no limit. -/
def runCase (case : Dict) : Result RunResult := do
  let run ← evaluateCase case none none
  run.postInit
  .ok run

/-- `canonical_hash(value)`, which encodes the payload. -/
def canonicalHashIn (s : Surrogates) (value : Json) : Result String := do
  let value ← hashedValue value
  let payload ← dumps value
  encodeText s payload
  .ok (sha256Hex payload)

/-- `run_case(case)`, where so many frames of the stack are left: `run_case` and `_evaluate_case`
take a frame each. -/
def runCaseWithin (s : Surrogates) (frames : ℕ) (case : Dict) : Result RunResult := do
  let prepared ← prepareJson (frames - 2) (.obj case)
  let run ← evaluateHashed (canonicalHashIn s) prepared unboundCaseSourceAssurance none none
  run.postInit
  .ok run

/-! ## What the readers ask beyond the validator -/

/-- What the readers of a prepared case ask of it beyond the validator: no list that they walk is
null, no sort key is something else than a string, no float is infinite or no number, and no text
has a lone surrogate. -/
structure RunsThrough (s : Surrogates) (case : Dict) : Prop where
  links : (case.dictAt "event").get? "affected_links" ≠ some .null
  steps : (case.dictAt "event").textsAt "affected_process_steps" ≠ [] →
    ∀ documentType ∈ ["PROCESS_FLOW", "PFMEA", "CONTROL_PLAN"],
      ∀ doc, documentByType case documentType = some doc →
        (doc.dictAt "fields").get? "process_steps" ≠ some .null
  keys : SortKeysAreStrings case
  finite : (Json.obj case).isFinite = true
  encodable : (Json.obj case).encodable s = true

/-! ## The planner and the rules -/

lemma buildImpactPlan_returns_iff {case : Dict} (hcase : AcceptedCase case) :
    (∃ plan, buildImpactPlan case = .ok plan) ↔
      (case.dictAt "event").get? "affected_links" ≠ some .null := by
  simp only [buildImpactPlan, bind_eq_ok, Except.ok.injEq]
  constructor
  · rintro ⟨_, items, hitems, -⟩ hnull
    rw [Dict.getD, hnull] at hitems
    exact absurd hitems typeError_ne_ok
  · intro hno
    rcases hcase.acceptedEvent.links with hnone | ⟨hget, -⟩
    · have habsent := (Dict.present?_eq_none.mp hnone).resolve_right hno
      exact ⟨_, [], by rw [Dict.getD, habsent]; rfl, rfl⟩
    · exact ⟨_, _, by rw [Dict.getD, hget]; rfl, rfl⟩

lemma processStepSet_returns_iff {migrated : Bool} {referenceMigration : Option Json} {doc : Dict}
    (hdoc : AcceptedDocument migrated referenceMigration doc) :
    (∃ steps, processStepSet doc = .ok steps) ↔
      (doc.dictAt "fields").get? "process_steps" ≠ some .null := by
  simp only [processStepSet, bind_eq_ok, Except.ok.injEq]
  constructor
  · rintro ⟨_, items, hitems, -⟩ hnull
    rw [Dict.getD, hnull] at hitems
    exact absurd hitems typeError_ne_ok
  · intro hno
    rcases hdoc.rows.steps with hnone | hscope
    · have habsent := (Dict.present?_eq_none.mp hnone).resolve_right hno
      exact ⟨_, [], by rw [Dict.getD, habsent]; rfl, rfl⟩
    · exact ⟨_, _, by rw [Dict.getD, hscope.texts.1]; rfl, rfl⟩

/-- R001 reads the steps of three documents, when there are affected steps. -/
lemma ruleProcessCoverage_returns_iff {case : Dict} {plan : ImpactPlan} (hcase : AcceptedCase case)
    (hplan : buildImpactPlan case = .ok plan) :
    (∃ f, ruleProcessCoverage case plan = .ok f) ↔
      ((case.dictAt "event").textsAt "affected_process_steps" ≠ [] →
        ∀ documentType ∈ ["PROCESS_FLOW", "PFMEA", "CONTROL_PLAN"],
          ∀ doc, documentByType case documentType = some doc →
            (doc.dictAt "fields").get? "process_steps" ≠ some .null) := by
  obtain ⟨flow, hflow⟩ := documentByType_accepted hcase (show "PROCESS_FLOW" ∈ _ by decide)
  obtain ⟨pfmea, hpfmea⟩ := documentByType_accepted hcase (show "PFMEA" ∈ _ by decide)
  obtain ⟨control, hcontrol⟩ := documentByType_accepted hcase (show "CONTROL_PLAN" ∈ _ by decide)
  have haccepted : ∀ {documentType doc}, documentByType case documentType = some doc → _ :=
    fun h => processStepSet_returns_iff
      (acceptedDocument_of_mem hcase (documentByType_mem h).1)
  have hsteps : plan.affectedProcessSteps = [] ↔
      (case.dictAt "event").textsAt "affected_process_steps" = [] := by
    rw [(buildImpactPlan_scope hcase hplan).1, sortedSet_eq_nil]
  simp only [ruleProcessCoverage, hflow, hpfmea, hcontrol]
  split_ifs with hnil
  · simp [hsteps.mp hnil]
  · have hne := fun h => hnil (hsteps.mpr h)
    simp only [coverSteps, bind_eq_ok, List.mem_cons, List.not_mem_nil, or_false,
      forall_eq_or_imp, forall_eq, hflow, hpfmea, hcontrol, Option.some.injEq, forall_eq',
      ← haccepted hflow, ← haccepted hpfmea, ← haccepted hcontrol]
    constructor
    · rintro ⟨_, a, ha, b, hb, c, hc, -⟩ -
      exact ⟨⟨a, ha⟩, ⟨b, hb⟩, c, hc⟩
    · intro h
      obtain ⟨⟨a, ha⟩, ⟨b, hb⟩, c, hc⟩ := h hne
      exact ⟨_, a, ha, b, hb, c, hc, rfl⟩

lemma reviewRevisions_returns {event : Dict} {approvalDate : CalendarDate} {docs : List Dict}
    (hdates : ∀ doc ∈ docs, ∃ s, doc.get? "revision_date" = some (.str s) ∧
      (parseIsoDate s).isSome = true) (stale : List String) (evidence : List Citation) :
    ∃ f, reviewRevisions event approvalDate docs stale evidence = .ok f := by
  induction docs generalizing stale evidence with
  | nil =>
      unfold reviewRevisions
      split_ifs <;> exact ⟨_, rfl⟩
  | cons doc docs ih =>
      obtain ⟨⟨s, hget, hdate⟩, hrest⟩ := List.forall_mem_cons.mp hdates
      obtain ⟨date, hparse⟩ := Option.isSome_iff_exists.mp hdate
      rw [← Dict.textAt_eq hget, ← fromIsoformat_eq_ok] at hparse
      unfold reviewRevisions
      rw [if_neg (by rw [truthy_of_isIsoDate hget hdate]; decide)]
      simp only [bind_eq_ok, hparse, Except.ok.injEq, exists_eq_left']
      split_ifs
      · cases validRevisionDateWaiver doc event approvalDate with
        | some waiver => exact ih hrest _ _
        | none => exact ih hrest _ _
      · exact ih hrest _ _

/-- R004 reads dates that the validator has read. -/
lemma ruleRevisionAfterApproval_returns {case : Dict} (hcase : AcceptedCase case) :
    ∃ f, ruleRevisionAfterApproval case = .ok f := by
  have hdates : ∀ doc ∈ approvedDocuments case, ∃ s, doc.get? "revision_date" = some (.str s) ∧
      (parseIsoDate s).isSome = true := fun doc hdoc =>
    (acceptedDocument_of_mem hcase (List.mem_filter.mp hdoc).1).date
  simp only [ruleRevisionAfterApproval]
  split_ifs with happroved
  · exact ⟨_, rfl⟩
  · cases hget : (case.dictAt "event").get? "approved_at" with
    | none => exact absurd (by rw [Dict.getD, hget]; rfl) happroved
    | some v =>
        obtain ⟨s, rfl, hs⟩ := hcase.acceptedEvent.approvedAt v hget
        obtain ⟨date, hparse⟩ := Option.isSome_iff_exists.mp hs
        rw [← Dict.textAt_eq hget, ← fromIsoformat_eq_ok] at hparse
        obtain ⟨f, hf⟩ := reviewRevisions_returns hdates [] []
        exact ⟨f, bind_eq_ok.mpr ⟨date, hparse, hf⟩⟩

/-! ## The hash of a case -/

section Keeps

omit [PyUnicode]

/-- A property that a container has when its members have it, and its keys another. -/
structure IsLocal (key : String → Prop) (P : Json → Prop) : Prop where
  arr : ∀ items, P (.arr items) ↔ ∀ x ∈ items, P x
  obj : ∀ d, P (.obj d) ↔ ∀ e ∈ d, key e.1 ∧ P e.2

/-- Finite floats. -/
lemma isLocal_isFinite : IsLocal (fun _ => True) fun v => v.isFinite = true :=
  ⟨fun _ => isFinite_arr, fun _ => by simp [isFinite_obj]⟩

/-- Texts without lone surrogates. -/
lemma isLocal_encodable (s : Surrogates) :
    IsLocal (fun key => s.encodes key = true) fun v => v.encodable s = true :=
  ⟨fun _ => encodable_arr, fun _ => encodable_obj⟩

variable {key : String → Prop} {P : Json → Prop}

lemma IsLocal.iff_get? (hP : IsLocal key P) {d : Dict} (hd : d.Ordered) :
    P (.obj d) ↔ ∀ k v, d.get? k = some v → key k ∧ P v := by
  rw [hP.obj]
  exact ⟨fun h k v hv => h (k, v) (hd.get?_eq_some_iff.mp hv),
    fun h e he => h e.1 e.2 (hd.get?_eq_some_iff.mpr he)⟩

/-- The replacement keeps the order of dictionaries, and whether the property holds. -/
def Keeps (P : Json → Prop) (f : Json → Result Json) : Prop :=
  ∀ v w, v.WF → f v = .ok w → w.WF ∧ (P w ↔ P v)

lemma keeps_update (hP : IsLocal key P) {d e : Dict} {k : String} {f : Json → Result Json}
    (hf : Keeps P f) (hd : (Json.obj d).WF) (h : d.update k f = .ok e) :
    (Json.obj e).WF ∧ (P (.obj e) ↔ P (.obj d)) := by
  unfold Dict.update at h
  cases hget : d.get? k with
  | none =>
      rw [hget] at h
      obtain rfl := Except.ok.inj h
      exact ⟨hd, Iff.rfl⟩
  | some v =>
      rw [hget] at h
      simp only [bind_eq_ok, Except.ok.injEq] at h
      obtain ⟨w, hw, rfl⟩ := h
      obtain ⟨hwf, hkeeps⟩ := hf v w (hd.get? hget) hw
      have hset := hd.set k hwf
      refine ⟨hset, ?_⟩
      rw [hP.iff_get? (Json.wf_obj.mp hset).1, hP.iff_get? (Json.wf_obj.mp hd).1]
      simp only [Dict.get?_set]
      constructor
      · intro h k' u hu
        by_cases hk : k = k'
        · subst hk
          rw [hget, Option.some.injEq] at hu
          obtain ⟨hkey, hw⟩ := h k w (if_pos rfl)
          exact ⟨hkey, hu ▸ hkeeps.mp hw⟩
        · exact h k' u (by rw [if_neg hk, hu])
      · intro h k' u hu
        by_cases hk : k = k'
        · subst hk
          rw [if_pos rfl, Option.some.injEq] at hu
          obtain ⟨hkey, hv⟩ := h k v hget
          exact ⟨hkey, hu ▸ hkeeps.mpr hv⟩
        · rw [if_neg hk] at hu
          exact h k' u hu

lemma keeps_updateAll (hP : IsLocal key P) {blocks : List (String × (Json → Result Json))}
    (hblocks : ∀ b ∈ blocks, Keeps P b.2) {d e : Dict} (hd : (Json.obj d).WF)
    (h : d.updateAll blocks = .ok e) : (Json.obj e).WF ∧ (P (.obj e) ↔ P (.obj d)) := by
  induction blocks generalizing d with
  | nil =>
      obtain rfl := Except.ok.inj h
      exact ⟨hd, Iff.rfl⟩
  | cons b rest ih =>
      obtain ⟨k, f⟩ := b
      obtain ⟨hb, hrest⟩ := List.forall_mem_cons.mp hblocks
      simp only [Dict.updateAll, bind_eq_ok] at h
      obtain ⟨d', hd', h⟩ := h
      obtain ⟨hwf, hsame⟩ := keeps_update hP hb hd hd'
      obtain ⟨hwf', hsame'⟩ := ih hrest hwf h
      exact ⟨hwf', hsame'.trans hsame⟩

lemma keeps_of_perm (hP : IsLocal key P) {xs ys : List Json} (hperm : xs.Perm ys)
    (hwf : (Json.arr xs).WF) : (Json.arr ys).WF ∧ (P (.arr ys) ↔ P (.arr xs)) := by
  simp only [Json.wf_arr, hP.arr, ← hperm.mem_iff, and_true] at hwf ⊢
  exact hwf

lemma keeps_sortRows (hP : IsLocal key P) (rowKey : Dict → Result (List String)) :
    Keeps P (sortRows rowKey) := by
  intro v w hwf h
  unfold sortRows at h
  split at h
  · rename_i items
    split at h
    · rename_i rows hrows
      obtain rfl := dictsOf_eq_some.mp hrows
      simp only [bind_eq_ok, sortDicts_eq_ok, Except.ok.injEq] at h
      obtain ⟨_, ⟨-, rfl⟩, rfl⟩ := h
      exact keeps_of_perm hP ((KeySort.sortBy_perm rows).symm.map _) hwf
    · obtain rfl := Except.ok.inj h
      exact ⟨hwf, Iff.rfl⟩
  · obtain rfl := Except.ok.inj h
    exact ⟨hwf, Iff.rfl⟩

lemma keeps_projectDict (hP : IsLocal key P) {blocks : List (String × (Json → Result Json))}
    (hblocks : ∀ b ∈ blocks, Keeps P b.2) : Keeps P (projectDict blocks) := by
  intro v w hwf h
  unfold projectDict at h
  split at h
  · simp only [bind_eq_ok, Except.ok.injEq] at h
    obtain ⟨d', hd', rfl⟩ := h
    exact keeps_updateAll hP hblocks hwf hd'
  · obtain rfl := Except.ok.inj h
    exact ⟨hwf, Iff.rfl⟩

end Keeps

variable {key : String → Prop} {P : Json → Prop}

lemma keeps_sortIdentities (hP : IsLocal key P) : Keeps P sortIdentities := by
  intro v w hwf h
  unfold sortIdentities at h
  split at h
  · rename_i items
    split_ifs at h with hall
    · obtain rfl := Except.ok.inj h
      have hperm : items.Perm
          ((KeySort.sortBy normalizedIdentity (items.filterMap Json.str?)).map Json.str) := by
        conv_lhs => rw [← Json.map_str?_of_all hall]
        exact (KeySort.sortBy_perm _).symm.map _
      exact keeps_of_perm hP hperm hwf
    · obtain rfl := Except.ok.inj h
      exact ⟨hwf, Iff.rfl⟩
  · obtain rfl := Except.ok.inj h
    exact ⟨hwf, Iff.rfl⟩

lemma keeps_projectDocuments (hP : IsLocal key P) : Keeps P projectDocuments := by
  have hfields : Keeps P (projectDict documentBlocks) := keeps_projectDict hP <| by
    simp only [documentBlocks, List.mem_singleton, forall_eq]
    refine keeps_projectDict hP ?_
    simp only [fieldsBlocks, List.mem_cons, List.not_mem_nil, or_false, forall_eq_or_imp, forall_eq]
    exact ⟨keeps_sortIdentities hP, keeps_sortRows hP _, keeps_sortRows hP _⟩
  intro v w hwf h
  unfold projectDocuments at h
  split at h
  · rename_i items
    split at h
    · rename_i rows hrows
      obtain rfl := dictsOf_eq_some.mp hrows
      simp only [bind_eq_ok, sortDicts_eq_ok, Except.ok.injEq] at h
      obtain ⟨_, ⟨-, rfl⟩, projected, hprojected, rfl⟩ := h
      have hperm : (rows.map Json.obj).Perm
          ((KeySort.sortBy (keyOr documentKey) rows).map Json.obj) :=
        (KeySort.sortBy_perm rows).symm.map _
      obtain ⟨hsorted, hsame⟩ := keeps_of_perm hP hperm hwf
      generalize KeySort.sortBy (keyOr documentKey) rows = sorted at *
      rw [← hsame]
      rw [mapEach_eq_ok] at hprojected
      simp only [Json.wf_arr, hP.arr] at hsorted ⊢
      clear hperm hsame hwf
      induction hprojected with
      | nil => simp
      | @cons d p ds ps hd _ ih =>
          rw [List.map_cons, List.forall_mem_cons] at hsorted
          obtain ⟨hwfp, hsamep⟩ := hfields _ _ hsorted.1 hd
          obtain ⟨hwfs, hsames⟩ := ih hsorted.2
          simp only [List.map_cons, List.forall_mem_cons]
          exact ⟨⟨hwfp, hwfs⟩, and_congr hsamep hsames⟩
    · obtain rfl := Except.ok.inj h
      exact ⟨hwf, Iff.rfl⟩
  · obtain rfl := Except.ok.inj h
    exact ⟨hwf, Iff.rfl⟩

lemma keeps_event (hP : IsLocal key P) : Keeps P (projectDict eventBlocks) := by
  refine keeps_projectDict hP ?_
  simp only [eventBlocks, List.mem_cons, List.not_mem_nil, or_false, forall_eq_or_imp, forall_eq]
  refine ⟨keeps_sortIdentities hP, keeps_sortIdentities hP, keeps_sortRows hP _,
    keeps_sortRows hP _, keeps_sortRows hP _, keeps_projectDict hP ?_⟩
  simp only [planBlocks, List.mem_singleton, forall_eq]
  exact keeps_sortRows hP _

lemma keeps_caseBlocks (hP : IsLocal key P) : ∀ b ∈ caseBlocks, Keeps P b.2 := by
  simp only [caseBlocks, List.mem_cons, List.not_mem_nil, or_false, forall_eq_or_imp, forall_eq]
  exact ⟨keeps_event hP, keeps_projectDocuments hP⟩

/-- The projection has the members of the case, in another order. -/
lemma keeps_canonicalCaseProjection (hP : IsLocal key P) {case projection : Dict}
    (hwf : (Json.obj case).WF) (h : canonicalCaseProjection case = .ok projection) :
    P (.obj projection) ↔ P (.obj case) :=
  (keeps_updateAll hP (keeps_caseBlocks hP) hwf h).2

lemma tiesKeepOrder_refl {case : Dict} (hcase : AcceptedCase case) : TiesKeepOrder case case := by
  refine ⟨fun _ => rfl, fun x hx y hy hid => ?_⟩
  obtain rfl := List.inj_on_of_nodup_map hcase.documents.2.distinct hx hy hid
  exact fun _ => rfl

lemma canonicalCaseProjection_returns_iff {case : Dict} (hwf : (Json.obj case).WF)
    (hcase : AcceptedCase case) :
    (∃ projection, canonicalCaseProjection case = .ok projection) ↔ SortKeysAreStrings case := by
  have hagree := agree_projection_iff hwf hwf hcase hcase
  have hself : Agree canonicalCaseProjection case case ↔
      ∃ projection, canonicalCaseProjection case = .ok projection := by simp [Agree]
  rw [← hself, hagree]
  have hreordered : Reordered case case := fun key => by
    cases case.get? key with
    | none => exact Option.Rel.none
    | some v => exact Option.Rel.some (caseReorderings_refl key v)
  simp [hreordered, tiesKeepOrder_refl hcase]

/-- **The hash of an accepted case** is there when its sort keys are strings and its floats are
finite. -/
theorem canonicalHash_returns_iff {case : Dict} (hwf : (Json.obj case).WF)
    (hvalid : validateCaseDict case = .ok ()) :
    (∃ hash, canonicalHash (.obj case) = .ok hash) ↔
      SortKeysAreStrings case ∧ (Json.obj case).isFinite = true := by
  rw [← canonicalCaseProjection_returns_iff hwf (validateCase_accepted hvalid)]
  simp only [canonicalHash, hashedValue_of_accepted hvalid, bind_eq_ok, dumps_eq_ok,
    Except.ok.injEq]
  constructor
  · rintro ⟨_, value, hvalue, _, ⟨hfinite, -⟩, -⟩
    cases hp : canonicalCaseProjection case with
    | error e =>
        rw [hp] at hvalue
        cases hvalue
    | ok projection =>
        rw [hp] at hvalue
        obtain rfl := Except.ok.inj hvalue
        exact ⟨⟨_, rfl⟩, (keeps_canonicalCaseProjection isLocal_isFinite hwf hp).mp hfinite⟩
  · rintro ⟨⟨projection, hp⟩, hfinite⟩
    exact ⟨_, .obj projection, by rw [hp]; rfl, _,
      ⟨(keeps_canonicalCaseProjection isLocal_isFinite hwf hp).mpr hfinite, rfl⟩, rfl⟩

/-- What is encoded has the hash. -/
lemma canonicalHashIn_eq_ok {s : Surrogates} {value : Json} {hash : String} :
    canonicalHashIn s value = .ok hash ↔ canonicalHash value = .ok hash ∧
      ∀ hashed, hashedValue value = .ok hashed → hashed.encodable s = true := by
  simp only [canonicalHashIn, canonicalHash, bind_eq_ok, exists_unit, encodeText_eq_ok,
    dumps_eq_ok, Except.ok.injEq]
  constructor
  · rintro ⟨hashed, hhashed, _, ⟨hfinite, rfl⟩, hencodes, rfl⟩
    refine ⟨⟨hashed, hhashed, _, ⟨hfinite, rfl⟩, rfl⟩, fun other hother => ?_⟩
    obtain rfl := Except.ok.inj (hhashed.symm.trans hother)
    exact (encodes_jsonText _).mp hencodes
  · rintro ⟨⟨hashed, hhashed, _, ⟨hfinite, rfl⟩, rfl⟩, hencodable⟩
    exact ⟨hashed, hhashed, _, ⟨hfinite, rfl⟩, (encodes_jsonText _).mpr
      (hencodable hashed hhashed), rfl⟩

/-- **The hash of an accepted case** is encoded when the case has no lone surrogate. -/
theorem canonicalHashIn_returns_iff {s : Surrogates} {case : Dict} (hwf : (Json.obj case).WF)
    (hvalid : validateCaseDict case = .ok ()) :
    (∃ hash, canonicalHashIn s (.obj case) = .ok hash) ↔
      SortKeysAreStrings case ∧ (Json.obj case).isFinite = true ∧
        (Json.obj case).encodable s = true := by
  simp only [canonicalHashIn_eq_ok, exists_and_right, canonicalHash_returns_iff hwf hvalid,
    and_assoc]
  refine and_congr_right fun hkeys => and_congr_right fun _ => ?_
  obtain ⟨projection, hp⟩ :=
    (canonicalCaseProjection_returns_iff hwf (validateCase_accepted hvalid)).mpr hkeys
  rw [hashedValue_of_accepted hvalid, hp,
    ← keeps_canonicalCaseProjection (isLocal_encodable s) hwf hp]
  exact ⟨fun h => h _ rfl, fun h hashed hhashed => Except.ok.inj hhashed ▸ h⟩

/-! ## The run -/

section Named

omit [PyUnicode]

lemma runIdentity_set (caseHash : String) (source : CaseSourceAssurance)
    (states : AssuranceStates) :
    (runIdentity caseHash source states).set "ruleset_version" (.str rulesetVersion) =
      runIdentity caseHash source states := by
  have hoption : ∀ text, (optionJson text).WF := by
    intro text
    cases text <;> simp [optionJson, Json.WF]
  have hordered : (runIdentity caseHash source states).Ordered :=
    (Json.wf_obj.mp (Json.wf_ofList (by simp [hoption]))).1
  refine Dict.ext (hordered.set _ _) hordered fun key => ?_
  rw [Dict.get?_set]
  split_ifs with hkey
  · subst hkey
    simp [runIdentity, Dict.ofList]
  · rfl

lemma finite_runIdentity (caseHash : String) (source : CaseSourceAssurance)
    (states : AssuranceStates) :
    (Json.obj (runIdentity caseHash source states)).isFinite = true := by
  have hoption : ∀ text, (optionJson text).isFinite = true := by
    intro text
    cases text <;> rfl
  exact isFinite_ofList (by simp [hoption, Json.isFinite])

/-- A run always has a name, of sixteen digits. -/
lemma runIdForCurrentIdentity_returns (caseHash : String) (source : CaseSourceAssurance)
    (states : AssuranceStates) :
    ∃ digest, domainDigest "QualityCI/run-identity/v4\x00"
        (.obj (runIdentity caseHash source states)) = .ok digest ∧
      runIdForCurrentIdentity caseHash source states =
        .ok (String.ofList (digest.toList.take 16)) ∧
      IsHexText 16 (String.ofList (digest.toList.take 16)) := by
  have hdumps := dumps_eq_ok.mpr ⟨finite_runIdentity caseHash source states, rfl⟩
  have hdigest : domainDigest "QualityCI/run-identity/v4\x00"
      (.obj (runIdentity caseHash source states)) = .ok _ := bind_eq_ok.mpr ⟨_, hdumps, rfl⟩
  refine ⟨_, hdigest, bind_eq_ok.mpr ⟨_, hdigest, rfl⟩, ?_⟩
  obtain ⟨hlength, hhex⟩ := sha256Hex_chars ("QualityCI/run-identity/v4\x00" ++
    String.ofList (jsonText (.obj (runIdentity caseHash source states))))
  rw [IsHexText, String.toList_ofList, List.length_take, hlength]
  exact ⟨by omega, fun c hc => hhex c (List.mem_of_mem_take hc)⟩

end Named

/-- What an evaluation without contexts returns passes the constructor's checks. -/
lemma postInit_of_evaluateHashed {hash : Json → Result String} {case : Dict} {run : RunResult}
    (hcase : AcceptedCase case) (hhex : ∀ digest, hash (.obj case) = .ok digest → IsHexText 64 digest)
    (h : evaluateHashed hash case unboundCaseSourceAssurance none none = .ok run) :
    run.postInit = .ok () := by
  obtain ⟨plan, -, f, printed, -, caseHash, hhash, runId, hrunId, rfl⟩ :=
    evaluateHashed_eq_ok.mp h
  obtain ⟨digest, hdigest, hname, hhex'⟩ := runIdForCurrentIdentity_returns caseHash
    unboundCaseSourceAssurance (assuranceOf none none)
  obtain rfl : runId = String.ofList (digest.toList.take 16) :=
    Except.ok.inj (hrunId.symm.trans hname)
  have hid := (hasText_iff_textAt.mp hcase.caseId)
  simp only [RunResult.postInit, bind_eq_ok, exists_unit, require_eq_ok, lowerHash,
    lowerHashOrNone, runIdentity_set, hdigest, Except.ok.injEq, exists_eq_left']
  exact ⟨trivial, trivial, hhex', hid, ⟨hhex caseHash hhash, rfl⟩, rfl, rfl, rfl, trivial⟩

lemma isHexText_canonicalHash {value : Json} {hash : String} (h : canonicalHash value = .ok hash) :
    IsHexText 64 hash := by
  simp only [canonicalHash, bind_eq_ok, Except.ok.injEq] at h
  obtain ⟨_, -, payload, -, rfl⟩ := h
  exact sha256Hex_chars payload

lemma postInit_of_evaluate {case : Dict} {run : RunResult} (hcase : AcceptedCase case)
    (h : evaluatePrepared case unboundCaseSourceAssurance none none = .ok run) :
    run.postInit = .ok () :=
  postInit_of_evaluateHashed hcase (fun _ => isHexText_canonicalHash) h

/-- **When an untrusted case is run**: of the cases that are prepared, those that run through and
whose copies fit the stack two calls deeper. -/
theorem runCase_returns_iff (s : Surrogates) {frames : ℕ} {case prepared : Dict}
    (hwf : (Json.obj case).WF) (h : prepareJson frames (.obj case) = .ok prepared) :
    (∃ run, runCaseWithin s frames case = .ok run) ↔
      RunsThrough s prepared ∧ FitsStack (frames - 2) case := by
  obtain ⟨-, hprepared⟩ := prepareJson_eq_ok.mp h
  have hcase := prepareCase_accepted hprepared
  have hhash := canonicalHashIn_returns_iff (s := s) (prepareCase_wf hwf hprepared)
    (prepareCase_eq_ok.mp hprepared).2
  have hrun : (∃ run, runCaseWithin s frames case = .ok run) ↔
      (∃ run, evaluateHashed (canonicalHashIn s) prepared unboundCaseSourceAssurance none none =
        .ok run) ∧ FitsStack (frames - 2) case := by
    simp only [runCaseWithin, bind_eq_ok, exists_unit, prepareJson_eq_ok, hprepared, Except.ok.injEq,
      and_assoc, exists_and_left, exists_eq_left']
    constructor
    · rintro ⟨hfits, _, run, hrun, -⟩
      exact ⟨⟨run, hrun⟩, hfits⟩
    · rintro ⟨⟨run, hrun⟩, hfits⟩
      exact ⟨hfits, run, run, hrun, postInit_of_evaluateHashed hcase
        (fun _ hdigest => isHexText_canonicalHash (canonicalHashIn_eq_ok.mp hdigest).1) hrun, rfl⟩
  rw [hrun]
  refine and_congr_left fun _ => ?_
  simp only [evaluateHashed_eq_ok]
  constructor
  · rintro ⟨_, plan, hplan, f, _, -, caseHash, hcaseHash, -⟩
    obtain ⟨hkeys, hfinite, hencodable⟩ := hhash.mp ⟨caseHash, hcaseHash⟩
    exact ⟨(buildImpactPlan_returns_iff hcase).mp ⟨plan, hplan⟩,
      (ruleProcessCoverage_returns_iff hcase hplan).mp ⟨f.coverage, f.coverage_eq⟩, hkeys, hfinite,
      hencodable⟩
  · rintro ⟨hlinks, hsteps, hkeys, hfinite, hencodable⟩
    obtain ⟨plan, hplan⟩ := (buildImpactPlan_returns_iff hcase).mpr hlinks
    obtain ⟨coverage, hcoverage⟩ := (ruleProcessCoverage_returns_iff hcase hplan).mpr hsteps
    obtain ⟨revision, hrevision⟩ := ruleRevisionAfterApproval_returns hcase
    obtain ⟨evidence, hevidence, -⟩ := ruleValidationEvidence_none prepared
    obtain ⟨caseHash, hcaseHash⟩ := hhash.mpr ⟨hkeys, hfinite, hencodable⟩
    let f : RuleFindings prepared plan none none :=
      ⟨coverage, revision, evidence, hcoverage, hrevision, hevidence⟩
    obtain ⟨printed, hprinted⟩ := mapEach_succeeds fun g hg =>
      Finding.print_of_finite (f.finite hfinite g hg)
    obtain ⟨_, -, hname, -⟩ := runIdForCurrentIdentity_returns caseHash unboundCaseSourceAssurance
      (assuranceOf none none)
    exact ⟨_, plan, hplan, f, printed, hprinted, caseHash, hcaseHash, _, hname, rfl⟩

end Run

section Ascii

attribute [local instance] asciiUnicode

/-- The last private characters stand for the lone surrogates. -/
def lastPrivate : Surrogates where
  lone c := 0x10F800 ≤ c.toNat
  wide c h := by
    have hle : 0x10F800 ≤ c.toNat := of_decide_eq_true h
    omega

/-- The small case with a title. -/
def titledCase (title : String) : Dict :=
  (sampleCase (sampleEvent "LOW" [] []) sampleDocuments).set "title" (.str title)

/-- A title with a lone surrogate. -/
def brokenTitle : String := String.singleton (Char.ofNat 0x10F800)

/-- Both titles are accepted, and only one is encoded. -/
lemma titledCase_accepted : (∀ title ∈ ["torque", brokenTitle],
      (Json.obj (titledCase title)).WF ∧ validateCaseDict (titledCase title) = .ok () ∧
        copyFrames (.obj (titledCase title)) ≤ 996) ∧
    (((titledCase "torque").dictAt "event").get? "affected_links" ≠ some .null ∧
      (∀ documentType ∈ ["PROCESS_FLOW", "PFMEA", "CONTROL_PLAN"],
        (documentByType (titledCase "torque") documentType).all (fun doc =>
          decide ((doc.dictAt "fields").get? "process_steps" ≠ some .null)) = true) ∧
      (canonicalCaseProjection (titledCase "torque")).toOption.isSome = true ∧
      (Json.obj (titledCase "torque")).isFinite = true ∧
      (Json.obj (titledCase "torque")).encodable lastPrivate = true) ∧
    (Json.obj (titledCase brokenTitle)).encodable lastPrivate = false := by
  decide +kernel

lemma titledCase_runs : RunsThrough lastPrivate (titledCase "torque") := by
  obtain ⟨haccepted, ⟨hlinks, hsteps, hprojection, hfinite, hencodable⟩, -⟩ := titledCase_accepted
  obtain ⟨hwf, hvalid, -⟩ := haccepted "torque" List.mem_cons_self
  have hkeys := (canonicalCaseProjection_returns_iff hwf (validateCase_accepted hvalid)).mp
    (exists_ok_of_isSome hprojection)
  refine ⟨hlinks, fun _ documentType htype doc hdoc => ?_, hkeys, hfinite, hencodable⟩
  exact of_decide_eq_true ((Option.all_eq_true _ _).mp (hsteps documentType htype) doc hdoc)

/-- **A title with a lone surrogate** keeps a case from being run. -/
theorem runCase_returns_titled :
    (∃ run, runCaseWithin lastPrivate 1000 (titledCase "torque") = .ok run) ∧
      ∀ run, runCaseWithin lastPrivate 1000 (titledCase brokenTitle) ≠ .ok run := by
  obtain ⟨haccepted, -, hbroken⟩ := titledCase_accepted
  constructor
  · obtain ⟨hwf, hvalid, hcopy⟩ := haccepted "torque" List.mem_cons_self
    have hprepared := prepareJson_current hvalid (show _ ≤ 1000 - 2 by omega)
    exact (runCase_returns_iff lastPrivate hwf hprepared).mpr
      ⟨titledCase_runs, fitsStack_current hvalid hcopy⟩
  · obtain ⟨hwf, hvalid, hcopy⟩ := haccepted brokenTitle (List.mem_cons_of_mem _ List.mem_cons_self)
    have hprepared := prepareJson_current hvalid (show _ ≤ 1000 - 2 by omega)
    intro run hrun
    obtain ⟨hruns, -⟩ := (runCase_returns_iff lastPrivate hwf hprepared).mp ⟨run, hrun⟩
    exact absurd hruns.encodable (by simp [hbroken])

/-- The small case with its list of links null. -/
def unlinkedCase : Dict :=
  sampleCase (sampleEvent "LOW" [] [("affected_links", .null)]) sampleDocuments

/-- **A null list of links** is accepted and not run. -/
theorem unlinkedCase_raises : ∃ case, prepareJson 1000 (.obj case) = .ok case ∧
    ∀ run, runCaseWithin lastPrivate 1000 case ≠ .ok run := by
  have hcase : validateCaseDict unlinkedCase = .ok () ∧
      copyFrames (.obj unlinkedCase) ≤ 998 ∧
      (unlinkedCase.dictAt "event").get? "affected_links" = some .null := by
    decide +kernel
  obtain ⟨hvalid, hcopy, hnull⟩ := hcase
  refine ⟨unlinkedCase, prepareJson_current hvalid hcopy, fun run hrun => ?_⟩
  simp only [runCaseWithin, bind_eq_ok, prepareJson_eq_ok, prepareCase_current hvalid,
    Except.ok.injEq, evaluateHashed_eq_ok] at hrun
  obtain ⟨_, ⟨-, rfl⟩, _, ⟨plan, hplan, -⟩, -⟩ := hrun
  exact (buildImpactPlan_returns_iff (validateCase_accepted hvalid)).mp ⟨plan, hplan⟩ hnull

end Ascii

end QualityCI

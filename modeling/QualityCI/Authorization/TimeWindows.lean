import QualityCI.Authorization.Assertions
import QualityCI.Engine.Release
import QualityCI.Lib.ExactTime
import QualityCI.Rules.Contexts

/-!
# Time windows

A report counts for the time its requirement allows, and an assertion for the time its record
allows.  Both windows are chains of timestamps, compared as `datetime`s, which keep six digits of a
fraction of a second; the grammar of timestamps allows any number.

* `ExactlyInOrder` — a chain of moments, each read to its last digit.
* `InOrderToMicros`, `TiesInOrder` — the chain that is checked, and what is asked beyond it.
* `WellShaped` — the checks of an assertion but for its window.
* **`exactlyInOrder_iff`** — the exact chain is the one checked, with the ties in order.
* `timeWindows_exact_iff` — when the two gates decide by the exact order.
-/

namespace QualityCI

open Py

/-- The texts name moments, each at or before the next. -/
def ExactlyInOrder (texts : List String) : Prop := texts.IsChain ExactlyBefore

/-- The same as far as microseconds go. -/
def InOrderToMicros (texts : List String) : Prop :=
  texts.IsChain fun s s' => timeOf s ≤ timeOf s'

/-- Where the texts are in order to the microsecond, neighbours in the same microsecond have the
digits that follow in order. -/
def TiesInOrder (texts : List String) : Prop :=
  InOrderToMicros texts →
    texts.IsChain fun s s' => timeOf s = timeOf s' → beyondMicros s ≤ beyondMicros s'

/-- **The exact order of moments**, by what is compared and what is not. -/
lemma exactlyInOrder_iff {texts : List String}
    (h : ∀ s ∈ texts, (parseTimestamp s).isSome = true) :
    ExactlyInOrder texts ↔ InOrderToMicros texts ∧
      texts.IsChain fun s s' => timeOf s = timeOf s' → beyondMicros s ≤ beyondMicros s' := by
  have hpair : ∀ s ∈ texts, ∀ s' ∈ texts, ExactlyBefore s s' ↔ timeOf s ≤ timeOf s' ∧
      (timeOf s = timeOf s' → beyondMicros s ≤ beyondMicros s') := by
    intro s hs s' hs'
    obtain ⟨t, ht⟩ := Option.isSome_iff_exists.mp (h s hs)
    obtain ⟨t', ht'⟩ := Option.isSome_iff_exists.mp (h s' hs')
    simpa [timeOf, ht, ht'] using exactTime_le_iff ht ht'
  unfold ExactlyInOrder InOrderToMicros
  clear h
  induction texts with
  | nil => simp
  | cons s rest ih =>
      have hrest := ih fun a ha b hb =>
        hpair a (List.mem_cons_of_mem s ha) b (List.mem_cons_of_mem s hb)
      cases rest with
      | nil => simp
      | cons s' rest =>
          simp only [List.isChain_cons_cons, hrest, hpair s (by simp) s' (by simp)]
          tauto

/-- A gate that checks the chain to the microsecond decides by the exact order exactly when the
ties are in order. -/
lemma decides_exactly_iff {texts : List String} {accepts : Prop}
    (h : ∀ s ∈ texts, (parseTimestamp s).isSome = true)
    (haccepts : accepts ↔ InOrderToMicros texts) :
    (accepts ↔ ExactlyInOrder texts) ↔ TiesInOrder texts := by
  rw [haccepts, exactlyInOrder_iff h, TiesInOrder]
  tauto

/-! ## The two gates -/

/-- The times that decide over a report, in the order of its window. -/
def reportTimes (requirement : Dict) (report : ValidationReport) : List String :=
  [requirement.textAt "valid_from", report.performedAt, report.issuedAt,
    requirement.textAt "valid_until"]

/-- The times that decide over an assertion. -/
def assertionTimes (assertion : Dict) : List String :=
  [assertion.textAt "effective_from", assertion.textAt "issued_at", assertion.textAt "expires_at"]

/-- An assertion that passes every check but that of its window. -/
structure WellShaped (assertion : Dict) : Prop where
  wf : (Json.obj assertion).WF
  keys : HasExactKeys assertion approvalAssertionKeys
  texts : ∀ key ∈ approvalAssertionKeys,
    nonemptyField assertion "approval assertion" key = .ok ()
  version : assertion.textAt "assertion_contract_version" = approvalAssertionContractVersion
  decision : assertion.textAt "decision" = "APPROVED"
  role : assertion.textAt "role_claim" ∈ approvalRequiredRoleClaims
  subjectHash : shaField assertion "approval_subject_hash" "approval assertion subject hash" =
    .ok ()
  recordHash : shaField assertion "authorization_record_hash"
    "approval assertion authorization record hash" = .ok ()
  moments : ∀ s ∈ assertionTimes assertion, (parseTimestamp s).isSome = true

lemma WellShaped.get? {assertion : Dict} (h : WellShaped assertion) {key : String}
    (hkey : key ∈ approvalAssertionKeys) :
    assertion.get? key = some (.str (assertion.textAt key)) := by
  have htext := h.texts key hkey
  simp only [nonemptyField, bind_eq_ok, Dict.getItem_eq_ok, exactNonempty_eq_ok] at htext
  obtain ⟨value, hvalue, s, ⟨rfl, -⟩, -⟩ := htext
  rw [hvalue, Dict.textAt_eq hvalue]

lemma WellShaped.finite {assertion : Dict} (h : WellShaped assertion) :
    (Json.obj assertion).isFinite = true := by
  rw [isFinite_obj]
  intro e he
  have hvalue := ((Json.wf_obj.mp h.wf).1.get?_eq_some_iff).mpr he
  rw [h.get? (h.keys.1 e.1 (List.mem_map_of_mem (f := Prod.fst) he))] at hvalue
  rw [← Option.some.inj hvalue]
  rfl

/-- What is left to check of a well-shaped assertion is its window, to the microsecond. -/
lemma validateApprovalAssertionShape_iff {assertion : Dict} (h : WellShaped assertion) :
    (∃ value, validateApprovalAssertionShape (.obj assertion) = .ok value) ↔
      InOrderToMicros (assertionTimes assertion) := by
  have hfrom := h.get? (show "effective_from" ∈ approvalAssertionKeys by decide)
  have hissued := h.get? (show "issued_at" ∈ approvalAssertionKeys by decide)
  have huntil := h.get? (show "expires_at" ∈ approvalAssertionKeys by decide)
  have hparse : ∀ s ∈ assertionTimes assertion, ∀ label, parseRfc3339Utc (.str s) label =
      .ok (timeOf s) := by
    intro s hs label
    obtain ⟨t, ht⟩ := Option.isSome_iff_exists.mp (h.moments s hs)
    simp [parseRfc3339Utc, timeOf, ht]
  simp only [validateApprovalAssertionShape, bind_eq_ok, exists_unit, require_eq_ok, forEach_eq_ok,
    Dict.getItem_eq_ok, canonicalCopy_eq_ok h.wf, hfrom, hissued, huntil, Option.some.injEq,
    exists_eq_left', hparse _ (show assertion.textAt "effective_from" ∈ _ by simp [assertionTimes]),
    hparse _ (show assertion.textAt "issued_at" ∈ _ by simp [assertionTimes]),
    hparse _ (show assertion.textAt "expires_at" ∈ _ by simp [assertionTimes]), Except.ok.injEq,
    InOrderToMicros, assertionTimes, List.isChain_cons_cons, List.isChain_singleton, and_true]
  constructor
  · rintro ⟨value, -, -, -, -, -, -, -, hwindow, -⟩
    exact hwindow
  · intro hwindow
    exact ⟨_, h.keys, h.texts, h.version, h.decision, h.role, h.subjectHash, h.recordHash, hwindow,
      _, ⟨h.finite, rfl⟩, rfl⟩

section Reports

variable [PyUnicode]

/-- A report compared without raising has the code of its window exactly when its times are not in
order to the microsecond. -/
lemma windowMismatch_iff {case event requirement : Dict} {context : ValidationContext}
    {report : ValidationReport} {codes : List String}
    (h : reportMismatches case event requirement context report = .ok codes) :
    (∀ s ∈ reportTimes requirement report, (parseTimestamp s).isSome = true) ∧
      ("VALIDATION_TIME_WINDOW_MISMATCH" ∉ codes ↔
        InOrderToMicros (reportTimes requirement report)) := by
  have hother : "VALIDATION_TIME_WINDOW_MISMATCH" ∉
      ((reportComparisons case event requirement context report).filter
        fun c => !c.2).map Prod.fst := by
    intro hmem
    obtain ⟨c, hc, hcode⟩ := List.mem_map.mp hmem
    have hin := List.mem_map_of_mem (f := Prod.fst) (List.mem_filter.mp hc).1
    rw [hcode] at hin
    simp [reportComparisons] at hin
  simp only [reportMismatches, bind_eq_ok, fromTimestamp_eq_ok] at h
  obtain ⟨_, ⟨performed, hp, rfl⟩, _, ⟨issued, hi, rfl⟩, _, ⟨start, hs, rfl⟩, _,
    ⟨stop, hu, rfl⟩, h⟩ := h
  refine ⟨by simp [reportTimes, hp, hi, hs, hu], ?_⟩
  have hchain : InOrderToMicros (reportTimes requirement report) ↔
      instantOrder start ≤ instantOrder performed ∧ instantOrder performed ≤ instantOrder issued ∧
        instantOrder issued ≤ instantOrder stop := by
    simp [InOrderToMicros, reportTimes, timeOf, hp, hi, hs, hu]
  rw [hchain]
  split_ifs at h with hin
  · obtain rfl := Except.ok.inj h
    simp [hin, hother]
  · obtain rfl := Except.ok.inj h
    simp [hin]

/-- **When the gates decide by the exact order.**  A report's window is accepted, and a well-shaped
assertion is, exactly where its times are in order to the last digit, if and only if times in the
same microsecond have the digits that follow in order wherever the gate accepts. -/
theorem timeWindows_exact_iff {case event requirement assertion : Dict}
    {context : ValidationContext} {report : ValidationReport} {codes : List String}
    (hreport : reportMismatches case event requirement context report = .ok codes)
    (hassertion : WellShaped assertion) :
    (("VALIDATION_TIME_WINDOW_MISMATCH" ∉ codes ↔
        ExactlyInOrder (reportTimes requirement report)) ↔
      TiesInOrder (reportTimes requirement report)) ∧
    (((∃ value, validateApprovalAssertionShape (.obj assertion) = .ok value) ↔
        ExactlyInOrder (assertionTimes assertion)) ↔
      TiesInOrder (assertionTimes assertion)) := by
  obtain ⟨hmoments, hwindow⟩ := windowMismatch_iff hreport
  exact ⟨decides_exactly_iff hmoments hwindow,
    decides_exactly_iff hassertion.moments (validateApprovalAssertionShape_iff hassertion)⟩

end Reports

/-! ## A window that closes within a microsecond -/

section Ascii

attribute [local instance] asciiUnicode

/-- An event, and a case of one schema. -/
def windowEvent : Dict := Dict.ofList [("event_id", .str "EV-1"), ("revision", .str "2")]
def windowCase : Dict := Dict.ofList [("schema_version", .str "qualityci-case-0.4")]

/-- What is required up to a moment. -/
def requiredUntil (moment : String) : Dict := Dict.ofList
  [("evidence_type", .str "TRIAL"), ("claim", .str "torque holds"), ("issuer_id", .str "LAB"),
   ("issuer_role", .str "QUALITY"), ("valid_from", .str "2026-01-01T00:00:00Z"),
   ("valid_until", .str moment)]

/-- The report, issued at a moment. -/
def reportIssuedAt (moment : String) : ValidationReport :=
  { sampleReport with issuedAt := moment }

/-- An assertion issued at one moment, under a record that expires at another. -/
def assertionIssuedAt (moment expires : String) : Dict := Dict.ofList
  [("assertion_contract_version", .str approvalAssertionContractVersion),
   ("approval_id", .str "APP-1"), ("approval_subject_hash", .str controlHash),
   ("decision", .str "APPROVED"), ("approver_id_claim", .str "OWNER"),
   ("role_claim", .str "QUALITY_MANAGER"), ("authorization_record_id", .str "REC-1"),
   ("authorization_record_hash", .str controlHash), ("issued_at", .str moment),
   ("effective_from", .str "2026-01-01T00:00:00Z"), ("expires_at", .str expires)]

lemma assertionIssuedAt_wellShaped : WellShaped
    (assertionIssuedAt "2026-02-02T00:00:00.0000009Z" "2026-02-02T00:00:00.0000001Z") :=
  ⟨Json.wf_ofList (by simp), by decide +kernel, by decide +kernel, by decide +kernel,
    by decide +kernel, by decide +kernel, by decide +kernel, by decide +kernel, by decide +kernel⟩

lemma reportIssuedAt_accepted : reportMismatches windowCase windowEvent
    (requiredUntil "2026-02-02T00:00:00.0000001Z") sampleValidationContext
    (reportIssuedAt "2026-02-02T00:00:00.0000009Z") = .ok [] := by decide +kernel

/-- The two times of the samples: one microsecond, and the wrong order in it. -/
lemma truncated_times :
    timeOf "2026-02-02T00:00:00.0000009Z" = timeOf "2026-02-02T00:00:00.0000001Z" ∧
      ¬beyondMicros "2026-02-02T00:00:00.0000009Z" ≤
        beyondMicros "2026-02-02T00:00:00.0000001Z" := by decide +kernel

/-- The two gates at those times. -/
theorem timeWindows_exact_iff_sample :
    (("VALIDATION_TIME_WINDOW_MISMATCH" ∉ ([] : List String) ↔
        ExactlyInOrder (reportTimes (requiredUntil "2026-02-02T00:00:00.0000001Z")
          (reportIssuedAt "2026-02-02T00:00:00.0000009Z"))) ↔
      TiesInOrder (reportTimes (requiredUntil "2026-02-02T00:00:00.0000001Z")
        (reportIssuedAt "2026-02-02T00:00:00.0000009Z"))) ∧
    (((∃ value, validateApprovalAssertionShape (.obj (assertionIssuedAt
          "2026-02-02T00:00:00.0000009Z" "2026-02-02T00:00:00.0000001Z")) = .ok value) ↔
        ExactlyInOrder (assertionTimes (assertionIssuedAt "2026-02-02T00:00:00.0000009Z"
          "2026-02-02T00:00:00.0000001Z"))) ↔
      TiesInOrder (assertionTimes (assertionIssuedAt "2026-02-02T00:00:00.0000009Z"
        "2026-02-02T00:00:00.0000001Z"))) :=
  timeWindows_exact_iff reportIssuedAt_accepted assertionIssuedAt_wellShaped

/-- A report issued eight tenths of a microsecond after its requirement's end has no mismatch, and
an assertion issued as long after its record's end is accepted. -/
theorem truncated_windows_accepted :
    (∃ requirement report,
      reportMismatches windowCase windowEvent requirement sampleValidationContext report = .ok [] ∧
        ¬ExactlyInOrder (reportTimes requirement report)) ∧
    ∃ assertion, (∃ value, validateApprovalAssertionShape (.obj assertion) = .ok value) ∧
      ¬ExactlyInOrder (assertionTimes assertion) := by
  obtain ⟨-, hbeyond⟩ := truncated_times
  refine ⟨⟨_, _, reportIssuedAt_accepted, ?_⟩, _,
    (validateApprovalAssertionShape_iff assertionIssuedAt_wellShaped).mpr ?_, ?_⟩
  · intro horder
    have hties := ((exactlyInOrder_iff (by decide +kernel)).mp horder).2
    simp only [reportTimes, List.isChain_cons_cons] at hties
    exact hbeyond (hties.2.2.1 (by decide +kernel))
  · unfold InOrderToMicros
    decide +kernel
  · intro horder
    have hties := ((exactlyInOrder_iff assertionIssuedAt_wellShaped.moments).mp horder).2
    simp only [assertionTimes, List.isChain_cons_cons] at hties
    exact hbeyond (hties.2.1 (by decide +kernel))

end Ascii

end QualityCI

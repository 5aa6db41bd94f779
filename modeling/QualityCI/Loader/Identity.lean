import QualityCI.Lib.PyText
import Mathlib.Data.List.Nodup

/-!
# Identities and field checks

The comparison key of entity identities and the field checks that `loader.py` builds its
validators from, each with the text of its error.

* `normalizedIdentity`, `relationshipKey` — the keys under which identities are compared.
* `requireNonemptyString`, `requireEnum`, `requireIsoDate`, `parseRfc3339Utc`,
  `requireBoundedList`, `requireStringList`, `rejectNormalizedDuplicates` — the checks.
* The `_eq_ok` lemmas say what each check has established when it returns.
-/

namespace QualityCI

open Py

/-! ## Constants -/

def requiredDocumentTypes : List String :=
  ["PROCESS_FLOW", "PFMEA", "CONTROL_PLAN", "SOP", "INSPECTION_RECORD"]

def eventTypes : List String := ["ENGINEERING_CHANGE", "QUALITY_EVENT"]
def riskLevels : List String := ["LOW", "MEDIUM", "HIGH"]
def documentStatuses : List String := ["DRAFT", "APPROVED", "SUPERSEDED"]
def approvalDecisions : List String := ["APPROVED", "REJECTED", "CHANGES_REQUESTED"]
def validationResults : List String := ["PASS", "FAIL", "PENDING"]

def maxSourceAnchorCharacters : ℕ := 256
def maxDocuments : ℕ := 1024
def maxEventAffectedItems : ℕ := 10000
def maxValidationEvidenceItems : ℕ := 10000
def maxApprovalItems : ℕ := 10000
def maxProcessStepsPerDocument : ℕ := 10000
def maxCharacteristicsPerDocument : ℕ := 10000
def maxRisksPerDocument : ℕ := 20000
def maxMutationOperations : ℕ := 10000

def caseSchemaVersion : String := "qualityci-case-0.4"
def controlledReferenceCaseSchemaVersion : String := "qualityci-case-0.3"
def relationshipCaseSchemaVersion : String := "qualityci-case-0.2"
def legacyCaseSchemaVersion : String := "qualityci-case-0.1"
def controlledReferenceContractVersion : String := "qualityci-controlled-reference-0.1"

def relationshipMigrationStatuses : List String := ["DETERMINISTIC_1X1", "AMBIGUOUS"]
def referenceMigrationStatuses : List String := ["LEGACY_UNATTESTED"]
def validationMigrationStatuses : List String := ["LEGACY_UNATTESTED"]
def referenceIdentityKeys : List String := ["document_id", "document_type", "revision", "source_hash"]

/-- `[0-9a-f]{64}`. -/
def isLowercaseSha256 (s : String) : Bool :=
  s.toList.length = 64 && s.toList.all fun c => ('0' ≤ c && c ≤ '9') || ('a' ≤ c && c ≤ 'f')

/-! ## Identities -/

section Identity

variable [PyUnicode]

/-- The documented comparison key for entity identities. -/
def normalizedIdentity (value : String) : String :=
  PyUnicode.casefold (join " " (splitWords (strip (PyUnicode.nfkc value))))

def relationshipKey (processStepId characteristicId : String) : String × String :=
  (normalizedIdentity processStepId, normalizedIdentity characteristicId)

/-- `normalized_identity(value)` of any value: `unicodedata.normalize` accepts strings only. -/
def normalizedIdentityOf : Json → Result String
  | .str s => .ok (normalizedIdentity s)
  | .null => typeError "normalize() argument 2 must be str, not None"
  | v => typeError s!"normalize() argument 2 must be str, not {v.typeName}"

end Identity

/-! ## Field checks -/

/-- A string with something in it. -/
def IsNonemptyString (value : Json) : Prop := ∃ s, value = .str s ∧ isBlank s = false

instance (value : Json) : Decidable (IsNonemptyString value) :=
  match value with
  | .str s => decidable_of_iff (isBlank s = false) (by simp [IsNonemptyString])
  | .null | .bool _ | .int _ | .float _ | .arr _ | .obj _ =>
      isFalse (by simp [IsNonemptyString])

/-- `_require_nonempty_string`, returning the text it has checked. -/
def requireNonemptyString (value : Json) (label : String) : Result String :=
  match value with
  | .str s => do
      require (isBlank s = false) s!"{label} must be a non-empty string"
      .ok s
  | _ => valueError s!"{label} must be a non-empty string"

/-- `_require_enum`, returning the member. -/
def requireEnum [PyUnicode] (value : Json) (label : String) (allowed : List String) :
    Result String :=
  match value with
  | .str s => do
      require (s ∈ allowed) s!"unsupported {label}: {value.repr}"
      .ok s
  | _ => valueError s!"unsupported {label}: {value.repr}"

/-- `_require_iso_date`. -/
def requireIsoDate (value : Json) (label : String) : Result Unit := do
  let text ← requireNonemptyString value label
  require (datePattern text.toList).isSome s!"{label} must use YYYY-MM-DD format"
  require (parseIsoDate text).isSome s!"{label} must be an ISO calendar date"

/-- `parse_rfc3339_utc`. -/
def parseRfc3339Utc (value : Json) (label : String) : Result ℕ :=
  match value with
  | .str s =>
      match parseTimestamp s with
      | some t => .ok (instantOrder t)
      | none => valueError s!"{label} must be RFC3339 UTC with Z suffix"
  | _ => valueError s!"{label} must be RFC3339 UTC with Z suffix"

/-- `_require_bounded_list`, returning the list. -/
def requireBoundedList (value : Json) (label : String) (maximum : ℕ) : Result (List Json) :=
  match value with
  | .arr xs => do
      require (xs.length ≤ maximum) s!"{label} exceeds maximum of {maximum} items"
      .ok xs
  | _ => valueError s!"{label} must be a list"

/-- `_require_string_list` with a maximum, returning the strings. -/
def requireStringList (value : Json) (label : String) (maximum : ℕ) : Result (List String) :=
  match value with
  | .arr xs => do
      require (xs.length ≤ maximum) s!"{label} exceeds maximum of {maximum} items"
      require (∀ x ∈ xs, IsNonemptyString x) s!"{label} must be a list of non-empty strings"
      .ok (xs.filterMap Json.str?)
  | _ => valueError s!"{label} must be a list of non-empty strings"

/-- `_reject_normalized_duplicates`. -/
def rejectNormalizedDuplicates [PyUnicode] (values : List String) (label : String) :
    Result Unit :=
  require (values.map normalizedIdentity).Nodup
    s!"{label} contains duplicate normalized identities"

/-! ### What a check has established -/

@[simp] lemma requireNonemptyString_eq_ok {v : Json} {label s : String} :
    requireNonemptyString v label = .ok s ↔ v = .str s ∧ isBlank s = false := by
  cases v with
  | str t =>
      simp only [requireNonemptyString, seq_eq_ok, require_eq_ok, Except.ok.injEq, Json.str.injEq]
      constructor
      · rintro ⟨h, rfl⟩
        exact ⟨rfl, h⟩
      · rintro ⟨rfl, h⟩
        exact ⟨h, rfl⟩
  | _ => simp [requireNonemptyString]

@[simp] lemma requireEnum_eq_ok [PyUnicode] {v : Json} {label s : String}
    {allowed : List String} :
    requireEnum v label allowed = .ok s ↔ v = .str s ∧ s ∈ allowed := by
  cases v with
  | str t =>
      simp only [requireEnum, seq_eq_ok, require_eq_ok, Except.ok.injEq, Json.str.injEq]
      constructor
      · rintro ⟨h, rfl⟩
        exact ⟨rfl, h⟩
      · rintro ⟨rfl, h⟩
        exact ⟨h, rfl⟩
  | _ => simp [requireEnum]

@[simp] lemma rejectNormalizedDuplicates_eq_ok [PyUnicode] {values : List String}
    {label : String} {u : Unit} :
    rejectNormalizedDuplicates values label = .ok u ↔
      (values.map normalizedIdentity).Nodup := by
  simp [rejectNormalizedDuplicates]

/-- A date in the contract's form. -/
def IsIsoDate (v : Json) : Prop := ∃ s, v = .str s ∧ (parseIsoDate s).isSome

lemma requireIsoDate_eq_ok {v : Json} {label : String} {u : Unit}
    (h : requireIsoDate v label = .ok u) : IsIsoDate v := by
  simp only [requireIsoDate, bind_eq_ok, requireNonemptyString_eq_ok, require_eq_ok,
    exists_unit] at h
  obtain ⟨s, ⟨rfl, -⟩, -, hdate⟩ := h
  exact ⟨s, rfl, hdate⟩

@[simp] lemma requireBoundedList_eq_ok {v : Json} {label : String} {maximum : ℕ}
    {xs : List Json} :
    requireBoundedList v label maximum = .ok xs ↔ v = .arr xs ∧ xs.length ≤ maximum := by
  cases v with
  | arr ys =>
      simp only [requireBoundedList, seq_eq_ok, require_eq_ok, Except.ok.injEq, Json.arr.injEq]
      constructor
      · rintro ⟨h, rfl⟩
        exact ⟨rfl, h⟩
      · rintro ⟨rfl, h⟩
        exact ⟨h, rfl⟩
  | _ => simp [requireBoundedList]

lemma filterMap_str? {xs : List Json} (h : ∀ x ∈ xs, IsNonemptyString x) :
    xs = (xs.filterMap Json.str?).map Json.str := by
  induction xs with
  | nil => rfl
  | cons x xs ih =>
      obtain ⟨⟨s, rfl, -⟩, hxs⟩ := List.forall_mem_cons.mp h
      rw [List.filterMap_cons_some (show (Json.str s).str? = some s from rfl), List.map_cons, ← ih hxs]

lemma requireStringList_eq_ok {v : Json} {label : String} {maximum : ℕ} {ss : List String} :
    requireStringList v label maximum = .ok ss ↔
      v = .arr (ss.map Json.str) ∧ ss.length ≤ maximum ∧ ∀ s ∈ ss, isBlank s = false := by
  cases v with
  | arr xs =>
      simp only [requireStringList, seq_eq_ok, require_eq_ok, Except.ok.injEq, Json.arr.injEq]
      constructor
      · rintro ⟨hlen, hall, rfl⟩
        have heq := filterMap_str? hall
        refine ⟨heq, ?_, ?_⟩
        · rw [heq] at hlen
          simpa using hlen
        · intro s hs
          rw [List.mem_filterMap] at hs
          obtain ⟨x, hx, hxs⟩ := hs
          obtain ⟨t, rfl, ht⟩ := hall x hx
          simp only [Json.str?, Option.some.injEq] at hxs
          exact hxs ▸ ht
      · rintro ⟨rfl, hlen, hall⟩
        refine ⟨by simpa using hlen, ?_, ?_⟩
        · intro x hx
          rw [List.mem_map] at hx
          obtain ⟨s, hs, rfl⟩ := hx
          exact ⟨s, rfl, hall s hs⟩
        · simp [List.filterMap_map, Function.comp_def, Json.str?]
  | _ => simp [requireStringList]

lemma parseRfc3339Utc_eq_ok {v : Json} {label : String} {n : ℕ} :
    parseRfc3339Utc v label = .ok n ↔
      ∃ s t, v = .str s ∧ parseTimestamp s = some t ∧ instantOrder t = n := by
  cases v with
  | str s =>
      unfold parseRfc3339Utc
      cases h : parseTimestamp s with
      | none => simp [h]
      | some t => simp only [Except.ok.injEq, Json.str.injEq, ↓existsAndEq, h,
          Option.some.injEq, true_and]
  | _ => simp [parseRfc3339Utc]

end QualityCI

import QualityCI.Lib.FieldUpdate
import QualityCI.Loader.Identity

/-!
# The canonical projection of a case

`canonical_case_projection` sorts the arrays of a case whose order has no business meaning, each
under a normalized key, and leaves everything else alone.  Sorting raises when a key field of some
row is not a string.

* `canonicalCaseProjection` — the projection, array by array as `loader.py` has it.
* `Reordered` — the relation it is meant to decide: one case is the other with the members of
  those arrays permuted.
-/

namespace QualityCI

open Py

variable [PyUnicode]

/-! ## Sort keys -/

/-- `normalized_identity(item.get(field, ""))`. -/
def identityField (item : Dict) (field : String) : Result String :=
  normalizedIdentityOf (item.getD field (.str ""))

/-- The normalized identities of some fields, as one key. -/
def identityFields (fields : List String) (item : Dict) : Result (List String) :=
  mapEach (identityField item) fields

def linkKey : Dict → Result (List String) :=
  identityFields ["process_step_id", "characteristic_id"]

def approvalKey : Dict → Result (List String) := identityFields ["role", "event_revision"]

def evidenceKey : Dict → Result (List String) := identityFields ["evidence_id"]

/-- Required evidence is ordered by the raw identity too. -/
def requiredEvidenceKey (item : Dict) : Result (List String) := do
  let id ← identityField item "evidence_id"
  match item.getD "evidence_id" (.str "") with
  | .str raw => .ok [id, raw]
  | _ => typeError "normalize() argument 2 must be str"

def documentKey : Dict → Result (List String) := identityFields ["document_id"]

def characteristicKey : Dict → Result (List String) :=
  identityFields ["process_step_id", "characteristic_id", "control_id"]

def riskKey : Dict → Result (List String) :=
  identityFields ["process_step_id", "characteristic_id", "failure_mode_id"]

/-! ## The projection -/

/-- `if isinstance(v, list) and all(isinstance(item, str) …): v.sort(key=normalized_identity)`. -/
def sortIdentities : Json → Result Json
  | .arr items =>
      if items.all Json.isStr then
        .ok (.arr ((KeySort.sortBy normalizedIdentity (items.filterMap Json.str?)).map Json.str))
      else .ok (.arr items)
  | v => .ok v

/-- The replacements inside a value that is a dictionary. -/
def projectDict (blocks : List (String × (Json → Result Json))) : Json → Result Json
  | .obj d => do
      let d ← Dict.updateAll d blocks
      .ok (.obj d)
  | v => .ok v

def planBlocks : List (String × (Json → Result Json)) :=
  [("required_evidence", sortRows requiredEvidenceKey)]

def eventBlocks : List (String × (Json → Result Json)) :=
  [("affected_process_steps", sortIdentities),
   ("affected_characteristics", sortIdentities),
   ("affected_links", sortRows linkKey),
   ("approvals", sortRows approvalKey),
   ("validation_evidence", sortRows evidenceKey),
   ("validation_plan", projectDict planBlocks)]

def fieldsBlocks : List (String × (Json → Result Json)) :=
  [("process_steps", sortIdentities),
   ("characteristics", sortRows characteristicKey),
   ("risks", sortRows riskKey)]

def documentBlocks : List (String × (Json → Result Json)) :=
  [("fields", projectDict fieldsBlocks)]

/-- The documents are sorted first, and then each one's fields. -/
def projectDocuments : Json → Result Json
  | .arr items =>
      match dictsOf items with
      | some documents => do
          let sorted ← sortDicts documentKey documents
          let projected ← mapEach (fun d => projectDict documentBlocks (.obj d)) sorted
          .ok (.arr projected)
      | none => .ok (.arr items)
  | v => .ok v

def caseBlocks : List (String × (Json → Result Json)) :=
  [("event", projectDict eventBlocks), ("documents", projectDocuments)]

/-- `canonical_case_projection(case)`. -/
def canonicalCaseProjection (case : Dict) : Result Dict := case.updateAll caseBlocks

/-! ## Reordering -/

/-- One list is a permutation of the other; other values are equal. -/
def PermutedList (v w : Json) : Prop :=
  v = w ∨ ∃ xs ys, v = .arr xs ∧ w = .arr ys ∧ xs.Perm ys

/-- Dictionaries with the same keys and related values; other values are equal. -/
def RelatedDict (rel : String → Json → Json → Prop) (v w : Json) : Prop :=
  v = w ∨ ∃ a b, v = .obj a ∧ w = .obj b ∧ Dict.Related rel a b

/-- Equality, but for the given keys, where the given relation counts. -/
def exceptAt (special : List (String × (Json → Json → Prop))) (key : String) :
    Json → Json → Prop :=
  (special.lookup key).getD Eq

def fieldsReorderings : List (String × (Json → Json → Prop)) :=
  [("process_steps", PermutedList), ("characteristics", PermutedList), ("risks", PermutedList)]

def documentReorderings : List (String × (Json → Json → Prop)) :=
  [("fields", RelatedDict (exceptAt fieldsReorderings))]

/-- A document with the members of its process steps, characteristics and risks permuted. -/
def ReorderedDocument : Json → Json → Prop := RelatedDict (exceptAt documentReorderings)

def planReorderings : List (String × (Json → Json → Prop)) :=
  [("required_evidence", PermutedList)]

def eventReorderings : List (String × (Json → Json → Prop)) :=
  [("affected_process_steps", PermutedList),
   ("affected_characteristics", PermutedList),
   ("affected_links", PermutedList),
   ("approvals", PermutedList),
   ("validation_evidence", PermutedList),
   ("validation_plan", RelatedDict (exceptAt planReorderings))]

/-- An event with the members of its six unordered arrays permuted. -/
def ReorderedEvent : Json → Json → Prop := RelatedDict (exceptAt eventReorderings)

/-- Documents permuted, and each one reordered inside; other values are equal. -/
def ReorderedDocuments (v w : Json) : Prop :=
  v = w ∨ ∃ xs ys zs, v = .arr xs ∧ w = .arr ys ∧ zs.Perm ys ∧ List.Forall₂ ReorderedDocument xs zs

def caseReorderings : List (String × (Json → Json → Prop)) :=
  [("event", ReorderedEvent), ("documents", ReorderedDocuments)]

/-- **One case is the other up to the order of the arrays whose order has no meaning.** -/
def Reordered (a b : Dict) : Prop :=
  Dict.Related (exceptAt caseReorderings) a b

end QualityCI

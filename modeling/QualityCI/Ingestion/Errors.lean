import QualityCI.Lib.PyRaises

/-!
# What ingestion raises, and its limits

Every rejected or malformed source document raises an `IngestionError` or one of its subclasses,
and what is read of a document is bounded by the limits the caller gives.
-/

namespace QualityCI

open Py

/-- `class IngestionError(ValueError)`. -/
def ingestionErrorClass : ErrorClass := .derived .valueError "IngestionError"

/-- `raise` of `IngestionError` itself. -/
def ingestionError {α : Type} (message : String) : Result α := .error ⟨ingestionErrorClass, message⟩

/-- `raise` of a subclass of `IngestionError`. -/
def ingestionSubclassError {α : Type} (name message : String) : Result α :=
  .error ⟨.derived ingestionErrorClass name, message⟩

def unsupportedFormatError {α : Type} (message : String) : Result α :=
  ingestionSubclassError "UnsupportedFormatError" message

def archiveSafetyError {α : Type} (message : String) : Result α :=
  ingestionSubclassError "ArchiveSafetyError" message

def limitExceededError {α : Type} (message : String) : Result α :=
  ingestionSubclassError "LimitExceededError" message

def scannedPdfError {α : Type} (message : String) : Result α :=
  ingestionSubclassError "ScannedPdfError" message

/-- `isinstance(error, IngestionError)`, by the class of the error. -/
def isIngestionError : ErrorClass → Bool
  | .derived base name => .derived base name = ingestionErrorClass || isIngestionError base
  | _ => false

@[simp] lemma ingestionSubclassError_ne_ok {α : Type} {name message : String} {a : α} :
    (ingestionSubclassError name message : Result α) ≠ .ok a := by
  simp [ingestionSubclassError]

@[simp] lemma archiveSafetyError_ne_ok {α : Type} {message : String} {a : α} :
    (archiveSafetyError message : Result α) ≠ .ok a := by
  simp [archiveSafetyError]

/-- `IngestionLimits`: the limits that the modelled readers check. -/
structure IngestionLimits where
  maxEvidenceItems : ℕ := 20000
  maxTextChars : ℕ := 10000000
  maxPdfPages : ℕ := 500
  maxArchiveMembers : ℕ := 1000

end QualityCI

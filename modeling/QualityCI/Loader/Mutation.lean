import QualityCI.Lib.PyRaises
import QualityCI.Loader.Identity

/-!
# Mutations of a case

`apply_mutation` runs a list of operations on a copy of a case.  The documents an operation can
name are indexed once, before the first operation: the index keeps the document objects, so when
an operation on the case puts another list in their place, the indexed documents are detached and
later operations still write to them.

* `atPath` — the walk along a dotted path that `_set_nested` and `_delete_nested` share.
* `MutationState`, `applyOperation` — the copy with its index, and one operation.
* `applyMutation` — the mutation.
* `rebuildErrors` — the exceptions that are handled where a case is rebuilt from its operations.
* **`atPath_obj`** — an edit of a dictionary changes one entry, by a function of that entry.
-/

namespace QualityCI

open Py

/-! ## Paths -/

/-- The parts of a text between full stops. -/
def splitDots : List Char → List Char → List (List Char)
  | [], part => [part.reverse]
  | c :: rest, part =>
      if c = '.' then part.reverse :: splitDots rest [] else splitDots rest (c :: part)

/-- `path.split(".") if path else []`. -/
def segments (path : String) : List String :=
  if path = "" then [] else (splitDots path.toList []).map String.ofList

/-- `value[key] = item`. -/
def setItem (item : Json) : Json → String → Result Json
  | .obj d, key => .ok (.obj (Dict.set d key item))
  | .arr _, _ => typeError "list indices must be integers or slices, not str"
  | v, _ => typeError s!"'{v.typeName}' object does not support item assignment"

/-- `value.pop(key, None)`. -/
def popItem : Json → String → Result Json
  | .obj d, key => .ok (.obj (Dict.erase d key))
  | .arr _, _ => typeError "pop expected at most 1 argument, got 2"
  | v, _ => attributeError s!"'{v.typeName}' object has no attribute 'pop'"

/-- The walk along a path, with the statement at its end. -/
def atPath (last : Json → String → Result Json) : Json → List String → Result Json
  | _, [] => .error ⟨.indexError, "list index out of range"⟩
  | v, [key] => last v key
  | v, key :: next :: rest => do
      let inner ← v.getItem key
      let inner ← atPath last inner (next :: rest)
      setItem inner v key

/-- `_set_nested(target, path, value)`. -/
def setNested (target : Json) (path : String) (value : Json) : Result Json :=
  atPath (setItem value) target (segments path)

/-- `_delete_nested(target, path)`. -/
def deleteNested (target : Json) (path : String) : Result Json :=
  atPath popItem target (segments path)

/-! ## The index of the documents -/

/-- `hash(value)`: containers have none. -/
def requireHashable (v : Json) : Result Unit :=
  match v with
  | .arr _ | .obj _ => typeError s!"unhashable type: '{v.typeName}'"
  | _ => .ok ()

/-- The number that a value is when it is compared with numbers. -/
def numberOf : Json → Option ℚ
  | .bool b => some (if b then 1 else 0)
  | .int n => some n
  | .float (.finite x) => some x.value
  | _ => none

/-- Two values are the same key of a dictionary; no two not-a-numbers are. -/
def sameKey (v w : Json) : Bool :=
  match numberOf v, numberOf w with
  | some p, some q => decide (p = q)
  | none, none => decide (v = w ∧ v ≠ .float .nan)
  | _, _ => false

/-- `doc["document_id"]`, as a key. -/
def indexKey (doc : Json) : Result Json := do
  let id ← doc.getItem "document_id"
  requireHashable id
  .ok id

/-- The keys of `{doc["document_id"]: doc for doc in documents}`, one for each document. -/
def indexKeys (documents : Json) : Result (List Json) := do
  let items ← documents.iterate
  mapEach indexKey items

/-- The position of the document that a key names: of several, the last. -/
def lookupId : List Json → Json → Option ℕ
  | [], _ => none
  | key :: rest, id =>
      match lookupId rest id with
      | some i => some (i + 1)
      | none => if sameKey key id = true then some 0 else none

/-! ## Operations -/

/-- The mutated copy, and the indexed documents once the copy holds another list. -/
structure MutationState where
  case : Dict
  detached : Option (List Json) := none
  deriving DecidableEq

/-- The indexed documents. -/
def MutationState.documents (s : MutationState) : List Json :=
  s.detached.getD (((s.case.get? "documents").bind Json.arr?).getD [])

/-- The state with an indexed document edited in place. -/
def MutationState.setDocument (s : MutationState) (i : ℕ) (doc : Json) : MutationState :=
  match s.detached with
  | some docs => { s with detached := some (docs.set i doc) }
  | none => { s with case := s.case.set "documents" (.arr (s.documents.set i doc)) }

/-- The state with an edited case: another value under `documents` detaches the indexed ones. -/
def MutationState.replaceCase (s : MutationState) (path : String) (case : Dict) : MutationState :=
  ⟨case, if path = "documents" then some s.documents else s.detached⟩

section Operations

variable [PyUnicode]

def mutationTargets : List String := ["document", "event", "case"]

/-- `operation.get("target", "document")`, checked. -/
def mutationTarget (operation : Dict) : Result String :=
  match operation.getD "target" (.str "document") with
  | .str name =>
      if name ∈ mutationTargets then .ok name
      else valueError s!"unsupported mutation target: {name}"
  | v => valueError s!"unsupported mutation target: {v.toStr}"

/-- `operation.get("path")`, checked. -/
def mutationPath (operation : Dict) : Result String :=
  let message := "mutation operation path must be a non-empty string"
  match operation.get? "path" with
  | some (.str path) => if path = "" then valueError message else .ok path
  | _ => valueError message

/-- What the operation writes at its path: a value, or nothing when it deletes. -/
def writeOf (operation : Dict) : Result (Option Json) :=
  let op := operation.getD "op" .null
  if op = .str "set" then
    match operation.get? "value" with
    | some value => .ok (some value)
    | none => valueError "set mutation operation requires value"
  else if op = .str "delete" then .ok none
  else valueError s!"unsupported mutation operation: {op.toStr}"

/-- The operation on its target. -/
def edit (operation : Dict) (path : String) (target : Json) : Result Json := do
  match ← writeOf operation with
  | some value => setNested target path value
  | none => deleteNested target path

/-- One operation that is a dictionary. -/
def applyDict (keys : List Json) (s : MutationState) (operation : Dict) : Result MutationState := do
  let name ← mutationTarget operation
  let path ← mutationPath operation
  if name = "event" then do
    let event ← s.case.getItem "event"
    let event ← edit operation path event
    .ok { s with case := s.case.set "event" event }
  else if name = "case" then do
    let edited ← edit operation path (.obj s.case)
    .ok (s.replaceCase path (edited.obj?.getD []))
  else do
    let id ← operation.getItem "document_id"
    requireHashable id
    match lookupId keys id with
    | none => valueError s!"unknown document_id in mutation: {id.toStr}"
    | some i => do
        let doc ← edit operation path (s.documents.getD i .null)
        .ok (s.setDocument i doc)

/-- One operation. -/
def applyOperation (keys : List Json) (s : MutationState) : Json → Result MutationState
  | .obj operation => applyDict keys s operation
  | _ => valueError "mutation operation must be an object"

/-- The loop of `apply_mutation`. -/
def applyOperations (keys : List Json) : MutationState → List Json → Result MutationState
  | s, [] => .ok s
  | s, operation :: rest => do
      let s ← applyOperation keys s operation
      applyOperations keys s rest

/-- `mutation.get("mutation_id")`, checked. -/
def mutationId (mutation : Dict) : Result String :=
  let message := "mutation_id must be a non-empty string"
  match mutation.get? "mutation_id" with
  | some (.str id) => if id = "" then valueError message else .ok id
  | _ => valueError message

/-- `apply_mutation(case, mutation)`. -/
def applyMutation (case mutation : Dict) : Result Dict := do
  let id ← mutationId mutation
  let operations ← requireBoundedList (mutation.getD "operations" .null) "mutation operations"
    maxMutationOperations
  let documents ← case.getItem "documents"
  let keys ← indexKeys documents
  let s ← applyOperations keys ⟨case, none⟩ operations
  .ok (s.case.set "active_mutation" (.str id))

end Operations

/-- `except (ApprovalGateError, TypeError, ValueError)`: the first is a `ValueError`. -/
def rebuildErrors (cls : ErrorClass) : Prop :=
  cls.isA .typeError = true ∨ cls.isA .valueError = true

instance : DecidablePred rebuildErrors := fun _ => inferInstanceAs (Decidable (_ ∨ _))

/-! ## What an edit changes -/

/-- The dictionary with the entry set, or without it. -/
def put (d : Dict) (key : String) : Option Json → Dict
  | some v => d.set key v
  | none => d.erase key

@[simp] lemma get?_put (d : Dict) (key key' : String) (o : Option Json) :
    (put d key o).get? key' = if key = key' then o else d.get? key' := by
  cases o with
  | some v => simp [put]
  | none => simp [put]

/-- The statement at the end of a path, of an operation that writes `o`. -/
def lastOf : Option Json → Json → String → Result Json
  | some value => setItem value
  | none => popItem

/-- What an edit makes of the entry under its first segment. -/
def entryEdit (o : Option Json) (key : String) : List String → Option Json → Result (Option Json)
  | [], _ => .ok o
  | _ :: _, none => keyError key
  | next :: rest, some inner => do
      let edited ← atPath (lastOf o) inner (next :: rest)
      .ok (some edited)

lemma lastOf_obj (o : Option Json) (d : Dict) (key : String) :
    lastOf o (.obj d) key = .ok (.obj (put d key o)) := by
  cases o with
  | some v => rfl
  | none => rfl

/-- **An edit of a dictionary** changes the entry of its first segment, by a function of that
entry. -/
theorem atPath_obj (o : Option Json) (d : Dict) (key : String) (rest : List String) :
    atPath (lastOf o) (.obj d) (key :: rest) = (do
      let entry ← entryEdit o key rest (d.get? key)
      .ok (Json.obj (put d key entry)) : Result Json) := by
  cases rest with
  | nil => exact lastOf_obj o d key
  | cons next rest =>
      cases hget : d.get? key with
      | none =>
          simp only [atPath, Json.getItem, Dict.getItem, hget, entryEdit]
          rfl
      | some inner =>
          simp only [atPath, Json.getItem, Dict.getItem, hget, entryEdit, ok_bind]
          cases atPath (lastOf o) inner (next :: rest) with
          | error e => rfl
          | ok edited => rfl

/-- A text has no entries. -/
lemma atPath_str (o : Option Json) (s : String) (key : String) (rest : List String) (v : Json) :
    atPath (lastOf o) (.str s) (key :: rest) ≠ .ok v := by
  cases rest with
  | nil => cases o <;> simp [atPath, lastOf, setItem, popItem]
  | cons next rest => simp [atPath, Json.getItem]

lemma edit_eq [PyUnicode] (operation : Dict) (path : String) (target : Json) :
    edit operation path target = (do
      let o ← writeOf operation
      atPath (lastOf o) target (segments path)) := by
  unfold edit
  cases writeOf operation with
  | error e => rfl
  | ok o =>
      cases o with
      | some value => rfl
      | none => rfl

end QualityCI

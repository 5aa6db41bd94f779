import QualityCI.Replay.Language

/-!
# From the raw bytes of a change to its application

A change of a case, a mutation or a native resolution, is decoded from raw bytes into operation
material: every operation with its number, its target named even where the raw operation leaves it
out, and its value under a mark that says whether there is one.  The lineage stores the material
as canonical text, and what is applied to the case is rebuilt from the material by functions of
their own.

* `decodeMutation`, `mutationMaterial`, `mutationForApplication` — there and back for a mutation.
* `nativeOperationsForApplication` — the way back for a native resolution.
* `storedMaterial` — the material after it has been written and read again.
* `applyOperation_congr` — an application reads five fields of an operation.
* **`operationMaterial_applies_as_raw`** — the material does to every case what the raw bytes do.
-/

namespace QualityCI

open Py

/-! ## Decoding a mutation -/

/-- What `_decode_mutation` returns. -/
structure DecodedMutation where
  mutationId : String
  operations : List Json
  deriving DecidableEq

/-- An operation as the material of a mutation has it. -/
def recordedOperation (sequence : ℕ) (op target : String) (documentId : Json) (path : String)
    (value : Dict) : Json :=
  .obj <| Dict.ofList
    [("sequence", .int sequence), ("op", .str op), ("target", .str target),
     ("document_id", documentId), ("path", .str path), ("value", .obj value)]

/-- The value of an operation, under a mark that says whether there is one. -/
def recordedValue : Option Json → Dict
  | some v => Dict.ofList [("present", .bool true), ("json", v)]
  | none => Dict.ofList [("present", .bool false)]

/-- The keys an operation may have, by its target and what it does. -/
def operationKeys (operation : Dict) (target op : String) : List String :=
  ["op", "path"] ++ (if operation.contains "target" = true then ["target"] else []) ++
    (if target = "document" then ["document_id"] else []) ++
    (if op = "set" then ["value"] else [])

/-- The document of an operation, in the loop of `_decode_mutation`. -/
def requireOperationDocument (label target : String) (d : Dict) : Result Unit :=
  if target = "document" then
    sourceExactNonempty (d.getD "document_id" .null) s!"{label}.document_id"
  else
    require (d.contains "document_id" = false)
      s!"{label} non-document target forbids document_id"

/-- The value of an operation, in the loop of `_decode_mutation`. -/
def requireOperationValue (label op : String) (d : Dict) : Result Unit :=
  if op = "set" then do
    require (d.contains "value" = true) s!"{label} set requires value"
    require ((d.getD "value" .null).isFinite = true) "case source value is not canonical JSON"
  else require (d.contains "value" = false) s!"{label} delete forbids value"

/-- One operation, in the loop of `_decode_mutation`. -/
def decodeOperation (index : ℕ) (operation : Json) : Result Json :=
  let label := s!"mutation operations[{index}]"
  match operation with
  | .obj d => do
      let target := (Dict.getD d "target" (.str "document")).str?.getD ""
      require (target ∈ mutationTargets) s!"{label} target is unsupported"
      let op := Dict.textAt d "op"
      require (op ∈ ["set", "delete"]) s!"{label} op is unsupported"
      sourceExactNonempty (Dict.getD d "path" .null) s!"{label}.path"
      requireOperationDocument label target d
      requireOperationValue label op d
      require (HasExactKeys d (operationKeys d target op))
        s!"{label} contains unknown or inconsistent fields"
      .ok <| recordedOperation index op target
        (if target = "document" then Dict.getD d "document_id" .null else .null)
        (Dict.textAt d "path")
        (recordedValue (if op = "set" then some (Dict.getD d "value" .null) else none))
  | _ => valueError s!"{label} must be an object"

/-- `_decode_mutation`, of the value that has been read. -/
def decodeMutationValue (value : Json) : Result DecodedMutation :=
  match value with
  | .obj d => do
      sourceExactNonempty (Dict.getD d "mutation_id" .null) "mutation_id"
      match Dict.getD d "operations" .null with
      | .arr items => do
          require (items ≠ [] ∧ items.length ≤ maxMutationOperations)
            "mutation operations must be one bounded non-empty list"
          let operations ← enumerateM (fun index normalized operation => do
            let recorded ← decodeOperation index operation
            .ok (normalized ++ [recorded])) 0 [] items
          .ok ⟨Dict.textAt d "mutation_id", operations⟩
      | _ => valueError "mutation operations must be one bounded non-empty list"
  | _ => valueError "mutation raw JSON root must be an object"

/-- `_decode_mutation`. -/
def decodeMutation (raw : Bytes) : Result DecodedMutation := do
  let value ← strictUtf8Json raw "invalid mutation raw JSON"
  decodeMutationValue value

/-- The operation material of `_derive_case_source_mutation`. -/
def mutationMaterial (raw : Bytes) (decoded : DecodedMutation) : Dict := Dict.ofList
  [("operation_kind", .str "MUTATION"),
   ("operation_contract_version", .str "qualityci-case-source-mutation-operation-0.1"),
   ("mutation_blob", .obj (resolutionBlob raw)),
   ("mutation_id", .str decoded.mutationId),
   ("applied_operations", .arr decoded.operations)]

/-! ## The way back -/

/-- One operation, in the loop of `_mutation_for_application`. -/
def operationForApplication (projected : Json) : Result Json := do
  let op ← projected.getItem "op"
  let target ← projected.getItem "target"
  let path ← projected.getItem "path"
  let documentId ← projected.getItem "document_id"
  let value ← projected.getItem "value"
  let present ← value.getItem "present"
  let json ← if present = .bool true then do
      let json ← value.getItem "json"
      .ok [("value", json)]
    else .ok []
  .ok <| .obj <| Dict.ofList <| [("op", op), ("target", target), ("path", path)] ++
    (if documentId = .null then [] else [("document_id", documentId)]) ++ json

/-- `_mutation_for_application`. -/
def mutationForApplication (material : Dict) : Result Dict := do
  let applied ← material.getItem "applied_operations"
  let applied ← applied.iterate
  let operations ← mapEach operationForApplication applied
  let id ← material.getItem "mutation_id"
  .ok (Dict.ofList [("mutation_id", id), ("operations", .arr operations)])

/-- One operation of `_native_operations_for_application`. -/
def nativeOperationForApplication (operation : Json) : Result Json := do
  let op ← operation.getItem "op"
  let target ← operation.getItem "target"
  let documentId ← operation.getItem "document_id"
  let path ← operation.getItem "path"
  let value ← operation.getItem "value"
  let json ← value.getItem "json"
  .ok <| .obj <| Dict.ofList
    [("op", op), ("target", target), ("document_id", documentId), ("path", path), ("value", json)]

/-- `strict_json_loads(_canonical_json_text(material))`. -/
def storedMaterial (material : Dict) : Result Dict := do
  let text ← dumps (.obj material)
  let value ← loads ⟨true⟩ text
  requireDict value "operation material is not an object"

section Applying

variable [PyUnicode]

/-- `_native_operations_for_application`. -/
def nativeOperationsForApplication (material : Dict) : Result Dict := do
  let id ← material.getItem "resolution_id"
  let applied ← material.getItem "applied_operations"
  let applied ← applied.iterate
  let operations ← mapEach nativeOperationForApplication applied
  .ok (Dict.ofList [("mutation_id", .str s!"native-replay:{id.toStr}"),
    ("operations", .arr operations)])

/-- `apply_mutation(case, _mutation_for_application(material))`. -/
def applyMutationMaterial (case material : Dict) : Result Dict := do
  let mutation ← mutationForApplication material
  applyMutation case mutation

/-- `apply_mutation(case, _native_operations_for_application(material))`. -/
def applyNativeMaterial (case material : Dict) : Result Dict := do
  let mutation ← nativeOperationsForApplication material
  applyMutation case mutation

/-- `apply_mutation` of the raw operations of a resolution, under some identity. -/
def applyRawOperations (case resolution : Dict) (id : String) : Result Dict :=
  applyMutation case (Dict.ofList
    [("mutation_id", .str id), ("operations", resolution.getD "operations" .null)])

/-- The documents after an application. -/
def documentsAfter (applied : Result Dict) : Result (Option Json) := do
  let case ← applied
  .ok (case.get? "documents")

/-! ## What an application reads -/

omit [PyUnicode] in
/-- A material that JSON can hold is what is read back of it. -/
lemma storedMaterial_eq {material : Dict} (hwf : (Json.obj material).WF)
    (hfinite : (Json.obj material).isFinite = true) : storedMaterial material = .ok material := by
  have htext := dumps_eq_ok.mpr ⟨hfinite, rfl⟩
  rw [storedMaterial, htext, ok_bind, loads_dumps ⟨true⟩ hwf htext]
  rfl

/-- Two operations that read alike wherever `apply_mutation` reads them. -/
structure SameFields (a b : Dict) : Prop where
  target : a.getD "target" (.str "document") = b.getD "target" (.str "document")
  op : a.get? "op" = b.get? "op"
  path : a.get? "path" = b.get? "path"
  documentId : a.get? "document_id" = b.get? "document_id"
  value : a.get? "value" = b.get? "value"

/-- **An application reads five fields of an operation.** -/
theorem applyOperation_congr {a b : Dict} (h : SameFields a b) (keys : List Json)
    (s : MutationState) : applyOperation keys s (.obj a) = applyOperation keys s (.obj b) := by
  have htarget : mutationTarget a = mutationTarget b := by
    rw [mutationTarget, mutationTarget, h.target]
  have hpath : mutationPath a = mutationPath b := by
    rw [mutationPath, mutationPath, h.path]
  have hwrite : writeOf a = writeOf b := by
    rw [writeOf, writeOf, Dict.getD, Dict.getD, h.op, h.value]
  have hid : a.getItem "document_id" = b.getItem "document_id" := by
    rw [Dict.getItem, Dict.getItem, h.documentId]
  simp only [applyOperation, applyDict, edit_eq, htarget, hpath, hwrite, hid]

/-- Operations that read alike are applied alike. -/
lemma applyOperations_congr {xs ys : List Json}
    (h : List.Forall₂ (fun x y => ∃ a b, x = .obj a ∧ y = .obj b ∧ SameFields a b) xs ys)
    (keys : List Json) (s : MutationState) :
    applyOperations keys s xs = applyOperations keys s ys := by
  induction h generalizing s with
  | nil => rfl
  | cons hxy hrest ih =>
      obtain ⟨a, b, rfl, rfl, hfields⟩ := hxy
      simp only [applyOperations, applyOperation_congr hfields keys s, ih]

/-- `apply_mutation` up to the name it leaves in the case. -/
def applyAll (case : Dict) (operations : Json) : Result Dict := do
  let operations ← requireBoundedList operations "mutation operations" maxMutationOperations
  let documents ← case.getItem "documents"
  let keys ← indexKeys documents
  let s ← applyOperations keys ⟨case, none⟩ operations
  .ok s.case

lemma applyMutation_eq {case mutation : Dict} {id : String} (hid : mutationId mutation = .ok id) :
    applyMutation case mutation = (do
      let applied ← applyAll case (mutation.getD "operations" .null)
      .ok (applied.set "active_mutation" (.str id))) := by
  simp only [applyMutation, applyAll, hid, ok_bind, bind_assoc]

lemma applyAll_congr {case : Dict} {xs ys : List Json}
    (h : List.Forall₂ (fun x y => ∃ a b, x = .obj a ∧ y = .obj b ∧ SameFields a b) xs ys) :
    applyAll case (.arr xs) = applyAll case (.arr ys) := by
  simp only [applyAll, requireBoundedList, h.length_eq, bind_assoc, ok_bind,
    applyOperations_congr h]

end Applying

/-! ## A recorded operation -/

section Recorded

/-- What the functions on the way back read of a recorded operation. -/
lemma recordedOperation_getItem (sequence : ℕ) (op target : String) (documentId : Json)
    (path : String) (value : Dict) :
    let recorded := recordedOperation sequence op target documentId path value
    recorded.getItem "op" = .ok (.str op) ∧ recorded.getItem "target" = .ok (.str target) ∧
      recorded.getItem "path" = .ok (.str path) ∧
      recorded.getItem "document_id" = .ok documentId ∧
      recorded.getItem "value" = .ok (.obj value) := by
  have hread : ∀ {key : String} {v : Json},
      (key, v) ∈ [("sequence", .int sequence), ("op", .str op), ("target", .str target),
        ("document_id", documentId), ("path", .str path), ("value", .obj value)] →
      (recordedOperation sequence op target documentId path value).getItem key = .ok v :=
    fun h => Dict.getItem_eq_ok.mpr (Dict.get?_ofList_of_mem (by simp) h)
  exact ⟨hread (by simp), hread (by simp), hread (by simp), hread (by simp), hread (by simp)⟩

lemma recordedValue_some (v : Json) :
    (Json.obj (recordedValue (some v))).getItem "present" = .ok (.bool true) ∧
      (Json.obj (recordedValue (some v))).getItem "json" = .ok v := by
  have hread : ∀ {key : String} {w : Json}, (key, w) ∈ [("present", .bool true), ("json", v)] →
      (Json.obj (recordedValue (some v))).getItem key = .ok w :=
    fun h => Dict.getItem_eq_ok.mpr (Dict.get?_ofList_of_mem (by simp) h)
  exact ⟨hread (by simp), hread (by simp)⟩

lemma recordedValue_none :
    (Json.obj (recordedValue none)).getItem "present" = .ok (.bool false) := rfl

/-- The items of an operation on the way back: a document and a value where there is one. -/
def appliedItems (op target : String) (documentId : Json) (path : String) (value : Option Json) :
    List (String × Json) :=
  [("op", .str op), ("target", .str target), ("path", .str path)] ++
    (if documentId = .null then [] else [("document_id", documentId)]) ++
    (value.map fun v => ("value", v)).toList

/-- **The way back of an operation.** -/
lemma operationForApplication_recorded (sequence : ℕ) (op target : String) (documentId : Json)
    (path : String) (value : Option Json) :
    operationForApplication
        (recordedOperation sequence op target documentId path (recordedValue value)) =
      .ok (.obj (Dict.ofList (appliedItems op target documentId path value))) := by
  obtain ⟨hop, htarget, hpath, hid, hvalue⟩ :=
    recordedOperation_getItem sequence op target documentId path (recordedValue value)
  cases value with
  | some v =>
      obtain ⟨hpresent, hjson⟩ := recordedValue_some v
      simp only [operationForApplication, hop, htarget, hpath, hid, hvalue, hpresent, hjson,
        ok_bind, ↓reduceIte]
      rfl
  | none =>
      have hfalse : Json.bool false ≠ .bool true := by simp
      simp only [operationForApplication, hop, htarget, hpath, hid, hvalue, recordedValue_none,
        ok_bind, if_neg hfalse]
      rfl

/-- What the way back leaves in the fields that an application reads. -/
lemma appliedItems_get? (op target : String) (documentId : Json) (path : String)
    (value : Option Json) :
    let applied := Dict.ofList (appliedItems op target documentId path value)
    applied.get? "op" = some (.str op) ∧ applied.get? "target" = some (.str target) ∧
      applied.get? "path" = some (.str path) ∧
      applied.get? "document_id" = (if documentId = .null then none else some documentId) ∧
      applied.get? "value" = value := by
  have hnodup : ((appliedItems op target documentId path value).map Prod.fst).Nodup := by
    unfold appliedItems
    cases value <;> split_ifs <;> simp
  have hget := Dict.get?_ofList hnodup
  refine ⟨by rw [hget]; rfl, by rw [hget]; rfl, by rw [hget]; rfl, ?_, ?_⟩
  · rw [hget]
    unfold appliedItems
    cases value <;> split_ifs <;> simp [List.lookup_cons]
  · rw [hget]
    unfold appliedItems
    cases value <;> split_ifs <;> simp [List.lookup_cons]

end Recorded

/-! ## The mutation -/

section Mutation

/-- A field that a decoder has checked. -/
lemma IsExactText.get? {d : Dict} {key : String} (h : IsExactText (d.getD key .null)) :
    d.get? key = some (.str (d.textAt key)) := by
  obtain ⟨s, hs, -⟩ := h
  have hget := get?_of_getD hs (by simp)
  rw [hget, Dict.textAt_eq hget]

/-- A text that is one of some texts is there. -/
lemma get?_of_textAt_mem {d : Dict} {key : String} {allowed : List String}
    (h : d.textAt key ∈ allowed) (hempty : "" ∉ allowed) :
    d.get? key = some (.str (d.textAt key)) := by
  unfold Dict.textAt at h ⊢
  cases hget : d.get? key with
  | none => exact absurd (by simpa [hget] using h) hempty
  | some v =>
      cases v with
      | str s => rfl
      | _ => exact absurd (by simpa [hget, Json.str?] using h) hempty

lemma contains_eq_false {d : Dict} {key : String} :
    d.contains key = false ↔ d.get? key = none := by
  simp [Dict.contains]

lemma get?_of_contains {d : Dict} {key : String} (h : d.contains key = true) :
    d.get? key = some (d.getD key .null) := by
  obtain ⟨v, hv⟩ := Option.isSome_iff_exists.mp h
  rw [Dict.getD, hv, Option.getD_some]

lemma requireOperationDocument_get? {label target : String} {d : Dict}
    (h : requireOperationDocument label target d = .ok ()) :
    (if (if target = "document" then d.getD "document_id" .null else .null) = .null then none
      else some (if target = "document" then d.getD "document_id" .null else .null)) =
      d.get? "document_id" := by
  unfold requireOperationDocument at h
  split_ifs at h with htarget
  · have hget := (sourceExactNonempty_eq_ok.mp h).get?
    simp [htarget, Dict.getD, hget]
  · have hget := contains_eq_false.mp (require_eq_ok.mp h)
    simp [htarget, hget]

lemma requireOperationValue_get? {label op : String} {d : Dict}
    (h : requireOperationValue label op d = .ok ()) :
    (if op = "set" then some (d.getD "value" .null) else none) = d.get? "value" := by
  unfold requireOperationValue at h
  split_ifs at h with hop
  · rw [if_pos hop, get?_of_contains (require_eq_ok.mp (seq_eq_ok.mp h).1)]
  · rw [if_neg hop, contains_eq_false.mp (require_eq_ok.mp h)]

/-- **A decoded operation and its way back** read alike. -/
theorem decodeOperation_sameFields {index : ℕ} {operation recorded : Json}
    (h : decodeOperation index operation = .ok recorded) :
    ∃ d applied : Dict, operation = .obj d ∧
      operationForApplication recorded = .ok (.obj applied) ∧ SameFields applied d := by
  cases operation with
  | obj d =>
      simp only [decodeOperation, seq_eq_ok, require_eq_ok, sourceExactNonempty_eq_ok,
        Except.ok.injEq] at h
      obtain ⟨htarget, hop, hpath, hdocument, hvalue, -, rfl⟩ := h
      have hname : Dict.getD d "target" (.str "document") =
          .str ((Dict.getD d "target" (.str "document")).str?.getD "") := by
        cases hread : Dict.getD d "target" (.str "document") with
        | str s => rfl
        | _ =>
            rw [hread] at htarget
            exact absurd htarget (by decide : "" ∉ mutationTargets)
      refine ⟨d, _, rfl, operationForApplication_recorded _ _ _ _ _ _, ?_⟩
      obtain ⟨hop', htarget', hpath', hid', hvalue'⟩ := appliedItems_get? (Dict.textAt d "op")
        ((Dict.getD d "target" (.str "document")).str?.getD "")
        (if (Dict.getD d "target" (.str "document")).str?.getD "" = "document" then
          Dict.getD d "document_id" .null else .null)
        (Dict.textAt d "path")
        (if Dict.textAt d "op" = "set" then some (Dict.getD d "value" .null) else none)
      refine ⟨?_, ?_, ?_, ?_, ?_⟩
      · rw [Dict.getD, htarget', Option.getD_some]
        exact hname.symm
      · rw [hop', get?_of_textAt_mem hop (by decide)]
      · rw [hpath', hpath.get?]
      · rw [hid', requireOperationDocument_get? hdocument]
      · rw [hvalue', requireOperationValue_get? hvalue]
  | _ => simp [decodeOperation] at h

/-- A recorded operation of JSON parts can be written as text. -/
lemma recordedOperation_writable (sequence : ℕ) (op target path : String) {documentId : Json}
    (hid : documentId.WF ∧ documentId.isFinite = true) {value : Option Json}
    (hvalue : ∀ v ∈ value, v.WF ∧ v.isFinite = true) :
    (recordedOperation sequence op target documentId path (recordedValue value)).WF ∧
      (recordedOperation sequence op target documentId path (recordedValue value)).isFinite =
        true := by
  have hrecorded : (Json.obj (recordedValue value)).WF ∧
      (Json.obj (recordedValue value)).isFinite = true := by
    cases value with
    | some v =>
        have hv := hvalue v rfl
        exact ⟨Json.wf_ofList (by simp [hv.1, Json.WF]),
          isFinite_ofList (by simp [hv.2, Json.isFinite])⟩
    | none =>
        exact ⟨Json.wf_ofList (by simp [Json.WF]), isFinite_ofList (by simp [Json.isFinite])⟩
  constructor
  · refine Json.wf_ofList ?_
    simp only [List.forall_mem_cons, List.not_mem_nil, false_implies, implies_true, and_true]
    exact ⟨trivial, trivial, trivial, hid.1, trivial, hrecorded.1⟩
  · refine isFinite_ofList ?_
    simp only [List.forall_mem_cons, List.not_mem_nil, false_implies, implies_true, and_true]
    exact ⟨rfl, rfl, rfl, hid.2, rfl, hrecorded.2⟩

lemma decodeOperation_writable {index : ℕ} {operation recorded : Json} (hwf : operation.WF)
    (h : decodeOperation index operation = .ok recorded) :
    recorded.WF ∧ recorded.isFinite = true := by
  cases operation with
  | obj d =>
      simp only [decodeOperation, seq_eq_ok, Except.ok.injEq] at h
      obtain ⟨-, -, -, hdocument, hvalue, -, rfl⟩ := h
      refine recordedOperation_writable _ _ _ _ ?_ ?_
      · unfold requireOperationDocument at hdocument
        split_ifs at hdocument ⊢ with htarget
        · obtain ⟨s, hs, -⟩ := sourceExactNonempty_eq_ok.mp hdocument
          rw [hs]
          exact ⟨trivial, rfl⟩
        · exact ⟨trivial, rfl⟩
      · intro v hv
        have hget := requireOperationValue_get? hvalue
        rw [hv] at hget
        refine ⟨hwf.get? hget.symm, ?_⟩
        unfold requireOperationValue at hvalue
        split_ifs at hv hvalue with hset
        · obtain rfl := Option.some.inj hv
          exact require_eq_ok.mp (seq_eq_ok.mp hvalue).2
        · simp at hv
  | _ => simp [decodeOperation] at h

/-- The loop of the decoder: one recorded operation for each raw one. -/
lemma decodeOperations_forall₂ {items acc out : List Json} {i : ℕ}
    (h : enumerateM (fun index normalized operation => do
      let recorded ← decodeOperation index operation
      .ok (normalized ++ [recorded])) i acc items = .ok out) :
    ∃ recorded, out = acc ++ recorded ∧
      List.Forall₂ (fun operation r => ∃ j, decodeOperation j operation = .ok r) items recorded := by
  induction items generalizing i acc with
  | nil =>
      obtain rfl := Except.ok.inj h
      exact ⟨[], (List.append_nil _).symm, .nil⟩
  | cons operation rest ih =>
      simp only [enumerateM, bind_eq_ok, Except.ok.injEq] at h
      obtain ⟨_, ⟨r, hr, rfl⟩, hrest⟩ := h
      obtain ⟨recorded, rfl, hall⟩ := ih hrest
      exact ⟨r :: recorded, by rw [List.append_assoc]; rfl, .cons ⟨_, hr⟩ hall⟩

/-- The way back of the recorded operations. -/
lemma operationsForApplication_sameFields {items recorded : List Json}
    (h : List.Forall₂ (fun operation r => ∃ j, decodeOperation j operation = .ok r) items
      recorded) :
    ∃ applied, mapEach operationForApplication recorded = .ok applied ∧
      List.Forall₂ (fun x y => ∃ a b, x = .obj a ∧ y = .obj b ∧ SameFields a b) applied items := by
  induction h with
  | nil => exact ⟨[], rfl, .nil⟩
  | cons hfirst _ ih =>
      obtain ⟨j, hj⟩ := hfirst
      obtain ⟨d, a, rfl, hback, hfields⟩ := decodeOperation_sameFields hj
      obtain ⟨applied, hrest, hall⟩ := ih
      refine ⟨.obj a :: applied, ?_, .cons ⟨a, d, rfl, rfl, hfields⟩ hall⟩
      rw [mapEach, hback, ok_bind, hrest]
      rfl

lemma mutationId_of_exact {mutation : Dict}
    (h : IsExactText (mutation.getD "mutation_id" .null)) :
    mutationId mutation = .ok (mutation.textAt "mutation_id") := by
  have hget := h.get?
  obtain ⟨s, hs, ⟨hne, -⟩, -⟩ := h
  rw [Dict.getD, hget, Option.getD_some, Json.str.injEq] at hs
  rw [mutationId, hget]
  exact if_neg (hs ▸ hne)

/-- What a decoder has made of the raw bytes of a mutation. -/
structure DecodedFrom (mutation : Dict) (items : List Json) (decoded : DecodedMutation) :
    Prop where
  id : IsExactText (mutation.getD "mutation_id" .null)
  sameId : decoded.mutationId = mutation.textAt "mutation_id"
  list : mutation.getD "operations" .null = .arr items
  operations : List.Forall₂ (fun operation r => ∃ j, decodeOperation j operation = .ok r) items
    decoded.operations

lemma decodeMutationValue_eq_ok {value : Json} {decoded : DecodedMutation}
    (h : decodeMutationValue value = .ok decoded) :
    ∃ (mutation : Dict) (items : List Json), value = .obj mutation ∧
      DecodedFrom mutation items decoded := by
  cases value with
  | obj d =>
      simp only [decodeMutationValue, seq_eq_ok, sourceExactNonempty_eq_ok] at h
      obtain ⟨hid, h⟩ := h
      cases hlist : Dict.getD d "operations" .null with
      | arr items =>
          simp only [hlist, bind_eq_ok, exists_unit, Except.ok.injEq] at h
          obtain ⟨-, operations, hloop, rfl⟩ := h
          obtain ⟨recorded, rfl, hall⟩ := decodeOperations_forall₂ (i := 0) hloop
          exact ⟨d, items, rfl, hid, rfl, hlist, hall⟩
      | _ => simp [hlist] at h
  | _ => simp [decodeMutationValue] at h

lemma mutationMaterial_getItem (raw : Bytes) (decoded : DecodedMutation) :
    (mutationMaterial raw decoded).getItem "mutation_id" = .ok (.str decoded.mutationId) ∧
      (mutationMaterial raw decoded).getItem "applied_operations" =
        .ok (.arr decoded.operations) :=
  ⟨Dict.getItem_eq_ok.mpr (Dict.get?_ofList_of_mem (by simp) (by simp)),
    Dict.getItem_eq_ok.mpr (Dict.get?_ofList_of_mem (by simp) (by simp))⟩

/-- A mutation as an application takes it. -/
lemma mutation_get? (id operations : Json) :
    (Dict.ofList [("mutation_id", id), ("operations", operations)]).get? "mutation_id" = some id ∧
      (Dict.ofList [("mutation_id", id), ("operations", operations)]).getD "operations" .null =
        operations := by
  refine ⟨Dict.get?_ofList_of_mem (by simp) (by simp), ?_⟩
  rw [Dict.getD, Dict.get?_ofList_of_mem (by simp) (by simp : ("operations", operations) ∈ _)]
  rfl

variable [PyUnicode] in
/-- **The material of a mutation does what the mutation does.** -/
theorem DecodedFrom.applies {mutation : Dict} {items : List Json} {decoded : DecodedMutation}
    (h : DecodedFrom mutation items decoded) (raw : Bytes) (case : Dict) :
    applyMutationMaterial case (mutationMaterial raw decoded) = applyMutation case mutation := by
  obtain ⟨applied, hback, hall⟩ := operationsForApplication_sameFields h.operations
  obtain ⟨hid, hoperations⟩ := mutationMaterial_getItem raw decoded
  obtain ⟨hid', hoperations'⟩ := mutation_get? (.str decoded.mutationId) (.arr applied)
  have hrawId := mutationId_of_exact h.id
  have hback' : mutationForApplication (mutationMaterial raw decoded) =
      .ok (Dict.ofList [("mutation_id", .str decoded.mutationId), ("operations", .arr applied)]) := by
    simp only [mutationForApplication, hoperations, Json.iterate, hback, hid, ok_bind]
  have hid'' : mutationId (Dict.ofList
      [("mutation_id", .str decoded.mutationId), ("operations", .arr applied)]) =
      .ok (mutation.textAt "mutation_id") := by
    rw [← hrawId, mutationId, mutationId, hid', h.sameId, h.id.get?]
  rw [applyMutationMaterial, hback', ok_bind, applyMutation_eq hid'', applyMutation_eq hrawId,
    hoperations', h.list, applyAll_congr hall]

/-- The material of a mutation is what is read back of it. -/
theorem DecodedFrom.stored {mutation : Dict} {items : List Json} {decoded : DecodedMutation}
    (h : DecodedFrom mutation items decoded) (hwf : (Json.obj mutation).WF) (raw : Bytes) :
    storedMaterial (mutationMaterial raw decoded) = .ok (mutationMaterial raw decoded) := by
  have hitems := Json.wf_arr.mp (hwf.get? (get?_of_getD h.list (by simp)))
  have hoperations : ∀ r ∈ decoded.operations, r.WF ∧ r.isFinite = true := by
    intro r hr
    obtain ⟨operation, hin, j, hj⟩ := forall₂_exists_right h.operations.flip hr
    exact decodeOperation_writable (hitems operation hin) hj
  have hblob : (Json.obj (resolutionBlob raw)).WF ∧
      (Json.obj (resolutionBlob raw)).isFinite = true :=
    ⟨Json.wf_ofList (by simp [Json.WF]), isFinite_ofList (by simp [Json.isFinite])⟩
  refine storedMaterial_eq (Json.wf_ofList ?_) (isFinite_ofList ?_)
  · simp only [List.forall_mem_cons, List.not_mem_nil, false_implies, implies_true, and_true]
    exact ⟨trivial, trivial, hblob.1, trivial, Json.wf_arr.mpr fun r hr => (hoperations r hr).1⟩
  · simp only [List.forall_mem_cons, List.not_mem_nil, false_implies, implies_true, and_true]
    exact ⟨rfl, rfl, hblob.2, rfl, isFinite_arr.mpr fun r hr => (hoperations r hr).2⟩

end Mutation

/-! ## The resolution -/

section Resolution

/-- A material that JSON can hold, with the identity and the operations of a projection. -/
structure RecordsResolution (material : Dict) (projected : ResolutionProjection) : Prop where
  wf : (Json.obj material).WF
  finite : (Json.obj material).isFinite = true
  resolutionId : material.get? "resolution_id" = some (.str projected.resolutionId)
  operations : material.get? "applied_operations" = some (.arr projected.appliedOperations)

/-- **A projected operation and its way back** read alike. -/
theorem projectedOperation_sameFields {operation : Json} (h : IsSetOperation operation)
    (hid : IsExactText (operationField operation "document_id"))
    (hpath : IsExactText (operationField operation "path")) (index : ℕ) :
    ∃ d applied : Dict, operation = .obj d ∧
      nativeOperationForApplication (appliedOperation index (operationOf operation)) =
        .ok (.obj applied) ∧ SameFields applied d := by
  obtain ⟨d, rfl, hkeys, hop⟩ := h
  have htarget : d.get? "target" = none := by
    have hnotin : "target" ∉ d.keys := fun hin => absurd (hkeys.1 _ hin) (by decide)
    simpa [Dict.mem_keys_iff, Dict.contains] using hnotin
  have hvalue := get?_of_contains (Dict.mem_keys_iff.mp (hkeys.2 "value" (by decide)))
  have hopGet := get?_of_contains (Dict.mem_keys_iff.mp (hkeys.2 "op" (by decide)))
  obtain ⟨hop', htarget', hpath', hid', hvalue'⟩ := recordedOperation_getItem index "set"
    "document" (.str (d.textAt "document_id")) (d.textAt "path")
    (recordedValue (some (d.getD "value" .null)))
  have hjson := (recordedValue_some (d.getD "value" .null)).2
  have hback : nativeOperationForApplication (appliedOperation index (operationOf (.obj d))) =
      .ok (.obj (Dict.ofList
        [("op", .str "set"), ("target", .str "document"),
         ("document_id", .str (d.textAt "document_id")), ("path", .str (d.textAt "path")),
         ("value", d.getD "value" .null)])) := by
    show nativeOperationForApplication (recordedOperation index "set" "document"
      (.str (d.textAt "document_id")) (d.textAt "path")
      (recordedValue (some (d.getD "value" .null)))) = _
    simp only [nativeOperationForApplication, hop', htarget', hpath', hid', hvalue', hjson,
      ok_bind]
  have hread : ∀ {key : String} {v : Json},
      (key, v) ∈ [("op", .str "set"), ("target", .str "document"),
        ("document_id", .str (d.textAt "document_id")), ("path", .str (d.textAt "path")),
        ("value", d.getD "value" .null)] → _ :=
    fun h => Dict.get?_ofList_of_mem (by simp) h
  refine ⟨d, _, rfl, hback, ?_, ?_, ?_, ?_, ?_⟩
  · rw [Dict.getD, hread (by simp : ("target", .str "document") ∈ _), Dict.getD, htarget]
    rfl
  · rw [hread (by simp : ("op", .str "set") ∈ _), hopGet, hop]
  · rw [hread (by simp : ("path", .str (d.textAt "path")) ∈ _)]
    exact (IsExactText.get? hpath).symm
  · rw [hread (by simp : ("document_id", .str (d.textAt "document_id")) ∈ _)]
    exact (IsExactText.get? hid).symm
  · rw [hread (by simp : ("value", d.getD "value" .null) ∈ _), hvalue]

/-- The way back of the projected operations. -/
lemma nativeOperations_sameFields {items : List Json}
    (h : ∀ operation ∈ items, IsSetOperation operation ∧
      IsExactText (operationField operation "document_id") ∧
      IsExactText (operationField operation "path") ∧
      (operationField operation "value").isFinite = true) (record : ℕ → Operation → Json)
    (hrecord : ∀ i o, ∃ j, record i o = appliedOperation j o) :
    ∃ applied, mapEach nativeOperationForApplication
        ((items.map operationOf).mapIdx record) = .ok applied ∧
      List.Forall₂ (fun x y => ∃ a b, x = .obj a ∧ y = .obj b ∧ SameFields a b) applied items := by
  induction items generalizing record with
  | nil => exact ⟨[], rfl, .nil⟩
  | cons operation rest ih =>
      obtain ⟨hset, hid, hpath, -⟩ := h operation List.mem_cons_self
      obtain ⟨j, hj⟩ := hrecord 0 (operationOf operation)
      obtain ⟨d, a, rfl, hback, hfields⟩ := projectedOperation_sameFields hset hid hpath j
      obtain ⟨applied, hrest, hall⟩ := ih (fun x hx => h x (List.mem_cons_of_mem _ hx))
        (fun i => record (i + 1)) (fun i o => hrecord (i + 1) o)
      refine ⟨.obj a :: applied, ?_, .cons ⟨a, d, rfl, rfl, hfields⟩ hall⟩
      rw [List.map_cons, List.mapIdx_cons, hj, mapEach, hback, ok_bind, hrest]
      rfl

/-- What a projection has been read from. -/
lemma projectResolution_eq_ok {value : Json} {projected : ResolutionProjection}
    (h : projectResolution value = .ok projected) :
    ∃ (d : Dict) (items : List Json), value = .obj d ∧ d.getD "operations" .null = .arr items ∧
      (∀ operation ∈ items, IsSetOperation operation ∧
        IsExactText (operationField operation "document_id") ∧
        IsExactText (operationField operation "path") ∧
        (operationField operation "value").isFinite = true) ∧
      projected.appliedOperations = appliedOperations (items.map operationOf) := by
  cases value with
  | obj d =>
      simp only [projectResolution, seq_eq_ok] at h
      obtain ⟨-, -, h⟩ := h
      cases hlist : Dict.getD d "operations" .null with
      | arr items =>
          simp only [hlist, seq_eq_ok, projectOperations_eq_ok, Except.ok.injEq] at h
          obtain ⟨-, hoperations, rfl⟩ := h
          exact ⟨d, items, rfl, hlist, hoperations, rfl⟩
      | _ => simp [hlist] at h
  | _ => simp [projectResolution] at h

variable [PyUnicode] in
/-- The documents do not depend on the identity of the change. -/
lemma documentsAfter_eq {case mutation : Dict} {id : String} (hid : mutationId mutation = .ok id) :
    documentsAfter (applyMutation case mutation) =
      documentsAfter (applyAll case (mutation.getD "operations" .null)) := by
  rw [applyMutation_eq hid]
  cases applyAll case (mutation.getD "operations" .null) with
  | error e => rfl
  | ok applied =>
      have hget : (applied.set "active_mutation" (.str id)).get? "documents" =
          applied.get? "documents" := by simp
      simp only [documentsAfter, ok_bind, hget]

variable [PyUnicode] in
/-- **The material of a replay leaves the documents that the raw operations leave.** -/
theorem RecordsResolution.applies {material d : Dict} {items : List Json}
    {projected : ResolutionProjection} (h : RecordsResolution material projected)
    (hlist : d.getD "operations" .null = .arr items)
    (hitems : ∀ operation ∈ items, IsSetOperation operation ∧
      IsExactText (operationField operation "document_id") ∧
      IsExactText (operationField operation "path") ∧
      (operationField operation "value").isFinite = true)
    (hprojected : projected.appliedOperations = appliedOperations (items.map operationOf))
    (case : Dict) {id : String} (hid : id ≠ "") :
    documentsAfter (applyNativeMaterial case material) =
      documentsAfter (applyRawOperations case d id) := by
  obtain ⟨applied, hback, hall⟩ := nativeOperations_sameFields hitems appliedOperation
    fun i o => ⟨i, rfl⟩
  have hname : s!"native-replay:{(Json.str projected.resolutionId).toStr}" ≠ "" := by
    intro hempty
    have hprefix := congrArg (fun s : String => s.toList.length) hempty
    simp at hprefix
    exact absurd hprefix.1 (by decide)
  obtain ⟨hid₁, hoperations₁⟩ := mutation_get?
    (.str s!"native-replay:{(Json.str projected.resolutionId).toStr}") (.arr applied)
  obtain ⟨hid₂, hoperations₂⟩ := mutation_get? (.str id) (d.getD "operations" .null)
  have hnative : nativeOperationsForApplication material = .ok (Dict.ofList
      [("mutation_id", .str s!"native-replay:{(Json.str projected.resolutionId).toStr}"),
       ("operations", .arr applied)]) := by
    simp only [nativeOperationsForApplication, Dict.getItem, h.resolutionId, h.operations,
      hprojected, Json.iterate, appliedOperations, hback, ok_bind]
  rw [applyNativeMaterial, hnative, ok_bind, applyRawOperations,
    documentsAfter_eq (by rw [mutationId, hid₁]; exact if_neg hname),
    documentsAfter_eq (by rw [mutationId, hid₂]; exact if_neg hid), hoperations₁, hoperations₂,
    hlist, applyAll_congr hall]

end Resolution

/-! ## Both changes -/

section Changes

variable [PyUnicode]

/-- The material of a mutation, fresh or read back from its text, does to every case what the
mutation in the raw bytes does. -/
def MutationLossless (raw : Bytes) (decoded : DecodedMutation) : Prop := ∃ mutation : Dict,
  strictUtf8Json raw "invalid mutation raw JSON" = .ok (.obj mutation) ∧
  ∀ case, applyMutationMaterial case (mutationMaterial raw decoded) = applyMutation case mutation ∧
    (do
      let stored ← storedMaterial (mutationMaterial raw decoded)
      applyMutationMaterial case stored) = applyMutation case mutation

/-- The material of a replay, fresh or read back from its text, leaves in every case the documents
that the operations in the raw bytes leave. -/
def ResolutionLossless (raw : Bytes) (material : Dict) : Prop := ∃ resolution : Dict,
  strictUtf8Json raw "native resolution bytes are invalid JSON" = .ok (.obj resolution) ∧
  ∀ case id, id ≠ "" →
    documentsAfter (applyNativeMaterial case material) =
      documentsAfter (applyRawOperations case resolution id) ∧
    documentsAfter (do
      let stored ← storedMaterial material
      applyNativeMaterial case stored) = documentsAfter (applyRawOperations case resolution id)

/-- **Operation material loses nothing**: of every mutation and every native resolution that the
lineage accepts, the material does to every case what the raw bytes do, also after it has been
written to canonical text and read back. -/
theorem operationMaterial_applies_as_raw {raw raw' : Bytes} {decoded : DecodedMutation}
    (hmutation : decodeMutation raw = .ok decoded) {projected : ResolutionProjection}
    (hresolution : nativeResolutionProjection raw' = .ok projected) {material : Dict}
    (hmaterial : RecordsResolution material projected) :
    MutationLossless raw decoded ∧ ResolutionLossless raw' material := by
  simp only [decodeMutation, bind_eq_ok] at hmutation
  obtain ⟨value, hread, hdecoded⟩ := hmutation
  obtain ⟨mutation, items, rfl, hfrom⟩ := decodeMutationValue_eq_ok hdecoded
  have hstored := hfrom.stored (strictUtf8Json_wf hread) raw
  simp only [nativeResolutionProjection, bind_eq_ok] at hresolution
  obtain ⟨value', hread', hprojected⟩ := hresolution
  obtain ⟨d, items', rfl, hlist, hitems, hoperations⟩ := projectResolution_eq_ok hprojected
  have happlies := fun case id (hid : id ≠ "") =>
    hmaterial.applies hlist hitems hoperations case hid
  refine ⟨⟨mutation, hread, fun case => ⟨hfrom.applies raw case, ?_⟩⟩,
    ⟨d, hread', fun case id hid => ⟨happlies case id hid, ?_⟩⟩⟩
  · rw [hstored, ok_bind]
    exact hfrom.applies raw case
  · rw [storedMaterial_eq hmaterial.wf hmaterial.finite, ok_bind]
    exact happlies case id hid

end Changes

section Ascii

attribute [local instance] asciiUnicode

/-- A mutation that sets a field of a document to nothing and deletes a field of the event. -/
def sampleMutation : Dict := Dict.ofList
  [("mutation_id", .str "M-1"),
   ("operations", .arr
    [.obj (Dict.ofList [("op", .str "set"), ("document_id", .str "FLOW"),
      ("path", .str "fields.process_steps"), ("value", .null)]),
     .obj (Dict.ofList [("op", .str "delete"), ("target", .str "event"),
      ("path", .str "approved_at")])])]

/-- Its bytes. -/
def sampleMutationBytes : Bytes := encodeUtf8 (String.ofList (jsonText (.obj sampleMutation)))

/-- The projection of the resolution that keeps the steps. -/
def keptProjection : ResolutionProjection :=
  ⟨"R-1", "RS-1", appliedOperations (keptOperations.map operationOf)⟩

/-- A material with that projection. -/
def keptMaterial : Dict := Dict.ofList
  [("operation_kind", .str "NATIVE_REPLAY"), ("resolution_id", .str "R-1"),
   ("applied_operations", .arr keptProjection.appliedOperations)]

/-- It is what the resolution is projected to. -/
lemma keptOperations_projected :
    nativeResolutionProjection (sampleResolutionBytes keptOperations) = .ok keptProjection := by
  rw [(sampleResolutionBytes_parsed (by decide +kernel) (by decide +kernel)).2]
  decide +kernel

theorem operationMaterial_applies_as_raw_sample : ∃ decoded,
    decodeMutation sampleMutationBytes = .ok decoded ∧
    nativeResolutionProjection (sampleResolutionBytes keptOperations) = .ok keptProjection ∧
    MutationLossless sampleMutationBytes decoded ∧
    ResolutionLossless (sampleResolutionBytes keptOperations) keptMaterial := by
  have hdecoded : ∃ decoded, decodeMutation sampleMutationBytes = .ok decoded := by
    rw [decodeMutation, sampleMutationBytes,
      strictUtf8Json_jsonText _ (by decide +kernel) (by decide +kernel)]
    exact exists_ok_of_isSome (by decide +kernel)
  obtain ⟨decoded, hdecoded⟩ := hdecoded
  have hmaterial : RecordsResolution keptMaterial keptProjection :=
    ⟨by decide +kernel, by decide +kernel, by decide +kernel, by decide +kernel⟩
  exact ⟨decoded, hdecoded, keptOperations_projected,
    operationMaterial_applies_as_raw hdecoded keptOperations_projected hmaterial⟩

end Ascii

end QualityCI

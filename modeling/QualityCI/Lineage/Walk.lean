import QualityCI.Lib.Ancestry
import QualityCI.Lib.Utf8
import QualityCI.Lineage.Derivation

/-!
# The stored lineage of a case

A case that was changed is not stored itself.  The store keeps the sources of its root, and for
each change a row with the hashes before and after it, and with the hashes of the raw bytes of the
change and of its canonical material; both are in the table of blobs.  To read the case, the rows
are collected from the last one up to the root and every change is derived again from its bytes.

How a root is read, and how the material and the artifacts of a native replay are read from the
approvals and artifacts of the other tables, is given; the walk only says what it does with them.

* `SqlValue`, `LineageRow`, `BlobRow`, `LineageTables` — the tables, with whatever is in their
  columns.
* `storedCaseSourceContextWithLineage` — the walk.
* **`storedWalk_sound`** — whatever the tables hold, the walk ends, and a context that it returns is
  consistent, ends in the lineage that was asked for, and has the rows and blobs of its lineages.
-/

namespace QualityCI

open Py

/-! ## The tables -/

/-- A value of a column, as it is handed to the program.  A column for text holds no numbers, and
one for integers no real that is an integer. -/
inductive SqlValue
  | null
  | int (n : ℤ)
  | real (x : PyFloat)
  | text (s : String)
  | blob (raw : Bytes)
  deriving DecidableEq

/-- A text or `NULL`. -/
def optionValue : Option String → SqlValue
  | some s => .text s
  | none => .null

/-- `bytes(value)`. -/
def bytesOf : SqlValue → Result Bytes
  | .blob raw => .ok raw
  | .int n => if n < 0 then valueError "negative count" else .ok (List.replicate n.toNat 0)
  | .text _ => typeError "string argument without an encoding"
  | .real _ => typeError "cannot convert 'float' object to bytes"
  | .null => typeError "cannot convert 'NoneType' object to bytes"

/-- A row of `case_lineage_bindings`. -/
structure LineageRow where
  lineageHash : SqlValue
  lineageContractVersion : SqlValue
  rootBindingHash : SqlValue
  parentLineageHash : SqlValue
  inputCaseHash : SqlValue
  outputCaseHash : SqlValue
  operationKind : SqlValue
  operationContractVersion : SqlValue
  operationMaterialHash : SqlValue
  operationBlobSourceHash : SqlValue
  operationBlobSizeBytes : SqlValue
  operationMaterialSourceHash : SqlValue
  operationMaterialSizeBytes : SqlValue
  canonicalPayloadJson : SqlValue
  deriving DecidableEq

/-- A row of `artifact_blobs`. -/
structure BlobRow where
  sourceHash : SqlValue
  sizeBytes : SqlValue
  rawBytes : SqlValue
  deriving DecidableEq

/-- The lineages, the blobs, and the tables that only the readers of roots and replays look at. -/
structure LineageTables (Other : Type) where
  lineages : List LineageRow
  blobs : List BlobRow
  other : Other

/-- `stored = key` in a query: nothing equals `NULL`. -/
def IsKey (stored key : SqlValue) : Prop := key ≠ .null ∧ stored = key

instance (stored key : SqlValue) : Decidable (IsKey stored key) := inferInstanceAs (Decidable (_ ∧ _))

section Tables

variable {Other : Type}

/-- `SELECT * FROM case_lineage_bindings WHERE lineage_hash=?`. -/
def LineageTables.lineage? (t : LineageTables Other) (key : SqlValue) : Option LineageRow :=
  t.lineages.find? fun row => decide (IsKey row.lineageHash key)

/-- `SELECT size_bytes,raw_bytes FROM artifact_blobs WHERE source_hash=?`. -/
def LineageTables.blob? (t : LineageTables Other) (key : SqlValue) : Option BlobRow :=
  t.blobs.find? fun row => decide (IsKey row.sourceHash key)

end Tables

/-! ## What the store raises -/

/-- A `StoreIntegrityError`, an `sqlite3.IntegrityError`, or another exception that escapes. -/
inductive StoreError
  | integrity (message : String)
  | constraint
  | raised (e : PyError)
  deriving DecidableEq

abbrev StoreResult (α : Type) := Except StoreError α

def integrityError {α : Type} (message : String) : StoreResult α := .error (.integrity message)

/-- `if not condition: raise StoreIntegrityError(message)`. -/
def intact (condition : Prop) [Decidable condition] (message : String) : StoreResult Unit :=
  if condition then .ok () else integrityError message

/-- A call outside any handler. -/
def uncaught {α : Type} : Result α → StoreResult α
  | .ok a => .ok a
  | .error e => .error (.raised e)

/-- A call whose exceptions of the handled classes become a `StoreIntegrityError`. -/
def handling {α : Type} (handled : ErrorClass → Prop) [DecidablePred handled] (message : String) :
    Result α → StoreResult α
  | .ok a => .ok a
  | .error e => if handled e.cls then integrityError message else .error (.raised e)

/-! ## The row of a lineage -/

namespace CaseSourceLineage

/-- `operation_material()`. -/
def operationMaterial (l : CaseSourceLineage) : Result Dict := do
  let material ← loads ⟨true⟩ l.operationMaterialJson
  match material with
  | .obj d => .ok d
  | _ => .error ⟨.assertionError, "sealed lineage operation material is not an object"⟩

/-- `to_dict()`. -/
def toDict (l : CaseSourceLineage) : Result Dict := do
  let material ← l.operationMaterial
  .ok <| Dict.ofList
    [("contract_version", .str l.contractVersion), ("lineage_hash", .str l.lineageHash),
     ("root_binding_hash", .str l.rootBindingHash),
     ("parent_lineage_hash", optionJson l.parentLineageHash),
     ("input_case_hash", .str l.inputCaseHash), ("operation_kind", .str l.operationKind),
     ("operation_contract_version", .str l.operationContractVersion),
     ("operation_material_hash", .str l.operationMaterialHash),
     ("operation_material", .obj material), ("output_case_hash", .str l.outputCaseHash)]

/-- The bytes of the material. -/
def operationMaterialBytes (l : CaseSourceLineage) : Bytes := encodeUtf8 l.operationMaterialJson

/-- The row that `_lineage_row_matches_rebuilt` expects and `_stage_case_source_lineages` writes. -/
def row (l : CaseSourceLineage) : Result LineageRow := do
  let payload ← l.toDict
  let payloadJson ← dumps (.obj payload)
  .ok
    { lineageHash := .text l.lineageHash
      lineageContractVersion := .text l.contractVersion
      rootBindingHash := .text l.rootBindingHash
      parentLineageHash := optionValue l.parentLineageHash
      inputCaseHash := .text l.inputCaseHash
      outputCaseHash := .text l.outputCaseHash
      operationKind := .text l.operationKind
      operationContractVersion := .text l.operationContractVersion
      operationMaterialHash := .text l.operationMaterialHash
      operationBlobSourceHash := .text (sha256Bytes l.operationBlobBytes)
      operationBlobSizeBytes := .int l.operationBlobBytes.length
      operationMaterialSourceHash := .text (sha256Bytes l.operationMaterialBytes)
      operationMaterialSizeBytes := .int l.operationMaterialBytes.length
      canonicalPayloadJson := .text payloadJson }

end CaseSourceLineage

section Contexts

variable [PyUnicode]

/-! ## The walk -/

/-- A root as it has been built from its sources. -/
structure PreparedRoot where
  context : LineageContext
  prepared : ∃ build bundle, prepareCaseSourceContext build bundle = .ok context

/-- The material and the artifacts that a native replay is derived from. -/
structure NativeInputs where
  material : Dict
  artifacts : SealedArtifactContext
  material_wf : (Json.obj material).WF
  documents_wf : ∀ doc ∈ artifacts.documents, (Json.obj doc).WF

/-- What the walk is given: `_stored_case_source_context`, `_stored_native_replay_bundle` with the
checks of the bundle, and the writer of the audit chain. -/
structure StoreReaders (Other : Type) where
  root : LineageTables Other → String → StoreResult PreparedRoot
  native : LineageTables Other → LineageContext → Dict → Bytes → Result NativeInputs
  audit : LineageTables Other → String → StoreResult Other

variable {Other : Type}

/-- The rows of a root, each under its hash and with the hash of its parent. -/
def lineagePedigree (t : LineageTables Other) (bindingHash : String) :
    Ancestry.Pedigree SqlValue LineageRow StoreError where
  fetch := t.lineage?
  parent row := if row.parentLineageHash = .null then none else some row.parentLineageHash
  accept row := intact (row.rootBindingHash = .text bindingHash)
    "stored case lineage crosses its root binding"
  cycle := .integrity "stored case lineage contains a cycle"
  missing := .integrity "stored case lineage ancestor is missing"

/-- The sizes and hashes of a row and its blobs are those of the bytes. -/
structure MatchesBytes (row : LineageRow) (operation material : BlobRow) (raw bytes : Bytes) :
    Prop where
  operationSize : operation.sizeBytes = .int raw.length
  operationRowSize : row.operationBlobSizeBytes = .int raw.length
  operationHash : row.operationBlobSourceHash = .text (sha256Bytes raw)
  materialSize : material.sizeBytes = .int bytes.length
  materialRowSize : row.operationMaterialSizeBytes = .int bytes.length
  materialHash : row.operationMaterialSourceHash = .text (sha256Bytes bytes)

instance (row : LineageRow) (operation material : BlobRow) (raw bytes : Bytes) :
    Decidable (MatchesBytes row operation material raw bytes) :=
  decidable_of_iff (operation.sizeBytes = .int raw.length ∧
      row.operationBlobSizeBytes = .int raw.length ∧
      row.operationBlobSourceHash = .text (sha256Bytes raw) ∧
      material.sizeBytes = .int bytes.length ∧
      row.operationMaterialSizeBytes = .int bytes.length ∧
      row.operationMaterialSourceHash = .text (sha256Bytes bytes))
    ⟨fun ⟨a, b, c, d, e, f⟩ => ⟨a, b, c, d, e, f⟩, fun ⟨a, b, c, d, e, f⟩ => ⟨a, b, c, d, e, f⟩⟩

/-- `except (UnicodeError, ValueError)`: the first is a `ValueError`. -/
def jsonErrors (cls : ErrorClass) : Prop := cls.isA .valueError = true

instance : DecidablePred jsonErrors := fun _ => inferInstanceAs (Decidable (_ = _))

/-- The text and the value of the material of a row. -/
def readMaterial (bytes : Bytes) : StoreResult (String × Dict) :=
  match decodeUtf8 bytes with
  | none => integrityError "stored case lineage material is invalid JSON"
  | some text => do
      let value ← handling jsonErrors "stored case lineage material is invalid JSON"
        (loads ⟨true⟩ text)
      match value with
      | .obj material => do
          let canonical ← uncaught (dumps (.obj material))
          intact (text = canonical) "stored case lineage material is not canonical JSON"
          .ok (text, material)
      | _ => integrityError "stored case lineage material is not canonical JSON"

/-- The change that a row stands for. -/
def deriveStored (r : StoreReaders Other) (t : LineageTables Other)
    (c : LineageContext) (operationKind : SqlValue) (material : Dict) (raw : Bytes) :
    Result LineageContext :=
  if operationKind = .text "MUTATION" then derive c (.mutation raw)
  else if operationKind = .text "NATIVE_REPLAY" then do
    let inputs ← r.native t c material raw
    derive c (.nativeReplay raw inputs.material inputs.artifacts inputs.material_wf
      inputs.documents_wf)
  else valueError "stored case lineage operation kind is unknown"

/-- The row against the lineage that its bytes have led to. -/
def checkRebuilt (c : LineageContext) (row : LineageRow) (text : String)
    (material : Dict) : StoreResult Unit :=
  let message := "stored case lineage differs from rebuilt operation bytes"
  match c.lineages.getLast? with
  | none => .error (.raised ⟨.indexError, "tuple index out of range"⟩)
  | some rebuilt => do
      let rebuiltMaterial ← uncaught rebuilt.operationMaterial
      intact (pyEq (.obj rebuiltMaterial) (.obj material) = true ∧
        rebuilt.operationMaterialJson = text) message
      let expected ← uncaught rebuilt.row
      intact (row = expected) message

/-- One row, in the loop of `_stored_case_source_context_with_lineage`. -/
def rebuildRow (r : StoreReaders Other) (t : LineageTables Other)
    (c : LineageContext) (above : SqlValue) (row : LineageRow) :
    StoreResult LineageContext := do
  intact (row.parentLineageHash = above) "stored case lineage parent order is inconsistent"
  match t.blob? row.operationBlobSourceHash, t.blob? row.operationMaterialSourceHash with
  | some operation, some material => do
      let raw ← uncaught (bytesOf operation.rawBytes)
      let bytes ← uncaught (bytesOf material.rawBytes)
      intact (MatchesBytes row operation material raw bytes)
        "stored case lineage material hash or size differs from bytes"
      let (text, material) ← readMaterial bytes
      let c ← handling rebuildErrors "stored operation bytes cannot rebuild their lineage"
        (deriveStored r t c row.operationKind material raw)
      checkRebuilt c row text material
      .ok c
  | _, _ => integrityError "stored case lineage material is missing"

/-- The loop, over the rows from the eldest on. -/
def rebuildRows (r : StoreReaders Other) (t : LineageTables Other) :
    LineageContext → SqlValue → List LineageRow → StoreResult LineageContext
  | c, _, [] => .ok c
  | c, above, row :: rest => do
      let c ← rebuildRow r t c above row
      rebuildRows r t c row.lineageHash rest

/-- The walk from a lineage of a root that has been read. -/
def walkFrom (r : StoreReaders Other) (t : LineageTables Other) (steps : ℕ)
    (root : PreparedRoot) (terminal : String) :
    Option (StoreResult LineageContext) :=
  if isLowerSha terminal = false then
    some (integrityError "stored terminal lineage hash is invalid")
  else do
    let collected ← Ancestry.ancestors (lineagePedigree t root.context.caseSourceBindingHash) steps [] []
      (some (.text terminal))
    pure do
      let rows ← collected
      let c ← rebuildRows r t root.context .null rows
      match c.lineages.getLast? with
      | none => .error (.raised ⟨.indexError, "tuple index out of range"⟩)
      | some last => do
          intact (last.lineageHash = terminal) "stored terminal lineage cannot be reached"
          .ok c

/-- `_stored_case_source_context_with_lineage`; `none` while the loop over the parents has not ended
within the steps. -/
def storedCaseSourceContextWithLineage (r : StoreReaders Other)
    (t : LineageTables Other) (steps : ℕ) (sourceSetHash : String) (terminal : Option String) :
    Option (StoreResult LineageContext) :=
  match r.root t sourceSetHash, terminal with
  | .error e, _ => some (.error e)
  | .ok root, none => some (.ok root.context)
  | .ok root, some terminal => walkFrom r t steps root terminal

/-! ## Reading the calls -/

omit [PyUnicode] in
@[simp] lemma intact_eq_ok {condition : Prop} [Decidable condition] {message : String} {u : Unit} :
    intact condition message = .ok u ↔ condition := by
  rw [intact]
  split_ifs with h <;> simp [h, integrityError]

omit [PyUnicode] in
@[simp] lemma uncaught_eq_ok {α : Type} {x : Result α} {a : α} :
    uncaught x = .ok a ↔ x = .ok a := by
  cases x <;> simp [uncaught]

omit [PyUnicode] in
@[simp] lemma handling_eq_ok {α : Type} {handled : ErrorClass → Prop} [DecidablePred handled]
    {message : String} {x : Result α} {a : α} :
    handling handled message x = .ok a ↔ x = .ok a := by
  cases x with
  | ok b => simp [handling]
  | error e =>
      simp only [handling, reduceCtorEq, iff_false]
      split_ifs <;> simp [integrityError]

omit [PyUnicode] in
@[simp] lemma storeBind_eq_ok {α β : Type} {x : StoreResult α} {f : α → StoreResult β} {b : β} :
    (x >>= f) = .ok b ↔ ∃ a, x = .ok a ∧ f a = .ok b := by
  cases x with
  | ok a => simp [bind, Except.bind]
  | error e => simp [bind, Except.bind]

/-! ## Whatever the tables hold -/

/-- The bytes are in the table of blobs, with their size. -/
def StoredBlob (t : LineageTables Other) (raw : Bytes) : Prop :=
  ∃ blob, t.blob? (.text (sha256Bytes raw)) = some blob ∧ blob.sizeBytes = .int raw.length ∧
    bytesOf blob.rawBytes = .ok raw

/-- The row and the blobs of a lineage are in the tables. -/
structure Stored (t : LineageTables Other) (l : CaseSourceLineage) : Prop where
  row : ∃ row, t.lineage? (.text l.lineageHash) = some row ∧ l.row = .ok row
  operation : StoredBlob t l.operationBlobBytes
  material : StoredBlob t l.operationMaterialBytes

omit [PyUnicode] in
lemma lineage?_self {t : LineageTables Other} {key : SqlValue} {row : LineageRow}
    (h : t.lineage? key = some row) : row ∈ t.lineages ∧ row.lineageHash = key := by
  have hkey := List.find?_some h
  exact ⟨List.mem_of_find?_eq_some h, (of_decide_eq_true hkey).2⟩

omit [PyUnicode] in
lemma row_eq_ok {l : CaseSourceLineage} {row : LineageRow} (h : l.row = .ok row) :
    row.lineageHash = .text l.lineageHash ∧
      row.operationBlobSourceHash = .text (sha256Bytes l.operationBlobBytes) ∧
      row.operationMaterialSourceHash = .text (sha256Bytes l.operationMaterialBytes) := by
  simp only [CaseSourceLineage.row, bind_eq_ok, Except.ok.injEq] at h
  obtain ⟨payload, -, json, -, rfl⟩ := h
  exact ⟨rfl, rfl, rfl⟩

omit [PyUnicode] in
lemma readMaterial_eq_ok {bytes : Bytes} {text : String} {material : Dict}
    (h : readMaterial bytes = .ok (text, material)) :
    decodeUtf8 bytes = some text ∧ loads ⟨true⟩ text = .ok (.obj material) := by
  rw [readMaterial] at h
  cases hdecode : decodeUtf8 bytes with
  | none => simp [hdecode, integrityError] at h
  | some read =>
      simp only [hdecode, storeBind_eq_ok, handling_eq_ok] at h
      obtain ⟨value, hvalue, h⟩ := h
      cases value with
      | obj d =>
          simp only [storeBind_eq_ok, exists_unit, Except.ok.injEq, Prod.mk.injEq] at h
          obtain ⟨_, -, -, rfl, rfl⟩ := h
          exact ⟨rfl, hvalue⟩
      | _ => simp [integrityError] at h

lemma checkRebuilt_eq_ok {c c' : LineageContext} {row : LineageRow} {text : String}
    {material : Dict} {next : CaseSourceLineage} {u : Unit} (hnext : c'.lineages = c.lineages ++ [next])
    (h : checkRebuilt c' row text material = .ok u) :
    next.operationMaterialJson = text ∧ next.row = .ok row := by
  simp only [checkRebuilt, hnext, List.getLast?_concat, storeBind_eq_ok, exists_unit,
    uncaught_eq_ok, intact_eq_ok] at h
  obtain ⟨_, -, ⟨-, htext⟩, expected, hexpected, rfl⟩ := h
  exact ⟨htext, hexpected⟩

/-- What a row stands for is one change. -/
lemma deriveStored_consistent {r : StoreReaders Other} {t : LineageTables Other}
    {c c' : LineageContext} (hc : ConsistentContext c) {kind : SqlValue} {material : Dict} {raw : Bytes}
    (h : deriveStored r t c kind material raw = .ok c') :
    ConsistentContext c' ∧ ∃ kind, Adds kind raw c c' := by
  rw [deriveStored] at h
  split_ifs at h
  · obtain ⟨hc', hadds⟩ := derive_consistent hc h
    exact ⟨hc', _, hadds⟩
  · simp only [bind_eq_ok] at h
    obtain ⟨inputs, -, h⟩ := h
    obtain ⟨hc', hadds⟩ := derive_consistent hc h
    exact ⟨hc', _, hadds⟩
  · simp at h

/-- **One row** of the walk: a consistent context with the lineage that the row describes. -/
lemma rebuildRow_sound {r : StoreReaders Other} {t : LineageTables Other} {c c' : LineageContext}
    (hc : ConsistentContext c) {above : SqlValue} {row : LineageRow}
    (hrow : t.lineage? row.lineageHash = some row) (h : rebuildRow r t c above row = .ok c') :
    ConsistentContext c' ∧ SameRoot c c' ∧
      ∃ l, c'.lineages = c.lineages ++ [l] ∧ Stored t l ∧ row.lineageHash = .text l.lineageHash := by
  simp only [rebuildRow, storeBind_eq_ok, exists_unit] at h
  obtain ⟨-, h⟩ := h
  cases hoperation : t.blob? row.operationBlobSourceHash with
  | none => simp [hoperation, integrityError] at h
  | some operation =>
      cases hmaterial : t.blob? row.operationMaterialSourceHash with
      | none => simp [hoperation, hmaterial, integrityError] at h
      | some blob =>
          simp only [hoperation, hmaterial, storeBind_eq_ok, exists_unit, uncaught_eq_ok,
            handling_eq_ok, intact_eq_ok, Except.ok.injEq] at h
          obtain ⟨raw, hraw, bytes, hbytes, hsizes, ⟨text, material⟩, hread, c₁, hderive, hcheck,
            rfl⟩ := h
          obtain ⟨hc', kind, hroot, next, hnext, -, hnextRaw⟩ := deriveStored_consistent hc hderive
          obtain ⟨hsame, hexpected⟩ := checkRebuilt_eq_ok hnext hcheck
          obtain ⟨hhash, hoperationHash, hmaterialHash⟩ := row_eq_ok hexpected
          have hmaterialBytes : bytes = next.operationMaterialBytes := by
            rw [CaseSourceLineage.operationMaterialBytes, hsame]
            exact (encodeUtf8_decodeUtf8 (readMaterial_eq_ok hread).1).symm
          subst hnextRaw hmaterialBytes
          refine ⟨hc', hroot, next, hnext, ⟨⟨row, hhash ▸ hrow, hexpected⟩,
            ⟨operation, ?_, hsizes.operationSize, hraw⟩,
            ⟨blob, ?_, hsizes.materialSize, hbytes⟩⟩, hhash⟩
          · rw [← hoperationHash, hoperation]
          · rw [← hmaterialHash, hmaterial]

/-- **The rows** of the walk, from the eldest on. -/
lemma rebuildRows_sound {r : StoreReaders Other} {t : LineageTables Other} {rows : List LineageRow}
    {c c' : LineageContext} (hc : ConsistentContext c) {above : SqlValue}
    (hrows : ∀ row ∈ rows, t.lineage? row.lineageHash = some row)
    (h : rebuildRows r t c above rows = .ok c') :
    ConsistentContext c' ∧ SameRoot c c' ∧ ∃ added, c'.lineages = c.lineages ++ added ∧
      List.Forall₂ (fun row l => Stored t l ∧ row.lineageHash = .text l.lineageHash) rows added := by
  induction rows generalizing c above with
  | nil =>
      obtain rfl := Except.ok.inj h
      exact ⟨hc, ⟨rfl, rfl, rfl, rfl⟩, [], (List.append_nil _).symm, .nil⟩
  | cons row rest ih =>
      simp only [rebuildRows, storeBind_eq_ok] at h
      obtain ⟨c₁, hrow, hrest⟩ := h
      obtain ⟨hc₁, hroot₁, l, hl, hstored, hhash⟩ :=
        rebuildRow_sound hc (hrows row List.mem_cons_self) hrow
      obtain ⟨hc', hroot', added, hadded, hall⟩ :=
        ih hc₁ (fun x hx => hrows x (List.mem_cons_of_mem _ hx)) hrest
      refine ⟨hc', hroot₁.trans hroot', l :: added, ?_, .cons ⟨hstored, hhash⟩ hall⟩
      rw [hadded, hl, List.append_assoc, List.singleton_append]

omit [PyUnicode] in
/-- Each row that the walk has collected is the one under its hash. -/
lemma linked_fetch {t : LineageTables Other} {bindingHash : String} {key : SqlValue}
    {rows : List LineageRow} (h : Ancestry.Linked (lineagePedigree t bindingHash) key rows) :
    ∀ row ∈ rows, t.lineage? row.lineageHash = some row := by
  have hself : ∀ {key : SqlValue} {row : LineageRow}, t.lineage? key = some row →
      t.lineage? row.lineageHash = some row :=
    fun h => (lineage?_self h).2 ▸ h
  induction h with
  | @root key row hrow _ =>
      intro x hx
      rw [List.mem_singleton.mp hx]
      exact hself hrow
  | @child key above row chain hrow _ _ ih =>
      intro x hx
      rcases List.mem_append.mp hx with hx | hx
      · exact ih x hx
      · rw [List.mem_singleton.mp hx]
        exact hself hrow

/-- The walk ends: each step that goes on comes to another row. -/
lemma walkFrom_ends (r : StoreReaders Other) (t : LineageTables Other) (root : PreparedRoot)
    (terminal : String) :
    ∃ answer, walkFrom r t (t.lineages.length + 1) root terminal = some answer := by
  rw [walkFrom]
  split_ifs
  · exact ⟨_, rfl⟩
  · have hkeys : ∀ key row, t.lineage? key = some row →
        key ∈ t.lineages.map LineageRow.lineageHash :=
      fun key row h => List.mem_map.mpr ⟨row, (lineage?_self h).1, (lineage?_self h).2⟩
    have hends : (Ancestry.ancestors (lineagePedigree t root.context.caseSourceBindingHash)
        (t.lineages.length + 1) [] [] (some (.text terminal))).isSome = true :=
      Ancestry.ancestors_isSome hkeys (by simp)
    obtain ⟨collected, hcollected⟩ := Option.isSome_iff_exists.mp hends
    rw [hcollected]
    exact ⟨_, rfl⟩

/-- What a walk that returns has found. -/
lemma walkFrom_sound {r : StoreReaders Other} {t : LineageTables Other} {steps : ℕ}
    {root : PreparedRoot} {terminal : String} {c : LineageContext}
    (hc : ConsistentContext root.context) (hempty : root.context.lineages = [])
    (h : walkFrom r t steps root terminal = some (.ok c)) :
    ConsistentContext c ∧ SameRoot root.context c ∧
      HashChain.tip lineageNaming c.lineages = some terminal ∧ ∀ l ∈ c.lineages, Stored t l := by
  rw [walkFrom] at h
  split_ifs at h
  · simp [integrityError] at h
  · obtain ⟨collected, hcollected, h⟩ := Option.bind_eq_some_iff.mp h
    simp only [Option.pure_def, Option.some.injEq, storeBind_eq_ok] at h
    obtain ⟨rows, rfl, c', hrebuilt, h⟩ := h
    obtain ⟨hlinked, -⟩ := Ancestry.linked_of_ancestors hcollected
    obtain ⟨hc', hsame, added, hadded, hall⟩ := rebuildRows_sound hc (linked_fetch hlinked) hrebuilt
    cases hlast : c'.lineages.getLast? with
    | none => simp [hlast] at h
    | some last =>
        simp only [hlast, storeBind_eq_ok, exists_unit, intact_eq_ok, Except.ok.injEq] at h
        obtain ⟨hterminal, rfl⟩ := h
        refine ⟨hc', hsame, ?_, fun l hl => ?_⟩
        · rw [HashChain.tip, hlast, Option.map_some, ← hterminal]
          rfl
        · rw [hadded, hempty, List.nil_append] at hl
          obtain ⟨row, -, hstored, -⟩ := forall₂_exists_right hall.flip hl
          exact hstored

/-- What a successful walk says. -/
structure WalkAnswer (r : StoreReaders Other) (t : LineageTables Other) (sourceSetHash : String)
    (terminal : Option String) (c : LineageContext) : Prop where
  consistent : ConsistentContext c
  root : ∃ root, r.root t sourceSetHash = .ok root ∧ SameRoot root.context c
  terminal : HashChain.tip lineageNaming c.lineages = terminal
  stored : ∀ l ∈ c.lineages, Stored t l

/-- **The walk**, whatever is in the tables: it ends after at most one step for each row and one
more, and a context that it returns is consistent, ends in the lineage that was asked for, and has
the row and the two blobs of each of its lineages. -/
theorem storedWalk_sound (r : StoreReaders Other) (t : LineageTables Other) (sourceSetHash : String)
    (terminal : Option String) :
    ∃ answer, storedCaseSourceContextWithLineage r t (t.lineages.length + 1) sourceSetHash terminal =
      some answer ∧ ∀ c, answer = .ok c → WalkAnswer r t sourceSetHash terminal c := by
  cases hroot : r.root t sourceSetHash with
  | error e =>
      refine ⟨.error e, ?_, fun c h => by cases h⟩
      simp only [storedCaseSourceContextWithLineage, hroot]
  | ok root =>
      obtain ⟨build, bundle, hprepared⟩ := root.prepared
      obtain ⟨hc, -, hempty⟩ := prepareCaseSourceContext_consistent hprepared
      cases terminal with
      | none =>
          refine ⟨.ok root.context, ?_, fun c h => ?_⟩
          · simp only [storedCaseSourceContextWithLineage, hroot]
          · obtain rfl := Except.ok.inj h
            exact ⟨hc, ⟨root, hroot, rfl, rfl, rfl, rfl⟩, by rw [hempty, HashChain.tip_nil],
              by simp [hempty]⟩
      | some terminal =>
          obtain ⟨answer, hanswer⟩ := walkFrom_ends r t root terminal
          refine ⟨answer, ?_, fun c h => ?_⟩
          · simp only [storedCaseSourceContextWithLineage, hroot]
            exact hanswer
          · subst h
            obtain ⟨hc', hsame, htip, hstored⟩ := walkFrom_sound hc hempty hanswer
            exact ⟨hc', ⟨root, hroot, hsame⟩, htip, hstored⟩

end Contexts

end QualityCI

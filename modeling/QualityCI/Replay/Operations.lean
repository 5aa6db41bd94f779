import QualityCI.Authorization.Authenticity
import QualityCI.Lib.PyHeap
import QualityCI.Loader.Migrate
import QualityCI.Loader.Mutation

/-!
# The operations of a native replay

A source replay decodes one list of operations from the raw resolution and applies it twice: to
derive the subject that is approved, and to derive the resolved case.  Applying an operation stores
its value in the case by reference, so a later operation on a path inside that value writes into
the list that was decoded.  The values of the operations are therefore cells, and the documents of
the case under construction are the value that the writes start from.

Reading never changes a cell, so the checks between the applications that only read are left out:
every run of the source is a run here.

* `nativeResolutionFromBytes`, `nativeResolutionProjection` — the two parsers of a resolution.
* `validateResolutionOperationPaths` — the paths a resolution may write to.
* `resolveCaseFromArtifactContext` — the resolved case, with the cells as the application left them.
* `replayOperations` — the run, with the operations as the subject and the material have them.
* `nativeReplayMaterial`, `validateNativeReplayMaterial` — the operation material and its check.
-/

namespace QualityCI

open Py

/-! ## Operations -/

/-- An operation that sets a value in a document. -/
structure Operation where
  documentId : String
  path : String
  value : Json
  deriving DecidableEq

/-- Where the operation stores its value: the document, and the path inside it. -/
def Operation.place (o : Operation) : List String := o.documentId :: segments o.path

/-- The operation that a dictionary describes. -/
def operationOf (v : Json) : Operation :=
  let d := v.obj?.getD []
  ⟨d.textAt "document_id", d.textAt "path", d.getD "value" .null⟩

/-- A raw resolution, decoded. -/
structure NativeResolution where
  resolutionId : String
  description : String
  replacementSetId : String
  operations : List Operation
  deriving DecidableEq

def nativeResolutionKeys : List String :=
  ["resolution_id", "description", "replacement_set_id", "operations"]

def nativeSetOperationKeys : List String := ["op", "document_id", "path", "value"]

/-! ## The two parsers -/

/-- One operation, in the loop of `_validate_resolution_operations`. -/
def validateResolutionOperation (index : ℕ) (operation : Json) : Result Unit :=
  match operation with
  | .obj d => do
      require (Dict.getD d "target" (.str "document") = .str "document")
        ("resolution blocked; v0.1 resolutions may modify documents only; " ++
          "case/event changes require a new event revision and approval subject")
      require (IsNonemptyString (Dict.getD d "document_id" .null))
        s!"resolution blocked; operation[{index}] requires a document_id"
      let op := Dict.getD d "op" .null
      requireHashable op
      require (op = .str "set" ∨ op = .str "delete")
        s!"resolution blocked; operation[{index}] has unsupported op"
      let path := Dict.getD d "path" .null
      require (path.isStr = true ∧ path ≠ .str "")
        s!"resolution blocked; operation[{index}] requires a non-empty path"
      require (op = .str "set" → Dict.contains d "value" = true)
        s!"resolution blocked; operation[{index}] set requires value"
  | _ => valueError s!"resolution blocked; operation[{index}] must be an object"

/-- `_validate_resolution_operations`. -/
def validateResolutionOperations (operations : List Json) : Result Unit := do
  require (operations ≠ [])
    "resolution blocked; an approved resolution must contain operations"
  enumerateM (fun index _ operation => validateResolutionOperation index operation) 0 () operations

/-- One operation, in the loop of `_validate_native_resolution_operations`. -/
def validateNativeOperation (index : ℕ) (operation : Json) : Result Unit := do
  let d := operation.obj?.getD []
  require (HasExactKeys d nativeSetOperationKeys)
    (s!"native resolution operation[{index}] must contain the exact " ++ "set-operation key set")
  require (d.getD "op" .null = .str "set") s!"native resolution operation[{index}] op must be set"

/-- `_validate_native_resolution_operations`. -/
def validateNativeResolutionOperations (operations : Json) : Result (List Operation) :=
  match operations with
  | .arr items => do
      validateResolutionOperations items
      enumerateM (fun index _ operation => validateNativeOperation index operation) 0 () items
      .ok (items.map operationOf)
  | _ => valueError "native resolution operations must be an exact list"

/-- `validate_native_resolution`. -/
def validateNativeResolution (resolution : Json) : Result NativeResolution :=
  match resolution with
  | .obj d => do
      require (HasExactKeys d nativeResolutionKeys)
        (if "approvals" ∈ Dict.keys d then
          "LEGACY_APPROVAL_UNATTESTED: native resolution must not contain legacy approvals"
        else "native resolution must contain the exact approval-free key set")
      -- the copy through canonical text is the value itself
      require (resolution.isFinite = true) "native resolution is not canonical JSON"
      require (IsNonemptyString (Dict.getD d "resolution_id" .null))
        "native resolution_id must be an exact non-empty string"
      require (IsNonemptyString (Dict.getD d "description" .null))
        "native resolution description must be non-empty"
      require (IsNonemptyString (Dict.getD d "replacement_set_id" .null))
        "native replacement_set_id must be non-empty"
      let operations ← validateNativeResolutionOperations (Dict.getD d "operations" .null)
      .ok ⟨Dict.textAt d "resolution_id", Dict.textAt d "description",
        Dict.textAt d "replacement_set_id", operations⟩
  | _ => valueError "native resolution must contain the exact approval-free key set"

/-- `_native_resolution_from_bytes`. -/
def nativeResolutionFromBytes (raw : Bytes) : Result NativeResolution := do
  let value ← strictUtf8Json raw "native resolution bytes are invalid JSON"
  validateNativeResolution value

/-- `_exact_nonempty`. -/
def sourceExactNonempty (value : Json) (label : String) : Result Unit :=
  match value with
  | .str s => do
      require (s ≠ "" ∧ s = strip s) s!"{label} must be an exact non-empty trimmed string"
      require (∀ c ∈ s.toList, ¬(c.toNat < 32 ∨ c.toNat = 127))
        s!"{label} contains a control character"
  | _ => valueError s!"{label} must be an exact non-empty trimmed string"

/-- An operation as the lineage records it. -/
def appliedOperation (sequence : ℕ) (o : Operation) : Json :=
  .obj <| Dict.ofList
    [("sequence", .int sequence), ("op", .str "set"), ("target", .str "document"),
     ("document_id", .str o.documentId), ("path", .str o.path),
     ("value", .obj <| Dict.ofList [("present", .bool true), ("json", o.value)])]

/-- The operations as the lineage records them. -/
def appliedOperations (operations : List Operation) : List Json :=
  operations.mapIdx appliedOperation

/-- One operation, in the loop of `_native_resolution_projection`. -/
def projectOperation (index : ℕ) (operation : Json) : Result Unit :=
  match operation with
  | .obj d => do
      require (HasExactKeys d nativeSetOperationKeys)
        s!"native resolution operations[{index}] has an invalid shape"
      require (Dict.getD d "op" .null = .str "set") "native resolution permits only set operations"
      sourceExactNonempty (Dict.getD d "document_id" .null)
        s!"native resolution operations[{index}].document_id"
      sourceExactNonempty (Dict.getD d "path" .null) s!"native resolution operations[{index}].path"
      require ((Dict.getD d "value" .null).isFinite = true)
        "case source value is not canonical JSON"
  | _ => valueError s!"native resolution operations[{index}] has an invalid shape"

/-- What `_native_resolution_projection` returns. -/
structure ResolutionProjection where
  resolutionId : String
  replacementSetId : String
  appliedOperations : List Json
  deriving DecidableEq

/-- `_native_resolution_projection`, of the value that has been read. -/
def projectResolution (value : Json) : Result ResolutionProjection :=
  match value with
  | .obj d => do
      require (HasExactKeys d nativeResolutionKeys)
        "native resolution must contain the exact raw key set"
      forEach (fun key => sourceExactNonempty (Dict.getD d key .null) s!"native resolution {key}")
        ["resolution_id", "description", "replacement_set_id"]
      match Dict.getD d "operations" .null with
      | .arr items => do
          require (items ≠ []) "native resolution operations must be non-empty"
          enumerateM (fun index _ operation => projectOperation index operation) 0 () items
          .ok ⟨Dict.textAt d "resolution_id", Dict.textAt d "replacement_set_id",
            appliedOperations (items.map operationOf)⟩
      | _ => valueError "native resolution operations must be non-empty"
  | _ => valueError "native resolution must contain the exact raw key set"

/-- `_native_resolution_projection`. -/
def nativeResolutionProjection (raw : Bytes) : Result ResolutionProjection := do
  let value ← strictUtf8Json raw "native resolution bytes are invalid JSON"
  projectResolution value

/-! ## Paths -/

/-- `[A-Za-z_][A-Za-z0-9_]*`. -/
def isPathSegment (segment : String) : Bool :=
  let starts (c : Char) := ('A' ≤ c ∧ c ≤ 'Z') ∨ ('a' ≤ c ∧ c ≤ 'z') ∨ c = '_'
  match segment.toList with
  | [] => false
  | c :: cs => decide (starts c) && cs.all fun c => decide (starts c ∨ ('0' ≤ c ∧ c ≤ '9'))

def protectedRoots : List String :=
  ["document_id", "source_hash", "source", "mapping_provenance", "revision_artifact"]

def allowedFactRoots : List String :=
  ["document_type", "revision", "status", "owner", "revision_date", "fields"]

section Resolving

variable [PyUnicode]

/-- One operation, in the loop of `validate_resolution_operation_paths`. -/
def validateOperationPath (index : ℕ) (touched : Dict) (o : Operation) : Result Dict := do
  require (isBlank o.documentId = false)
    s!"operations[{index}].document_id must be a non-empty string"
  require (isBlank o.path = false) s!"operations[{index}].path must be a non-empty string"
  require (∀ segment ∈ segments o.path, segment ≠ "" ∧ isPathSegment segment = true ∧
      PyUnicode.casefold (PyUnicode.nfkc segment) = segment)
    "resolution path contains unsafe or non-canonical segments"
  let root := (segments o.path).headD ""
  require (root ∉ protectedRoots ∧ root ∈ allowedFactRoots)
    s!"resolution path targets protected/generated field: {o.path}"
  let key := normalizedIdentity o.documentId
  require (touched.getD key (.str o.documentId) = .str o.documentId)
    "normalized duplicate touched document_id"
  .ok (touched.set key (.str o.documentId))

/-- `validate_resolution_operation_paths`: the touched documents, in the order of their keys. -/
def validateResolutionOperationPaths (operations : List Operation) : Result (List String) := do
  require (operations ≠ []) "resolution operations must be a non-empty list"
  let touched ← enumerateM validateOperationPath 0 [] operations
  .ok (touched.filterMap fun entry => entry.2.str?)

/-! ## Applying the operations -/

/-- `{doc["document_id"]: doc for doc in documents}`, of a copy of the case. -/
def copyDocuments (case : Dict) : Node :=
  .dict <| (case.rowsAt "documents").map fun doc : Dict =>
    (doc.textAt "document_id", Node.ofJson (.obj doc))

/-- The values of the operations, as they were decoded. -/
def newCells (operations : List Operation) : List Node :=
  operations.map fun o => Node.ofJson o.value

/-- One operation of the loop of `apply_mutation`: its value is stored, not copied. -/
def applySetOperation (index : ℕ) (heap : Heap) (o : Operation) : Result Heap := do
  require ((heap.root.member heap.cells o.documentId).isSome = true)
    s!"unknown document_id in mutation: {o.documentId}"
  heap.write index o.place

/-- The loop of `apply_mutation`. -/
def applySetOperations (heap : Heap) (operations : List Operation) : Result Heap :=
  enumerateM applySetOperation 0 heap operations

/-- As many dictionaries as a walk through a document and the operations' values can enter. -/
def readFuel (case : Dict) (operations : List Operation) : ℕ :=
  ((case.rowsAt "documents").map fun doc => Node.height (.obj doc)).sum +
    (operations.map fun o => Node.height o.value).sum

/-- The operations, each with what its value reads as now. -/
def readOperations (fuel : ℕ) (cells : List Node) : ℕ → List Operation → Option (List Operation)
  | _, [] => some []
  | index, o :: rest => do
      let value ← (Node.shared index).read cells fuel
      let rest ← readOperations fuel cells (index + 1) rest
      some ({ o with value := value } :: rest)

/-! ## Equality -/

mutual

/-- The value with every number in one spelling: a boolean and an integral float as integers. -/
def numbered : Json → Json
  | .bool b => .int (if b then 1 else 0)
  | .float (.finite x) =>
      if x.value.den = 1 then .int x.value.num else .float (.finite x)
  | .arr items => .arr (numberedItems items)
  | .obj entries => .obj (numberedEntries entries)
  | .null => .null
  | .int n => .int n
  | .float .nan => .float .nan
  | .float (.inf neg) => .float (.inf neg)
  | .str s => .str s

/-- The members of a list, with numbers in one spelling. -/
def numberedItems : List Json → List Json
  | [] => []
  | v :: rest => numbered v :: numberedItems rest

/-- The items of a dictionary, with numbers in one spelling. -/
def numberedEntries : List (String × Json) → List (String × Json)
  | [] => []
  | (key, v) :: rest => (key, numbered v) :: numberedEntries rest

end

/-- `v == w`, where numbers compare by value. -/
def pyEq (v w : Json) : Bool := numbered v = numbered w

/-! ## The resolved case -/

/-- The artifact facts a resolution is replayed against, rebuilt from the captured bytes. -/
structure ArtifactContext where
  replacementSetId : String
  artifactIndex : List String
  documents : List Dict

/-- The facts in which a rebuilt document and the approved patch have to agree. -/
def factKeys : List String :=
  ["document_id", "document_type", "revision", "status", "owner", "revision_date", "fields"]

/-- `set(xs) == set(ys)`. -/
def SameMembers (xs ys : List String) : Prop := (∀ x ∈ xs, x ∈ ys) ∧ ∀ y ∈ ys, y ∈ xs

instance (xs ys : List String) : Decidable (SameMembers xs ys) :=
  inferInstanceAs (Decidable (_ ∧ _))

/-- `proposed_documents[document_id].get(key)`. -/
def documentFact (fuel : ℕ) (heap : Heap) (documentId key : String) : Json :=
  ((heap.root.walk heap.cells [documentId, key]).bind (Node.read heap.cells fuel)).getD .null

/-- One rebuilt document against the document that the operations have patched. -/
def requireApprovedFacts (fuel : ℕ) (heap : Heap) (rebuilt : Dict) : Result Unit :=
  let documentId := rebuilt.textAt "document_id"
  require ((heap.root.member heap.cells documentId).isSome = true ∧
      ∀ key ∈ factKeys,
        pyEq (documentFact fuel heap documentId key) (rebuilt.getD key .null) = true)
    s!"rebuilt artifact facts differ from approved patch for {documentId}"

/-- The case with the rebuilt documents in the place of those they replace. -/
def rebuiltCase (case : Dict) (rebuilt : List Dict) : Dict :=
  case.set "documents" <| .arr <| (case.rowsAt "documents").map fun doc =>
    .obj <| (rebuilt.find? fun d => d.textAt "document_id" = doc.textAt "document_id").getD doc

/-- `resolve_case_from_artifact_context`, with the cells as the application leaves them. -/
def resolveCaseFromArtifactContext (case : Dict) (resolutionId : String)
    (operations : List Operation) (context : ArtifactContext) (fuel : ℕ) (cells : List Node) :
    Result (Dict × List Node) := do
  require (isBlank resolutionId = false) "resolution_id must be a non-empty string"
  let touched ← validateResolutionOperationPaths operations
  require (SameMembers (touched.map normalizedIdentity)
        (context.artifactIndex.map normalizedIdentity) ∧
      touched.length = context.artifactIndex.length)
    "sealed artifact context does not exactly cover resolution operations"
  require (operations.length ≤ maxMutationOperations)
    s!"mutation operations exceeds maximum of {maxMutationOperations} items"
  let heap ← applySetOperations ⟨copyDocuments case, cells⟩ operations
  let rebuiltIds := context.documents.map fun doc => doc.textAt "document_id"
  require ((∀ id ∈ rebuiltIds, id ≠ "") ∧ (rebuiltIds.map normalizedIdentity).Nodup ∧
      rebuiltIds.length = context.artifactIndex.length ∧
      SameMembers rebuiltIds context.artifactIndex)
    "sealed artifact documents do not exactly match its artifact index"
  forEach (requireApprovedFacts fuel heap) context.documents
  let proposed := (rebuiltCase case context.documents).set "active_mutation"
    (.str s!"resolution:{resolutionId}")
  validateCaseDict proposed
  require ((proposed.dictAt "event").get? "risk_level" = (case.dictAt "event").get? "risk_level")
    ("resolution blocked; v0.1 resolutions cannot reclassify event risk; " ++
      "create a new event revision and approval subject")
  .ok ((proposed.erase "active_mutation").set "applied_resolution" (.str resolutionId), heap.cells)

/-! ## The replay -/

/-- A sealed source context: the case it exposes has been accepted. -/
structure SourceContext where
  case : Dict
  accepted : validateCaseDict case = .ok ()

/-- What a replay has made of the operations. -/
structure Replay where
  resolution : NativeResolution
  subjectOperations : List Operation
  resolvedCase : Dict
  materialOperations : List Operation

/-- The operations as JSON has them; a dictionary that contains itself has no text. -/
def currentOperations (fuel : ℕ) (cells : List Node) (operations : List Operation) :
    Result (List Operation) :=
  match readOperations fuel cells 0 operations with
  | some current => .ok current
  | none => valueError "Circular reference detected"

/-- `_resolution_approval_subject_from_context`: the operations of the subject, and the cells. -/
def approvalSubjectOperations (resolution : NativeResolution) (case : Dict)
    (context : ArtifactContext) (fuel : ℕ) (cells : List Node) :
    Result (List Operation × List Node) := do
  let case ← prepareCase case
  require (resolution.replacementSetId = context.replacementSetId)
    "resolution artifact rejected: replacement_set_id differs from sealed context"
  let touched ← validateResolutionOperationPaths resolution.operations
  require (SameMembers touched context.artifactIndex)
    "resolution artifact rejected: sealed context does not exactly cover operations"
  let (_, cells) ← resolveCaseFromArtifactContext case resolution.resolutionId
    resolution.operations context fuel cells
  let operations ← currentOperations fuel cells resolution.operations
  .ok (operations, cells)

/-- `_replay_one_source_derivation`, from the decoded resolution up to the operation material. -/
def replayResolution (context : SourceContext) (artifacts : ArtifactContext)
    (resolution : NativeResolution) : Result Replay := do
  let fuel := readFuel context.case resolution.operations
  let _ ← validateResolutionOperationPaths resolution.operations
  let (subjectOperations, cells) ← approvalSubjectOperations resolution context.case artifacts fuel
    (newCells resolution.operations)
  let (resolvedCase, cells) ← resolveCaseFromArtifactContext context.case resolution.resolutionId
    resolution.operations artifacts fuel cells
  let materialOperations ← currentOperations fuel cells resolution.operations
  .ok ⟨resolution, subjectOperations, resolvedCase, materialOperations⟩

/-- `_replay_one_source_derivation`, up to the operation material. -/
def replayOperations (context : SourceContext) (artifacts : ArtifactContext) (raw : Bytes) :
    Result Replay := do
  let resolution ← nativeResolutionFromBytes raw
  replayResolution context artifacts resolution

end Resolving

/-! ## The operation material -/

def nativeReplayHashFields : List String :=
  ["artifact_set_hash", "controlled_reference_set_hash", "source_validation_evidence_set_hash",
   "resolved_validation_evidence_set_hash", "validation_evidence_pair_hash",
   "approval_subject_hash", "approval_assertion_set_hash",
   "authorization_authenticity_context_hash", "authorization_record_set_hash",
   "authorization_trust_snapshot_hash", "authorization_trust_policy_hash"]

def nativeReplayConstantFields : List (String × String) :=
  [("operation_kind", "NATIVE_REPLAY"),
   ("operation_contract_version", "qualityci-case-source-native-replay-operation-0.1"),
   ("artifact_contract_version", "qualityci-revision-artifact-0.3"),
   ("reference_contract_version", "qualityci-controlled-reference-0.1"),
   ("validation_evidence_contract_version", "qualityci-validation-evidence-0.1"),
   ("approval_subject_contract_version", "qualityci-approval-subject-0.2"),
   ("approval_assertion_set_domain_version", "QualityCI/approval-assertion-set/v1"),
   ("authorization_authenticity_state", "PASS"),
   ("authorization_authenticity_context_contract_version",
     "qualityci-authorization-authenticity-context-0.1"),
   ("authorization_record_set_contract_version", "qualityci-authorization-record-set-0.2"),
   ("authorization_trust_snapshot_contract_version",
     "qualityci-authorization-trust-snapshot-0.1"),
   ("authorization_trust_policy_version", "qualityci-authorization-trust-policy-0.1")]

/-- The hashes of the sealed contexts a replay has built, in the order of their fields. -/
structure ReplayHashes where
  hashes : List String
  complete : hashes.length = nativeReplayHashFields.length
  digests : ∀ hash ∈ hashes, isLowercaseSha256 hash = true

/-- The identity of the raw resolution. -/
def resolutionBlob (raw : Bytes) : Dict :=
  Dict.ofList [("source_hash", .str (sha256Bytes raw)), ("size_bytes", .int raw.length)]

/-- The items of the operation material. -/
def nativeReplayItems (run : Replay) (raw : Bytes) (hashes : ReplayHashes) :
    List (String × Json) :=
  nativeReplayConstantFields.map (fun entry => (entry.1, .str entry.2)) ++
    [("native_resolution_blob", .obj (resolutionBlob raw)),
     ("resolution_id", .str run.resolution.resolutionId),
     ("applied_operations", .arr (appliedOperations run.materialOperations))] ++
    nativeReplayHashFields.zip (hashes.hashes.map .str)

/-- `_native_replay_operation_material`: the sealed contexts carry the versions of the contracts
that built them. -/
def nativeReplayMaterial (run : Replay) (raw : Bytes) (hashes : ReplayHashes) : Dict :=
  Dict.ofList (nativeReplayItems run raw hashes)

def nativeReplayMaterialKeys : List String :=
  nativeReplayConstantFields.map Prod.fst ++
    ["native_resolution_blob", "resolution_id", "applied_operations"] ++ nativeReplayHashFields

/-- `_lower_hash`. -/
def sourceLowerHash (value : Json) (label : String) : Result Unit :=
  match value with
  | .str s => require (isLowercaseSha256 s = true) s!"{label} must be one lowercase SHA-256 value"
  | _ => valueError s!"{label} must be one lowercase SHA-256 value"

/-- `_validate_native_replay_material`, returning what the lineage stores. -/
def validateNativeReplayMaterial (material : Dict) (blob : Bytes) : Result Dict := do
  require (HasExactKeys material nativeReplayMaterialKeys)
    "native replay material must contain the exact key set"
  forEach (fun entry => require (material.getD entry.1 .null = .str entry.2)
    s!"native replay material {entry.1} is inconsistent") nativeReplayConstantFields
  forEach (fun key => sourceLowerHash (material.getD key .null) s!"native replay material {key}")
    nativeReplayHashFields
  let identity := material.dictAt "native_resolution_blob"
  require (HasExactKeys identity ["source_hash", "size_bytes"])
    "native replay resolution blob identity is invalid"
  require (identity.get? "source_hash" = some (.str (sha256Bytes blob)) ∧
      identity.get? "size_bytes" = some (.int blob.length))
    "native replay resolution blob differs from raw bytes"
  let projected ← nativeResolutionProjection blob
  require (material.getD "resolution_id" .null = .str projected.resolutionId)
    "native replay resolution_id differs from raw bytes"
  require (pyEq (material.getD "applied_operations" .null)
      (.arr projected.appliedOperations) = true)
    "native replay operations differ from raw bytes"
  let text ← dumps (.obj material)
  let canonical ← loads ⟨true⟩ text
  match canonical with
  | .obj d => .ok d
  | _ => .error ⟨.assertionError, "canonical native replay material is not an object"⟩

end QualityCI

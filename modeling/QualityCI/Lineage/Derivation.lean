import QualityCI.Engine.Release
import QualityCI.Lib.HashChain
import QualityCI.Lib.Sha256Eval
import QualityCI.Lineage.Sources
import QualityCI.Replay.WellFormed
import QualityCI.Validation.Digests
import QualityCI.Validation.Identity

/-!
# The lineage of a case

A case is built from a bundle of sources, and changed by mutations and native replays only.  Each
change leaves a lineage: which root it belongs to, the lineage before it, the hashes of the case
before and after, and the hash of what was done, whose bytes it keeps.

How a bundle is built into a case and its references is given; what is built has been validated.

* `caseSourceSetOf`, `bindingProjection` — what the hashes of the sources and the root are taken of.
* `CaseSourceLineage` — a lineage that its constructor has accepted.
* `LineageContext` — a `_CaseSourceContext`.
* `deriveCaseSourceMutation`, `deriveCaseSourceNativeReplay`, `deriveAll` — one change, and any
  sequence of them.
* `ConsistentContext` — the lineages belong to one root, form a chain, and lead to the case.
* **`deriveAll_consistent`** — whatever the sequence; the derivation's own checks of the chain never
  fail (`ConsistentContext.input`).
-/

namespace QualityCI

open Py

/-! ## The set of the sources -/

/-- A `CaseSourceSetMember`. -/
structure CaseSourceSetMember where
  documentType : String
  sourceId : String
  sourcePath : String
  sourceKind : String
  sizeBytes : ℕ
  sourceHash : String
  declaredTableSelectorJson : Option String
  deriving DecidableEq

/-- The selector that a text holds. -/
def selectorValue : Option String → Result Json
  | none => .ok .null
  | some text => loads ⟨true⟩ text

namespace CaseSourceSetMember

/-- `CaseSourceSetMember.to_dict()`. -/
def toDict (m : CaseSourceSetMember) : Result Json := do
  let selector ← selectorValue m.declaredTableSelectorJson
  .ok <| .obj <| Dict.ofList
    [("document_type", .str m.documentType), ("source_id", .str m.sourceId),
     ("source_path", .str m.sourcePath), ("source_kind", .str m.sourceKind),
     ("size_bytes", .int m.sizeBytes), ("source_hash", .str m.sourceHash),
     ("declared_table_selector", selector)]

end CaseSourceSetMember

/-- The entry of a member in the set. -/
def CaseSourceMember.setMember (m : CaseSourceMember) : CaseSourceSetMember where
  documentType := m.documentType
  sourceId := m.sourceId
  sourcePath := m.sourcePath
  sourceKind := m.sourceKind
  sizeBytes := m.rawBytes.length
  sourceHash := sha256Bytes m.rawBytes
  declaredTableSelectorJson := m.declaredTableSelectorJson

/-- A `CaseSourceSet`. -/
structure CaseSourceSet where
  sourceSetHash : String
  sourceSetContractVersion : String
  sourcePackContractVersion : String
  manifestSourceHash : String
  manifestSizeBytes : ℕ
  members : List CaseSourceSetMember
  deriving DecidableEq

section Contexts

variable [PyUnicode]

/-- `source_set_without_hash`. -/
def sourceSetWithoutHash (bundle : CaseSourceBundle) : Result Dict := do
  let members ← mapEach (fun m => m.setMember.toDict) bundle.members
  .ok <| Dict.ofList
    [("source_set_contract_version", .str sourceSetVersion),
     ("source_pack_contract_version", .str sourcePackVersion),
     ("builder_manifest", .obj (resolutionBlob bundle.manifestBytes)), ("members", .arr members)]

def sourceSetDomain : String := "QualityCI/case-source-set/v1\x00"
def sourceBindingDomain : String := "QualityCI/case-source-binding/v1\x00"
def sourceLineageDomain : String := "QualityCI/case-source-lineage/v1\x00"

/-- The set of a bundle. -/
def caseSourceSetOf (bundle : CaseSourceBundle) : Result CaseSourceSet := do
  let subject ← sourceSetWithoutHash bundle
  let hash ← domainDigest sourceSetDomain (.obj subject)
  .ok ⟨hash, sourceSetVersion, sourcePackVersion, sha256Bytes bundle.manifestBytes,
    bundle.manifestBytes.length, bundle.members.map CaseSourceMember.setMember⟩

/-- `binding_projection`. -/
def bindingProjection (sourceSetHash caseHash : String) : Dict := Dict.ofList
  [("source_set_hash", .str sourceSetHash), ("case_hash", .str caseHash),
   ("case_schema_version", .str caseSchemaVersion),
   ("builder_manifest_version", .str "qualityci-case-builder-0.4"),
   ("ingestion_policy_version", .str "qualityci-ingestion-policy-0.2"),
   ("parser_consumption_plan_version", .str "qualityci-parser-consumption-plan-0.1"),
   ("mapping_contract_version", .str "qualityci-explicit-mapping-0.5"),
   ("derived_locator_contract_version", .str "qualityci-derived-locator-0.1"),
   ("identical_value_aggregation_contract_version",
     .str "qualityci-identical-value-aggregate-0.1"),
   ("mapping_value_conversion_contract_version", .str "qualityci-mapping-value-conversion-0.1"),
   ("derived_reference_identity_contract_version",
     .str "qualityci-derived-reference-identity-0.1"),
   ("controlled_reference_contract_version", .str controlledReferenceContractVersion)]

/-! ## A lineage -/

def mutationOperationVersion : String := "qualityci-case-source-mutation-operation-0.1"
def nativeReplayOperationVersion : String := "qualityci-case-source-native-replay-operation-0.1"

/-- The versions of the operations, by their kind. -/
def operationVersions : List (String × String) :=
  [("MUTATION", mutationOperationVersion), ("NATIVE_REPLAY", nativeReplayOperationVersion)]

/-- The domain of the hash of an operation's material. -/
def operationDomain (kind : String) : String :=
  if kind = "MUTATION" then "QualityCI/case-source-operation/mutation/v1\x00"
  else "QualityCI/case-source-operation/native-replay/v1\x00"

/-- The fields of a `CaseSourceLineage`. -/
structure LineageRecord where
  contractVersion : String
  lineageHash : String
  rootBindingHash : String
  parentLineageHash : Option String
  inputCaseHash : String
  operationKind : String
  operationContractVersion : String
  operationMaterialHash : String
  outputCaseHash : String
  operationMaterialJson : String
  operationBlobBytes : Bytes
  deriving DecidableEq

namespace LineageRecord

/-- The parent, in `CaseSourceLineage.__post_init__`. -/
def checkParent (l : LineageRecord) : Result Unit :=
  match l.parentLineageHash with
  | none => .ok ()
  | some parent => do
      sourceLowerHash (.str parent) "parent lineage hash"
      require (parent ≠ l.lineageHash) "lineage cannot name itself as parent"

/-- The material, in `CaseSourceLineage.__post_init__`. -/
def checkMaterial (l : LineageRecord) : Result Unit := do
  let material ← loads ⟨true⟩ l.operationMaterialJson
  match material with
  | .obj d => do
      let text ← dumps (.obj d)
      require (text = l.operationMaterialJson) "lineage operation material JSON is not canonical"
  | _ => valueError "lineage operation material JSON is not canonical"

/-- `CaseSourceLineage.__post_init__`. -/
def postInit (l : LineageRecord) : Result Unit := do
  require (l.contractVersion = sourceLineageVersion) "unsupported case source lineage contract"
  forEach (fun entry => sourceLowerHash (.str entry.1) entry.2)
    [(l.lineageHash, "lineage hash"), (l.rootBindingHash, "root binding hash"),
     (l.inputCaseHash, "lineage input Case hash"),
     (l.operationMaterialHash, "operation material hash"),
     (l.outputCaseHash, "lineage output Case hash")]
  l.checkParent
  require (l.operationKind ∈ operationVersions.map Prod.fst)
    "case source lineage operation kind is unsupported"
  require (operationVersions.lookup l.operationKind = some l.operationContractVersion)
    "lineage operation contract is inconsistent"
  l.checkMaterial

/-- `lineage_core`, of the fields of the record. -/
def core (l : LineageRecord) : Dict := Dict.ofList
  [("contract_version", .str l.contractVersion), ("root_binding_hash", .str l.rootBindingHash),
   ("parent_lineage_hash", optionJson l.parentLineageHash),
   ("input_case_hash", .str l.inputCaseHash), ("operation_kind", .str l.operationKind),
   ("operation_contract_version", .str l.operationContractVersion),
   ("operation_material_hash", .str l.operationMaterialHash),
   ("output_case_hash", .str l.outputCaseHash)]

end LineageRecord

/-- A lineage that has been constructed. -/
structure CaseSourceLineage extends LineageRecord where
  checked : toLineageRecord.postInit = .ok ()
  deriving DecidableEq

/-- The constructor. -/
def LineageRecord.construct : LineageRecord → Result CaseSourceLineage :=
  checkedBy LineageRecord.postInit fun l h => ⟨l, h⟩

/-- A lineage is known by its hash, and names the one before it. -/
def lineageNaming : HashChain.Naming CaseSourceLineage String where
  name l := l.lineageHash
  parent l := l.parentLineageHash

/-! ## A sealed context -/

/-- A `_CaseSourceContext`. -/
structure LineageContext where
  bundle : CaseSourceBundle
  caseSourceSet : CaseSourceSet
  caseSourceBindingHash : String
  rootCaseHash : String
  caseJson : String
  referenceContext : ReferenceContext
  lineages : List CaseSourceLineage

/-- An `ArtifactContext` with the identities that a derivation compares. -/
structure SealedArtifactContext extends ArtifactContext where
  artifactSetHash : String
  artifactContractVersion : String
  sourceReferenceSetHash : String
  referenceContext : ReferenceContext

/-- The case hash that the lineages lead to, from that of the root. -/
def terminalCaseHash (rootCaseHash : String) (lineages : List CaseSourceLineage) : String :=
  (lineages.getLast?.map fun last => last.outputCaseHash).getD rootCaseHash

namespace LineageContext

/-- `case()`. -/
def case (c : LineageContext) : Result Dict := do
  let value ← loads ⟨true⟩ c.caseJson
  match value with
  | .obj d => .ok d
  | _ => .error ⟨.assertionError, "sealed root Case JSON is not an object"⟩

/-- `assurance()`, before its constructor's check. -/
def assurance (c : LineageContext) : CaseSourceAssurance where
  state := if c.lineages = [] then sourceBound else sourceDerived
  packContractVersion := some sourcePackVersion
  setContractVersion := some sourceSetVersion
  setHash := some c.caseSourceSet.sourceSetHash
  bindingHash := some c.caseSourceBindingHash
  lineageContractVersion := c.lineages.getLast?.map fun last => last.contractVersion
  lineageHash := HashChain.tip lineageNaming c.lineages

/-- The fields of the next lineage but its own hash. -/
def nextRecord (c : LineageContext) (kind version inputCaseHash outputCaseHash : String)
    (materialJson materialHash : String) (raw : Bytes) : LineageRecord where
  contractVersion := sourceLineageVersion
  lineageHash := ""
  rootBindingHash := c.caseSourceBindingHash
  parentLineageHash := HashChain.tip lineageNaming c.lineages
  inputCaseHash := inputCaseHash
  operationKind := kind
  operationContractVersion := version
  operationMaterialHash := materialHash
  outputCaseHash := outputCaseHash
  operationMaterialJson := materialJson
  operationBlobBytes := raw

/-- The core of the next lineage. -/
def nextCore (c : LineageContext)
    (kind version inputCaseHash outputCaseHash materialHash : String) : Dict :=
  (c.nextRecord kind version inputCaseHash outputCaseHash "" materialHash []).core

/-- What is raised for a lineage that starts from another case. -/
def inputMessage (c : LineageContext) (kind : String) : String :=
  if kind = "MUTATION" then
    if c.lineages = [] then "first mutation lineage input differs from the root Case"
    else "mutation lineage input differs from its parent output"
  else if c.lineages = [] then "native replay lineage input differs from root Case"
  else "native replay lineage input differs from parent output"

/-- The context with the next lineage, as both derivations end. -/
def extend (c : LineageContext) (record : LineageRecord) (output : Dict)
    (referenceContext : ReferenceContext) : Result LineageContext := do
  let lineageHash ← domainDigest sourceLineageDomain (.obj record.core)
  let next ← LineageRecord.construct { record with lineageHash := lineageHash }
  require (terminalCaseHash c.rootCaseHash c.lineages = record.inputCaseHash)
    (c.inputMessage record.operationKind)
  let caseJson ← dumps (.obj output)
  .ok { c with
    caseJson := caseJson
    referenceContext := referenceContext
    lineages := c.lineages ++ [next] }

/-- The context, as from another bundle. -/
def withBundle (c : LineageContext) (bundle : CaseSourceBundle) : LineageContext :=
  { c with bundle := bundle }

end LineageContext

/-! ## A root -/

/-- A case as the builder returns it, validated, with the references of the same bytes. -/
structure BuiltCase where
  case : Dict
  references : ReferenceContext
  wf : (Json.obj case).WF
  accepted : validateCaseDict case = .ok ()

/-- `_prepare_case_source_context`, from the builder on. -/
def prepareCaseSourceContext (build : CaseSourceBundle → Result BuiltCase)
    (bundle : CaseSourceBundle) : Result LineageContext := do
  let built ← build bundle
  let rootCaseHash ← canonicalHash (.obj built.case)
  let sourceSet ← caseSourceSetOf bundle
  let bindingHash ← domainDigest sourceBindingDomain
    (.obj (bindingProjection sourceSet.sourceSetHash rootCaseHash))
  let caseJson ← dumps (.obj built.case)
  .ok ⟨bundle, sourceSet, bindingHash, rootCaseHash, caseJson, built.references, []⟩

/-! ## One change -/

/-- `_derive_case_source_mutation`. -/
def deriveCaseSourceMutation (c : LineageContext) (raw : Bytes) : Result LineageContext := do
  let decoded ← decodeMutation raw
  let material := mutationMaterial raw decoded
  let materialJson ← dumps (.obj material)
  let materialHash ← domainDigest (operationDomain "MUTATION") (.obj material)
  let input ← c.case
  let inputCaseHash ← canonicalHash (.obj input)
  let mutated ← applyMutationMaterial input material
  let output ← prepareCase mutated
  let outputCaseHash ← canonicalHash (.obj output)
  c.extend (c.nextRecord "MUTATION" mutationOperationVersion inputCaseHash outputCaseHash
    materialJson materialHash raw) output c.referenceContext

/-- The artifacts of a native replay against its material and the sources. -/
def requireSameArtifacts (c : LineageContext) (material : Dict) (projected : ResolutionProjection)
    (artifacts : SealedArtifactContext) : Result Unit := do
  require (.str artifacts.artifactSetHash = material.getD "artifact_set_hash" .null ∧
      .str artifacts.artifactContractVersion = material.getD "artifact_contract_version" .null ∧
      artifacts.artifactContractVersion = "qualityci-revision-artifact-0.3" ∧
      artifacts.replacementSetId = projected.replacementSetId ∧
      artifacts.sourceReferenceSetHash = c.referenceContext.referenceSetHash)
    "native replay artifact context differs from operation material"
  require (.str artifacts.referenceContext.referenceSetHash =
        material.getD "controlled_reference_set_hash" .null ∧
      .str artifacts.referenceContext.contractVersion =
        material.getD "reference_contract_version" .null)
    "native replay output reference context differs from material"

/-- `_derive_case_source_native_replay`. -/
def deriveCaseSourceNativeReplay (c : LineageContext) (blob : Bytes) (operationMaterial : Dict)
    (artifacts : SealedArtifactContext) : Result LineageContext := do
  let material ← validateNativeReplayMaterial operationMaterial blob
  let projected ← nativeResolutionProjection blob
  requireSameArtifacts c material projected artifacts
  let input ← c.case
  let application ← nativeOperationsForApplication material
  let operations ← application.getItem "operations"
  let operations ← operations.iterate
  let output ← resolveCase input (material.textAt "resolution_id") operations
    artifacts.toArtifactContext
  let inputCaseHash ← canonicalHash (.obj input)
  let outputCaseHash ← canonicalHash (.obj output)
  let materialJson ← dumps (.obj material)
  let materialHash ← domainDigest (operationDomain "NATIVE_REPLAY") (.obj material)
  c.extend (c.nextRecord "NATIVE_REPLAY" nativeReplayOperationVersion inputCaseHash outputCaseHash
    materialJson materialHash blob) output artifacts.referenceContext

/-- One change.  The dictionaries that a native replay is given list their keys once and in
order. -/
inductive DerivationStep
  | mutation (raw : Bytes)
  | nativeReplay (blob : Bytes) (material : Dict) (artifacts : SealedArtifactContext)
      (hmaterial : (Json.obj material).WF)
      (hdocuments : ∀ doc ∈ artifacts.documents, (Json.obj doc).WF)

namespace DerivationStep

/-- The kind of the lineage that a change leaves. -/
def kind : DerivationStep → String
  | mutation _ => "MUTATION"
  | nativeReplay .. => "NATIVE_REPLAY"

/-- The bytes that the lineage keeps. -/
def raw : DerivationStep → Bytes
  | mutation raw => raw
  | nativeReplay blob .. => blob

end DerivationStep

/-- One change of a context. -/
def derive (c : LineageContext) : DerivationStep → Result LineageContext
  | .mutation raw => deriveCaseSourceMutation c raw
  | .nativeReplay blob material artifacts _ _ =>
      deriveCaseSourceNativeReplay c blob material artifacts

/-- Any sequence of changes. -/
def deriveAll : LineageContext → List DerivationStep → Result LineageContext
  | c, [] => .ok c
  | c, step :: rest => do
      let c ← derive c step
      deriveAll c rest

/-! ## The invariant -/

/-- A lineage of a root has the hashes of its fields, its material and its bytes. -/
structure SoundLineage (bindingHash : String) (l : CaseSourceLineage) : Prop where
  root : l.rootBindingHash = bindingHash
  hash : domainDigest sourceLineageDomain (.obj l.core) = .ok l.lineageHash
  material : ∃ material : Dict, (Json.obj material).WF ∧
    dumps (.obj material) = .ok l.operationMaterialJson ∧
    domainDigest (operationDomain l.operationKind) (.obj material) =
      .ok l.operationMaterialHash ∧
    material.get? (if l.operationKind = "MUTATION" then "mutation_blob"
      else "native_resolution_blob") = some (.obj (resolutionBlob l.operationBlobBytes))

/-- The lineages of a context belong to its root, form a chain, and lead to its case. -/
structure ConsistentContext (c : LineageContext) : Prop where
  sources : caseSourceSetOf c.bundle = .ok c.caseSourceSet
  binding : domainDigest sourceBindingDomain
    (.obj (bindingProjection c.caseSourceSet.sourceSetHash c.rootCaseHash)) =
      .ok c.caseSourceBindingHash
  chain : HashChain.Chain lineageNaming c.lineages
  inputs : ∀ (i : ℕ) (l : CaseSourceLineage), c.lineages[i]? = some l →
    l.inputCaseHash = terminalCaseHash c.rootCaseHash (c.lineages.take i)
  each : ∀ l ∈ c.lineages, SoundLineage c.caseSourceBindingHash l
  case : ∃ case : Dict, c.case = .ok case ∧ (Json.obj case).WF ∧
    validateCaseDict case = .ok () ∧
    canonicalHash (.obj case) = .ok (terminalCaseHash c.rootCaseHash c.lineages)

/-- The lineages are those of the steps, in their order. -/
def RecordsSteps (steps : List DerivationStep) (lineages : List CaseSourceLineage) : Prop :=
  List.Forall₂ (fun step l => l.operationKind = step.kind ∧ l.operationBlobBytes = step.raw) steps
    lineages

/-- Two contexts of one root. -/
structure SameRoot (c c' : LineageContext) : Prop where
  bundle : c'.bundle = c.bundle
  set : c'.caseSourceSet = c.caseSourceSet
  binding : c'.caseSourceBindingHash = c.caseSourceBindingHash
  rootCase : c'.rootCaseHash = c.rootCaseHash

/-- A context with one more lineage. -/
structure Adds (kind : String) (raw : Bytes) (c c' : LineageContext) : Prop where
  root : SameRoot c c'
  lineage : ∃ next : CaseSourceLineage, c'.lineages = c.lineages ++ [next] ∧
    next.operationKind = kind ∧ next.operationBlobBytes = raw

/-! ## A root is consistent -/

lemma case_eq_ok {c : LineageContext} {case : Dict} :
    c.case = .ok case ↔ loads ⟨true⟩ c.caseJson = .ok (.obj case) := by
  simp only [LineageContext.case, bind_eq_ok]
  constructor
  · intro h
    obtain ⟨value, hvalue, h⟩ := h
    cases value with
    | obj d =>
        obtain rfl := Except.ok.inj h
        exact hvalue
    | _ => simp at h
  · intro h
    exact ⟨_, h, rfl⟩

lemma prepareCaseSourceContext_consistent {build : CaseSourceBundle → Result BuiltCase}
    {bundle : CaseSourceBundle} {c : LineageContext}
    (h : prepareCaseSourceContext build bundle = .ok c) :
    ConsistentContext c ∧ c.bundle = bundle ∧ c.lineages = [] := by
  simp only [prepareCaseSourceContext, bind_eq_ok, Except.ok.injEq] at h
  obtain ⟨built, -, rootCaseHash, hhash, sourceSet, hset, bindingHash, hbinding, caseJson, hjson,
    rfl⟩ := h
  refine ⟨⟨hset, hbinding, .nil, by simp, by simp, built.case, ?_, built.wf, built.accepted, ?_⟩,
    rfl, rfl⟩
  · exact case_eq_ok.mpr (loads_dumps ⟨true⟩ built.wf hjson)
  · exact hhash

/-! ## A change keeps it -/

omit [PyUnicode] in
lemma terminalCaseHash_concat (rootCaseHash : String) (lineages : List CaseSourceLineage)
    (next : CaseSourceLineage) :
    terminalCaseHash rootCaseHash (lineages ++ [next]) = next.outputCaseHash := by
  rw [terminalCaseHash, List.getLast?_concat, Option.map_some, Option.getD_some]

omit [PyUnicode] in
lemma construct_eq_ok {l : LineageRecord} {lineage : CaseSourceLineage} :
    l.construct = .ok lineage ↔ lineage.toLineageRecord = l := by
  rw [LineageRecord.construct, checkedBy_eq_ok]
  constructor
  · rintro ⟨h, rfl⟩
    rfl
  · rintro rfl
    exact ⟨lineage.checked, rfl⟩

lemma extend_eq_ok {c c' : LineageContext} {record : LineageRecord} {output : Dict}
    {referenceContext : ReferenceContext}
    (h : c.extend record output referenceContext = .ok c') :
    ∃ (next : CaseSourceLineage) (caseJson : String),
      domainDigest sourceLineageDomain (.obj record.core) = .ok next.lineageHash ∧
      next.toLineageRecord = { record with lineageHash := next.lineageHash } ∧
      terminalCaseHash c.rootCaseHash c.lineages = record.inputCaseHash ∧
      dumps (.obj output) = .ok caseJson ∧
      c' = { c with
        caseJson := caseJson
        referenceContext := referenceContext
        lineages := c.lineages ++ [next] } := by
  simp only [LineageContext.extend, bind_eq_ok, exists_unit, require_eq_ok, construct_eq_ok,
    Except.ok.injEq] at h
  obtain ⟨lineageHash, hhash, next, hnext, hinput, caseJson, hjson, rfl⟩ := h
  have hname : next.lineageHash = lineageHash := by rw [hnext]
  exact ⟨next, caseJson, hname ▸ hhash, hname ▸ hnext, hinput, hjson, rfl⟩

/-- **A lineage that is added** to a consistent context, from its case to a validated one. -/
lemma ConsistentContext.extend {c c' : LineageContext} (hc : ConsistentContext c)
    {kind version : String} {inputCaseHash outputCaseHash materialJson materialHash : String} {raw : Bytes}
    {output material : Dict} {referenceContext : ReferenceContext}
    (hmaterial : (Json.obj material).WF) (hjson : dumps (.obj material) = .ok materialJson)
    (hhash : domainDigest (operationDomain kind) (.obj material) = .ok materialHash)
    (hblob : material.get? (if kind = "MUTATION" then "mutation_blob"
      else "native_resolution_blob") = some (.obj (resolutionBlob raw)))
    (houtput : (Json.obj output).WF) (haccepted : validateCaseDict output = .ok ())
    (houtputHash : canonicalHash (.obj output) = .ok outputCaseHash)
    (h : c.extend (c.nextRecord kind version inputCaseHash outputCaseHash materialJson materialHash
      raw) output referenceContext = .ok c') :
    ConsistentContext c' ∧ Adds kind raw c c' := by
  obtain ⟨next, caseJson, hname, hnext, hinput, hcase, rfl⟩ := extend_eq_ok h
  have hfield : ∀ {α : Type} (f : LineageRecord → α),
      f next.toLineageRecord = f { c.nextRecord kind version inputCaseHash outputCaseHash
        materialJson materialHash raw with lineageHash := next.lineageHash } :=
    fun f => congrArg f hnext
  have hroot := hfield LineageRecord.rootBindingHash
  have hparent := hfield LineageRecord.parentLineageHash
  have hin := hfield LineageRecord.inputCaseHash
  have hout := hfield LineageRecord.outputCaseHash
  have hkind := hfield LineageRecord.operationKind
  have hraw := hfield LineageRecord.operationBlobBytes
  have hcore := hfield LineageRecord.core
  simp only [LineageContext.nextRecord] at hroot hparent hin hout hkind hraw
  refine ⟨⟨hc.sources, hc.binding, hc.chain.snoc hparent, fun i l hl => ?_, fun l hl => ?_,
    output, ?_, houtput, haccepted, ?_⟩, ⟨rfl, rfl, rfl, rfl⟩, next, rfl, hkind, hraw⟩
  · -- the inputs of the lineages before are unchanged
    rcases Nat.lt_trichotomy i c.lineages.length with hlt | rfl | hgt
    · rw [List.getElem?_append_left hlt] at hl
      rw [List.take_append_of_le_length (Nat.le_of_lt hlt)]
      exact hc.inputs i l hl
    · rw [List.getElem?_append_right (le_refl _), Nat.sub_self] at hl
      obtain rfl := Option.some.inj hl
      rw [List.take_left]
      exact hin.trans hinput.symm
    · rw [List.getElem?_eq_none (by simp; omega)] at hl
      cases hl
  · rcases List.mem_append.mp hl with hl | hl
    · exact hc.each l hl
    · obtain rfl := List.mem_singleton.mp hl
      refine ⟨hroot, ?_, material, hmaterial, ?_, ?_, ?_⟩
      · rw [hcore]
        exact hname
      · rw [hfield LineageRecord.operationMaterialJson]
        exact hjson
      · rw [hkind, hfield LineageRecord.operationMaterialHash]
        exact hhash
      · rw [hkind, hraw]
        exact hblob
  · exact case_eq_ok.mpr (loads_dumps ⟨true⟩ houtput hcase)
  · rw [terminalCaseHash_concat, hout]
    exact houtputHash

omit [PyUnicode] in
lemma resolutionBlob_getItem (raw : Bytes) (decoded : DecodedMutation) :
    (mutationMaterial raw decoded).get? "mutation_blob" = some (.obj (resolutionBlob raw)) :=
  Dict.get?_ofList_of_mem (by simp) (by simp)

/-- The material of a mutation can be written, and applying it keeps a case well-formed. -/
lemma mutationMaterial_spec {raw : Bytes} {decoded : DecodedMutation}
    (h : decodeMutation raw = .ok decoded) : (Json.obj (mutationMaterial raw decoded)).WF ∧
      (∃ text, dumps (.obj (mutationMaterial raw decoded)) = .ok text) ∧
      ∀ case mutated, (Json.obj case).WF →
        applyMutationMaterial case (mutationMaterial raw decoded) = .ok mutated →
        (Json.obj mutated).WF := by
  simp only [decodeMutation, bind_eq_ok] at h
  obtain ⟨value, hread, hdecoded⟩ := h
  obtain ⟨mutation, items, rfl, hfrom⟩ := decodeMutationValue_eq_ok hdecoded
  have hwf := strictUtf8Json_wf hread
  have hstored := hfrom.stored hwf raw
  simp only [storedMaterial, bind_eq_ok] at hstored
  obtain ⟨text, htext, value, hloads, hdict⟩ := hstored
  rw [requireDict_eq_ok] at hdict
  subst hdict
  refine ⟨loads_wf hloads, ⟨text, htext⟩, fun case mutated hcase happly => ?_⟩
  rw [hfrom.applies raw case] at happly
  exact applyMutation_wf hcase hwf happly

lemma deriveCaseSourceMutation_consistent {c c' : LineageContext} (hc : ConsistentContext c)
    {raw : Bytes} (h : deriveCaseSourceMutation c raw = .ok c') :
    ConsistentContext c' ∧ Adds "MUTATION" raw c c' := by
  simp only [deriveCaseSourceMutation, bind_eq_ok] at h
  obtain ⟨decoded, hdecoded, materialJson, hjson, materialHash, hhash, input, hinput,
    inputCaseHash, -, mutated, hmutated, output, houtput, outputCaseHash, houtputHash, h⟩ := h
  obtain ⟨case, hcase, hwf, -⟩ := hc.case
  obtain rfl := Except.ok.inj (hcase.symm.trans hinput)
  obtain ⟨hmaterial, -, hkeeps⟩ := mutationMaterial_spec hdecoded
  refine hc.extend hmaterial hjson hhash ?_ (prepareCase_wf (hkeeps _ _ hwf hmutated) houtput)
    (prepareCase_eq_ok.mp houtput).2 houtputHash h
  rw [if_pos rfl]
  exact resolutionBlob_getItem raw decoded

omit [PyUnicode] in
lemma dictAt_get? {d : Dict} {key field : String} {v : Json}
    (h : (d.dictAt key).get? field = some v) : d.get? key = some (.obj (d.dictAt key)) := by
  cases hget : d.get? key with
  | none => simp [Dict.dictAt, hget] at h
  | some u =>
      cases u with
      | obj e => simp [Dict.dictAt, hget, Json.obj?]
      | _ => simp [Dict.dictAt, hget, Json.obj?] at h

omit [PyUnicode] in
/-- A material that has passed its check is stored as it is, and names its bytes. -/
lemma nativeMaterial_spec {material stored : Dict} {blob : Bytes} (hwf : (Json.obj material).WF)
    (h : validateNativeReplayMaterial material blob = .ok stored) :
    stored = material ∧
      material.get? "native_resolution_blob" = some (.obj (resolutionBlob blob)) := by
  simp only [validateNativeReplayMaterial, bind_eq_ok, exists_unit, require_eq_ok] at h
  obtain ⟨-, -, -, hkeys, hidentity, projected, -, -, -, text, htext, canonical, hloads, h⟩ := h
  obtain ⟨hhash, hsize⟩ := hidentity
  have hback := loads_dumps ⟨true⟩ hwf htext
  obtain rfl := Except.ok.inj (hback.symm.trans hloads)
  refine ⟨(Except.ok.inj h).symm, ?_⟩
  have hget := dictAt_get? hhash
  have hordered := (Json.wf_obj.mp (hwf.get? hget)).1
  have hblob : (resolutionBlob blob).Ordered :=
    (Json.wf_obj.mp (Json.wf_ofList (by simp [Json.WF]))).1
  have hsource' : (resolutionBlob blob).get? "source_hash" = some (.str (sha256Bytes blob)) :=
    Dict.get?_ofList_of_mem (by simp) (by simp)
  have hsize' : (resolutionBlob blob).get? "size_bytes" = some (.int blob.length) :=
    Dict.get?_ofList_of_mem (by simp) (by simp)
  have hkeys' : ∀ key, key ∈ (resolutionBlob blob).keys ↔ key ∈ ["source_hash", "size_bytes"] :=
    Dict.mem_keys_ofList (by simp)
  rw [hget]
  congr 2
  refine Dict.ext hordered hblob fun key => ?_
  by_cases hsource : key = "source_hash"
  · rw [hsource, hhash, hsource']
  by_cases hbytes : key = "size_bytes"
  · rw [hbytes, hsize, hsize']
  have hother : ∀ d : Dict, HasExactKeys d ["source_hash", "size_bytes"] → d.get? key = none := by
    intro d hd
    have hnotin : key ∉ d.keys := fun hin => by simpa [hsource, hbytes] using hd.1 key hin
    simpa [Dict.mem_keys_iff, Dict.contains] using hnotin
  rw [hother _ hkeys, hother _ ⟨fun k => (hkeys' k).mp, fun k => (hkeys' k).mpr⟩]

lemma deriveCaseSourceNativeReplay_consistent {c c' : LineageContext} (hc : ConsistentContext c)
    {blob : Bytes} {operationMaterial : Dict} {artifacts : SealedArtifactContext}
    (hwf : (Json.obj operationMaterial).WF)
    (hdocuments : ∀ doc ∈ artifacts.documents, (Json.obj doc).WF)
    (h : deriveCaseSourceNativeReplay c blob operationMaterial artifacts = .ok c') :
    ConsistentContext c' ∧ Adds "NATIVE_REPLAY" blob c c' := by
  simp only [deriveCaseSourceNativeReplay, bind_eq_ok, exists_unit] at h
  obtain ⟨material, hmaterial, projected, -, -, input, hinput, application, happlication,
    operations, hget, items, hitems, output, hresolve, inputCaseHash, -, outputCaseHash,
    houtputHash, materialJson, hjson, materialHash, hhash, h⟩ := h
  obtain ⟨rfl, hblob⟩ := nativeMaterial_spec hwf hmaterial
  obtain ⟨case, hcase, hcasewf, -⟩ := hc.case
  obtain rfl := Except.ok.inj (hcase.symm.trans hinput)
  have hoperations := nativeOperationsForApplication_wf hwf happlication hget hitems
  refine hc.extend hwf hjson hhash ?_ (resolveCase_wf hcasewf hoperations hdocuments hresolve)
    (resolveCase_accepted hresolve houtputHash) houtputHash h
  rw [if_neg (by decide)]
  exact hblob

/-! ## Any sequence of changes -/

/-- **One change** keeps a context consistent, and adds its own lineage. -/
theorem derive_consistent {c c' : LineageContext} (hc : ConsistentContext c) {step : DerivationStep}
    (h : derive c step = .ok c') :
    ConsistentContext c' ∧ Adds step.kind step.raw c c' := by
  cases step with
  | mutation raw => exact deriveCaseSourceMutation_consistent hc h
  | nativeReplay blob material artifacts hmaterial hdocuments =>
      exact deriveCaseSourceNativeReplay_consistent hc hmaterial hdocuments h

lemma SameRoot.trans {a b c : LineageContext} (h : SameRoot a b) (h' : SameRoot b c) :
    SameRoot a c :=
  ⟨h'.bundle.trans h.bundle, h'.set.trans h.set, h'.binding.trans h.binding,
    h'.rootCase.trans h.rootCase⟩

/-- The lineages that a sequence of changes adds. -/
lemma deriveAll_adds {steps : List DerivationStep} {c c' : LineageContext}
    (hc : ConsistentContext c) (h : deriveAll c steps = .ok c') :
    ConsistentContext c' ∧ SameRoot c c' ∧
      ∃ added, c'.lineages = c.lineages ++ added ∧ RecordsSteps steps added := by
  induction steps generalizing c with
  | nil =>
      obtain rfl := Except.ok.inj h
      exact ⟨hc, ⟨rfl, rfl, rfl, rfl⟩, [], (List.append_nil _).symm, .nil⟩
  | cons step rest ih =>
      simp only [deriveAll, bind_eq_ok] at h
      obtain ⟨c₁, hstep, hrest⟩ := h
      obtain ⟨hc₁, hroot₁, next, hnext, hkind, hraw⟩ := derive_consistent hc hstep
      obtain ⟨hc', hroot', added, hadded, hrecords⟩ := ih hc₁ hrest
      refine ⟨hc', hroot₁.trans hroot', next :: added, ?_, .cons ⟨hkind, hraw⟩ hrecords⟩
      rw [hadded, hnext, List.append_assoc, List.singleton_append]

lemma deriveAll_concat {steps : List DerivationStep} {step : DerivationStep}
    {c c₁ c₂ : LineageContext} (h : deriveAll c steps = .ok c₁) (hstep : derive c₁ step = .ok c₂) :
    deriveAll c (steps ++ [step]) = .ok c₂ := by
  induction steps generalizing c with
  | nil =>
      obtain rfl := Except.ok.inj h
      rw [List.nil_append, deriveAll, hstep, ok_bind, deriveAll]
  | cons first rest ih =>
      simp only [deriveAll, bind_eq_ok, List.cons_append] at h ⊢
      obtain ⟨c', hfirst, hrest⟩ := h
      exact ⟨c', hfirst, ih hrest⟩

/-! ## The snapshot does not matter -/

/-- A change does not look at the bundle. -/
lemma derive_withBundle {c c' : LineageContext} (bundle : CaseSourceBundle) {step : DerivationStep}
    (h : derive c step = .ok c') :
    derive (c.withBundle bundle) step = .ok (c'.withBundle bundle) := by
  have hextend : ∀ {record : LineageRecord} {output : Dict} {references : ReferenceContext},
      c.extend record output references = .ok c' →
      (c.withBundle bundle).extend record output references = .ok (c'.withBundle bundle) := by
    intro record output references h
    simp only [LineageContext.extend, bind_eq_ok, exists_unit, Except.ok.injEq] at h ⊢
    obtain ⟨hash, hhash, next, hnext, hstart, caseJson, hcase, rfl⟩ := h
    exact ⟨hash, hhash, next, hnext, hstart, caseJson, hcase, rfl⟩
  cases step with
  | mutation raw =>
      simp only [derive, deriveCaseSourceMutation, bind_eq_ok] at h ⊢
      obtain ⟨decoded, hdecoded, materialJson, hjson, materialHash, hmaterial, input, hinput,
        inputHash, hinputHash, mutated, hmutated, output, houtput, outputHash, houtputHash, h⟩ := h
      exact ⟨decoded, hdecoded, materialJson, hjson, materialHash, hmaterial, input, hinput,
        inputHash, hinputHash, mutated, hmutated, output, houtput, outputHash, houtputHash,
        hextend h⟩
  | nativeReplay blob given artifacts hgiven hdocuments =>
      simp only [derive, deriveCaseSourceNativeReplay, bind_eq_ok, exists_unit] at h ⊢
      obtain ⟨material, hmaterial, projected, hprojected, hartifacts, input, hinput, application,
        happlication, operations, hoperations, items, hitems, output, houtput, inputHash,
        hinputHash, outputHash, houtputHash, materialJson, hjson, materialHash, hhash, h⟩ := h
      exact ⟨material, hmaterial, projected, hprojected, hartifacts, input, hinput, application,
        happlication, operations, hoperations, items, hitems, output, houtput, inputHash,
        hinputHash, outputHash, houtputHash, materialJson, hjson, materialHash, hhash, hextend h⟩

/-- Neither does a sequence of changes. -/
lemma deriveAll_withBundle {steps : List DerivationStep} {c c' : LineageContext}
    (bundle : CaseSourceBundle) (h : deriveAll c steps = .ok c') :
    deriveAll (c.withBundle bundle) steps = .ok (c'.withBundle bundle) := by
  induction steps generalizing c with
  | nil => rw [deriveAll, Except.ok.inj h]
  | cons step rest ih =>
      simp only [deriveAll, bind_eq_ok] at h ⊢
      obtain ⟨c₁, hstep, hrest⟩ := h
      exact ⟨_, derive_withBundle bundle hstep, ih hrest⟩

/-! ## The assurance of a context -/

omit [PyUnicode] in
lemma domainDigest_hex {domain digest : String} {value : Json}
    (h : domainDigest domain value = .ok digest) : IsHexText 64 digest := by
  obtain ⟨text, -, rfl⟩ := domainDigest_eq_ok.mp h
  exact sha256Hex_chars _

/-- The set of a bundle has the hash of its subject. -/
lemma caseSourceSetOf_eq_ok {bundle : CaseSourceBundle} {set : CaseSourceSet} :
    caseSourceSetOf bundle = .ok set ↔ ∃ subject, sourceSetWithoutHash bundle = .ok subject ∧
      domainDigest sourceSetDomain (.obj subject) = .ok set.sourceSetHash ∧
      set = ⟨set.sourceSetHash, sourceSetVersion, sourcePackVersion,
        sha256Bytes bundle.manifestBytes, bundle.manifestBytes.length,
        bundle.members.map fun m => m.setMember⟩ := by
  simp only [caseSourceSetOf, bind_eq_ok, Except.ok.injEq]
  constructor
  · rintro ⟨subject, hsubject, hash, hhash, rfl⟩
    exact ⟨subject, hsubject, hhash, rfl⟩
  · rintro ⟨subject, hsubject, hhash, hset⟩
    exact ⟨subject, hsubject, _, hhash, hset.symm⟩

/-- **A consistent context** has an assurance that passes its check. -/
lemma ConsistentContext.assurance_valid {c : LineageContext} (hc : ConsistentContext c) :
    validateCaseSourceAssurance c.assurance = .ok () := by
  obtain ⟨_, -, hset, -⟩ := caseSourceSetOf_eq_ok.mp hc.sources
  have hsetHex := domainDigest_hex hset
  have hbindingHex := domainDigest_hex hc.binding
  cases hlast : c.lineages.getLast? with
  | none =>
      have hnil := List.getLast?_eq_none_iff.mp hlast
      have hassurance : c.assurance = ⟨sourceBound, some sourcePackVersion, some sourceSetVersion,
          some c.caseSourceSet.sourceSetHash, some c.caseSourceBindingHash, none, none⟩ := by
        rw [LineageContext.assurance, if_pos hnil, hlast, HashChain.tip, hlast, Option.map_none,
          Option.map_none]
      have hstate : ¬sourceBound ∉ [caseSourceUnbound, sourceBound, sourceDerived] ∧
        sourceBound ≠ caseSourceUnbound := by decide
      rw [hassurance, validateCaseSourceAssurance, if_neg hstate.1, if_neg hstate.2]
      simp only [seq_eq_ok, require_eq_ok, sourceTupleHash, true_and, ↓reduceIte, and_true]
      exact ⟨hsetHex, hbindingHex⟩
  | some last =>
      have hin := List.mem_of_getLast? hlast
      have hversion : last.contractVersion = sourceLineageVersion := by
        have hchecked := last.checked
        simp only [LineageRecord.postInit, seq_eq_ok, require_eq_ok] at hchecked
        exact hchecked.1
      have hassurance : c.assurance = ⟨sourceDerived, some sourcePackVersion, some sourceSetVersion,
          some c.caseSourceSet.sourceSetHash, some c.caseSourceBindingHash,
          some sourceLineageVersion, some last.lineageHash⟩ := by
        rw [LineageContext.assurance, if_neg (List.ne_nil_of_mem hin), hlast, HashChain.tip, hlast,
          Option.map_some, Option.map_some, hversion]
        rfl
      have hstate : ¬sourceDerived ∉ [caseSourceUnbound, sourceBound, sourceDerived] ∧
        sourceDerived ≠ caseSourceUnbound ∧ sourceDerived ≠ sourceBound := by decide
      rw [hassurance, validateCaseSourceAssurance, if_neg hstate.1, if_neg hstate.2.1]
      simp only [seq_eq_ok, require_eq_ok, sourceTupleHash, true_and, if_neg hstate.2.2]
      exact ⟨hsetHex, hbindingHex, domainDigest_hex (hc.each last hin).hash⟩

/-- What a lineage is given passes its constructor's checks, but for a hash that is its parent's. -/
lemma nextRecord_valid {c : LineageContext} (hc : ConsistentContext c) {kind version : String}
    {inputCaseHash outputCaseHash materialJson materialHash lineageHash : String}
    {material : Dict} (raw : Bytes) (hmaterial : (Json.obj material).WF)
    (hjson : dumps (.obj material) = .ok materialJson)
    (hversion : (kind, version) ∈ operationVersions) (hin : IsHexText 64 inputCaseHash)
    (hout : IsHexText 64 outputCaseHash) (hhash : IsHexText 64 materialHash)
    (hlineage : IsHexText 64 lineageHash)
    (hfresh : HashChain.tip lineageNaming c.lineages ≠ some lineageHash) :
    LineageRecord.postInit { c.nextRecord kind version inputCaseHash outputCaseHash materialJson
      materialHash raw with lineageHash := lineageHash } = .ok () := by
  have hlower : ∀ {s label : String}, IsHexText 64 s → sourceLowerHash (.str s) label = .ok () :=
    fun h => require_eq_ok.mpr ((isLowercaseSha256_iff _).mpr h)
  have hparent : ∀ parent, HashChain.tip lineageNaming c.lineages = some parent →
      IsHexText 64 parent := by
    intro parent htip
    obtain ⟨last, hlast, rfl⟩ := Option.map_eq_some_iff.mp htip
    exact domainDigest_hex (hc.each last (List.mem_of_getLast? hlast)).hash
  simp only [LineageRecord.postInit, LineageContext.nextRecord, LineageRecord.checkParent,
    LineageRecord.checkMaterial, bind_eq_ok, exists_unit, require_eq_ok, forEach_eq_ok, true_and,
    List.forall_mem_cons, List.not_mem_nil, false_implies, implies_true, and_true]
  refine ⟨⟨hlower hlineage, hlower (domainDigest_hex hc.binding), hlower hin, hlower hhash,
    hlower hout⟩, ?_, ?_, ?_, _, loads_dumps ⟨true⟩ hmaterial hjson, ?_⟩
  · cases htip : HashChain.tip lineageNaming c.lineages with
    | none => rfl
    | some parent =>
        simp only [seq_eq_ok, require_eq_ok]
        exact ⟨hlower (hparent parent htip), fun h => hfresh (h ▸ htip)⟩
  · exact require_eq_ok.mpr (List.mem_map_of_mem hversion)
  · refine require_eq_ok.mpr ?_
    simp only [operationVersions, List.mem_cons, Prod.mk.injEq, List.not_mem_nil, or_false]
      at hversion
    rcases hversion with ⟨rfl, rfl⟩ | ⟨rfl, rfl⟩
    · rfl
    · rfl
  · exact bind_eq_ok.mpr ⟨_, hjson, require_eq_ok.mpr rfl⟩

/-- A context with one more lineage, of these hashes, that leads to a case. -/
structure Extended (c c' : LineageContext) (lineageHash materialHash : String) (output : Dict)
    (referenceContext : ReferenceContext) : Prop where
  lineage : ∃ next : CaseSourceLineage, c'.lineages = c.lineages ++ [next] ∧
    next.lineageHash = lineageHash ∧ next.operationMaterialHash = materialHash
  case : c'.case = .ok output
  references : c'.referenceContext = referenceContext

/-- **A lineage that starts from the case** of a consistent context extends it, unless its hash is
that of its parent. -/
lemma ConsistentContext.extend_returns {c : LineageContext} (hc : ConsistentContext c)
    {kind version inputCaseHash outputCaseHash materialJson materialHash lineageHash : String}
    {case material output : Dict} (raw : Bytes) (referenceContext : ReferenceContext)
    (hcase : c.case = .ok case) (hinput : canonicalHash (.obj case) = .ok inputCaseHash)
    (hversion : (kind, version) ∈ operationVersions) (hmaterial : (Json.obj material).WF)
    (hjson : dumps (.obj material) = .ok materialJson)
    (hhash : domainDigest (operationDomain kind) (.obj material) = .ok materialHash)
    (houtput : (Json.obj output).WF) (haccepted : validateCaseDict output = .ok ())
    (houtputHash : canonicalHash (.obj output) = .ok outputCaseHash)
    (hlineage : domainDigest sourceLineageDomain
      (.obj (c.nextCore kind version inputCaseHash outputCaseHash materialHash)) = .ok lineageHash)
    (hfresh : HashChain.tip lineageNaming c.lineages ≠ some lineageHash) :
    ∃ c', c.extend (c.nextRecord kind version inputCaseHash outputCaseHash materialJson materialHash
        raw) output referenceContext = .ok c' ∧
      Extended c c' lineageHash materialHash output referenceContext := by
  obtain ⟨input, hsame, -, -, hterminal⟩ := hc.case
  obtain rfl := Except.ok.inj (hcase.symm.trans hsame)
  obtain rfl := Except.ok.inj (hinput.symm.trans hterminal)
  have hfinite := ((canonicalHash_returns_iff houtput haccepted).mp ⟨_, houtputHash⟩).2
  have hdumps : dumps (.obj output) = .ok (String.ofList (jsonText (.obj output))) :=
    dumps_eq_ok.mpr ⟨hfinite, rfl⟩
  have hchecked := nextRecord_valid hc raw hmaterial hjson hversion
    (isHexText_canonicalHash hinput) (isHexText_canonicalHash houtputHash) (domainDigest_hex hhash)
    (domainDigest_hex hlineage) hfresh
  let next : CaseSourceLineage := ⟨_, hchecked⟩
  refine ⟨{ c with
    caseJson := String.ofList (jsonText (.obj output))
    referenceContext := referenceContext
    lineages := c.lineages ++ [next] }, ?_, ⟨next, rfl, rfl, rfl⟩,
    case_eq_ok.mpr (loads_dumps ⟨true⟩ houtput hdumps), rfl⟩
  simp only [LineageContext.extend, bind_eq_ok, exists_unit, require_eq_ok, construct_eq_ok]
  exact ⟨lineageHash, hlineage, next, rfl, rfl, _, hdumps, rfl⟩

/-- **A mutation** that can be decoded and applied leaves a context. -/
theorem deriveCaseSourceMutation_returns {c : LineageContext} (hc : ConsistentContext c)
    {raw : Bytes} {decoded : DecodedMutation} {case mutated output : Dict}
    {inputCaseHash outputCaseHash materialHash lineageHash : String} (hcase : c.case = .ok case)
    (hinput : canonicalHash (.obj case) = .ok inputCaseHash)
    (hdecoded : decodeMutation raw = .ok decoded)
    (hhash : domainDigest (operationDomain "MUTATION") (.obj (mutationMaterial raw decoded)) =
      .ok materialHash)
    (hmutated : applyMutationMaterial case (mutationMaterial raw decoded) = .ok mutated)
    (houtput : prepareCase mutated = .ok output)
    (houtputHash : canonicalHash (.obj output) = .ok outputCaseHash)
    (hlineage : domainDigest sourceLineageDomain (.obj (c.nextCore "MUTATION"
      mutationOperationVersion inputCaseHash outputCaseHash materialHash)) = .ok lineageHash)
    (hfresh : HashChain.tip lineageNaming c.lineages ≠ some lineageHash) :
    ∃ c', deriveCaseSourceMutation c raw = .ok c' ∧
      Extended c c' lineageHash materialHash output c.referenceContext := by
  obtain ⟨hmaterial, ⟨materialJson, hjson⟩, hkeeps⟩ := mutationMaterial_spec hdecoded
  obtain ⟨input, hsame, hwf, -, -⟩ := hc.case
  obtain rfl := Except.ok.inj (hcase.symm.trans hsame)
  obtain ⟨c', hextend, hc'⟩ := hc.extend_returns raw c.referenceContext hcase hinput
    (by simp [operationVersions]) hmaterial hjson hhash
    (prepareCase_wf (hkeeps _ _ hwf hmutated) houtput) (prepareCase_eq_ok.mp houtput).2 houtputHash
    hlineage hfresh
  refine ⟨c', ?_, hc'⟩
  simp only [deriveCaseSourceMutation, hdecoded, hjson, hhash, hcase, hinput, hmutated, houtput,
    houtputHash, ok_bind]
  exact hextend

/-- The case that a native replay resolves to. -/
def replayedCase (case material : Dict) (artifacts : SealedArtifactContext) : Result Dict := do
  let application ← nativeOperationsForApplication material
  let operations ← application.getItem "operations"
  let operations ← operations.iterate
  resolveCase case (material.textAt "resolution_id") operations artifacts.toArtifactContext

/-- **A native replay** whose material passes its check, and that resolves, leaves a context. -/
theorem deriveCaseSourceNativeReplay_returns {c : LineageContext} (hc : ConsistentContext c)
    {blob : Bytes} {material : Dict} {artifacts : SealedArtifactContext}
    {projected : ResolutionProjection} {case output : Dict}
    {inputCaseHash outputCaseHash materialHash lineageHash : String}
    (hmaterial : (Json.obj material).WF)
    (hdocuments : ∀ doc ∈ artifacts.documents, (Json.obj doc).WF)
    (hvalid : validateNativeReplayMaterial material blob = .ok material)
    (hprojected : nativeResolutionProjection blob = .ok projected)
    (hartifacts : requireSameArtifacts c material projected artifacts = .ok ())
    (hcase : c.case = .ok case) (hinput : canonicalHash (.obj case) = .ok inputCaseHash)
    (hhash : domainDigest (operationDomain "NATIVE_REPLAY") (.obj material) = .ok materialHash)
    (houtput : replayedCase case material artifacts = .ok output)
    (houtputHash : canonicalHash (.obj output) = .ok outputCaseHash)
    (hlineage : domainDigest sourceLineageDomain (.obj (c.nextCore "NATIVE_REPLAY"
      nativeReplayOperationVersion inputCaseHash outputCaseHash materialHash)) = .ok lineageHash)
    (hfresh : HashChain.tip lineageNaming c.lineages ≠ some lineageHash) :
    ∃ c', deriveCaseSourceNativeReplay c blob material artifacts = .ok c' ∧
      Extended c c' lineageHash materialHash output artifacts.referenceContext := by
  obtain ⟨materialJson, hjson, -⟩ := domainDigest_eq_ok.mp hhash
  obtain ⟨input, hsame, hwf, -, -⟩ := hc.case
  obtain rfl := Except.ok.inj (hcase.symm.trans hsame)
  simp only [replayedCase, bind_eq_ok] at houtput
  obtain ⟨application, happlication, operations, hget, items, hitems, hresolve⟩ := houtput
  have hoperations := nativeOperationsForApplication_wf hmaterial happlication hget hitems
  obtain ⟨c', hextend, hc'⟩ := hc.extend_returns blob artifacts.referenceContext hcase
    hinput (by simp [operationVersions]) hmaterial hjson hhash
    (resolveCase_wf hwf hoperations hdocuments hresolve) (resolveCase_accepted hresolve houtputHash)
    houtputHash hlineage hfresh
  refine ⟨c', ?_, hc'⟩
  simp only [deriveCaseSourceNativeReplay, hvalid, hprojected, hartifacts, hcase, happlication,
    hget, hitems, hresolve, hinput, houtputHash, hjson, hhash, ok_bind]
  exact hextend

/-- **Any sequence of changes** leads from a root to a consistent context of it: its lineages are
those of the changes, its assurance passes its check, and the case hash that the next change has to
start from is that of its case. -/
theorem deriveAll_consistent {build : CaseSourceBundle → Result BuiltCase}
    {bundle : CaseSourceBundle} {steps : List DerivationStep} {root c : LineageContext}
    (hroot : prepareCaseSourceContext build bundle = .ok root)
    (hderive : deriveAll root steps = .ok c) :
    ConsistentContext c ∧ c.bundle = bundle ∧ SameRoot root c ∧ RecordsSteps steps c.lineages ∧
      validateCaseSourceAssurance c.assurance = .ok () ∧
      ∀ case hash, c.case = .ok case → canonicalHash (.obj case) = .ok hash →
        hash = terminalCaseHash c.rootCaseHash c.lineages := by
  obtain ⟨hconsistent, hbundle, hempty⟩ := prepareCaseSourceContext_consistent hroot
  obtain ⟨hc, hsame, added, hadded, hrecords⟩ := deriveAll_adds hconsistent hderive
  rw [hempty, List.nil_append] at hadded
  refine ⟨hc, hsame.bundle.trans hbundle, hsame, hadded ▸ hrecords, hc.assurance_valid, ?_⟩
  intro case hash hcase hhash
  obtain ⟨case', hcase', -, -, hhash'⟩ := hc.case
  obtain rfl := Except.ok.inj (hcase.symm.trans hcase')
  exact Except.ok.inj (hhash.symm.trans hhash')

end Contexts

section Ascii

attribute [local instance] asciiUnicode

/-- A capture of so many bytes. -/
def sampleCapture (path kind : String) (size : ℤ)
    (h : CaptureFields.postInit ⟨path, size, kind, true⟩ = .ok ()) : CaseSourceCapture := ⟨⟨path, size, kind, true⟩, h⟩

/-- A member of one byte. -/
def sampleMember (role path : String) (raw : Bytes) (h : SourceMemberFields.postInit
    ⟨role, role, path, "CSV", raw, none⟩ = .ok ()) : CaseSourceMember :=
  ⟨⟨role, role, path, "CSV", raw, none⟩, h⟩

/-- A bundle of five small tables. -/
def sampleBundle : CaseSourceBundle where
  manifestBytes := [123, 125]
  members :=
    [sampleMember "PROCESS_FLOW" "flow.csv" [0] (by decide +kernel),
     sampleMember "PFMEA" "pfmea.csv" [1] (by decide +kernel),
     sampleMember "CONTROL_PLAN" "plan.csv" [2] (by decide +kernel),
     sampleMember "SOP" "sop.csv" [3] (by decide +kernel),
     sampleMember "INSPECTION_RECORD" "record.csv" [4] (by decide +kernel)]
  snapshot :=
    { sourceKind := "FILESYSTEM_SINGLE_SNAPSHOT"
      captures :=
        [sampleCapture "case.json" "JSON" 2 (by decide +kernel),
         sampleCapture "flow.csv" "CSV" 1 (by decide +kernel),
         sampleCapture "pfmea.csv" "CSV" 1 (by decide +kernel),
         sampleCapture "plan.csv" "CSV" 1 (by decide +kernel),
         sampleCapture "sop.csv" "CSV" 1 (by decide +kernel),
         sampleCapture "record.csv" "CSV" 1 (by decide +kernel)]
      isSealed := true
      checked := by decide +kernel }
  contractVersion := sourcePackVersion
  checked := by decide +kernel

/-- What its builder returns. -/
def sampleBuilt : BuiltCase where
  case := sampleContext.case
  references := sampleReferenceContext
  wf := by decide +kernel
  accepted := sampleContext.accepted

/-- A mutation that gives the flow another owner. -/
def ownerMutation (id owner : String) : Dict := Dict.ofList
  [("mutation_id", .str id),
   ("operations", .arr [.obj (Dict.ofList [("op", .str "set"), ("document_id", .str "FLOW"),
      ("path", .str "owner"), ("value", .str owner)])])]

/-- Its bytes. -/
def ownerMutationBytes (id owner : String) : Bytes :=
  encodeUtf8 (String.ofList (jsonText (.obj (ownerMutation id owner))))

/-- What the bytes are decoded to. -/
def ownerDecoded (id owner : String) : DecodedMutation :=
  ⟨id, [recordedOperation 0 "set" "document" (.str "FLOW") "owner"
    (recordedValue (some (.str owner)))]⟩

/-- The identity of bytes, from their digest and their number. -/
def blobIdentity (digest : String) (size : ℤ) : Json :=
  .obj (Dict.ofList [("source_hash", .str digest), ("size_bytes", .int size)])

/-- The material of the mutation, from the digest of its bytes. -/
def ownerMaterial (id owner digest : String) : Dict := Dict.ofList
  [("operation_kind", .str "MUTATION"),
   ("operation_contract_version", .str "qualityci-case-source-mutation-operation-0.1"),
   ("mutation_blob", blobIdentity digest 98), ("mutation_id", .str id),
   ("applied_operations", .arr (ownerDecoded id owner).operations)]

/-- The hash of a sealed context. -/
def digitHash (digit : Char) : String := String.ofList (List.replicate 64 digit)

/-- The material of a replay of the resolution that keeps the steps, in the order of its keys. -/
def replayMaterial : Dict :=
  [("applied_operations", .arr keptProjection.appliedOperations),
   ("approval_assertion_set_domain_version", .str "QualityCI/approval-assertion-set/v1"),
   ("approval_assertion_set_hash", .str (digitHash '6')),
   ("approval_subject_contract_version", .str "qualityci-approval-subject-0.2"),
   ("approval_subject_hash", .str (digitHash '5')),
   ("artifact_contract_version", .str "qualityci-revision-artifact-0.3"),
   ("artifact_set_hash", .str (digitHash '0')),
   ("authorization_authenticity_context_contract_version",
     .str "qualityci-authorization-authenticity-context-0.1"),
   ("authorization_authenticity_context_hash", .str (digitHash '7')),
   ("authorization_authenticity_state", .str "PASS"),
   ("authorization_record_set_contract_version",
     .str "qualityci-authorization-record-set-0.2"),
   ("authorization_record_set_hash", .str (digitHash '8')),
   ("authorization_trust_policy_hash", .str (digitHash 'a')),
   ("authorization_trust_policy_version", .str "qualityci-authorization-trust-policy-0.1"),
   ("authorization_trust_snapshot_contract_version",
     .str "qualityci-authorization-trust-snapshot-0.1"),
   ("authorization_trust_snapshot_hash", .str (digitHash '9')),
   ("controlled_reference_set_hash", .str (digitHash '1')),
   ("native_resolution_blob",
     blobIdentity "fc248827120a215b257ba17ac9502e160f9b0e890defcac525d4c0f26bf78edf" 231),
   ("operation_contract_version",
     .str "qualityci-case-source-native-replay-operation-0.1"),
   ("operation_kind", .str "NATIVE_REPLAY"),
   ("reference_contract_version", .str "qualityci-controlled-reference-0.1"),
   ("resolution_id", .str "R-1"),
   ("resolved_validation_evidence_set_hash", .str (digitHash '3')),
   ("source_validation_evidence_set_hash", .str (digitHash '2')),
   ("validation_evidence_contract_version", .str "qualityci-validation-evidence-0.1"),
   ("validation_evidence_pair_hash", .str (digitHash '4'))]

/-- The artifacts of the replay. -/
def replayArtifacts : SealedArtifactContext where
  toArtifactContext := sampleArtifacts (revisedFlow "ME")
  artifactSetHash := digitHash '0'
  artifactContractVersion := "qualityci-revision-artifact-0.3"
  sourceReferenceSetHash := sampleReferenceContext.referenceSetHash
  referenceContext := { sampleReferenceContext with
    referenceSetHash := digitHash '1' }

/-- Two mutations, and a native replay of what they leave. -/
def sampleMutations : List Bytes := [ownerMutationBytes "M-2" "PE", ownerMutationBytes "M-3" "ME"]

def sampleReplay : DerivationStep :=
  .nativeReplay (sampleResolutionBytes keptOperations) replayMaterial replayArtifacts
    (by decide +kernel) (by decide +kernel)

def sampleSteps : List DerivationStep := sampleMutations.map .mutation ++ [sampleReplay]

/-- What a change is hashed to: its bytes, its material, the case it leads to, and its lineage. -/
structure ChangeDigests where
  blob : String
  material : String
  output : String
  lineage : String

/-- The digests of the root. -/
def rootDigest : String := "892102b7f62c17df0bf83afa55248810da39601a3e393bdccfc05c0054bee39f"
def sourceSetDigest : String := "25f385542c3cc3648543683ece63f92653085c66d4fdc4ca03b16816461208c9"
def bindingDigest : String := "7233fd1da0cabc26c5686b5588a6a7dd78246bc20c1eae482e74363c94f84e9b"

/-- And of each of the changes. -/
def firstDigests : ChangeDigests where
  blob := "be9d54131e9b878cbda15f67bda3a1271ce89ae8c98c29ea4bbe04898cfac04f"
  material := "640e728dfd2ffadb066563ccc770f44772201652b8c4905e1af33124480039ce"
  output := "0ebdd362e4c60d0c2fea29f52084131216a3bc8c7510fa91932fa8866c5fc5d7"
  lineage := "504101cbd7c95f0109f3bbec06658fd5d6a8680c293cb16b9661bbeeaa76e3d0"

def secondDigests : ChangeDigests where
  blob := "1ca160f17bee0280cd19c7eb5c4275ec23d431c46b3338cb4829af039f9f7106"
  material := "358ebfd5f1341b913219c38453cac2fd096afb8b78ae2ff60a9d954507743ee9"
  output := "4c07757bb4b2229fd9f0c7f8cdcbb6b380d672ef57558267ef4a396c9cf1996a"
  lineage := "60c6853f7cf44c3ad830c77705dca36ce6a6b83fc05751851461df974bae4655"

def replayDigests : ChangeDigests where
  blob := "fc248827120a215b257ba17ac9502e160f9b0e890defcac525d4c0f26bf78edf"
  material := "aecdfdaee2d6852cc6ff20c72af11e3dc960576020d9e1987eb841872cbfaf89"
  output := "9c7603225edf808483b8f1ecbef0aad6ff0a4c74c22e01524ed9aaa1e3a15344"
  lineage := "492e85d520717d2529191065716334aaee4dd4e482e9215d9e07ca75b850456d"

/-- The case after a mutation, and after the replay. -/
def mutatedCase (id owner : String) : Dict :=
  (caseOfFlow (presentFlow owner)).set "active_mutation" (.str id)

def resolvedCase : Dict := markResolved (caseOfFlow (revisedFlow "ME")) "R-1"

/-- The replay of the resolution in the case that the mutations leave. -/
def keptRun : Replay where
  resolution := ⟨"R-1", "steps", "RS-1", keptOperations.map operationOf⟩
  subjectOperations := keptOperations.map operationOf
  resolvedCase := resolvedCase
  materialOperations := keptOperations.map operationOf

/-- The core of a lineage of the chain, after another or none. -/
def chainCore (kind version : String) (parent : Option String) (input : String)
    (digests : ChangeDigests) : Dict := Dict.ofList
  [("contract_version", .str sourceLineageVersion), ("root_binding_hash", .str bindingDigest),
   ("parent_lineage_hash", optionJson parent), ("input_case_hash", .str input),
   ("operation_kind", .str kind), ("operation_contract_version", .str version),
   ("operation_material_hash", .str digests.material), ("output_case_hash", .str digests.output)]

lemma domainDigest_of_eval {domain digest : String} {value : Json} (hfinite : value.isFinite = true)
    (h : evalDigest (evalUtf8 domain ++ evalJson value) = evalUtf8 digest) :
    domainDigest domain value = .ok digest :=
  domainDigest_eq_ok.mpr ⟨_, dumps_eq_ok.mpr ⟨hfinite, rfl⟩,
    sha256Hex_of_eval (utf8_tagged_jsonText _ _) h⟩

/-- A case that can be hashed. -/
structure HashableCase (case : Dict) : Prop where
  wf : (Json.obj case).WF
  finite : (Json.obj case).isFinite = true
  accepted : validateCaseDict case = .ok ()

/-- Its hash, without accepting it again. -/
lemma canonicalHash_of_eval {case : Dict} {digest : String} (hcase : HashableCase case)
    (h : ((canonicalCaseProjection case).toOption.any fun projection =>
      evalDigest (evalJson (.obj projection)) == evalUtf8 digest) = true) :
    canonicalHash (.obj case) = .ok digest := by
  cases hprojection : canonicalCaseProjection case with
  | error e =>
      rw [hprojection] at h
      cases h
  | ok projection =>
      have hprojected := (keeps_canonicalCaseProjection isLocal_isFinite hcase.wf
        hprojection).mpr hcase.finite
      rw [hprojection, Except.toOption, Option.any_some, beq_iff_eq] at h
      rw [canonicalHash, hashedValue_of_accepted hcase.accepted, hprojection]
      exact bind_eq_ok.mpr ⟨_, rfl, bind_eq_ok.mpr ⟨_, dumps_eq_ok.mpr ⟨hprojected, rfl⟩,
        congrArg _ (sha256Hex_of_eval (utf8_jsonText _) h)⟩⟩

/-- A core is texts. -/
lemma chainCore_finite (kind version : String) (parent : Option String) (input : String)
    (digests : ChangeDigests) :
    (Json.obj (chainCore kind version parent input digests)).isFinite = true := by
  have hparent : (optionJson parent).isFinite = true := by
    cases parent with
    | none => rfl
    | some _ => rfl
  exact isFinite_ofList (by simp [Json.isFinite, hparent])

/-- What a mutation of the chain comes to, from a case with its hash, after a lineage or none. -/
structure OwnerChange (id owner : String) (parent : Option String) (case : Dict) (input : String)
    (digests : ChangeDigests) : Prop where
  blob : sha256Bytes (ownerMutationBytes id owner) = digests.blob
  size : (ownerMutationBytes id owner).length = 98
  decoded : decodeMutation (ownerMutationBytes id owner) = .ok (ownerDecoded id owner)
  material : domainDigest (operationDomain "MUTATION")
    (.obj (ownerMaterial id owner digests.blob)) = .ok digests.material
  applies : applyMutationMaterial case (ownerMaterial id owner digests.blob) =
    .ok (mutatedCase id owner)
  accepted : validateCaseDict (mutatedCase id owner) = .ok ()
  output : canonicalHash (.obj (mutatedCase id owner)) = .ok digests.output
  lineage : domainDigest sourceLineageDomain
    (.obj (chainCore "MUTATION" mutationOperationVersion parent input digests)) =
      .ok digests.lineage
  fresh : parent ≠ some digests.lineage

/-- And what a native replay comes to. -/
structure ReplayChange (blob : Bytes) (material : Dict) (artifacts : SealedArtifactContext)
    (parent : Option String) (case : Dict) (input : String) (output : Dict)
    (references : ReferenceContext) (digests : ChangeDigests) : Prop where
  wf : (Json.obj material).WF
  documents : ∀ doc ∈ artifacts.documents, (Json.obj doc).WF
  valid : validateNativeReplayMaterial material blob = .ok material
  projected : ∃ projected, nativeResolutionProjection blob = .ok projected ∧
    ∀ c : LineageContext, c.referenceContext = references →
      requireSameArtifacts c material projected artifacts = .ok ()
  resolves : replayedCase case material artifacts = .ok output
  blobHash : sha256Bytes blob = digests.blob
  materialHash : domainDigest (operationDomain "NATIVE_REPLAY") (.obj material) =
    .ok digests.material
  outputHash : canonicalHash (.obj output) = .ok digests.output
  lineage : domainDigest sourceLineageDomain
    (.obj (chainCore "NATIVE_REPLAY" nativeReplayOperationVersion parent input digests)) =
      .ok digests.lineage
  fresh : parent ≠ some digests.lineage

lemma OwnerChange.mutationMaterial {id owner input : String} {parent : Option String} {case : Dict}
    {digests : ChangeDigests} (h : OwnerChange id owner parent case input digests) :
    mutationMaterial (ownerMutationBytes id owner) (ownerDecoded id owner) =
      ownerMaterial id owner digests.blob := by
  rw [QualityCI.mutationMaterial, resolutionBlob, h.blob, h.size]
  rfl

lemma ownerMutationBytes_digest {id owner digest : String}
    (h : evalDigest (evalJson (.obj (ownerMutation id owner))) = evalUtf8 digest) :
    sha256Bytes (ownerMutationBytes id owner) = digest := by
  rw [ownerMutationBytes, sha256Bytes_encodeUtf8]
  exact sha256Hex_of_eval (utf8_jsonText _) h

lemma ownerMutation_decoded {id owner : String} (hwf : (Json.obj (ownerMutation id owner)).WF)
    (hfinite : (Json.obj (ownerMutation id owner)).isFinite = true)
    (h : decodeMutationValue (.obj (ownerMutation id owner)) = .ok (ownerDecoded id owner)) :
    decodeMutation (ownerMutationBytes id owner) = .ok (ownerDecoded id owner) := by
  rw [decodeMutation, ownerMutationBytes, strictUtf8Json_jsonText _ hwf hfinite, ok_bind, h]

lemma sampleCases_hashable : HashableCase (mutatedCase "M-2" "PE") ∧
    HashableCase (mutatedCase "M-3" "ME") ∧ HashableCase resolvedCase :=
  ⟨⟨by decide +kernel, by decide +kernel, by decide +kernel⟩,
    ⟨by decide +kernel, by decide +kernel, by decide +kernel⟩,
    ⟨by decide +kernel, by decide +kernel, by decide +kernel⟩⟩

lemma firstChange : OwnerChange "M-2" "PE" none sampleBuilt.case rootDigest firstDigests where
  blob := ownerMutationBytes_digest (by decide +kernel)
  size := by decide +kernel
  decoded := ownerMutation_decoded (by decide +kernel) (by decide +kernel) (by decide +kernel)
  material := domainDigest_of_eval (by decide +kernel) (by decide +kernel)
  applies := by decide +kernel
  accepted := sampleCases_hashable.1.accepted
  output := canonicalHash_of_eval sampleCases_hashable.1 (by decide +kernel)
  lineage := domainDigest_of_eval (chainCore_finite _ _ _ _ _) (by decide +kernel)
  fresh := Option.some_ne_none _ ∘ Eq.symm

lemma secondChange : OwnerChange "M-3" "ME" (some firstDigests.lineage) (mutatedCase "M-2" "PE")
    firstDigests.output secondDigests where
  blob := ownerMutationBytes_digest (by decide +kernel)
  size := by decide +kernel
  decoded := ownerMutation_decoded (by decide +kernel) (by decide +kernel) (by decide +kernel)
  material := domainDigest_of_eval (by decide +kernel) (by decide +kernel)
  applies := by decide +kernel
  accepted := sampleCases_hashable.2.1.accepted
  output := canonicalHash_of_eval sampleCases_hashable.2.1 (by decide +kernel)
  lineage := domainDigest_of_eval (chainCore_finite _ _ _ _ _) (by decide +kernel)
  fresh := by decide +kernel

/-- Where the chain stands: at a case with its hash, after changes with their digests. -/
structure StandsAt (c : LineageContext) (case : Dict) (hash : String)
    (references : ReferenceContext) (changes : List ChangeDigests) : Prop where
  consistent : ConsistentContext c
  binding : c.caseSourceBindingHash = bindingDigest
  caseHash : canonicalHash (.obj case) = .ok hash
  case : c.case = .ok case
  references : c.referenceContext = references
  lineages : c.lineages.map (fun l =>
      (l.lineageHash, l.operationMaterialHash, sha256Bytes l.operationBlobBytes)) =
    changes.map fun d => (d.lineage, d.material, d.blob)

section Standing

variable {c : LineageContext} {case : Dict} {hash : String} {references : ReferenceContext}
  {changes : List ChangeDigests} {digests : ChangeDigests}

lemma StandsAt.tip (h : StandsAt c case hash references changes) :
    HashChain.tip lineageNaming c.lineages = changes.getLast?.map ChangeDigests.lineage := by
  have hnames : c.lineages.map (fun l => l.lineageHash) = changes.map ChangeDigests.lineage := by
    have hfst := congrArg (List.map Prod.fst) h.lineages
    rwa [List.map_map, List.map_map] at hfst
  rw [HashChain.tip, ← List.getLast?_map, ← List.getLast?_map, ← hnames]
  rfl

/-- The core of the next lineage. -/
lemma StandsAt.nextCore (h : StandsAt c case hash references changes) (kind version : String) :
    c.nextCore kind version hash digests.output digests.material =
      chainCore kind version (changes.getLast?.map ChangeDigests.lineage) hash digests := by
  simp only [LineageContext.nextCore, LineageContext.nextRecord, LineageRecord.core, h.binding,
    h.tip, chainCore]

/-- One change further. -/
lemma StandsAt.extend (h : StandsAt c case hash references changes) {c' : LineageContext}
    {kind : String} {raw : Bytes} {output : Dict} {references' : ReferenceContext}
    (hstep : ConsistentContext c' ∧ Adds kind raw c c')
    (hextended : Extended c c' digests.lineage digests.material output references')
    (hblob : sha256Bytes raw = digests.blob)
    (houtput : canonicalHash (.obj output) = .ok digests.output) :
    StandsAt c' output digests.output references' (changes ++ [digests]) := by
  obtain ⟨hc', hsame, added, hadded, -, hraw⟩ := hstep
  obtain ⟨⟨next, hnext, hname, hmaterial⟩, hcase, hreferences⟩ := hextended
  obtain rfl : next = added := by simpa [hadded] using hnext.symm
  refine ⟨hc', hsame.binding.trans h.binding, houtput, hcase, hreferences, ?_⟩
  rw [hadded, List.map_append, List.map_append, h.lineages, List.map_singleton, List.map_singleton,
    hname, hmaterial, hraw, hblob]

/-- A mutation further. -/
lemma StandsAt.mutation (h : StandsAt c case hash references changes) {id owner : String}
    (hchange : OwnerChange id owner (changes.getLast?.map ChangeDigests.lineage) case hash
      digests) :
    ∃ c', deriveCaseSourceMutation c (ownerMutationBytes id owner) = .ok c' ∧
      StandsAt c' (mutatedCase id owner) digests.output references (changes ++ [digests]) := by
  have hmaterial := hchange.mutationMaterial
  obtain ⟨c', hderive, hextended⟩ := deriveCaseSourceMutation_returns h.consistent h.case h.caseHash
    hchange.decoded (hmaterial ▸ hchange.material) (hmaterial ▸ hchange.applies)
    (prepareCase_current hchange.accepted) hchange.output
    (by rw [h.nextCore]; exact hchange.lineage) (by rw [h.tip]; exact hchange.fresh)
  rw [h.references] at hextended
  exact ⟨c', hderive, h.extend (deriveCaseSourceMutation_consistent h.consistent hderive) hextended
    hchange.blob hchange.output⟩

/-- A native replay further. -/
lemma StandsAt.nativeReplay (h : StandsAt c case hash references changes) {blob : Bytes}
    {material output : Dict} {artifacts : SealedArtifactContext}
    (hchange : ReplayChange blob material artifacts (changes.getLast?.map ChangeDigests.lineage)
      case hash output references digests) :
    ∃ c', deriveCaseSourceNativeReplay c blob material artifacts = .ok c' ∧
      StandsAt c' output digests.output artifacts.referenceContext (changes ++ [digests]) := by
  obtain ⟨projected, hprojected, hartifacts⟩ := hchange.projected
  obtain ⟨c', hderive, hextended⟩ := deriveCaseSourceNativeReplay_returns h.consistent hchange.wf
    hchange.documents hchange.valid hprojected (hartifacts c h.references) h.case h.caseHash
    hchange.materialHash hchange.resolves hchange.outputHash
    (by rw [h.nextCore]; exact hchange.lineage) (by rw [h.tip]; exact hchange.fresh)
  exact ⟨c', hderive, h.extend (deriveCaseSourceNativeReplay_consistent h.consistent hchange.wf
    hchange.documents hderive) hextended hchange.blobHash hchange.outputHash⟩

end Standing

/-- The root of the bundle. -/
lemma sampleRoot_prepared :
    ∃ root, prepareCaseSourceContext (fun _ => .ok sampleBuilt) sampleBundle = .ok root ∧
      StandsAt root sampleBuilt.case rootDigest sampleReferenceContext [] := by
  have hhash : canonicalHash (.obj sampleBuilt.case) = .ok rootDigest :=
    canonicalHash_of_eval ⟨sampleBuilt.wf, by decide +kernel, sampleBuilt.accepted⟩
      (by decide +kernel)
  have hset : ∃ set, caseSourceSetOf sampleBundle = .ok set ∧
      set.sourceSetHash = sourceSetDigest := by
    have hsubject : ((sourceSetWithoutHash sampleBundle).toOption.any fun subject =>
        (Json.obj subject).isFinite &&
          evalDigest (evalUtf8 sourceSetDomain ++ evalJson (.obj subject)) ==
            evalUtf8 sourceSetDigest) = true := by decide +kernel
    cases hsub : sourceSetWithoutHash sampleBundle with
    | error e =>
        rw [hsub] at hsubject
        cases hsubject
    | ok subject =>
        simp only [hsub, Except.toOption, Option.any_some, Bool.and_eq_true, beq_iff_eq] at hsubject
        rw [caseSourceSetOf, hsub, ok_bind, domainDigest_of_eval hsubject.1 hsubject.2]
        exact ⟨_, rfl, rfl⟩
  obtain ⟨set, hset, hsetHash⟩ := hset
  have hbinding : domainDigest sourceBindingDomain
      (.obj (bindingProjection set.sourceSetHash rootDigest)) = .ok bindingDigest := by
    rw [hsetHash]
    exact domainDigest_of_eval (isFinite_ofList (by simp [Json.isFinite])) (by decide +kernel)
  obtain ⟨text, hjson⟩ : ∃ text, dumps (.obj sampleBuilt.case) = .ok text :=
    ⟨_, dumps_eq_ok.mpr ⟨by decide +kernel, rfl⟩⟩
  have hroot : prepareCaseSourceContext (fun _ => .ok sampleBuilt) sampleBundle =
      .ok ⟨sampleBundle, set, bindingDigest, rootDigest, text, sampleReferenceContext, []⟩ := by
    rw [prepareCaseSourceContext, ok_bind, hhash, ok_bind, hset, ok_bind, hbinding, ok_bind, hjson]
    rfl
  exact ⟨_, hroot, (prepareCaseSourceContext_consistent hroot).1, rfl, hhash,
    case_eq_ok.mpr (loads_dumps ⟨true⟩ sampleBuilt.wf hjson), rfl, rfl⟩

/-- The two mutations of the root. -/
lemma sampleMutations_derive : ∃ root c₁ c₂,
    prepareCaseSourceContext (fun _ => .ok sampleBuilt) sampleBundle = .ok root ∧
    deriveCaseSourceMutation root (ownerMutationBytes "M-2" "PE") = .ok c₁ ∧
    StandsAt c₁ (mutatedCase "M-2" "PE") firstDigests.output sampleReferenceContext
      [firstDigests] ∧
    deriveCaseSourceMutation c₁ (ownerMutationBytes "M-3" "ME") = .ok c₂ ∧
    deriveAll root (sampleMutations.map .mutation) = .ok c₂ ∧
    StandsAt c₂ (mutatedCase "M-3" "ME") secondDigests.output sampleReferenceContext
      [firstDigests, secondDigests] := by
  obtain ⟨root, hroot, hstands⟩ := sampleRoot_prepared
  obtain ⟨c₁, hfirst, hstands₁⟩ := hstands.mutation firstChange
  obtain ⟨c₂, hsecond, hstands₂⟩ := hstands₁.mutation secondChange
  have hstep₁ : derive root (.mutation (ownerMutationBytes "M-2" "PE")) = .ok c₁ := hfirst
  have hstep₂ : derive c₁ (.mutation (ownerMutationBytes "M-3" "ME")) = .ok c₂ := hsecond
  have hderive : deriveAll root (sampleMutations.map .mutation) = .ok c₂ := by
    simp only [sampleMutations, List.map_cons, List.map_nil, deriveAll, hstep₁, hstep₂, ok_bind]
  exact ⟨root, c₁, c₂, hroot, hfirst, hstands₁, hsecond, hderive, hstands₂⟩

lemma keptOperations_digest :
    sha256Bytes (sampleResolutionBytes keptOperations) = replayDigests.blob := by
  rw [sampleResolutionBytes, sha256Bytes_encodeUtf8]
  exact sha256Hex_of_eval (utf8_jsonText _) (by decide +kernel)

/-- The material is that of the replay. -/
lemma replayMaterial_eq :
    nativeReplayMaterial keptRun (sampleResolutionBytes keptOperations) sampleHashes =
      replayMaterial := by
  have hsize : (sampleResolutionBytes keptOperations).length = 231 := by decide +kernel
  rw [nativeReplayMaterial, nativeReplayItems, resolutionBlob, keptOperations_digest, hsize]
  decide +kernel

lemma replayMaterial_valid :
    validateNativeReplayMaterial replayMaterial (sampleResolutionBytes keptOperations) =
      .ok replayMaterial := by
  rw [← replayMaterial_eq]
  exact nativeReplayMaterial_valid keptOperations_projected rfl (by decide +kernel)
    (by decide +kernel)

lemma replayChange : ReplayChange (sampleResolutionBytes keptOperations) replayMaterial
    replayArtifacts (some secondDigests.lineage) (mutatedCase "M-3" "ME") secondDigests.output
    resolvedCase sampleReferenceContext replayDigests where
  wf := by decide +kernel
  documents := by decide +kernel
  valid := replayMaterial_valid
  projected := by
    refine ⟨keptProjection, keptOperations_projected, fun c hc => ?_⟩
    rw [requireSameArtifacts, hc]
    decide +kernel
  resolves := by decide +kernel
  blobHash := keptOperations_digest
  materialHash := domainDigest_of_eval (by decide +kernel) (by decide +kernel)
  outputHash := canonicalHash_of_eval sampleCases_hashable.2.2 (by decide +kernel)
  lineage := domainDigest_of_eval (chainCore_finite _ _ _ _ _) (by decide +kernel)
  fresh := by decide +kernel

/-- **The root, two mutations and a native replay.** -/
lemma sampleSteps_derive : ∃ root c,
    prepareCaseSourceContext (fun _ => .ok sampleBuilt) sampleBundle = .ok root ∧
    deriveAll root sampleSteps = .ok c ∧
    StandsAt c resolvedCase replayDigests.output replayArtifacts.referenceContext
      [firstDigests, secondDigests, replayDigests] := by
  obtain ⟨root, -, c₂, hroot, -, -, -, hderive, hstands₂⟩ := sampleMutations_derive
  obtain ⟨c, hreplay, hstands⟩ := hstands₂.nativeReplay replayChange
  have hstep : derive c₂ sampleReplay = .ok c := hreplay
  exact ⟨root, c, hroot, deriveAll_concat hderive hstep, hstands⟩

theorem deriveAll_consistent_flow : ∃ root c,
    prepareCaseSourceContext (fun _ => .ok sampleBuilt) sampleBundle = .ok root ∧
    deriveAll root sampleSteps = .ok c ∧ ConsistentContext c ∧
    RecordsSteps sampleSteps c.lineages ∧ validateCaseSourceAssurance c.assurance = .ok () := by
  obtain ⟨root, c, hroot, hderive, -⟩ := sampleSteps_derive
  obtain ⟨hc, -, -, hrecords, hvalid, -⟩ := deriveAll_consistent hroot hderive
  exact ⟨root, c, hroot, hderive, hc, hrecords, hvalid⟩

end Ascii

end QualityCI

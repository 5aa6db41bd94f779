import QualityCI.Engine.Printable
import QualityCI.Lineage.Staging

/-!
# Storing a root, and reading it back

The store keeps no root case: it keeps the bytes of the manifest and of the five members, a row for
the set with the hashes that were taken of them, and a row for each member.  To read the root, the
bundle is put together from the bytes, the case is built again, and every column and every payload
is compared with what the rebuilt context says.

* `SourceSetRow`, `SourceMemberRow`, `SourceTables` — the two tables.
* `storedCaseSourceContext` — reading a root.
* `writeCaseSource`, `stageCaseSourceContext` — storing one.
* `sourceReaders` — the walk over lineages, on these tables.
* **`storedCase_read_back`** — a root and the lineages of its mutations, once written, are read
  back; and to store them again changes nothing.
-/

namespace QualityCI

open Py KeySort

/-! ## The tables -/

/-- A row of `case_source_sets`.  `versions` are its columns of contract versions, from
`case_schema_version` on, in the order of the table. -/
structure SourceSetRow where
  sourceSetHash : SqlValue
  sourceSetContractVersion : SqlValue
  sourcePackContractVersion : SqlValue
  manifestSourceHash : SqlValue
  manifestSizeBytes : SqlValue
  rootCaseHash : SqlValue
  rootBindingHash : SqlValue
  versions : List SqlValue
  canonicalPayloadJson : String
  deriving DecidableEq

/-- A row of `case_source_members`; its index is checked to be between 0 and 4. -/
structure SourceMemberRow where
  sourceSetHash : SqlValue
  memberIndex : Fin 5
  documentType : SqlValue
  sourceId : SqlValue
  sourcePath : SqlValue
  sourceKind : SqlValue
  sizeBytes : SqlValue
  sourceHash : SqlValue
  declaredTableSelectorJson : SqlValue
  canonicalPayloadJson : String
  deriving DecidableEq

/-- The sets, their members, and the tables that reading a root does not look at. -/
structure SourceTables (Rest : Type) where
  sets : List SourceSetRow
  members : List SourceMemberRow
  rest : Rest

section Tables

variable {Rest : Type}

/-- `SELECT * FROM case_source_sets WHERE source_set_hash=?`. -/
def SourceTables.set? (t : SourceTables Rest) (key : SqlValue) : Option SourceSetRow :=
  t.sets.find? fun row => decide (IsKey row.sourceSetHash key)

/-- `SELECT … FROM case_source_members WHERE source_set_hash=? ORDER BY member_index`. -/
def SourceTables.membersOf (t : SourceTables Rest) (key : SqlValue) : List SourceMemberRow :=
  sortBy SourceMemberRow.memberIndex (t.members.filter fun row => decide (IsKey row.sourceSetHash key))

end Tables

/-- A text. -/
def SqlValue.text? : SqlValue → Option String
  | .text s => some s
  | _ => none

/-- A text or `NULL`. -/
def SqlValue.textOrNull? : SqlValue → Option (Option String)
  | .text s => some (some s)
  | .null => some none
  | _ => none

/-! ## What the rows say of a context -/

/-- The contract versions of a binding, by their columns. -/
def bindingVersions : List (String × String) :=
  [("case_schema_version", caseSchemaVersion),
   ("builder_manifest_version", "qualityci-case-builder-0.4"),
   ("ingestion_policy_version", "qualityci-ingestion-policy-0.2"),
   ("parser_consumption_plan_version", "qualityci-parser-consumption-plan-0.1"),
   ("mapping_contract_version", "qualityci-explicit-mapping-0.5"),
   ("derived_locator_contract_version", "qualityci-derived-locator-0.1"),
   ("identical_value_aggregation_contract_version", "qualityci-identical-value-aggregate-0.1"),
   ("mapping_value_conversion_contract_version", "qualityci-mapping-value-conversion-0.1"),
   ("derived_reference_identity_contract_version", "qualityci-derived-reference-identity-0.1"),
   ("controlled_reference_contract_version", controlledReferenceContractVersion)]

/-- `CaseSourceSet.to_dict()`. -/
def CaseSourceSet.toDict (set : CaseSourceSet) : Result Dict := do
  let members ← mapEach CaseSourceSetMember.toDict set.members
  .ok <| Dict.ofList
    [("source_set_hash", .str set.sourceSetHash),
     ("source_set_contract_version", .str set.sourceSetContractVersion),
     ("source_pack_contract_version", .str set.sourcePackContractVersion),
     ("builder_manifest", .obj <| Dict.ofList
        [("source_hash", .str set.manifestSourceHash), ("size_bytes", .int set.manifestSizeBytes)]),
     ("members", .arr members)]

/-- `_case_source_member_payload`. -/
def caseSourceMemberPayload (sourceSetHash : String) (memberIndex : Fin 5)
    (m : CaseSourceSetMember) : Result Dict := do
  let selector ← selectorValue m.declaredTableSelectorJson
  .ok <| Dict.ofList
    [("source_set_hash", .str sourceSetHash), ("member_index", .int memberIndex.val),
     ("document_type", .str m.documentType), ("source_id", .str m.sourceId),
     ("source_path", .str m.sourcePath), ("source_kind", .str m.sourceKind),
     ("size_bytes", .int m.sizeBytes), ("source_hash", .str m.sourceHash),
     ("declared_table_selector", selector)]

/-- The row of a member. -/
def sourceMemberRow (sourceSetHash : String) (memberIndex : Fin 5) (m : CaseSourceSetMember) :
    Result SourceMemberRow := do
  let payload ← caseSourceMemberPayload sourceSetHash memberIndex m
  let payloadJson ← dumps (.obj payload)
  .ok
    { sourceSetHash := .text sourceSetHash
      memberIndex := memberIndex
      documentType := .text m.documentType
      sourceId := .text m.sourceId
      sourcePath := .text m.sourcePath
      sourceKind := .text m.sourceKind
      sizeBytes := .int m.sizeBytes
      sourceHash := .text m.sourceHash
      declaredTableSelectorJson := optionValue m.declaredTableSelectorJson
      canonicalPayloadJson := payloadJson }

/-! ## The captures of stored bytes -/

/-- The path that the capture of a stored manifest is given. -/
def storeManifestPath : String := "_qualityci_store_manifest.json"

/-- The capture of a stored manifest. -/
def storeManifestCapture (raw : Bytes) : CaseSourceCapture where
  relativePath := storeManifestPath
  sizeBytes := raw.length
  sourceKind := "JSON"
  filesystemSafe := false
  checked := by
    have hpath : validateRelativeSourcePath storeManifestPath "capture.relative_path" = .ok () := by
      decide +kernel
    simp [CaptureFields.postInit, hpath, sourceKinds, require_eq_ok]

/-- The capture of a stored member: it passes its check, as the member has passed its own. -/
def CaseSourceMember.storedCapture (m : CaseSourceMember) : CaseSourceCapture where
  relativePath := m.sourcePath
  sizeBytes := m.rawBytes.length
  sourceKind := m.sourceKind
  filesystemSafe := false
  checked := by
    have h := m.checked
    simp only [SourceMemberFields.postInit, seq_eq_ok, require_eq_ok, validateRelativeSourcePath,
      sourceExactNonempty] at h
    obtain ⟨-, -, ⟨hname, hslash, hparts, hposix⟩, hkind, -, -⟩ := h
    have hkinds : m.sourceKind ∈ sourceKinds := List.mem_cons_of_mem _ hkind
    simp only [CaptureFields.postInit, seq_eq_ok, require_eq_ok, validateRelativeSourcePath,
      sourceExactNonempty]
    exact ⟨⟨hname, hslash, hparts, hposix⟩, Int.natCast_nonneg _, hkinds⟩

section Contexts

variable [PyUnicode]

namespace LineageContext

/-- `_case_source_set_payload`. -/
def sourceSetPayload (c : LineageContext) : Result Dict := do
  let set ← c.caseSourceSet.toDict
  .ok <| Dict.ofList
    [("case_source_set", .obj set),
     ("root_binding", .obj <| Dict.ofList <|
        [("case_source_binding_hash", .str c.caseSourceBindingHash),
         ("root_case_hash", .str c.rootCaseHash)] ++
        bindingVersions.map fun entry => (entry.1, .str entry.2))]

/-- The row of its set but the payload: `expected_columns`. -/
def sourceSetColumns (c : LineageContext) (payloadJson : String) : SourceSetRow where
  sourceSetHash := .text c.caseSourceSet.sourceSetHash
  sourceSetContractVersion := .text sourceSetVersion
  sourcePackContractVersion := .text sourcePackVersion
  manifestSourceHash := .text c.caseSourceSet.manifestSourceHash
  manifestSizeBytes := .int c.caseSourceSet.manifestSizeBytes
  rootCaseHash := .text c.rootCaseHash
  rootBindingHash := .text c.caseSourceBindingHash
  versions := bindingVersions.map fun entry => .text entry.2
  canonicalPayloadJson := payloadJson

/-- The row of its set. -/
def sourceSetRow (c : LineageContext) : Result SourceSetRow := do
  let payload ← c.sourceSetPayload
  let payloadJson ← dumps (.obj payload)
  .ok (c.sourceSetColumns payloadJson)

end LineageContext

/-! ## Reading a root -/

variable {Rest : Type}

/-- The manifest in the table of blobs, against the row of the set. -/
def readManifest (t : LineageTables (SourceTables Rest)) (row : SourceSetRow) : StoreResult Bytes :=
  match t.blob? row.manifestSourceHash with
  | none => integrityError "stored case source manifest blob is missing"
  | some blob => do
      let raw ← uncaught (bytesOf blob.rawBytes)
      intact (blob.sizeBytes = .int raw.length ∧ row.manifestSizeBytes = .int raw.length ∧
          row.manifestSourceHash = .text (sha256Bytes raw))
        "stored case source manifest hash or size differs from its bytes"
      .ok raw

/-- The constructor of a member, on the columns of its row. -/
def rebuildMember (row : SourceMemberRow) (raw : Bytes) : StoreResult CaseSourceMember :=
  let message := "stored case source member cannot be rebuilt"
  match row.documentType.text?, row.sourceId.text?, row.sourcePath.text?, row.sourceKind.text?,
      row.declaredTableSelectorJson.textOrNull? with
  | some documentType, some sourceId, some sourcePath, some sourceKind, some selector =>
      handling rebuildErrors message
        (SourceMemberFields.construct ⟨documentType, sourceId, sourcePath, sourceKind, raw, selector⟩)
  | _, _, _, _, _ => integrityError message

/-- One member, in the loop of `_stored_case_source_context`. -/
def readSourceMember (t : LineageTables (SourceTables Rest)) (index : Fin 5) (role : String)
    (row : SourceMemberRow) : StoreResult CaseSourceMember :=
  let missing := "stored case source member blob is missing"
  match t.blob? row.sourceHash with
  | none => integrityError missing
  | some blob => do
      intact (blob.rawBytes ≠ .null) missing
      let raw ← uncaught (bytesOf blob.rawBytes)
      intact (row.memberIndex = index ∧ row.documentType = .text role ∧
          blob.sizeBytes = .int raw.length ∧ row.sizeBytes = .int raw.length ∧
          row.sourceHash = .text (sha256Bytes raw))
        "stored case source member role, hash, or size differs from bytes"
      rebuildMember row raw

/-- The loop: the members of the rows, each read with its place and its role. -/
def readSourceMembers (t : LineageTables (SourceTables Rest)) :
    List (Fin 5 × String × SourceMemberRow) → StoreResult (List CaseSourceMember)
  | [] => .ok []
  | (index, role, row) :: rest => do
      let m ← readSourceMember t index role row
      let members ← readSourceMembers t rest
      .ok (m :: members)

/-- The bundle of the bytes that were read. -/
def inMemoryBundle (manifestBytes : Bytes) (members : List CaseSourceMember) :
    Result CaseSourceBundle := do
  let snapshot ← SnapshotFields.construct
    ⟨"IN_MEMORY_BUNDLE", storeManifestCapture manifestBytes ::
      members.map CaseSourceMember.storedCapture, false⟩
  BundleFields.construct ⟨manifestBytes, members, snapshot, sourcePackVersion⟩

/-- The root that is built of a bundle. -/
def preparedRoot (build : CaseSourceBundle → Result BuiltCase) (bundle : CaseSourceBundle) :
    Result PreparedRoot :=
  match h : prepareCaseSourceContext build bundle with
  | .ok context => .ok ⟨context, build, bundle, h⟩
  | .error e => .error e

/-- A stored payload against the one that is expected. -/
def checkPayload (payloadJson : String) (expected : Dict) (invalid differs : String) :
    StoreResult Unit := do
  let payload ← handling rebuildErrors invalid (loads ⟨true⟩ payloadJson)
  let expectedJson ← uncaught (dumps (.obj expected))
  intact (pyEq payload (.obj expected) = true ∧ payloadJson = expectedJson) differs

/-- The payloads of the members, in the last loop. -/
def checkMemberPayloads (sourceSetHash : String) :
    List (Fin 5 × SourceMemberRow × CaseSourceSetMember) → StoreResult Unit
  | [] => .ok ()
  | (index, row, m) :: rest => do
      let expected ← uncaught (caseSourceMemberPayload sourceSetHash index m)
      checkPayload row.canonicalPayloadJson expected
        "stored case source member payload is invalid JSON"
        "stored case source member payload differs from rebuilt bytes"
      checkMemberPayloads sourceSetHash rest

/-- `enumerate` of five things. -/
def byPosition {α : Type} (xs : List α) : List (Fin 5 × α) := (List.finRange 5).zip xs

/-- `_stored_case_source_context`. -/
def storedCaseSourceContext (build : CaseSourceBundle → Result BuiltCase)
    (t : LineageTables (SourceTables Rest)) (sourceSetHash : String) : StoreResult PreparedRoot :=
  match t.other.set? (.text sourceSetHash) with
  | none => integrityError "stored case source set is missing"
  | some row => do
      let manifestBytes ← readManifest t row
      let rows := t.other.membersOf (.text sourceSetHash)
      intact (rows.length = sourceRoles.length)
        "stored case source set must contain exactly five members"
      let members ← readSourceMembers t (byPosition (sourceRoles.zip rows))
      let root ← handling rebuildErrors "stored case source bytes cannot rebuild their root context" do
        let bundle ← inMemoryBundle manifestBytes members
        preparedRoot build bundle
      intact (row = root.context.sourceSetColumns row.canonicalPayloadJson)
        "stored case source columns differ from rebuilt raw bytes"
      let expected ← uncaught root.context.sourceSetPayload
      checkPayload row.canonicalPayloadJson expected "stored case source payload is invalid JSON"
        "stored case source payload differs from rebuilt raw bytes"
      checkMemberPayloads sourceSetHash (byPosition (rows.zip root.context.caseSourceSet.members))
      .ok root

/-! ## Storing a root -/

/-- The constraints between two rows of `case_source_members`. -/
def SourceMemberRow.Conflicts (row stored : SourceMemberRow) : Prop :=
  stored.sourceSetHash = row.sourceSetHash ∧
    (stored.memberIndex = row.memberIndex ∨ stored.documentType = row.documentType ∨
      stored.sourceId = row.sourceId ∨ stored.sourcePath = row.sourcePath ∨
      stored.sourceHash = row.sourceHash)

instance (row stored : SourceMemberRow) : Decidable (row.Conflicts stored) :=
  inferInstanceAs (Decidable (_ ∧ _))

/-- `INSERT INTO case_source_sets`, of a row that passes the checks of its columns. -/
def insertSet (t : LineageTables (SourceTables Rest)) (row : SourceSetRow) :
    StoreResult (LineageTables (SourceTables Rest)) :=
  if ∀ stored ∈ t.other.sets, stored.sourceSetHash ≠ row.sourceSetHash ∧
      stored.rootBindingHash ≠ row.rootBindingHash then
    .ok { t with other := { t.other with sets := t.other.sets ++ [row] } }
  else .error .constraint

/-- `INSERT INTO case_source_members`, of a row that passes the checks of its columns. -/
def insertMember (t : LineageTables (SourceTables Rest)) (row : SourceMemberRow) :
    StoreResult (LineageTables (SourceTables Rest)) :=
  if ∀ stored ∈ t.other.members, ¬row.Conflicts stored then
    .ok { t with other := { t.other with members := t.other.members ++ [row] } }
  else .error .constraint

/-- The loop over the blobs of the members. -/
def stageMemberBlobs : LineageTables (SourceTables Rest) →
    List (CaseSourceMember × CaseSourceSetMember) → StoreResult (LineageTables (SourceTables Rest))
  | t, [] => .ok t
  | t, (m, identity) :: rest => do
      let (t, hash) ← stageBlob t m.rawBytes
      intact (hash = identity.sourceHash)
        "case source member differs from sealed source-set identity"
      stageMemberBlobs t rest

/-- A member has the fields of its entry in the set. -/
def SameMember (m : CaseSourceMember) (identity : CaseSourceSetMember) : Prop :=
  m.documentType = identity.documentType ∧ m.sourceId = identity.sourceId ∧
    m.sourcePath = identity.sourcePath ∧ m.sourceKind = identity.sourceKind ∧
    m.rawBytes.length = identity.sizeBytes ∧
    m.declaredTableSelectorJson = identity.declaredTableSelectorJson

instance (m : CaseSourceMember) (identity : CaseSourceSetMember) :
    Decidable (SameMember m identity) := inferInstanceAs (Decidable (_ ∧ _))

/-- The loop over the rows of the members. -/
def stageMemberRows (sourceSetHash : String) : LineageTables (SourceTables Rest) →
    List (Fin 5 × CaseSourceMember × CaseSourceSetMember) →
      StoreResult (LineageTables (SourceTables Rest))
  | t, [] => .ok t
  | t, (index, m, identity) :: rest => do
      intact (SameMember m identity)
        "case source member differs from sealed source-set projection"
      let row ← uncaught (sourceMemberRow sourceSetHash index identity)
      let t ← insertMember t row
      stageMemberRows sourceSetHash t rest

/-- What `_stage_case_source_context` writes for a set that is new. -/
def writeCaseSource (audit : LineageTables (SourceTables Rest) → String → StoreResult Rest)
    (t : LineageTables (SourceTables Rest)) (c : LineageContext) :
    StoreResult (LineageTables (SourceTables Rest)) := do
  let set := c.caseSourceSet
  let members := c.bundle.members.zip set.members
  let (t, manifestHash) ← stageBlob t c.bundle.manifestBytes
  intact (manifestHash = set.manifestSourceHash)
    "case source manifest differs from sealed source-set identity"
  let t ← stageMemberBlobs t members
  let row ← uncaught c.sourceSetRow
  let t ← insertSet t row
  let t ← stageMemberRows set.sourceSetHash t (byPosition members)
  let rest ← audit t set.sourceSetHash
  .ok { t with other := { t.other with rest := rest } }

/-- A stored root against the one that is given. -/
def SameSources (stored c : LineageContext) : Prop :=
  stored.bundle.manifestBytes = c.bundle.manifestBytes ∧
    stored.bundle.members.map CaseSourceMember.toSourceMemberFields =
      c.bundle.members.map CaseSourceMember.toSourceMemberFields ∧
    stored.rootCaseHash = c.rootCaseHash ∧ stored.caseSourceBindingHash = c.caseSourceBindingHash

instance (stored c : LineageContext) : Decidable (SameSources stored c) :=
  inferInstanceAs (Decidable (_ ∧ _))

/-- `_stage_case_source_context`: the tables it leaves, and whether the set is new. -/
def stageCaseSourceContext (build : CaseSourceBundle → Result BuiltCase)
    (audit : LineageTables (SourceTables Rest) → String → StoreResult Rest)
    (t : LineageTables (SourceTables Rest)) (c : LineageContext) :
    StoreResult (LineageTables (SourceTables Rest) × Bool) :=
  match t.other.set? (.text c.caseSourceSet.sourceSetHash) with
  | some _ => do
      let stored ← storedCaseSourceContext build t c.caseSourceSet.sourceSetHash
      let storedSet ← uncaught stored.context.caseSourceSet.toDict
      let set ← uncaught c.caseSourceSet.toDict
      intact (SameSources stored.context c ∧ pyEq (.obj storedSet) (.obj set) = true)
        "existing case source set differs from supplied raw closure"
      .ok (t, false)
  | none => do
      let t ← writeCaseSource audit t c
      let _ ← storedCaseSourceContext build t c.caseSourceSet.sourceSetHash
      .ok (t, true)

/-- The readers of the walk, on these tables. -/
def sourceReaders (build : CaseSourceBundle → Result BuiltCase)
    (native : LineageTables (SourceTables Rest) → LineageContext → Dict → Bytes →
      Result NativeInputs)
    (audit : LineageTables (SourceTables Rest) → String → StoreResult Rest) :
    StoreReaders (SourceTables Rest) where
  root := storedCaseSourceContext build
  native := native
  audit t hash := do
    let rest ← audit t hash
    .ok { t.other with rest := rest }

/-! ## The bundle of stored bytes -/

/-- The bytes and the members of a bundle pass the checks again, in the snapshot that the store
makes up; only its name for the manifest must not be that of a member. -/
lemma inMemoryBundle_returns (b : CaseSourceBundle)
    (hfree : ∀ m ∈ b.members, m.path ≠ normalizedPath storeManifestPath) :
    ∃ stored, inMemoryBundle b.manifestBytes b.members = .ok stored ∧
      stored.manifestBytes = b.manifestBytes ∧ stored.members = b.members := by
  have hb := b.checked
  simp only [BundleFields.postInit, seq_eq_ok, require_eq_ok] at hb
  obtain ⟨hlength, -, hroles, horder, hids, hpaths, hhashes, -⟩ := hb
  have hkind : ∀ m : CaseSourceMember, m.sourceKind ≠ "JSON" := by
    intro m hjson
    have hm := m.checked
    simp only [SourceMemberFields.postInit, seq_eq_ok, require_eq_ok] at hm
    rw [hjson] at hm
    exact absurd hm.2.2.2.1 (by decide)
  let captures := storeManifestCapture b.manifestBytes ::
    b.members.map CaseSourceMember.storedCapture
  have hmap : captures.map CaseSourceCapture.path =
      normalizedPath storeManifestPath :: b.members.map CaseSourceMember.path := by
    simp only [captures, List.map_cons, List.map_map]
    rfl
  have hnodup : (captures.map CaseSourceCapture.path).Nodup := by
    rw [hmap, List.nodup_cons]
    refine ⟨fun hin => ?_, hpaths⟩
    obtain ⟨m, hm, hpath⟩ := List.mem_map.mp hin
    exact hfree m hm hpath
  have hmanifest : manifestCaptures captures = [storeManifestCapture b.manifestBytes] := by
    have hrest : (b.members.map CaseSourceMember.storedCapture).filter
        (fun c => c.sourceKind = "JSON") = [] := by
      rw [List.filter_eq_nil_iff]
      intro c hc
      obtain ⟨m, -, rfl⟩ := List.mem_map.mp hc
      exact fun h => hkind m (of_decide_eq_true h)
    rw [manifestCaptures, List.filter_cons_of_pos (by simp [storeManifestCapture]), hrest]
  have hsnapshot : SnapshotFields.postInit ⟨"IN_MEMORY_BUNDLE", captures, false⟩ = .ok () := by
    have hmemory : ¬"IN_MEMORY_BUNDLE" = "FILESYSTEM_SINGLE_SNAPSHOT" := by decide
    simp only [SnapshotFields.postInit, seq_eq_ok, require_eq_ok, if_neg hmemory, hmanifest]
    refine ⟨by decide, by simp [captures, hlength, sourceRoles], hnodup, rfl, trivial, ?_⟩
    simp [captures, storeManifestCapture, CaseSourceMember.storedCapture]
  have hbundle : BundleFields.postInit
      ⟨b.manifestBytes, b.members, ⟨_, hsnapshot⟩, sourcePackVersion⟩ = .ok () := by
    simp only [BundleFields.postInit, seq_eq_ok, require_eq_ok]
    refine ⟨hlength, trivial, hroles, horder, hids, hpaths, hhashes, ?_⟩
    have hothers : (captures.map CaseSourceCapture.path).filter
        (· ≠ (storeManifestCapture b.manifestBytes).path) = b.members.map CaseSourceMember.path := by
      rw [hmap, List.filter_cons_of_neg (by simp [storeManifestCapture, CaseSourceCapture.path])]
      refine List.filter_eq_self.mpr fun path hpath => ?_
      obtain ⟨m, hm, rfl⟩ := List.mem_map.mp hpath
      exact decide_eq_true (hfree m hm)
    simp only [BundleFields.checkCaptures, hmanifest, seq_eq_ok, require_eq_ok, forEach_eq_ok,
      checkCapture_eq_ok]
    refine ⟨?_, rfl, fun m hm => ⟨m.storedCapture, ?_, rfl, rfl, rfl⟩⟩
    · rw [hothers]
      exact ⟨fun _ h => h, fun _ h => h⟩
    · exact (Keyed.lookup_eq_some_iff hnodup).mpr
        ⟨List.mem_cons_of_mem _ (List.mem_map_of_mem hm), rfl⟩
  refine ⟨⟨_, hbundle⟩, ?_, rfl, rfl⟩
  simp only [inMemoryBundle, SnapshotFields.construct, BundleFields.construct, bind_eq_ok,
    checkedBy_eq_ok]
  exact ⟨_, ⟨hsnapshot, rfl⟩, hbundle, rfl⟩

/-- A builder that looks at the manifest and the members builds the same root. -/
lemma prepareCaseSourceContext_stored {build : CaseSourceBundle → Result BuiltCase}
    {bundle stored : CaseSourceBundle} {root : LineageContext}
    (hbuild : build stored = build bundle) (hmanifest : stored.manifestBytes = bundle.manifestBytes)
    (hmembers : stored.members = bundle.members)
    (hroot : prepareCaseSourceContext build bundle = .ok root) :
    prepareCaseSourceContext build stored = .ok (root.withBundle stored) := by
  have hset : caseSourceSetOf stored = caseSourceSetOf bundle := by
    simp only [caseSourceSetOf, sourceSetWithoutHash, hmanifest, hmembers]
  simp only [prepareCaseSourceContext, hbuild, hset, bind_eq_ok, Except.ok.injEq] at hroot ⊢
  obtain ⟨built, hbuilt, hash, hhash, set, hset, binding, hbinding, json, hjson, rfl⟩ := hroot
  exact ⟨built, hbuilt, hash, hhash, set, hset, binding, hbinding, json, hjson, rfl⟩

lemma preparedRoot_eq_ok {build : CaseSourceBundle → Result BuiltCase} {bundle : CaseSourceBundle}
    {context : LineageContext} (h : prepareCaseSourceContext build bundle = .ok context) :
    ∃ p, preparedRoot build bundle = .ok p ∧ p.context = context := by
  rw [preparedRoot]
  split
  · rename_i context' h'
    exact ⟨_, rfl, Except.ok.inj (h'.symm.trans h)⟩
  · rename_i e h'
    rw [h] at h'
    cases h'

/-! ## The payloads -/

omit [PyUnicode] in
lemma selectorValue_wf {selector : Option String} {v : Json} (h : selectorValue selector = .ok v) :
    v.WF := by
  cases selector with
  | none =>
      obtain rfl := Except.ok.inj h
      trivial
  | some text => exact loads_wf h

omit [PyUnicode] in
lemma memberPayload_wf {hash : String} {index : Fin 5} {m : CaseSourceSetMember} {payload : Dict}
    (h : caseSourceMemberPayload hash index m = .ok payload) : (Json.obj payload).WF := by
  simp only [caseSourceMemberPayload, bind_eq_ok, Except.ok.injEq] at h
  obtain ⟨selector, hselector, rfl⟩ := h
  exact Json.wf_ofList (by simp [Json.WF, selectorValue_wf hselector])

omit [PyUnicode] in
lemma setMember_wf {m : CaseSourceSetMember} {v : Json} (h : m.toDict = .ok v) : v.WF := by
  simp only [CaseSourceSetMember.toDict, bind_eq_ok, Except.ok.injEq] at h
  obtain ⟨selector, hselector, rfl⟩ := h
  exact Json.wf_ofList (by simp [Json.WF, selectorValue_wf hselector])

omit [PyUnicode] in
lemma sourceSet_wf {set : CaseSourceSet} {d : Dict} (h : set.toDict = .ok d) :
    (Json.obj d).WF := by
  simp only [CaseSourceSet.toDict, bind_eq_ok, Except.ok.injEq, mapEach_eq_ok] at h
  obtain ⟨members, hmembers, rfl⟩ := h
  have hall : (Json.arr members).WF := by
    rw [Json.wf_arr]
    intro v hv
    obtain ⟨m, -, hm⟩ := forall₂_exists_right hmembers.flip hv
    exact setMember_wf hm
  refine Json.wf_ofList ?_
  have hblob : (Json.obj (Dict.ofList [("source_hash", .str set.manifestSourceHash),
      ("size_bytes", .int set.manifestSizeBytes)])).WF := Json.wf_ofList (by simp [Json.WF])
  simp only [List.forall_mem_cons, List.not_mem_nil, false_implies, implies_true, and_true,
    Json.wf_str, hall, hblob]

lemma sourceSetPayload_wf {c : LineageContext} {d : Dict} (h : c.sourceSetPayload = .ok d) :
    (Json.obj d).WF := by
  simp only [LineageContext.sourceSetPayload, bind_eq_ok, Except.ok.injEq] at h
  obtain ⟨set, hset, rfl⟩ := h
  have hbinding : (Json.obj (Dict.ofList ([("case_source_binding_hash",
      Json.str c.caseSourceBindingHash), ("root_case_hash", Json.str c.rootCaseHash)] ++
      bindingVersions.map fun entry => (entry.1, Json.str entry.2)))).WF := by
    refine Json.wf_ofList fun e he => ?_
    rcases List.mem_append.mp he with he | he
    · simp only [List.mem_cons, List.not_mem_nil, or_false] at he
      rcases he with rfl | rfl
      · exact Json.wf_str _
      · exact Json.wf_str _
    · obtain ⟨entry, -, rfl⟩ := List.mem_map.mp he
      exact Json.wf_str _
  refine Json.wf_ofList ?_
  simp only [List.forall_mem_cons, List.not_mem_nil, false_implies, implies_true, and_true,
    sourceSet_wf hset, hbinding]

omit [PyUnicode] in
/-- A payload that was written as it is expected passes. -/
lemma checkPayload_written {expected : Dict} {text invalid differs : String}
    (hwf : (Json.obj expected).WF) (h : dumps (.obj expected) = .ok text) :
    checkPayload text expected invalid differs = .ok () := by
  simp only [checkPayload, storeBind_eq_ok, handling_eq_ok, uncaught_eq_ok, intact_eq_ok]
  exact ⟨_, loads_dumps ⟨true⟩ hwf h, _, h, by simp [pyEq], rfl⟩

/-! ## Reading what is stored -/

/-- The rows and the blobs of a root are in the tables. -/
structure RootStored (t : LineageTables (SourceTables Rest)) (c : LineageContext) : Prop where
  manifest : StoredBlob t c.bundle.manifestBytes
  blobs : ∀ m ∈ c.bundle.members, StoredBlob t m.rawBytes
  set : ∃ row, t.other.set? (.text c.caseSourceSet.sourceSetHash) = some row ∧
    c.sourceSetRow = .ok row
  members : mapEach (fun e => sourceMemberRow c.caseSourceSet.sourceSetHash e.1 e.2)
    (byPosition (c.bundle.members.map CaseSourceMember.setMember)) =
      .ok (t.other.membersOf (.text c.caseSourceSet.sourceSetHash))

omit [PyUnicode] in
lemma readManifest_stored {t : LineageTables (SourceTables Rest)} {raw : Bytes}
    {row : SourceSetRow} (hstored : StoredBlob t raw)
    (hhash : row.manifestSourceHash = .text (sha256Bytes raw))
    (hsize : row.manifestSizeBytes = .int raw.length) : readManifest t row = .ok raw := by
  obtain ⟨blob, hblob, hblobSize, hraw⟩ := hstored
  simp only [readManifest, hhash, hblob, storeBind_eq_ok, exists_unit, uncaught_eq_ok,
    intact_eq_ok]
  exact ⟨raw, hraw, ⟨hblobSize, hsize, rfl⟩, rfl⟩

omit [PyUnicode] in
/-- One member. -/
lemma readSourceMember_stored {t : LineageTables (SourceTables Rest)} {hash : String}
    {index : Fin 5} {m : CaseSourceMember} {row : SourceMemberRow} (hstored : StoredBlob t m.rawBytes)
    (hrow : sourceMemberRow hash index m.setMember = .ok row) :
    readSourceMember t index m.documentType row = .ok m := by
  simp only [sourceMemberRow, bind_eq_ok, Except.ok.injEq] at hrow
  obtain ⟨payload, -, json, -, rfl⟩ := hrow
  obtain ⟨blob, hblob, hblobSize, hraw⟩ := hstored
  have hpresent : blob.rawBytes ≠ .null := by
    intro hnull
    rw [hnull] at hraw
    cases hraw
  have hselector : (optionValue m.declaredTableSelectorJson).textOrNull? =
      some m.declaredTableSelectorJson := by
    cases m.declaredTableSelectorJson with
    | none => rfl
    | some text => rfl
  simp only [readSourceMember, CaseSourceMember.setMember, hblob, storeBind_eq_ok, exists_unit,
    uncaught_eq_ok, intact_eq_ok]
  refine ⟨hpresent, m.rawBytes, hraw, ⟨trivial, trivial, hblobSize, rfl, rfl⟩, ?_⟩
  simp only [rebuildMember, SqlValue.text?, hselector, handling_eq_ok, SourceMemberFields.construct,
    checkedBy_eq_ok]
  exact ⟨m.checked, trivial⟩

omit [PyUnicode] in
/-- The members, in their order. -/
lemma readSourceMembers_stored {t : LineageTables (SourceTables Rest)} {hash : String}
    {indices : List (Fin 5)} {members : List CaseSourceMember} {rows : List SourceMemberRow}
    (hlength : indices.length = members.length) (hstored : ∀ m ∈ members, StoredBlob t m.rawBytes)
    (hrows : mapEach (fun e => sourceMemberRow hash e.1 e.2)
      (indices.zip (members.map CaseSourceMember.setMember)) = .ok rows) :
    readSourceMembers t (indices.zip ((members.map fun m => m.documentType).zip rows)) =
      .ok members := by
  induction members generalizing indices rows with
  | nil =>
      obtain rfl := List.eq_nil_of_length_eq_zero hlength
      rfl
  | cons m rest ih =>
      cases indices with
      | nil => cases hlength
      | cons index indices =>
          simp only [List.map_cons, List.zip_cons_cons, mapEach, bind_eq_ok, Except.ok.injEq]
            at hrows
          obtain ⟨row, hrow, others, hothers, rfl⟩ := hrows
          obtain ⟨hm, hrest⟩ := List.forall_mem_cons.mp hstored
          simp only [List.map_cons, List.zip_cons_cons, readSourceMembers, storeBind_eq_ok]
          exact ⟨m, readSourceMember_stored hm hrow, rest,
            ih (Nat.succ.inj hlength) hrest hothers, rfl⟩

omit [PyUnicode] in
lemma checkMemberPayloads_stored {hash : String} {indices : List (Fin 5)}
    {members : List CaseSourceSetMember} {rows : List SourceMemberRow}
    (hrows : mapEach (fun e => sourceMemberRow hash e.1 e.2) (indices.zip members) = .ok rows) :
    checkMemberPayloads hash (indices.zip (rows.zip members)) = .ok () := by
  induction members generalizing indices rows with
  | nil =>
      cases indices with
      | nil => rfl
      | cons index indices => simp [checkMemberPayloads]
  | cons m rest ih =>
      cases indices with
      | nil => rfl
      | cons index indices =>
          simp only [List.zip_cons_cons, mapEach, bind_eq_ok, Except.ok.injEq] at hrows
          obtain ⟨row, hrow, others, hothers, rfl⟩ := hrows
          simp only [sourceMemberRow, bind_eq_ok, Except.ok.injEq] at hrow
          obtain ⟨payload, hpayload, json, hjson, rfl⟩ := hrow
          simp only [List.zip_cons_cons, checkMemberPayloads, storeBind_eq_ok, exists_unit,
            uncaught_eq_ok]
          exact ⟨payload, hpayload, checkPayload_written (memberPayload_wf hpayload) hjson,
            ih hothers⟩

/-- **A root that is in the tables is read back**, with the snapshot that the store makes up. -/
lemma storedCaseSourceContext_returns {build : CaseSourceBundle → Result BuiltCase}
    {bundle : CaseSourceBundle} {root : LineageContext} {t : LineageTables (SourceTables Rest)}
    (hbuild : ∀ b b' : CaseSourceBundle, b.manifestBytes = b'.manifestBytes →
      b.members = b'.members → build b = build b')
    (hfree : ∀ m ∈ bundle.members, m.path ≠ normalizedPath storeManifestPath)
    (hroot : prepareCaseSourceContext build bundle = .ok root) (hstored : RootStored t root) :
    ∃ p stored, storedCaseSourceContext build t root.caseSourceSet.sourceSetHash = .ok p ∧
      stored.manifestBytes = bundle.manifestBytes ∧ stored.members = bundle.members ∧
      p.context = root.withBundle stored := by
  obtain ⟨hconsistent, hbundle, -⟩ := prepareCaseSourceContext_consistent hroot
  obtain ⟨stored, hmemory, hmanifest, hmembers⟩ := inMemoryBundle_returns bundle hfree
  obtain ⟨p, hp, hcontext⟩ := preparedRoot_eq_ok
    (prepareCaseSourceContext_stored (hbuild _ _ hmanifest hmembers) hmanifest hmembers hroot)
  obtain ⟨row, hset, hrow⟩ := hstored.set
  simp only [LineageContext.sourceSetRow, bind_eq_ok, Except.ok.injEq] at hrow
  obtain ⟨payload, hpayload, json, hjson, rfl⟩ := hrow
  obtain ⟨-, -, -, hfields⟩ := caseSourceSetOf_eq_ok.mp hconsistent.sources
  have hchecked := bundle.checked
  simp only [BundleFields.postInit, seq_eq_ok, require_eq_ok] at hchecked
  obtain ⟨hlength, -, -, horder, -⟩ := hchecked
  have hrows := hstored.members
  rw [hbundle] at hrows
  have hidentities : root.caseSourceSet.members = bundle.members.map CaseSourceMember.setMember := by
    rw [hfields, hbundle]
  have hcount : (t.other.membersOf (.text root.caseSourceSet.sourceSetHash)).length =
      sourceRoles.length := by
    rw [← (mapEach_eq_ok.mp hrows).length_eq, byPosition, List.length_zip, List.length_finRange,
      List.length_map, hlength]
    rfl
  have hread : readManifest t (root.sourceSetColumns json) = .ok bundle.manifestBytes := by
    have hblob := hstored.manifest
    rw [hbundle] at hblob
    refine readManifest_stored hblob ?_ ?_
    · rw [LineageContext.sourceSetColumns, hfields, hbundle]
    · rw [LineageContext.sourceSetColumns, hfields, hbundle]
  have hmembersRead : readSourceMembers t (byPosition (sourceRoles.zip
      (t.other.membersOf (.text root.caseSourceSet.sourceSetHash)))) = .ok bundle.members := by
    rw [← horder]
    refine readSourceMembers_stored ?_ (hbundle ▸ hstored.blobs) hrows
    rw [List.length_finRange, hlength]
    rfl
  refine ⟨p, stored, ?_, hmanifest, hmembers, hcontext⟩
  simp only [storedCaseSourceContext, hset, storeBind_eq_ok, exists_unit, uncaught_eq_ok,
    intact_eq_ok, handling_eq_ok, bind_eq_ok]
  refine ⟨_, hread, hcount, _, hmembersRead, p, ⟨stored, hmemory, hp⟩, ?_, payload, ?_, ?_, ?_, rfl⟩
  · rw [hcontext]
    rfl
  · rw [hcontext]
    exact hpayload
  · exact checkPayload_written (sourceSetPayload_wf hpayload) hjson
  · rw [hcontext]
    refine checkMemberPayloads_stored ?_
    rw [LineageContext.withBundle, hidentities]
    exact hrows

/-! ## What is written -/

omit [PyUnicode] in
lemma stageBlob_other {Other : Type} {t t' : LineageTables Other} {raw : Bytes} {hash : String}
    (h : stageBlob t raw = .ok (t', hash)) : t'.other = t.other := by
  rw [stageBlob] at h
  cases hblob : t.blob? (.text (sha256Bytes raw)) with
  | none =>
      simp only [hblob, Except.ok.injEq, Prod.mk.injEq] at h
      rw [← h.1]
  | some row =>
      simp only [hblob, storeBind_eq_ok, exists_unit, intact_eq_ok, uncaught_eq_ok,
        Except.ok.injEq, Prod.mk.injEq] at h
      obtain ⟨-, _, -, -, rfl, -⟩ := h
      rfl

omit [PyUnicode] in
lemma stageMemberBlobs_spec {pairs : List (CaseSourceMember × CaseSourceSetMember)}
    {t t' : LineageTables (SourceTables Rest)} (h : stageMemberBlobs t pairs = .ok t') :
    Grows t t' ∧ t'.other = t.other ∧ ∀ pair ∈ pairs, StoredBlob t' pair.1.rawBytes := by
  induction pairs generalizing t with
  | nil =>
      obtain rfl := Except.ok.inj h
      exact ⟨.refl t, rfl, by simp⟩
  | cons pair rest ih =>
      simp only [stageMemberBlobs, storeBind_eq_ok, exists_unit] at h
      obtain ⟨⟨t₁, hash⟩, hblob, -, hrest⟩ := h
      obtain ⟨hgrows₁, hstored, -⟩ := stageBlob_spec hblob
      obtain ⟨hgrows', hother, hall⟩ := ih hrest
      exact ⟨hgrows₁.trans hgrows', hother.trans (stageBlob_other hblob),
        List.forall_mem_cons.mpr ⟨hstored.grows hgrows', hall⟩⟩

omit [PyUnicode] in
/-- The rows that the loop appends; none of the rows before has the number of one of them. -/
lemma stageMemberRows_spec {hash : String}
    {entries : List (Fin 5 × CaseSourceMember × CaseSourceSetMember)}
    {t t' : LineageTables (SourceTables Rest)} (h : stageMemberRows hash t entries = .ok t') :
    ∃ rows, mapEach (fun e => sourceMemberRow hash e.1 e.2.2) entries = .ok rows ∧
      t' = { t with other := { t.other with members := t.other.members ++ rows } } ∧
      ∀ e ∈ entries, ∀ stored ∈ t.other.members, stored.sourceSetHash = .text hash →
        stored.memberIndex ≠ e.1 := by
  induction entries generalizing t with
  | nil =>
      obtain rfl := Except.ok.inj h
      exact ⟨[], rfl, by rw [List.append_nil], by simp⟩
  | cons e rest ih =>
      obtain ⟨index, m, identity⟩ := e
      simp only [stageMemberRows, storeBind_eq_ok, exists_unit, uncaught_eq_ok] at h
      obtain ⟨-, row, hrow, t₁, hinsert, hrest⟩ := h
      have hcolumns : row.sourceSetHash = .text hash ∧ row.memberIndex = index := by
        simp only [sourceMemberRow, bind_eq_ok, Except.ok.injEq] at hrow
        obtain ⟨payload, -, json, -, rfl⟩ := hrow
        exact ⟨rfl, rfl⟩
      rw [insertMember] at hinsert
      split_ifs at hinsert with hfree
      obtain rfl := Except.ok.inj hinsert
      obtain ⟨rows, hrows, rfl, hothers⟩ := ih hrest
      refine ⟨row :: rows, ?_, by simp, List.forall_mem_cons.mpr ⟨?_, fun e he stored hin => ?_⟩⟩
      · simp only [mapEach, bind_eq_ok, Except.ok.injEq]
        exact ⟨row, hrow, rows, hrows, rfl⟩
      · intro stored hin hsame hindex
        exact hfree stored hin ⟨hsame.trans hcolumns.1.symm, Or.inl (hindex.trans hcolumns.2.symm)⟩
      · exact hothers e he stored (List.mem_append_left _ hin)

omit [PyUnicode] in
/-- Rows with the numbers from the first to the last are in their order. -/
lemma sourceMemberRows_columns {hash : String} {members : List CaseSourceSetMember}
    {indices : List (Fin 5)} {rows : List SourceMemberRow} (hlength : indices.length = members.length)
    (h : mapEach (fun e => sourceMemberRow hash e.1 e.2) (indices.zip members) = .ok rows) :
    rows.map SourceMemberRow.memberIndex = indices ∧ ∀ row ∈ rows, row.sourceSetHash = .text hash := by
  induction members generalizing indices rows with
  | nil =>
      obtain rfl := List.eq_nil_of_length_eq_zero hlength
      obtain rfl := Except.ok.inj h
      exact ⟨rfl, by simp⟩
  | cons m rest ih =>
      cases indices with
      | nil => cases hlength
      | cons index indices =>
          simp only [List.zip_cons_cons, mapEach, bind_eq_ok, Except.ok.injEq] at h
          obtain ⟨row, hrow, others, hothers, rfl⟩ := h
          simp only [sourceMemberRow, bind_eq_ok, Except.ok.injEq] at hrow
          obtain ⟨payload, -, json, -, rfl⟩ := hrow
          obtain ⟨hindices, hhashes⟩ := ih (Nat.succ.inj hlength) hothers
          refine ⟨by rw [List.map_cons, hindices], List.forall_mem_cons.mpr ⟨rfl, hhashes⟩⟩

/-- **What `_stage_case_source_context` writes** for a new set: the rows and the blobs of the root. -/
lemma writeCaseSource_spec {build : CaseSourceBundle → Result BuiltCase} {bundle : CaseSourceBundle}
    {root : LineageContext} {audit : LineageTables (SourceTables Rest) → String → StoreResult Rest}
    {t t' : LineageTables (SourceTables Rest)}
    (hroot : prepareCaseSourceContext build bundle = .ok root)
    (h : writeCaseSource audit t root = .ok t') :
    RootStored t' root ∧ t.other.set? (.text root.caseSourceSet.sourceSetHash) = none := by
  obtain ⟨hconsistent, hbundle, -⟩ := prepareCaseSourceContext_consistent hroot
  obtain ⟨-, -, -, hfields⟩ := caseSourceSetOf_eq_ok.mp hconsistent.sources
  have hidentities : root.caseSourceSet.members =
      root.bundle.members.map CaseSourceMember.setMember := by rw [hfields]
  have hchecked := bundle.checked
  simp only [BundleFields.postInit, seq_eq_ok, require_eq_ok] at hchecked
  have hfive : root.bundle.members.length = 5 := by
    rw [hbundle, hchecked.1]
    rfl
  simp only [writeCaseSource, storeBind_eq_ok, exists_unit, uncaught_eq_ok, Except.ok.injEq] at h
  obtain ⟨⟨t₁, manifestHash⟩, hmanifest, -, t₂, hblobs, row, hrow, t₃, hset, t₄, hmembers, rest, -,
    rfl⟩ := h
  obtain ⟨-, hmanifestStored, -⟩ := stageBlob_spec hmanifest
  obtain ⟨hgrows, hother, hstored⟩ := stageMemberBlobs_spec hblobs
  rw [insertSet] at hset
  split_ifs at hset with hfree
  obtain rfl := Except.ok.inj hset
  have htables : t₂.other = t.other := hother.trans (stageBlob_other hmanifest)
  have hhash : row.sourceSetHash = .text root.caseSourceSet.sourceSetHash := by
    simp only [LineageContext.sourceSetRow, bind_eq_ok, Except.ok.injEq] at hrow
    obtain ⟨payload, -, json, -, rfl⟩ := hrow
    rfl
  have hnone : t.other.set? (.text root.caseSourceSet.sourceSetHash) = none := by
    rw [SourceTables.set?, List.find?_eq_none]
    intro stored hin hkey
    rw [htables] at hfree
    exact (hfree stored hin).1 ((of_decide_eq_true hkey).2.trans hhash.symm)
  obtain ⟨rows, hrows, rfl, hnumbers⟩ := stageMemberRows_spec hmembers
  have hpairs : root.bundle.members.zip root.caseSourceSet.members =
      root.bundle.members.map fun m => (m, m.setMember) := by
    rw [hidentities, ← List.map_prod_left_eq_zip]
  have hentries : mapEach (fun e => sourceMemberRow root.caseSourceSet.sourceSetHash e.1 e.2)
      (byPosition (root.bundle.members.map CaseSourceMember.setMember)) = .ok rows := by
    rw [hpairs, mapEach_eq_ok, byPosition, List.zip_map_right, List.forall₂_map_left_iff] at hrows
    rw [mapEach_eq_ok, byPosition, List.zip_map_right, List.forall₂_map_left_iff]
    exact hrows
  obtain ⟨hindices, hhashes⟩ := sourceMemberRows_columns (by
    rw [List.length_finRange, List.length_map, hfive]) hentries
  -- a row with the same set would have the number of one of the new ones
  have hold : t₂.other.members.filter
      (fun r => decide (IsKey r.sourceSetHash (.text root.caseSourceSet.sourceSetHash))) = [] := by
    rw [List.filter_eq_nil_iff]
    intro stored hin hkey
    have hsame := (of_decide_eq_true hkey).2
    have hnumber : stored.memberIndex ∈ (byPosition (root.bundle.members.zip
        root.caseSourceSet.members)).map Prod.fst := by
      rw [byPosition, List.map_fst_zip (by
        rw [List.length_finRange, List.length_zip, hidentities, List.length_map, hfive,
          Nat.min_self])]
      exact List.mem_finRange _
    obtain ⟨e, he, hindex⟩ := List.mem_map.mp hnumber
    exact hnumbers e he stored hin hsame hindex.symm
  have hnew : rows.filter
      (fun r => decide (IsKey r.sourceSetHash (.text root.caseSourceSet.sourceSetHash))) = rows :=
    List.filter_eq_self.mpr fun r hr => by simp [IsKey, hhashes r hr]
  have hsorted : sortBy SourceMemberRow.memberIndex rows = rows := by
    have hpairwise : rows.Pairwise fun a b => a.memberIndex ≤ b.memberIndex := by
      rw [← List.pairwise_map (f := SourceMemberRow.memberIndex) (R := (· ≤ ·)), hindices]
      exact (List.pairwise_lt_finRange 5).imp le_of_lt
    exact hpairwise.insertionSort_eq
  have hmanifest₂ : StoredBlob t₂ root.bundle.manifestBytes := hmanifestStored.grows hgrows
  refine ⟨⟨hmanifest₂, fun m hm => ?_, ⟨row, ?_, hrow⟩, ?_⟩, hnone⟩
  · exact hstored (m, m.setMember) (hpairs ▸ List.mem_map_of_mem hm)
  · rw [SourceTables.set?] at hnone ⊢
    rw [htables, List.find?_append, hnone, Option.none_or]
    simp [IsKey, hhash]
  · rw [hentries, SourceTables.membersOf, List.filter_append, hold, List.nil_append, hnew, hsorted]

/-! ## A store with nothing in it -/

omit [PyUnicode] in
/-- Bytes whose hash is not in the table are added. -/
lemma stageBlob_fresh {Other : Type} {t : LineageTables Other} {raw : Bytes}
    (h : .text (sha256Bytes raw) ∉ t.blobs.map BlobRow.sourceHash) :
    stageBlob t raw = .ok
      ({ t with blobs := t.blobs ++ [⟨.text (sha256Bytes raw), .int raw.length, .blob raw⟩] },
        sha256Bytes raw) := by
  have hnone : t.blob? (.text (sha256Bytes raw)) = none := by
    rw [LineageTables.blob?, List.find?_eq_none]
    intro row hrow hkey
    exact h (List.mem_map.mpr ⟨row, hrow, (of_decide_eq_true hkey).2⟩)
  rw [stageBlob, hnone]

/-- The key of a member's blob. -/
def CaseSourceMember.blobKey (m : CaseSourceMember) : SqlValue := .text (sha256Bytes m.rawBytes)

omit [PyUnicode] in
lemma stageMemberBlobs_fresh {members : List CaseSourceMember}
    {t : LineageTables (SourceTables Rest)}
    (h : (t.blobs.map BlobRow.sourceHash ++
      members.map CaseSourceMember.blobKey).Nodup) :
    ∃ blobs, stageMemberBlobs t (members.map fun m => (m, m.setMember)) =
        .ok { t with blobs := blobs } ∧
      blobs.map BlobRow.sourceHash = t.blobs.map BlobRow.sourceHash ++
        members.map CaseSourceMember.blobKey := by
  induction members generalizing t with
  | nil => exact ⟨t.blobs, rfl, by simp⟩
  | cons m rest ih =>
      have hfresh : SqlValue.text (sha256Bytes m.rawBytes) ∉ t.blobs.map BlobRow.sourceHash := by
        intro hin
        exact (List.nodup_append.mp h).2.2 _ hin _ (List.mem_map.mpr ⟨m, by simp, rfl⟩) rfl
      let row : BlobRow := ⟨.text (sha256Bytes m.rawBytes), .int m.rawBytes.length, .blob m.rawBytes⟩
      have hrest : (({ t with blobs := t.blobs ++ [row] } : LineageTables
          (SourceTables Rest)).blobs.map BlobRow.sourceHash ++
          rest.map CaseSourceMember.blobKey).Nodup := by
        simpa [row, CaseSourceMember.blobKey] using h
      obtain ⟨blobs, hblobs, hhashes⟩ := ih hrest
      refine ⟨blobs, ?_, by simpa [row, CaseSourceMember.blobKey] using hhashes⟩
      simp only [List.map_cons, stageMemberBlobs, stageBlob_fresh hfresh, storeBind_eq_ok,
        exists_unit, intact_eq_ok]
      exact ⟨_, rfl, rfl, hblobs⟩

omit [PyUnicode] in
/-- Rows that are apart from each other are added to an empty table. -/
lemma stageMemberRows_fresh {hash : String} {members : List (Fin 5 × CaseSourceMember)}
    {rows : List SourceMemberRow} {t : LineageTables (SourceTables Rest)}
    (hrows : mapEach (fun e : Fin 5 × CaseSourceMember => sourceMemberRow hash e.1 e.2.setMember)
      members = .ok rows)
    (h : (t.other.members ++ rows).Pairwise fun stored row => ¬row.Conflicts stored) :
    stageMemberRows hash t (members.map fun e => (e.1, e.2, e.2.setMember)) =
      .ok { t with other := { t.other with members := t.other.members ++ rows } } := by
  induction members generalizing t rows with
  | nil =>
      obtain rfl := Except.ok.inj hrows
      rw [List.append_nil]
      rfl
  | cons e rest ih =>
      simp only [mapEach, bind_eq_ok, Except.ok.injEq] at hrows
      obtain ⟨row, hrow, others, hothers, rfl⟩ := hrows
      have hfree : ∀ stored ∈ t.other.members, ¬row.Conflicts stored := by
        intro stored hstored
        exact (List.pairwise_append.mp h).2.2 stored hstored row (by simp)
      have hrest := ih (t := { t with other := { t.other with members := t.other.members ++ [row] } })
        hothers (by simpa using h)
      simp only [List.map_cons, stageMemberRows, storeBind_eq_ok, exists_unit, uncaught_eq_ok,
        intact_eq_ok]
      refine ⟨⟨rfl, rfl, rfl, rfl, rfl, rfl⟩, row, hrow, _, by rw [insertMember, if_pos hfree], ?_⟩
      rw [hrest]
      simp

/-- The rows of members that are apart from each other. -/
lemma sourceMemberRows_apart {hash : String} {members : List (Fin 5 × CaseSourceMember)}
    {rows : List SourceMemberRow}
    (hrows : mapEach (fun e : Fin 5 × CaseSourceMember => sourceMemberRow hash e.1 e.2.setMember)
      members = .ok rows)
    (h : members.Pairwise fun e e' => e.1 ≠ e'.1 ∧ e.2.documentType ≠ e'.2.documentType ∧
      e.2.sourceId ≠ e'.2.sourceId ∧ e.2.path ≠ e'.2.path ∧
      sha256Bytes e.2.rawBytes ≠ sha256Bytes e'.2.rawBytes) :
    rows.Pairwise fun stored row => ¬row.Conflicts stored := by
  induction members generalizing rows with
  | nil =>
      obtain rfl := Except.ok.inj hrows
      exact .nil
  | cons e rest ih =>
      simp only [mapEach, bind_eq_ok, Except.ok.injEq] at hrows
      obtain ⟨row, hrow, others, hothers, rfl⟩ := hrows
      obtain ⟨hfirst, hrest⟩ := List.pairwise_cons.mp h
      refine List.pairwise_cons.mpr ⟨fun later hlater hconflict => ?_, ih hothers hrest⟩
      obtain ⟨e', he', hlaterRow⟩ := forall₂_exists_right (mapEach_eq_ok.mp hothers).flip hlater
      obtain ⟨hindex, htype, hid, hpath, hsha⟩ := hfirst e' he'
      simp only [sourceMemberRow, bind_eq_ok, Except.ok.injEq] at hrow hlaterRow
      obtain ⟨_, -, _, -, rfl⟩ := hrow
      obtain ⟨_, -, _, -, rfl⟩ := hlaterRow
      simp only [SourceMemberRow.Conflicts, CaseSourceMember.setMember, SqlValue.text.injEq] at hconflict
      rcases hconflict.2 with h | h | h | h | h
      · exact hindex h
      · exact htype h
      · exact hid h
      · exact hpath (by rw [CaseSourceMember.path, CaseSourceMember.path, h])
      · exact hsha h

/-- The members of a bundle are apart from each other. -/
lemma members_apart (b : CaseSourceBundle) :
    (byPosition b.members).Pairwise fun e e' => e.1 ≠ e'.1 ∧
      e.2.documentType ≠ e'.2.documentType ∧ e.2.sourceId ≠ e'.2.sourceId ∧
      e.2.path ≠ e'.2.path ∧ sha256Bytes e.2.rawBytes ≠ sha256Bytes e'.2.rawBytes := by
  have hb := b.checked
  simp only [BundleFields.postInit, seq_eq_ok, require_eq_ok] at hb
  obtain ⟨hlength, -, -, horder, hids, hpaths, hhashes, -⟩ := hb
  have hfive : b.members.length = (List.finRange 5).length := by
    rw [hlength, List.length_finRange]
    rfl
  have hfst : (byPosition b.members).map Prod.fst = List.finRange 5 := by
    rw [byPosition, List.map_fst_zip hfive.ge]
  have hsnd : (byPosition b.members).map Prod.snd = b.members := by
    rw [byPosition, List.map_snd_zip hfive.le]
  -- each column of the members has no value twice
  have hcolumn : ∀ {β : Type} (f : CaseSourceMember → β), (b.members.map f).Nodup →
      (byPosition b.members).Pairwise fun e e' => f e.2 ≠ f e'.2 := by
    intro β f hf
    rw [← hsnd, List.map_map] at hf
    exact List.pairwise_map.mp hf
  have hindices : (byPosition b.members).Pairwise fun e e' => e.1 ≠ e'.1 := by
    have hnodup := List.nodup_finRange 5
    rw [← hfst] at hnodup
    exact List.pairwise_map.mp hnodup
  have hids' : (b.members.map fun m => m.sourceId).Nodup := by
    refine List.Nodup.of_map sourceIdentity ?_
    rw [List.map_map]
    exact hids
  have hroles : (b.members.map fun m => m.documentType).Nodup := by
    rw [horder]
    decide
  exact hindices.and ((hcolumn _ hroles).and ((hcolumn _ hids').and
    ((hcolumn _ hpaths).and (hcolumn _ hhashes))))

/-- A root is written into a store that holds nothing, where the manifest is none of the members. -/
lemma writeCaseSource_new {build : CaseSourceBundle → Result BuiltCase} {bundle : CaseSourceBundle}
    {root : LineageContext} {audit : LineageTables (SourceTables Rest) → String → StoreResult Rest}
    (rest : Rest) (haudit : ∀ t hash, ∃ rest, audit t hash = .ok rest)
    (hroot : prepareCaseSourceContext build bundle = .ok root)
    (hapart : ∀ m ∈ bundle.members, sha256Bytes m.rawBytes ≠ sha256Bytes bundle.manifestBytes) :
    ∃ t, writeCaseSource audit ⟨[], [], ⟨[], [], rest⟩⟩ root = .ok t ∧ t.lineages = [] ∧
      t.blobs.map BlobRow.sourceHash = .text (sha256Bytes bundle.manifestBytes) ::
        bundle.members.map CaseSourceMember.blobKey := by
  obtain ⟨hconsistent, rfl, -⟩ := prepareCaseSourceContext_consistent hroot
  obtain ⟨subject, hsubject, hdigest, hfields⟩ := caseSourceSetOf_eq_ok.mp hconsistent.sources
  have hidentities : root.caseSourceSet.members =
      root.bundle.members.map CaseSourceMember.setMember := by rw [hfields]
  have hpairs : root.bundle.members.zip root.caseSourceSet.members =
      root.bundle.members.map fun m => (m, m.setMember) := by
    rw [hidentities, ← List.map_prod_left_eq_zip]
  have hb := root.bundle.checked
  simp only [BundleFields.postInit, seq_eq_ok, require_eq_ok] at hb
  obtain ⟨-, -, -, -, -, -, hhashes, -⟩ := hb
  -- the blobs
  let manifest : BlobRow := ⟨.text (sha256Bytes root.bundle.manifestBytes),
    .int root.bundle.manifestBytes.length, .blob root.bundle.manifestBytes⟩
  let t₁ : LineageTables (SourceTables Rest) := ⟨[], [manifest], ⟨[], [], rest⟩⟩
  have hmanifest : stageBlob (⟨[], [], ⟨[], [], rest⟩⟩ : LineageTables (SourceTables Rest))
      root.bundle.manifestBytes = .ok (t₁, sha256Bytes root.bundle.manifestBytes) :=
    stageBlob_fresh (by simp)
  have hkeys : (root.bundle.members.map CaseSourceMember.blobKey).Nodup := by
    have hmap : root.bundle.members.map CaseSourceMember.blobKey =
        (root.bundle.members.map fun m => sha256Bytes m.rawBytes).map SqlValue.text := by
      rw [List.map_map]
      rfl
    rw [hmap]
    exact hhashes.map fun a b h => SqlValue.text.inj h
  have hnodup : (t₁.blobs.map BlobRow.sourceHash ++
      root.bundle.members.map CaseSourceMember.blobKey).Nodup := by
    refine List.nodup_cons.mpr ⟨fun hin => ?_, hkeys⟩
    obtain ⟨m, hm, hsame⟩ := List.mem_map.mp hin
    exact hapart m hm (SqlValue.text.inj hsame)
  obtain ⟨blobs, hblobs, hblobHashes⟩ := stageMemberBlobs_fresh hnodup
  -- the payloads have a text, as the subject of the set has
  obtain ⟨text, htext, -⟩ := domainDigest_eq_ok.mp hdigest
  simp only [sourceSetWithoutHash, bind_eq_ok, Except.ok.injEq] at hsubject
  obtain ⟨entries, hentries, rfl⟩ := hsubject
  have hfinite : (Json.arr entries).isFinite = true :=
    finite_get? (dumps_eq_ok.mp htext).1 (show Dict.get? _ "members" = some (.arr entries) by
      rw [Dict.get?_ofList (by simp)]
      rfl)
  have hset : root.caseSourceSet.toDict = .ok (Dict.ofList
      [("source_set_hash", .str root.caseSourceSet.sourceSetHash),
       ("source_set_contract_version", .str root.caseSourceSet.sourceSetContractVersion),
       ("source_pack_contract_version", .str root.caseSourceSet.sourcePackContractVersion),
       ("builder_manifest", .obj <| Dict.ofList
          [("source_hash", .str root.caseSourceSet.manifestSourceHash),
           ("size_bytes", .int root.caseSourceSet.manifestSizeBytes)]),
       ("members", .arr entries)]) := by
    have hmembers : mapEach CaseSourceSetMember.toDict root.caseSourceSet.members = .ok entries := by
      rw [hidentities, mapEach_eq_ok, List.forall₂_map_left_iff]
      exact mapEach_eq_ok.mp hentries
    rw [CaseSourceSet.toDict, hmembers]
    rfl
  have hblob : (Json.obj (Dict.ofList [("source_hash", .str root.caseSourceSet.manifestSourceHash),
      ("size_bytes", .int root.caseSourceSet.manifestSizeBytes)])).isFinite = true :=
    isFinite_ofList (by simp [Json.isFinite])
  have hpayload : ∃ row, root.sourceSetRow = .ok row := by
    rw [LineageContext.sourceSetRow, LineageContext.sourceSetPayload, hset]
    have hversions : ∀ e ∈ bindingVersions.map fun entry => (entry.1, Json.str entry.2),
        e.2.isFinite = true := by
      intro e he
      obtain ⟨entry, -, rfl⟩ := List.mem_map.mp he
      rfl
    simp only [ok_bind]
    rw [dumps_eq_ok.mpr ⟨isFinite_ofList ?_, rfl⟩]
    · exact ⟨_, rfl⟩
    · refine List.forall_mem_cons.mpr ⟨isFinite_ofList ?_, List.forall_mem_cons.mpr
        ⟨isFinite_ofList fun e he => ?_, by simp⟩⟩
      · intro e he
        simp only [List.mem_cons, List.not_mem_nil, or_false] at he
        rcases he with rfl | rfl | rfl | rfl | rfl
        · rfl
        · rfl
        · rfl
        · exact hblob
        · exact hfinite
      · rcases List.mem_append.mp he with he | he
        · simp only [List.mem_cons, List.not_mem_nil, or_false] at he
          rcases he with rfl | rfl <;> rfl
        · exact hversions e he
  obtain ⟨row, hrow⟩ := hpayload
  have hrows : ∃ rows, mapEach (fun e : Fin 5 × CaseSourceMember =>
      sourceMemberRow root.caseSourceSet.sourceSetHash e.1 e.2.setMember)
        (byPosition root.bundle.members) = .ok rows := by
    refine mapEach_succeeds fun e he => ?_
    obtain ⟨v, hv, hdict⟩ := mapEach_mem hentries (List.of_mem_zip he).2
    simp only [CaseSourceSetMember.toDict, bind_eq_ok, Except.ok.injEq] at hdict
    obtain ⟨selector, hselector, rfl⟩ := hdict
    have hselectorFinite : selector.isFinite = true :=
      finite_get? (isFinite_arr.mp hfinite _ hv)
        (show Dict.get? _ "declared_table_selector" = some selector by
          rw [Dict.get?_ofList (by simp)]
          rfl)
    rw [sourceMemberRow, caseSourceMemberPayload, hselector]
    simp only [ok_bind]
    rw [dumps_eq_ok.mpr ⟨isFinite_ofList ?_, rfl⟩]
    · exact ⟨_, rfl⟩
    · simp [Json.isFinite, hselectorFinite]
  obtain ⟨rows, hrows⟩ := hrows
  -- and the rows of the members are apart
  let t₂ : LineageTables (SourceTables Rest) := ⟨[], blobs, ⟨[row], [], rest⟩⟩
  have hstaged := stageMemberRows_fresh (t := t₂) hrows
    (sourceMemberRows_apart hrows (members_apart root.bundle))
  have hnumbered : byPosition (root.bundle.members.zip root.caseSourceSet.members) =
      (byPosition root.bundle.members).map fun e => (e.1, e.2, e.2.setMember) := by
    rw [hpairs, byPosition, byPosition, List.zip_map_right]
    rfl
  let t₃ : LineageTables (SourceTables Rest) := ⟨[], blobs, ⟨[row], rows, rest⟩⟩
  obtain ⟨rest', hrest'⟩ := haudit t₃ root.caseSourceSet.sourceSetHash
  refine ⟨⟨[], blobs, ⟨[row], rows, rest'⟩⟩, ?_, rfl, by rw [hblobHashes]; rfl⟩
  have hmanifestHash : sha256Bytes root.bundle.manifestBytes =
      root.caseSourceSet.manifestSourceHash := by rw [hfields]
  simp only [writeCaseSource, hmanifest, hpairs, hrow, storeBind_eq_ok, exists_unit,
    uncaught_eq_ok, intact_eq_ok]
  refine ⟨_, rfl, hmanifestHash, _, hblobs, row, rfl, t₂, ?_, t₃, ?_, rest', hrest', rfl⟩
  · simp [insertSet, t₁, t₂]
  · rw [← hpairs, hnumbered]
    exact hstaged

/-- A mutation keeps its material. -/
lemma mutation_material {c c' : LineageContext} {raw : Bytes} {l : CaseSourceLineage}
    (h : deriveCaseSourceMutation c raw = .ok c') (hnext : c'.lineages = c.lineages ++ [l]) :
    ∃ decoded, decodeMutation raw = .ok decoded ∧
      dumps (.obj (mutationMaterial raw decoded)) = .ok l.operationMaterialJson := by
  simp only [deriveCaseSourceMutation, bind_eq_ok] at h
  obtain ⟨decoded, hdecoded, materialJson, hjson, materialHash, -, input, -, inputCaseHash, -,
    mutated, -, output, -, outputCaseHash, -, h⟩ := h
  obtain ⟨next, caseJson, -, hrecord, -, -, rfl⟩ := extend_eq_ok h
  obtain rfl : next = l := by simpa using hnext
  refine ⟨decoded, hdecoded, ?_⟩
  rw [hjson, congrArg LineageRecord.operationMaterialJson hrecord]
  rfl

omit [PyUnicode] in
/-- A lineage of a root has a row. -/
lemma row_returns {bindingHash : String} {l : CaseSourceLineage} (h : SoundLineage bindingHash l) :
    ∃ row, l.row = .ok row := by
  obtain ⟨material, hwf, hjson, -, -⟩ := h.material
  have hmaterial : l.operationMaterial = .ok material := by
    rw [CaseSourceLineage.operationMaterial, loads_dumps ⟨true⟩ hwf hjson]
    rfl
  have hfinite := (dumps_eq_ok.mp hjson).1
  have hparent : (optionJson l.parentLineageHash).isFinite = true := by
    cases l.parentLineageHash with
    | none => rfl
    | some parent => rfl
  rw [CaseSourceLineage.row, CaseSourceLineage.toDict, hmaterial]
  simp only [ok_bind]
  rw [dumps_eq_ok.mpr ⟨isFinite_ofList ?_, rfl⟩]
  · exact ⟨_, rfl⟩
  · intro e he
    simp only [List.mem_cons, List.not_mem_nil, or_false] at he
    rcases he with rfl | rfl | rfl | rfl | rfl | rfl | rfl | rfl | rfl | rfl
    · rfl
    · rfl
    · rfl
    · exact hparent
    · rfl
    · rfl
    · rfl
    · rfl
    · exact hfinite
    · rfl

/-- The keys of the blobs of a lineage. -/
def CaseSourceLineage.blobKeys (l : CaseSourceLineage) : List SqlValue :=
  [.text (sha256Bytes l.operationBlobBytes), .text (sha256Bytes l.operationMaterialBytes)]

/-- A lineage is written into tables that have neither it nor its bytes. -/
lemma stageLineage_fresh {build : CaseSourceBundle → Result BuiltCase}
    {native : LineageTables (SourceTables Rest) → LineageContext → Dict → Bytes →
      Result NativeInputs}
    {audit : LineageTables (SourceTables Rest) → String → StoreResult Rest}
    {t : LineageTables (SourceTables Rest)} {l : CaseSourceLineage} {row : LineageRow}
    (haudit : ∀ t hash, ∃ rest, audit t hash = .ok rest) (hrow : l.row = .ok row)
    (hname : .text l.lineageHash ∉ t.lineages.map LineageRow.lineageHash)
    (hkeys : (t.blobs.map BlobRow.sourceHash ++ l.blobKeys).Nodup) :
    ∃ t', stageLineage (sourceReaders build native audit) t l = .ok (t', true) ∧
      t'.lineages = t.lineages ++ [row] ∧
      t'.blobs.map BlobRow.sourceHash = t.blobs.map BlobRow.sourceHash ++ l.blobKeys := by
  obtain ⟨-, hpair, hnew⟩ := List.nodup_append.mp hkeys
  have hoperation : .text (sha256Bytes l.operationBlobBytes) ∉ t.blobs.map BlobRow.sourceHash :=
    fun hin => hnew _ hin _ (by simp [CaseSourceLineage.blobKeys]) rfl
  have hmaterial : .text (sha256Bytes l.operationMaterialBytes) ∉ t.blobs.map BlobRow.sourceHash :=
    fun hin => hnew _ hin _ (by simp [CaseSourceLineage.blobKeys]) rfl
  let t₁ : LineageTables (SourceTables Rest) := { t with blobs := t.blobs ++
    [⟨.text (sha256Bytes l.operationBlobBytes), .int l.operationBlobBytes.length,
      .blob l.operationBlobBytes⟩] }
  have hfresh : .text (sha256Bytes l.operationMaterialBytes) ∉ t₁.blobs.map BlobRow.sourceHash := by
    simp only [CaseSourceLineage.blobKeys, List.nodup_cons, List.mem_singleton,
      SqlValue.text.injEq] at hpair
    simp only [t₁, List.map_append, List.map_cons, List.map_nil, List.mem_append,
      List.mem_singleton, SqlValue.text.injEq, not_or]
    exact ⟨hmaterial, Ne.symm hpair.1⟩
  let t₂ : LineageTables (SourceTables Rest) := { t₁ with blobs := t₁.blobs ++
    [⟨.text (sha256Bytes l.operationMaterialBytes), .int l.operationMaterialBytes.length,
      .blob l.operationMaterialBytes⟩] }
  have hnone : t₂.lineage? (.text l.lineageHash) = none := by
    rw [LineageTables.lineage?, List.find?_eq_none]
    intro stored hstored hkey
    exact hname (List.mem_map.mpr ⟨stored, hstored, (of_decide_eq_true hkey).2⟩)
  let t₃ : LineageTables (SourceTables Rest) := { t₂ with lineages := t₂.lineages ++ [row] }
  obtain ⟨rest, hrest⟩ := haudit t₃ l.lineageHash
  let t₄ : LineageTables (SourceTables Rest) := { t₃ with other := { t₃.other with rest := rest } }
  refine ⟨t₄, ?_, rfl, by simp [t₄, t₃, t₂, t₁, CaseSourceLineage.blobKeys]⟩
  simp only [stageLineage, storeBind_eq_ok, exists_unit, intact_eq_ok, uncaught_eq_ok]
  refine ⟨_, stageBlob_fresh hoperation, rfl, _, stageBlob_fresh hfresh, rfl, row, hrow, ?_⟩
  simp only [t₂, t₁] at hnone
  simp only [hnone, sourceReaders, storeBind_eq_ok]
  exact ⟨_, ⟨rest, hrest, rfl⟩, rfl⟩

/-- So are lineages that are apart from each other. -/
lemma stageLineages_fresh {build : CaseSourceBundle → Result BuiltCase}
    {native : LineageTables (SourceTables Rest) → LineageContext → Dict → Bytes →
      Result NativeInputs}
    {audit : LineageTables (SourceTables Rest) → String → StoreResult Rest}
    {lineages : List CaseSourceLineage} {t : LineageTables (SourceTables Rest)} {created : Bool}
    (haudit : ∀ t hash, ∃ rest, audit t hash = .ok rest)
    (hrows : ∀ l ∈ lineages, ∃ row, l.row = .ok row)
    (hnames : (t.lineages.map LineageRow.lineageHash ++
      lineages.map fun l => SqlValue.text l.lineageHash).Nodup)
    (hkeys : (t.blobs.map BlobRow.sourceHash ++
      lineages.flatMap CaseSourceLineage.blobKeys).Nodup) :
    ∃ t' created', stageLineages (sourceReaders build native audit) t created lineages =
      .ok (t', created') ∧ t'.lineages.length = t.lineages.length + lineages.length := by
  induction lineages generalizing t created with
  | nil => exact ⟨t, created, rfl, rfl⟩
  | cons l rest ih =>
      obtain ⟨⟨row, hrow⟩, hrest⟩ := List.forall_mem_cons.mp hrows
      have hname : .text l.lineageHash ∉ t.lineages.map LineageRow.lineageHash := fun hin =>
        (List.nodup_append.mp hnames).2.2 _ hin _ (List.mem_map.mpr ⟨l, by simp, rfl⟩) rfl
      rw [List.flatMap_cons, ← List.append_assoc] at hkeys
      obtain ⟨t₁, hstage, hlineages, hblobs⟩ : ∃ t',
          stageLineage (sourceReaders build native audit) t l = .ok (t', true) ∧
          t'.lineages = t.lineages ++ [row] ∧
          t'.blobs.map BlobRow.sourceHash = t.blobs.map BlobRow.sourceHash ++ l.blobKeys :=
        stageLineage_fresh haudit hrow hname (List.nodup_append.mp hkeys).1
      have hnames₁ : (t₁.lineages.map LineageRow.lineageHash ++
          rest.map fun l => SqlValue.text l.lineageHash).Nodup := by
        rw [hlineages, List.map_append, List.append_assoc, List.map_singleton, (row_eq_ok hrow).1]
        exact hnames
      obtain ⟨t', created', hstages, hlength⟩ := ih hrest hnames₁ (hblobs ▸ hkeys)
      refine ⟨t', created', ?_, ?_⟩
      · simp only [stageLineages, storeBind_eq_ok]
        exact ⟨_, hstage, hstages⟩
      · rw [hlength, hlineages, List.length_append, List.length_singleton, List.length_cons]
        omega

/-! ## A root and its lineages -/

/-- Storing lineages leaves the roots alone. -/
lemma stageLineages_roots {build : CaseSourceBundle → Result BuiltCase}
    {native : LineageTables (SourceTables Rest) → LineageContext → Dict → Bytes →
      Result NativeInputs}
    {audit : LineageTables (SourceTables Rest) → String → StoreResult Rest}
    {lineages : List CaseSourceLineage} {t t' : LineageTables (SourceTables Rest)}
    {created created' : Bool}
    (h : stageLineages (sourceReaders build native audit) t created lineages =
      .ok (t', created')) :
    t'.other.sets = t.other.sets ∧ t'.other.members = t.other.members := by
  induction lineages generalizing t created with
  | nil =>
      simp only [stageLineages, Except.ok.injEq, Prod.mk.injEq] at h
      rw [← h.1]
      exact ⟨rfl, rfl⟩
  | cons l rest ih =>
      simp only [stageLineages, storeBind_eq_ok] at h
      obtain ⟨⟨t₁, inserted⟩, hstage, hrest⟩ := h
      obtain ⟨hsets, hmembers⟩ := ih hrest
      simp only [stageLineage, storeBind_eq_ok, exists_unit, intact_eq_ok, uncaught_eq_ok] at hstage
      obtain ⟨⟨t₂, blobHash⟩, hoperation, -, ⟨t₃, materialHash⟩, hmaterial, -, row, -, hstage⟩ :=
        hstage
      have hother : t₃.other = t.other :=
        (stageBlob_other hmaterial).trans (stageBlob_other hoperation)
      have hkept : t₁.other.sets = t₃.other.sets ∧ t₁.other.members = t₃.other.members := by
        cases hstored : t₃.lineage? (.text l.lineageHash) with
        | none =>
            simp only [hstored, sourceReaders, storeBind_eq_ok, Except.ok.injEq, Prod.mk.injEq]
              at hstage
            obtain ⟨other, ⟨rest, -, rfl⟩, rfl, -⟩ := hstage
            exact ⟨rfl, rfl⟩
        | some stored =>
            simp only [hstored, storeBind_eq_ok, exists_unit, intact_eq_ok, Except.ok.injEq,
              Prod.mk.injEq] at hstage
            obtain ⟨-, rfl, -⟩ := hstage
            exact ⟨rfl, rfl⟩
      rw [hsets, hmembers, hkept.1, hkept.2, hother]
      exact ⟨rfl, rfl⟩

lemma RootStored.grows {t t' : LineageTables (SourceTables Rest)} {c : LineageContext}
    (h : RootStored t c) (hgrows : Grows t t') (hsets : t'.other.sets = t.other.sets)
    (hmembers : t'.other.members = t.other.members) : RootStored t' c := by
  refine ⟨h.manifest.grows hgrows, fun m hm => (h.blobs m hm).grows hgrows, ?_, ?_⟩
  · rw [SourceTables.set?, hsets]
    exact h.set
  · rw [SourceTables.membersOf, hmembers]
    exact h.members

/-- A root that is in the tables is not written again. -/
lemma stageCaseSourceContext_stored {build : CaseSourceBundle → Result BuiltCase}
    {bundle stored : CaseSourceBundle} {root : LineageContext} {p : PreparedRoot}
    {audit : LineageTables (SourceTables Rest) → String → StoreResult Rest}
    {t : LineageTables (SourceTables Rest)}
    (hroot : prepareCaseSourceContext build bundle = .ok root) (hstored : RootStored t root)
    (hread : storedCaseSourceContext build t root.caseSourceSet.sourceSetHash = .ok p)
    (hmanifest : stored.manifestBytes = bundle.manifestBytes)
    (hmembers : stored.members = bundle.members) (hcontext : p.context = root.withBundle stored) :
    stageCaseSourceContext build audit t root = .ok (t, false) := by
  obtain ⟨-, hbundle, -⟩ := prepareCaseSourceContext_consistent hroot
  obtain ⟨row, hset, hrow⟩ := hstored.set
  simp only [LineageContext.sourceSetRow, LineageContext.sourceSetPayload, bind_eq_ok] at hrow
  obtain ⟨payload, ⟨d, hd, -⟩, -⟩ := hrow
  have hsame : SameSources p.context root := by
    rw [hcontext]
    refine ⟨?_, ?_, rfl, rfl⟩
    · rw [hbundle]
      exact hmanifest
    · rw [hbundle]
      exact congrArg _ hmembers
  simp only [stageCaseSourceContext, hset, hread, storeBind_eq_ok, exists_unit, uncaught_eq_ok,
    intact_eq_ok]
  refine ⟨p, rfl, d, ?_, d, hd, ⟨hsame, by simp [pyEq]⟩, trivial⟩
  rw [hcontext]
  exact hd

/-- **A case that has been stored is read back.**  Once the rows of a root and of the lineages of
any sequence of mutations of it are written, the checks that both calls make in the end pass; the
walk builds the case again from the bytes and comes to the same context, from the same bytes in a
snapshot of the store's own; and storing either again changes nothing.  The builder looks at the
manifest and the members only, and no member has the name that the store makes up for the
manifest. -/
theorem storedCase_read_back {build : CaseSourceBundle → Result BuiltCase}
    {bundle : CaseSourceBundle} {mutations : List Bytes} {root c : LineageContext}
    {native : LineageTables (SourceTables Rest) → LineageContext → Dict → Bytes →
      Result NativeInputs}
    {audit : LineageTables (SourceTables Rest) → String → StoreResult Rest}
    {t t₁ t₂ : LineageTables (SourceTables Rest)} {created : Bool} {steps : ℕ}
    (hbuild : ∀ b b' : CaseSourceBundle, b.manifestBytes = b'.manifestBytes →
      b.members = b'.members → build b = build b')
    (hfree : ∀ m ∈ bundle.members, m.path ≠ normalizedPath storeManifestPath)
    (hroot : prepareCaseSourceContext build bundle = .ok root)
    (hderive : deriveAll root (mutations.map .mutation) = .ok c)
    (hwrite : writeCaseSource audit t root = .ok t₁)
    (hstage : stageLineages (sourceReaders build native audit) t₁ false c.lineages =
      .ok (t₂, created))
    (hsteps : t₂.lineages.length < steps) :
    ∃ stored : CaseSourceBundle, stored.manifestBytes = bundle.manifestBytes ∧
      stored.members = bundle.members ∧
      stageCaseSourceContext build audit t root = .ok (t₁, true) ∧
      stageCaseSourceLineages (sourceReaders build native audit) t₁ steps c =
        some (.ok (t₂, created)) ∧
      storedCaseSourceContextWithLineage (sourceReaders build native audit) t₂ steps
        c.caseSourceSet.sourceSetHash (HashChain.tip lineageNaming c.lineages) =
          some (.ok (c.withBundle stored)) ∧
      stageCaseSourceContext build audit t₂ root = .ok (t₂, false) ∧
      stageCaseSourceLineages (sourceReaders build native audit) t₂ steps c =
        some (.ok (t₂, false)) := by
  obtain ⟨hconsistent, -, -⟩ := prepareCaseSourceContext_consistent hroot
  obtain ⟨-, hsame, -⟩ := deriveAll_adds hconsistent hderive
  obtain ⟨hstored₁, hnew⟩ := writeCaseSource_spec hroot hwrite
  obtain ⟨hgrows, -⟩ := stageLineages_spec hstage
  obtain ⟨hsets, hmembers⟩ := stageLineages_roots hstage
  have hstored₂ := hstored₁.grows hgrows hsets hmembers
  obtain ⟨p₁, stored₁, hread₁, -⟩ := storedCaseSourceContext_returns hbuild hfree hroot hstored₁
  obtain ⟨p, stored, hread, hmanifest, hstoredMembers, hcontext⟩ :=
    storedCaseSourceContext_returns hbuild hfree hroot hstored₂
  have hreads : (sourceReaders build native audit).root t₂ c.caseSourceSet.sourceSetHash =
      .ok p := by
    rw [hsame.set]
    exact hread
  obtain ⟨hwalk, hlineages, hagain⟩ :=
    stagedLineages_read_back hroot hderive hstage hreads hcontext hsteps
  refine ⟨stored, hmanifest, hstoredMembers, ?_, hlineages, hwalk,
    stageCaseSourceContext_stored hroot hstored₂ hread hmanifest hstoredMembers hcontext, hagain⟩
  simp only [stageCaseSourceContext, hnew, storeBind_eq_ok]
  exact ⟨t₁, hwrite, p₁, hread₁, rfl⟩

end Contexts

section Ascii

attribute [local instance] asciiUnicode

/-- The digests of the manifest and of the members. -/
lemma sampleBundle_digests : sha256Bytes sampleBundle.manifestBytes =
      "44136fa355b3678a1146ad16f7e8649e94fb4fc21fe77e8310c060f61caaff8a" ∧
    sampleBundle.members.map CaseSourceMember.blobKey =
      [.text "6e340b9cffb37a989ca544e6bb780a2c78901d3fb33738768511a30617afa01d",
       .text "4bf5122f344554c53bde2ebb8cd2b7e3d1600ad631c385a5d7cce23c7785459a",
       .text "dbc1b4c900ffe48d575b5da5c638040125f65db0fe3e24494b76ea986457d986",
       .text "084fed08b978af4d7d196a7446a86b58009e636b611db16211b65a9aadff29c5",
       .text "e52d9c508c502347344d8c07ad91cbd6068afc75ff6292f062a09ca381c89e71"] := by
  decide +kernel

/-- The digests of the materials of the two mutations, as blobs. -/
lemma ownerMaterial_digests :
    sha256Hex (String.ofList (jsonText (.obj (ownerMaterial "M-2" "PE" firstDigests.blob)))) =
      "00a37ebfa3bba32aeab2f05c8a6ae917eea0dcc9cff5e9dea092b1c055bad24f" ∧
    sha256Hex (String.ofList (jsonText (.obj (ownerMaterial "M-3" "ME" secondDigests.blob)))) =
      "a6ac33e7fad85cb5674a8569742cfb47198f6c2b569586ec22896a2270b0489f" :=
  ⟨sha256Hex_of_eval (utf8_jsonText _) (by decide +kernel),
    sha256Hex_of_eval (utf8_jsonText _) (by decide +kernel)⟩

/-- The keys of the blobs that a mutation of the chain leaves. -/
lemma OwnerChange.blobKeys {c c' : LineageContext} {id owner digest input : String}
    {parent : Option String} {case : Dict} {digests : ChangeDigests} {l : CaseSourceLineage}
    (h : OwnerChange id owner parent case input digests) (hc : ConsistentContext c)
    (hderive : deriveCaseSourceMutation c (ownerMutationBytes id owner) = .ok c')
    (hnext : c'.lineages = c.lineages ++ [l])
    (hdigest : sha256Hex (String.ofList (jsonText (.obj (ownerMaterial id owner digests.blob)))) =
      digest) : l.blobKeys = [.text digests.blob, .text digest] := by
  obtain ⟨-, -, next, hadded, -, hraw⟩ := deriveCaseSourceMutation_consistent hc hderive
  obtain rfl : next = l := by simpa [hnext] using hadded.symm
  obtain ⟨decoded, hdecoded, hjson⟩ := mutation_material hderive hnext
  obtain rfl := Except.ok.inj (h.decoded.symm.trans hdecoded)
  rw [h.mutationMaterial] at hjson
  rw [CaseSourceLineage.blobKeys, hraw, h.blob, CaseSourceLineage.operationMaterialBytes,
    sha256Bytes_encodeUtf8, (dumps_eq_ok.mp hjson).2, hdigest]

/-- Nothing else is written. -/
def noAudit (_ : LineageTables (SourceTables Unit)) (_ : String) : StoreResult Unit := .ok ()

/-- No native replay is read. -/
def noNative (_ : LineageTables (SourceTables Unit)) (_ : LineageContext) (_ : Dict) (_ : Bytes) :
    Result NativeInputs := valueError "no native replay"

/-- The sample root and its two mutations are written into an empty store. -/
lemma sampleMutations_staged : ∃ root c t₁ t₂ created,
    prepareCaseSourceContext (fun _ => .ok sampleBuilt) sampleBundle = .ok root ∧
    deriveAll root (sampleMutations.map .mutation) = .ok c ∧
    writeCaseSource noAudit ⟨[], [], ⟨[], [], ()⟩⟩ root = .ok t₁ ∧
    stageLineages (sourceReaders (fun _ => .ok sampleBuilt) noNative noAudit) t₁ false c.lineages =
      .ok (t₂, created) ∧ t₂.lineages.length = 2 := by
  obtain ⟨root, c₁, c, hroot, hfirst, hstands₁, hsecond, hderive, hstands⟩ := sampleMutations_derive
  obtain ⟨hconsistent, -, hempty⟩ := prepareCaseSourceContext_consistent hroot
  obtain ⟨-, -, l₁, hl₁, -, -⟩ := deriveCaseSourceMutation_consistent hconsistent hfirst
  obtain ⟨hc, -, l₂, hl₂, -, -⟩ := deriveCaseSourceMutation_consistent hstands₁.consistent hsecond
  have hlineages : c.lineages = [l₁, l₂] := by
    rw [hl₂, hl₁, hempty]
    rfl
  obtain ⟨hdigest₁, hdigest₂⟩ := ownerMaterial_digests
  have hkeys₁ := firstChange.blobKeys hconsistent hfirst hl₁ hdigest₁
  have hkeys₂ := secondChange.blobKeys hstands₁.consistent hsecond hl₂ hdigest₂
  obtain ⟨hmanifest, hmembers⟩ := sampleBundle_digests
  have haudit : ∀ t hash, ∃ rest, noAudit t hash = .ok rest := fun _ _ => ⟨(), rfl⟩
  obtain ⟨t₁, hwrite, hnone, hblobs⟩ := writeCaseSource_new () haudit hroot (by
    intro m hm hsame
    have hin : m.blobKey ∈ sampleBundle.members.map CaseSourceMember.blobKey :=
      List.mem_map_of_mem hm
    rw [hmembers, CaseSourceMember.blobKey, hsame, hmanifest] at hin
    simp at hin)
  rw [hmembers, hmanifest] at hblobs
  have hnames : (t₁.lineages.map LineageRow.lineageHash ++
      c.lineages.map fun l => SqlValue.text l.lineageHash).Nodup := by
    have hhashes := congrArg (List.map fun d => SqlValue.text d.1) hstands.lineages
    rw [List.map_map, List.map_map] at hhashes
    rw [hnone, List.map_nil, List.nil_append]
    exact hhashes ▸ (by decide +kernel)
  have hkeys : (t₁.blobs.map BlobRow.sourceHash ++
      c.lineages.flatMap CaseSourceLineage.blobKeys).Nodup := by
    rw [hblobs, hlineages, List.flatMap_cons, List.flatMap_cons, List.flatMap_nil, hkeys₁, hkeys₂]
    decide +kernel
  obtain ⟨t₂, created, hstage, hlength⟩ := stageLineages_fresh haudit
    (fun l hl => row_returns (hc.each l hl)) hnames hkeys
  refine ⟨root, c, t₁, t₂, created, hroot, hderive, hwrite, hstage, ?_⟩
  rw [hlength, hnone, hlineages]
  rfl

theorem storedCase_read_back_flow : ∃ (root c : LineageContext)
    (t₁ t₂ : LineageTables (SourceTables Unit)) (created : Bool) (stored : CaseSourceBundle),
    prepareCaseSourceContext (fun _ => .ok sampleBuilt) sampleBundle = .ok root ∧
    deriveAll root (sampleMutations.map .mutation) = .ok c ∧
    stageCaseSourceContext (fun _ => .ok sampleBuilt) noAudit ⟨[], [], ⟨[], [], ()⟩⟩ root =
      .ok (t₁, true) ∧
    stageCaseSourceLineages (sourceReaders (fun _ => .ok sampleBuilt) noNative noAudit) t₁ 3 c =
      some (.ok (t₂, created)) ∧
    storedCaseSourceContextWithLineage
      (sourceReaders (fun _ => .ok sampleBuilt) noNative noAudit) t₂ 3
        c.caseSourceSet.sourceSetHash (HashChain.tip lineageNaming c.lineages) =
          some (.ok (c.withBundle stored)) := by
  obtain ⟨root, c, t₁, t₂, created, hroot, hderive, hwrite, hstage, htwo⟩ := sampleMutations_staged
  have hfree : ∀ m ∈ sampleBundle.members, m.path ≠ normalizedPath storeManifestPath := by
    decide +kernel
  have hsteps : t₂.lineages.length < 3 := by
    rw [htwo]
    decide
  obtain ⟨stored, -, -, hcontext, hlineages, hwalk, -⟩ := storedCase_read_back
    (fun _ _ _ _ => rfl) hfree hroot hderive hwrite hstage hsteps
  exact ⟨root, c, t₁, t₂, created, stored, hroot, hderive, hcontext, hlineages, hwalk⟩

end Ascii

end QualityCI

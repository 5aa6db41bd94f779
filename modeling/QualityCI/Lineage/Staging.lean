import QualityCI.Lib.Sha256Eval
import QualityCI.Lineage.Walk

/-!
# Storing a lineage, and reading it back

When a changed case is stored, each of its lineages puts the raw bytes of its change and those of
its material into the table of blobs, under their hashes, and its row into that of the lineages,
unless they are there already.  What is there already has to be the same.  In the end the case is
read back from the tables, by the walk, and compared.  How the material of a native replay is read
back is given, so what is said of the walk is about mutations.

* `stageBlob`, `stageLineage`, `stageCaseSourceLineages` — what is written.
* `Grows` — nothing that the tables hold is changed.
* **`stagedLineages_read_back`** — once the lineages of mutations are in, the walk derives the same
  context from the bytes, so that the comparison in the end passes; and storing them again changes
  nothing.
-/

namespace QualityCI

open Py

section Contexts

variable [PyUnicode] {Other : Type}

/-! ## Storing -/

omit [PyUnicode] in
/-- `_stage_a08_blob`: the tables, and the hash of the bytes. -/
def stageBlob (t : LineageTables Other) (raw : Bytes) :
    StoreResult (LineageTables Other × String) :=
  let message := "case source hash conflicts with different stored bytes"
  let hash := sha256Bytes raw
  match t.blob? (.text hash) with
  | none => .ok ({ t with blobs := t.blobs ++ [⟨.text hash, .int raw.length, .blob raw⟩] }, hash)
  | some row => do
      intact (row.sizeBytes = .int raw.length) message
      let stored ← uncaught (bytesOf row.rawBytes)
      intact (stored = raw) message
      .ok (t, hash)

/-- One lineage, in the loop of `_stage_case_source_lineages`: the tables, and whether its row is
new. -/
def stageLineage (r : StoreReaders Other) (t : LineageTables Other)
    (l : CaseSourceLineage) : StoreResult (LineageTables Other × Bool) := do
  let message := "case lineage raw material differs from its identity"
  let (t, blobHash) ← stageBlob t l.operationBlobBytes
  intact (blobHash = sha256Bytes l.operationBlobBytes) message
  let (t, materialHash) ← stageBlob t l.operationMaterialBytes
  intact (materialHash = sha256Bytes l.operationMaterialBytes) message
  let row ← uncaught l.row
  match t.lineage? (.text l.lineageHash) with
  | none => do
      let t := { t with lineages := t.lineages ++ [row] }
      let other ← r.audit t l.lineageHash
      .ok ({ t with other := other }, true)
  | some stored => do
      intact (stored = row) "case lineage identity conflicts with stored content"
      .ok (t, false)

/-- The loop of `_stage_case_source_lineages`. -/
def stageLineages (r : StoreReaders Other) :
    LineageTables Other → Bool → List CaseSourceLineage → StoreResult (LineageTables Other × Bool)
  | t, created, [] => .ok (t, created)
  | t, created, l :: rest => do
      let (t, inserted) ← stageLineage r t l
      stageLineages r t (created || inserted) rest

/-- The context that has been read against the one that was stored. -/
def finalPreflight (rebuilt c : LineageContext) : StoreResult Unit := do
  let message := "case lineage final semantic preflight failed"
  let rebuiltCase ← uncaught rebuilt.case
  let case ← uncaught c.case
  intact (pyEq (.obj rebuiltCase) (.obj case) = true) message
  uncaught (validateCaseSourceAssurance rebuilt.assurance)
  uncaught (validateCaseSourceAssurance c.assurance)
  intact (rebuilt.assurance = c.assurance) message

/-- `_stage_case_source_lineages`: the tables it leaves, and whether it has added a lineage. -/
def stageCaseSourceLineages (r : StoreReaders Other) (t : LineageTables Other)
    (steps : ℕ) (c : LineageContext) : Option (StoreResult (LineageTables Other × Bool)) :=
  match stageLineages r t false c.lineages with
  | .error e => some (.error e)
  | .ok (t, created) => do
      let walked ← storedCaseSourceContextWithLineage r t steps c.caseSourceSet.sourceSetHash
        (HashChain.tip lineageNaming c.lineages)
      pure do
        let rebuilt ← walked
        finalPreflight rebuilt c
        .ok (t, created)

/-! ## What storing leaves -/

/-- What the tables hold is still in them. -/
structure Grows (t t' : LineageTables Other) : Prop where
  lineage : ∀ key row, t.lineage? key = some row → t'.lineage? key = some row
  blob : ∀ key row, t.blob? key = some row → t'.blob? key = some row

omit [PyUnicode] in
lemma Grows.refl (t : LineageTables Other) : Grows t t := ⟨fun _ _ h => h, fun _ _ h => h⟩

omit [PyUnicode] in
lemma Grows.trans {t₁ t₂ t₃ : LineageTables Other} (h : Grows t₁ t₂) (h' : Grows t₂ t₃) :
    Grows t₁ t₃ :=
  ⟨fun key row hrow => h'.lineage key row (h.lineage key row hrow),
    fun key row hrow => h'.blob key row (h.blob key row hrow)⟩

omit [PyUnicode] in
lemma StoredBlob.grows {t t' : LineageTables Other} {raw : Bytes} (h : StoredBlob t raw)
    (hgrows : Grows t t') : StoredBlob t' raw := by
  obtain ⟨row, hrow, hsize, hraw⟩ := h
  exact ⟨row, hgrows.blob _ _ hrow, hsize, hraw⟩

omit [PyUnicode] in
lemma Stored.grows {t t' : LineageTables Other} {l : CaseSourceLineage} (h : Stored t l)
    (hgrows : Grows t t') : Stored t' l := by
  obtain ⟨row, hrow, hexpected⟩ := h.row
  exact ⟨⟨row, hgrows.lineage _ _ hrow, hexpected⟩, h.operation.grows hgrows,
    h.material.grows hgrows⟩

omit [PyUnicode] in
lemma stageBlob_spec {t t' : LineageTables Other} {raw : Bytes} {hash : String}
    (h : stageBlob t raw = .ok (t', hash)) :
    Grows t t' ∧ StoredBlob t' raw ∧ hash = sha256Bytes raw := by
  rw [stageBlob] at h
  cases hblob : t.blob? (.text (sha256Bytes raw)) with
  | none =>
      simp only [hblob, Except.ok.injEq, Prod.mk.injEq] at h
      obtain ⟨rfl, rfl⟩ := h
      refine ⟨⟨fun _ _ hrow => hrow, fun key row hrow => ?_⟩,
        ⟨⟨.text (sha256Bytes raw), .int raw.length, .blob raw⟩, ?_, rfl, rfl⟩, rfl⟩
      · rw [LineageTables.blob?] at hrow ⊢
        rw [List.find?_append, hrow, Option.some_or]
      · rw [LineageTables.blob?] at hblob ⊢
        rw [List.find?_append, hblob, Option.none_or]
        simp [IsKey]
  | some row =>
      simp only [hblob, storeBind_eq_ok, exists_unit, intact_eq_ok, uncaught_eq_ok,
        Except.ok.injEq, Prod.mk.injEq] at h
      obtain ⟨hsize, stored, hstored, rfl, rfl, rfl⟩ := h
      exact ⟨.refl t, ⟨row, hblob, hsize, hstored⟩, rfl⟩

omit [PyUnicode] in
/-- Bytes that are in the tables are not written again. -/
lemma stageBlob_staged {t : LineageTables Other} {raw : Bytes} (h : StoredBlob t raw) :
    stageBlob t raw = .ok (t, sha256Bytes raw) := by
  obtain ⟨row, hrow, hsize, hraw⟩ := h
  simp only [stageBlob, hrow, storeBind_eq_ok, exists_unit, intact_eq_ok, uncaught_eq_ok]
  exact ⟨hsize, raw, hraw, rfl, trivial⟩

lemma stageLineage_spec {r : StoreReaders Other} {t t' : LineageTables Other}
    {l : CaseSourceLineage} {inserted : Bool} (h : stageLineage r t l = .ok (t', inserted)) :
    Grows t t' ∧ Stored t' l := by
  simp only [stageLineage, storeBind_eq_ok, exists_unit, intact_eq_ok, uncaught_eq_ok] at h
  obtain ⟨⟨t₁, blobHash⟩, hoperation, -, ⟨t₂, materialHash⟩, hmaterial, -, row, hrow, h⟩ := h
  obtain ⟨hgrows₁, hblob, -⟩ := stageBlob_spec hoperation
  obtain ⟨hgrows₂, hbytes, -⟩ := stageBlob_spec hmaterial
  have hgrows := hgrows₁.trans hgrows₂
  cases hstored : t₂.lineage? (.text l.lineageHash) with
  | none =>
      simp only [hstored, storeBind_eq_ok, Except.ok.injEq, Prod.mk.injEq] at h
      obtain ⟨other, -, rfl, -⟩ := h
      -- the other tables do not matter to what is looked up
      have hafter : ∀ key row', t₂.lineage? key = some row' →
          (t₂.lineages ++ [row]).find? (fun x => decide (IsKey x.lineageHash key)) = some row' := by
        intro key row' hkey
        rw [LineageTables.lineage?] at hkey
        rw [List.find?_append, hkey, Option.some_or]
      have hnew : (t₂.lineages ++ [row]).find?
          (fun x => decide (IsKey x.lineageHash (.text l.lineageHash))) = some row := by
        rw [LineageTables.lineage?] at hstored
        rw [List.find?_append, hstored, Option.none_or]
        simp [IsKey, (row_eq_ok hrow).1]
      exact ⟨hgrows.trans ⟨hafter, fun _ _ hkey => hkey⟩, ⟨row, hnew, hrow⟩,
        hblob.grows ⟨fun key x hkey => hafter key x (hgrows₂.lineage key x hkey), hgrows₂.blob⟩,
        hbytes⟩
  | some stored =>
      simp only [hstored, storeBind_eq_ok, exists_unit, intact_eq_ok, Except.ok.injEq,
        Prod.mk.injEq] at h
      obtain ⟨rfl, rfl, -⟩ := h
      exact ⟨hgrows, ⟨stored, hstored, hrow⟩, hblob.grows hgrows₂, hbytes⟩

/-- A lineage that is in the tables is not written again. -/
lemma stageLineage_staged {r : StoreReaders Other} {t : LineageTables Other}
    {l : CaseSourceLineage} (h : Stored t l) : stageLineage r t l = .ok (t, false) := by
  obtain ⟨row, hrow, hexpected⟩ := h.row
  simp only [stageLineage, storeBind_eq_ok, exists_unit, intact_eq_ok, uncaught_eq_ok]
  refine ⟨_, stageBlob_staged h.operation, rfl, _, stageBlob_staged h.material, rfl, row,
    hexpected, ?_⟩
  simp only [hrow, storeBind_eq_ok, exists_unit, intact_eq_ok, and_self]

/-- **The loop** keeps what the tables hold, and leaves every lineage in them. -/
lemma stageLineages_spec {r : StoreReaders Other} {lineages : List CaseSourceLineage}
    {t t' : LineageTables Other} {created created' : Bool}
    (h : stageLineages r t created lineages = .ok (t', created')) :
    Grows t t' ∧ ∀ l ∈ lineages, Stored t' l := by
  induction lineages generalizing t created with
  | nil =>
      simp only [stageLineages, Except.ok.injEq, Prod.mk.injEq] at h
      rw [← h.1]
      exact ⟨.refl t, by simp⟩
  | cons l rest ih =>
      simp only [stageLineages, storeBind_eq_ok] at h
      obtain ⟨⟨t₁, inserted⟩, hstage, hrest⟩ := h
      obtain ⟨hgrows₁, hstaged⟩ := stageLineage_spec hstage
      obtain ⟨hgrows', hall⟩ := ih hrest
      exact ⟨hgrows₁.trans hgrows', List.forall_mem_cons.mpr ⟨hstaged.grows hgrows', hall⟩⟩

lemma stageLineages_staged {r : StoreReaders Other} {lineages : List CaseSourceLineage}
    {t : LineageTables Other} (h : ∀ l ∈ lineages, Stored t l) :
    stageLineages r t false lineages = .ok (t, false) := by
  induction lineages with
  | nil => rfl
  | cons l rest ih =>
      obtain ⟨hl, hrest⟩ := List.forall_mem_cons.mp h
      simp only [stageLineages, storeBind_eq_ok]
      exact ⟨_, stageLineage_staged hl, ih hrest⟩

/-! ## The rows that the walk collects -/

/-- The rows of lineages that are in the tables. -/
def storedRows (t : LineageTables Other) (lineages : List CaseSourceLineage) : List LineageRow :=
  lineages.filterMap fun l => t.lineage? (.text l.lineageHash)

omit [PyUnicode] in
lemma row_parent {l : CaseSourceLineage} {row : LineageRow} (h : l.row = .ok row) :
    row.parentLineageHash = optionValue l.parentLineageHash ∧
      row.rootBindingHash = .text l.rootBindingHash ∧ row.operationKind = .text l.operationKind := by
  simp only [CaseSourceLineage.row, bind_eq_ok, Except.ok.injEq] at h
  obtain ⟨payload, -, json, -, rfl⟩ := h
  exact ⟨rfl, rfl, rfl⟩

omit [PyUnicode] in
/-- The rows of a chain are the line of ancestors of its last one. -/
lemma linked_storedRows {t : LineageTables Other} {lineages : List CaseSourceLineage}
    (bindingHash : String) (hchain : HashChain.Chain lineageNaming lineages)
    (hstaged : ∀ l ∈ lineages, Stored t l) {terminal : String}
    (htip : HashChain.tip lineageNaming lineages = some terminal) :
    Ancestry.Linked (lineagePedigree t bindingHash) (.text terminal) (storedRows t lineages) := by
  induction hchain generalizing terminal with
  | nil => cases htip
  | @snoc front l hfront hparent ih =>
      obtain ⟨row, hrow, hexpected⟩ := (hstaged l (by simp)).row
      obtain ⟨hparentRow, -, -⟩ := row_parent hexpected
      rw [HashChain.tip_concat, Option.some.injEq] at htip
      have hfetch : (lineagePedigree t bindingHash).fetch (.text terminal) = some row := by
        rw [← htip]
        exact hrow
      have hrows : storedRows t (front ++ [l]) = storedRows t front ++ [row] := by
        simp [storedRows, hrow]
      rw [hrows]
      have habove : l.parentLineageHash = HashChain.tip lineageNaming front := hparent
      cases htip' : HashChain.tip lineageNaming front with
      | none =>
          obtain rfl : front = [] := by simpa [HashChain.tip] using htip'
          refine .root hfetch ?_
          simp [lineagePedigree, hparentRow, habove, htip', optionValue]
      | some above =>
          refine .child hfetch ?_ (ih (fun x hx => hstaged x (List.mem_append_left _ hx)) htip')
          simp [lineagePedigree, hparentRow, habove, htip', optionValue]

/-! ## The walk over them -/

/-- **One row**: the walk derives from it what the mutation had derived. -/
lemma rebuildRow_staged {r : StoreReaders Other} {t : LineageTables Other} {c c' : LineageContext}
    {raw : Bytes} {l : CaseSourceLineage} {row : LineageRow} (hc : ConsistentContext c)
    (hderive : deriveCaseSourceMutation c raw = .ok c')
    (hnext : c'.lineages = c.lineages ++ [l]) (hstaged : Stored t l) (hrow : l.row = .ok row) :
    rebuildRow r t c (optionValue (HashChain.tip lineageNaming c.lineages)) row = .ok c' := by
  obtain ⟨hc', -, next, hnext', hkind, hraw⟩ := deriveCaseSourceMutation_consistent hc hderive
  obtain rfl : next = l := by simpa [hnext] using hnext'.symm
  obtain ⟨-, hoperationHash, hmaterialHash⟩ := row_eq_ok hrow
  obtain ⟨hparentRow, -, hkindRow⟩ := row_parent hrow
  obtain ⟨operation, hoperation, hoperationSize, hoperationRaw⟩ := hstaged.operation
  obtain ⟨blob, hblob, hblobSize, hblobRaw⟩ := hstaged.material
  obtain ⟨material, hwf, hdumps, -, -⟩ := (hc'.each next (by simp [hnext'])).material
  have hchain := hc'.chain
  rw [hnext', HashChain.Chain.concat_iff] at hchain
  have hparent : next.parentLineageHash = HashChain.tip lineageNaming c.lineages := hchain.2
  have hsizes : MatchesBytes row operation blob next.operationBlobBytes
      next.operationMaterialBytes := by
    have hrow' := hrow
    simp only [CaseSourceLineage.row, bind_eq_ok, Except.ok.injEq] at hrow'
    obtain ⟨payload, -, json, -, rfl⟩ := hrow'
    exact ⟨hoperationSize, rfl, rfl, hblobSize, rfl, rfl⟩
  have hloads := loads_dumps ⟨true⟩ hwf hdumps
  have hmaterial : readMaterial next.operationMaterialBytes =
      .ok (next.operationMaterialJson, material) := by
    simp only [readMaterial, CaseSourceLineage.operationMaterialBytes, decodeUtf8_encodeUtf8,
      storeBind_eq_ok, handling_eq_ok]
    refine ⟨_, hloads, ?_⟩
    simp only [storeBind_eq_ok, exists_unit, uncaught_eq_ok, intact_eq_ok]
    exact ⟨_, hdumps, rfl, trivial⟩
  have hmutation : SqlValue.text next.operationKind = .text "MUTATION" := by rw [hkind]
  have hstored : deriveStored r t c (.text next.operationKind) material next.operationBlobBytes =
      .ok c' := by
    rw [deriveStored, if_pos hmutation, hraw]
    exact hderive
  have hcheck : checkRebuilt c' row next.operationMaterialJson material = .ok () := by
    simp only [checkRebuilt, hnext', List.getLast?_concat, storeBind_eq_ok, exists_unit,
      uncaught_eq_ok, intact_eq_ok]
    refine ⟨material, ?_, ⟨by simp [pyEq], trivial⟩, row, hrow, rfl⟩
    simp only [CaseSourceLineage.operationMaterial, hloads, ok_bind]
  simp only [rebuildRow, hoperationHash, hmaterialHash, hoperation, hblob, storeBind_eq_ok,
    exists_unit, uncaught_eq_ok, intact_eq_ok, handling_eq_ok]
  refine ⟨by rw [hparentRow, hparent], _, hoperationRaw, _, hblobRaw, hsizes, _, hmaterial, c', ?_,
    hcheck, rfl⟩
  rw [hkindRow]
  exact hstored

/-- **The rows** of a sequence of mutations. -/
lemma rebuildRows_staged {r : StoreReaders Other} {t : LineageTables Other}
    {mutations : List Bytes} {c c' : LineageContext} {added : List CaseSourceLineage}
    (hc : ConsistentContext c) (hderive : deriveAll c (mutations.map .mutation) = .ok c')
    (hadded : c'.lineages = c.lineages ++ added) (hstaged : ∀ l ∈ added, Stored t l) :
    rebuildRows r t c (optionValue (HashChain.tip lineageNaming c.lineages)) (storedRows t added) =
      .ok c' := by
  induction mutations generalizing c added with
  | nil =>
      obtain rfl := Except.ok.inj hderive
      obtain rfl : added = [] := by simpa using hadded
      rfl
  | cons raw rest ih =>
      simp only [List.map_cons, deriveAll, derive, bind_eq_ok] at hderive
      obtain ⟨c₁, hstep, hrest⟩ := hderive
      obtain ⟨hc₁, -, l, hl, -, -⟩ := deriveCaseSourceMutation_consistent hc hstep
      obtain ⟨-, -, added₁, hadded₁, -⟩ := deriveAll_adds hc₁ hrest
      obtain rfl : added = l :: added₁ := by
        rw [hadded₁, hl, List.append_assoc, List.singleton_append] at hadded
        exact (List.append_cancel_left hadded).symm
      obtain ⟨hlStaged, hrestStaged⟩ := List.forall_mem_cons.mp hstaged
      obtain ⟨row, hrow, hexpected⟩ := hlStaged.row
      have hrows : storedRows t (l :: added₁) = row :: storedRows t added₁ := by
        simp [storedRows, hrow]
      have hbelow : row.lineageHash = optionValue (HashChain.tip lineageNaming c₁.lineages) := by
        rw [hl, HashChain.tip_concat, (row_eq_ok hexpected).1]
        rfl
      rw [hrows]
      simp only [rebuildRows, storeBind_eq_ok]
      refine ⟨c₁, rebuildRow_staged hc hstep hl hlStaged hexpected, ?_⟩
      rw [hbelow]
      exact ih hc₁ hrest hadded₁ hrestStaged

/-- The walk from the last lineage of a mutated context. -/
lemma walkFrom_staged {r : StoreReaders Other} {t : LineageTables Other} {steps : ℕ}
    {mutations : List Bytes} {root : PreparedRoot} {c : LineageContext} {terminal : String}
    (hroot : ConsistentContext root.context) (hempty : root.context.lineages = [])
    (hderive : deriveAll root.context (mutations.map .mutation) = .ok c)
    (hstaged : ∀ l ∈ c.lineages, Stored t l) (hsteps : t.lineages.length < steps)
    (htip : HashChain.tip lineageNaming c.lineages = some terminal) :
    walkFrom r t steps root terminal = some (.ok c) := by
  obtain ⟨hc, hsame, added, hadded, -⟩ := deriveAll_adds hroot hderive
  obtain ⟨last, hlast, hterminal⟩ := Option.map_eq_some_iff.mp htip
  have hlastHash : last.lineageHash = terminal := hterminal
  have hin := List.mem_of_getLast? hlast
  have hhex : isLowerSha terminal = true := by
    have hchars := domainDigest_hex (hc.each last hin).hash
    rw [hlastHash] at hchars
    exact isLowerSha_of_hex hchars.1 hchars.2
  have hlinked := linked_storedRows root.context.caseSourceBindingHash hc.chain hstaged htip
  have hkeys : ∀ key row, t.lineage? key = some row → key ∈ t.lineages.map LineageRow.lineageHash :=
    fun key row h => List.mem_map.mpr ⟨row, (lineage?_self h).1, (lineage?_self h).2⟩
  have haccept : ∀ row ∈ storedRows t c.lineages,
      (lineagePedigree t root.context.caseSourceBindingHash).accept row = .ok () := by
    intro row hrow
    obtain ⟨l, hl, hfetch⟩ := List.mem_filterMap.mp hrow
    obtain ⟨row', hrow', hexpected⟩ := (hstaged l hl).row
    obtain rfl := Option.some.inj (hrow'.symm.trans hfetch)
    rw [lineagePedigree, intact_eq_ok, (row_parent hexpected).2.1, (hc.each l hl).root,
      hsame.binding]
  have hcollected : Ancestry.ancestors (lineagePedigree t root.context.caseSourceBindingHash) steps
      [] [] (some (.text terminal)) = some (.ok (storedRows t c.lineages)) :=
    (Ancestry.ancestors_eq_ok_iff hkeys (by simpa using hsteps)).mpr ⟨hlinked, haccept⟩
  have hrebuilt : rebuildRows r t root.context .null (storedRows t c.lineages) = .ok c := by
    have hall : c.lineages = root.context.lineages ++ c.lineages := by
      rw [hempty, List.nil_append]
    have hrows : rebuildRows r t root.context
        (optionValue (HashChain.tip lineageNaming root.context.lineages))
          (storedRows t c.lineages) = .ok c := rebuildRows_staged hroot hderive hall hstaged
    rw [hempty] at hrows
    exact hrows
  rw [walkFrom, if_neg (by simp [hhex]), hcollected, Option.bind_eq_bind, Option.bind_some,
    Option.pure_def, Option.some.injEq, storeBind_eq_ok]
  refine ⟨_, rfl, ?_⟩
  simp only [hrebuilt, storeBind_eq_ok]
  refine ⟨c, rfl, ?_⟩
  simp only [hlast, storeBind_eq_ok, exists_unit, intact_eq_ok]
  exact ⟨hlastHash, trivial⟩

/-- The comparison in the end passes on the context itself, from whatever bundle. -/
lemma finalPreflight_same {c : LineageContext} (hc : ConsistentContext c)
    (bundle : CaseSourceBundle) : finalPreflight (c.withBundle bundle) c = .ok () := by
  obtain ⟨case, hcase, -, -, -⟩ := hc.case
  have hvalid := hc.assurance_valid
  simp only [finalPreflight, storeBind_eq_ok, exists_unit, uncaught_eq_ok, intact_eq_ok]
  exact ⟨case, hcase, case, hcase, by simp [pyEq], hvalid, hvalid, rfl⟩

/-- **Mutations that have been stored are read back**: from a stored root, which may come with
another snapshot of the same sources, the walk derives the context that was stored.  So the
comparison in the end does not fail, and to store the lineages again changes nothing. -/
theorem stagedLineages_read_back {build : CaseSourceBundle → Result BuiltCase}
    {bundle stored : CaseSourceBundle} {mutations : List Bytes} {root c : LineageContext}
    {r : StoreReaders Other} {t t' : LineageTables Other} {created : Bool} {steps : ℕ}
    {p : PreparedRoot} (hroot : prepareCaseSourceContext build bundle = .ok root)
    (hderive : deriveAll root (mutations.map .mutation) = .ok c)
    (hstaged : stageLineages r t false c.lineages = .ok (t', created))
    (hread : r.root t' c.caseSourceSet.sourceSetHash = .ok p)
    (hcontext : p.context = root.withBundle stored) (hsteps : t'.lineages.length < steps) :
    storedCaseSourceContextWithLineage r t' steps c.caseSourceSet.sourceSetHash
        (HashChain.tip lineageNaming c.lineages) = some (.ok (c.withBundle stored)) ∧
      stageCaseSourceLineages r t steps c = some (.ok (t', created)) ∧
      stageCaseSourceLineages r t' steps c = some (.ok (t', false)) := by
  obtain ⟨hconsistent, -, hempty⟩ := prepareCaseSourceContext_consistent hroot
  obtain ⟨hc, -, -⟩ := deriveAll_adds hconsistent hderive
  obtain ⟨-, hall⟩ := stageLineages_spec hstaged
  obtain ⟨build', bundle', hprepared⟩ := p.prepared
  obtain ⟨hp, -, hpempty⟩ := prepareCaseSourceContext_consistent hprepared
  have hderived : deriveAll p.context (mutations.map .mutation) = .ok (c.withBundle stored) := by
    rw [hcontext]
    exact deriveAll_withBundle stored hderive
  have hwalk : storedCaseSourceContextWithLineage r t' steps c.caseSourceSet.sourceSetHash
      (HashChain.tip lineageNaming c.lineages) = some (.ok (c.withBundle stored)) := by
    cases htip : HashChain.tip lineageNaming c.lineages with
    | none =>
        -- a context without lineages is the root
        have hnone : c.lineages = [] := by simpa [HashChain.tip] using htip
        obtain ⟨-, -, added, hadded, hrecords⟩ := deriveAll_adds hconsistent hderive
        obtain rfl : added = [] := by
          rw [hnone, hempty, List.nil_append] at hadded
          exact hadded.symm
        obtain rfl := List.map_eq_nil_iff.mp (List.forall₂_nil_right_iff.mp hrecords)
        simp only [storedCaseSourceContextWithLineage, hread, Except.ok.inj hderived]
    | some terminal =>
        simp only [storedCaseSourceContextWithLineage, hread]
        exact walkFrom_staged hp hpempty hderived hall hsteps htip
  have hstage : ∀ {t₀ : LineageTables Other} {b : Bool},
      stageLineages r t₀ false c.lineages = .ok (t', b) →
        stageCaseSourceLineages r t₀ steps c = some (.ok (t', b)) := by
    intro t₀ b h
    simp only [stageCaseSourceLineages, h, hwalk, Option.bind_eq_bind, Option.bind_some,
      Option.pure_def, Option.some.injEq, storeBind_eq_ok, exists_unit]
    exact ⟨_, rfl, finalPreflight_same hc stored, trivial⟩
  exact ⟨hwalk, hstage hstaged, hstage (stageLineages_staged hall)⟩

end Contexts

end QualityCI

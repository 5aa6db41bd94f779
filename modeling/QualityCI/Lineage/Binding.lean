import QualityCI.Lineage.Derivation

/-!
# What an assurance stands for

The assurance of a case names the set of its sources, the binding of its root and its last lineage,
by their hashes.  Where no two of the values that these hashes are taken of share one, it stands for
one history: the manifest and the members in every byte, the case of the root, every change in its
order, with its raw bytes, and the case that they lead to.  A case is hashed as its projection, so
it is the same but for the order that the projection leaves out.

* `CasesApart`, `HashesApart` — no two of the hashed values of two contexts share a hash.
* `member_ext`, `lineage_ext` — members and lineages with one hash.
* **`assurance_binds_history`** — two contexts with one assurance have one history.
-/

namespace QualityCI

open Py

/-- Two values that share a hash are the same. -/
def Apart (domain : String) (a b : Json) : Prop :=
  ∀ digest, domainDigest domain a = .ok digest → domainDigest domain b = .ok digest → a = b

/-- Two blobs that share a hash are the same. -/
def BytesApart (a b : Bytes) : Prop := sha256Bytes a = sha256Bytes b → a = b

/-- The materials of two lineages, under the domain of the first. -/
def MaterialsApart (l l' : CaseSourceLineage) : Prop := ∀ material material' : Dict,
  (Json.obj material).WF → (Json.obj material').WF →
  dumps (.obj material) = .ok l.operationMaterialJson →
  dumps (.obj material') = .ok l'.operationMaterialJson →
  Apart (operationDomain l.operationKind) (.obj material) (.obj material')

section Binding

variable [PyUnicode]

/-- The cases of two contexts that share a hash are hashed as one value. -/
def CasesApart (c c' : LineageContext) : Prop := ∀ case case' : Dict,
  c.case = .ok case → c'.case = .ok case' →
  canonicalHash (.obj case) = canonicalHash (.obj case') →
  hashedValue (.obj case) = hashedValue (.obj case')

/-- The cases of two contexts have one projection: they are the same but for the order of the arrays
that have none. -/
def SameCase (c c' : LineageContext) : Prop := ∃ case case' : Dict,
  c.case = .ok case ∧ c'.case = .ok case' ∧ Agree canonicalCaseProjection case case'

/-- No two of the values that the hashes of two contexts are taken of share a hash. -/
structure HashesApart (c c' : LineageContext) : Prop where
  sets : ∀ subject subject', sourceSetWithoutHash c.bundle = .ok subject →
    sourceSetWithoutHash c'.bundle = .ok subject' →
    Apart sourceSetDomain (.obj subject) (.obj subject')
  bindings : Apart sourceBindingDomain
    (.obj (bindingProjection c.caseSourceSet.sourceSetHash c.rootCaseHash))
    (.obj (bindingProjection c'.caseSourceSet.sourceSetHash c'.rootCaseHash))
  manifests : BytesApart c.bundle.manifestBytes c'.bundle.manifestBytes
  members : ∀ pair ∈ c.bundle.members.zip c'.bundle.members,
    BytesApart pair.1.rawBytes pair.2.rawBytes
  cores : ∀ l ∈ c.lineages, ∀ l' ∈ c'.lineages,
    Apart sourceLineageDomain (.obj l.core) (.obj l'.core)
  materials : ∀ l ∈ c.lineages, ∀ l' ∈ c'.lineages, l.operationKind = l'.operationKind →
    MaterialsApart l l'
  blobs : ∀ l ∈ c.lineages, ∀ l' ∈ c'.lineages, l.operationKind = l'.operationKind →
    BytesApart l.operationBlobBytes l'.operationBlobBytes
  cases : CasesApart c c'

/-! ## What a hashed value says -/

omit [PyUnicode] in
lemma entries_of_lookup {entries entries' : List (String × Json)}
    (hnodup : (entries.map Prod.fst).Nodup) (hkeys : entries'.map Prod.fst = entries.map Prod.fst)
    (h : ∀ key, List.lookup key entries = List.lookup key entries') : entries = entries' := by
  induction entries generalizing entries' with
  | nil => simpa using hkeys.symm
  | cons e rest ih =>
      cases entries' with
      | nil => simp at hkeys
      | cons e' rest' =>
          obtain ⟨k, v⟩ := e
          obtain ⟨k', v'⟩ := e'
          simp only [List.map_cons, List.cons.injEq] at hkeys
          obtain ⟨rfl, hkeys⟩ := hkeys
          rw [List.map_cons, List.nodup_cons] at hnodup
          have hhead := h k'
          simp only [List.lookup_cons, beq_self_eq_true, Option.some.injEq] at hhead
          have hrest : rest = rest' := by
            refine ih hnodup.2 hkeys fun key => ?_
            by_cases hk : key = k'
            · have hnone : ∀ items : List (String × Json), key ∉ items.map Prod.fst →
                  List.lookup key items = none := fun items hout =>
                List.lookup_eq_none_iff.mpr fun p hp =>
                  bne_iff_ne.mpr fun he => hout (List.mem_map.mpr ⟨p, hp, he.symm⟩)
              rw [hnone rest (hk ▸ hnodup.1), hnone rest' (hk ▸ hkeys ▸ hnodup.1)]
            · have htail := h key
              simpa only [List.lookup_cons, beq_false_of_ne hk] using htail
          rw [hhead, hrest]

omit [PyUnicode] in
/-- Two dictionaries made of the same keys are the same only if their values are. -/
lemma ofList_inj {entries entries' : List (String × Json)} (h : Dict.ofList entries =
    Dict.ofList entries') (hnodup : (entries.map Prod.fst).Nodup)
    (hkeys : entries'.map Prod.fst = entries.map Prod.fst) : entries = entries' := by
  refine entries_of_lookup hnodup hkeys fun key => ?_
  rw [← Dict.get?_ofList hnodup, ← Dict.get?_ofList (hkeys ▸ hnodup), h]

omit [PyUnicode] in
lemma resolutionBlob_inj {a b : Bytes} (h : resolutionBlob a = resolutionBlob b) :
    sha256Bytes a = sha256Bytes b := by
  have hentries := ofList_inj h (by simp) (by simp)
  simp only [List.cons.injEq, Prod.mk.injEq, Json.str.injEq, true_and, and_true] at hentries
  exact hentries.1

omit [PyUnicode] in
lemma core_inj {l l' : LineageRecord} (h : l.core = l'.core) :
    l.contractVersion = l'.contractVersion ∧ l.rootBindingHash = l'.rootBindingHash ∧
      l.parentLineageHash = l'.parentLineageHash ∧ l.inputCaseHash = l'.inputCaseHash ∧
      l.operationKind = l'.operationKind ∧
      l.operationContractVersion = l'.operationContractVersion ∧
      l.operationMaterialHash = l'.operationMaterialHash ∧ l.outputCaseHash = l'.outputCaseHash := by
  have hentries := ofList_inj h (by simp) (by simp)
  have hparent : optionJson l.parentLineageHash = optionJson l'.parentLineageHash →
      l.parentLineageHash = l'.parentLineageHash := by
    cases l.parentLineageHash <;> cases l'.parentLineageHash <;> simp [optionJson]
  simp only [List.cons.injEq, Prod.mk.injEq, Json.str.injEq, true_and, and_true] at hentries
  obtain ⟨hversion, hroot, hp, hin, hkind, hcontract, hmaterial, hout⟩ := hentries
  exact ⟨hversion, hroot, hparent hp, hin, hkind, hcontract, hmaterial, hout⟩

omit [PyUnicode] in
/-- A selector is known by its value. -/
lemma selectorValue_inj {s s' : Option String} {v : Json}
    (hs : ∀ text ∈ s, IsCanonicalObject text) (hs' : ∀ text ∈ s', IsCanonicalObject text)
    (h : selectorValue s = .ok v) (h' : selectorValue s' = .ok v) : s = s' := by
  cases s with
  | none =>
      obtain rfl := Except.ok.inj h
      cases s' with
      | none => rfl
      | some text =>
          obtain ⟨d, hread, -⟩ := hs' text rfl
          simp [selectorValue, hread] at h'
  | some text =>
      obtain ⟨d, hread, htext⟩ := hs text rfl
      obtain rfl := Except.ok.inj (hread.symm.trans h)
      cases s' with
      | none => simp [selectorValue] at h'
      | some text' =>
          obtain ⟨d', hread', htext'⟩ := hs' text' rfl
          obtain rfl := Json.obj.inj (Except.ok.inj (hread'.symm.trans h'))
          rw [Except.ok.inj (htext.symm.trans htext')]

omit [PyUnicode] in
lemma CaseSourceMember.selector_canonical (m : CaseSourceMember) :
    ∀ text ∈ m.declaredTableSelectorJson, IsCanonicalObject text := by
  intro text htext
  have hchecked := m.checked
  simp only [SourceMemberFields.postInit, seq_eq_ok] at hchecked
  obtain ⟨-, -, -, -, -, hselector⟩ := hchecked
  rw [Option.mem_def.mp htext, checkSelector] at hselector
  simp only [bind_eq_ok] at hselector
  obtain ⟨value, hread, hselector⟩ := hselector
  cases value with
  | obj d =>
      simp only [bind_eq_ok, require_eq_ok] at hselector
      obtain ⟨canonical, hcanonical, rfl⟩ := hselector
      exact ⟨d, hread, hcanonical⟩
  | _ => simp at hselector

omit [PyUnicode] in
/-- **A member is known by its entry in the set**, where its bytes are known by their hash. -/
lemma member_ext {m m' : CaseSourceMember} {v : Json} (h : m.setMember.toDict = .ok v)
    (h' : m'.setMember.toDict = .ok v) (hbytes : BytesApart m.rawBytes m'.rawBytes) : m = m' := by
  simp only [CaseSourceSetMember.toDict, CaseSourceMember.setMember, bind_eq_ok,
    Except.ok.injEq] at h h'
  obtain ⟨selector, hselector, rfl⟩ := h
  obtain ⟨selector', hselector', hentries⟩ := h'
  have hentries := ofList_inj (Json.obj.inj hentries) (by simp) (by simp)
  simp only [List.cons.injEq, Prod.mk.injEq, Json.str.injEq, true_and, and_true] at hentries
  obtain ⟨htype, hid, hpath, hkind, -, hhash, rfl⟩ := hentries
  have hselectors := selectorValue_inj m.selector_canonical m'.selector_canonical hselector
    hselector'
  have hfields : m.toSourceMemberFields = m'.toSourceMemberFields := by
    cases hm : m.toSourceMemberFields
    cases hm' : m'.toSourceMemberFields
    simp only [hm, hm'] at htype hid hpath hkind hhash hselectors hbytes
    rw [htype, hid, hpath, hkind, hselectors, hbytes hhash.symm]
  obtain ⟨fields, hm⟩ := m
  obtain ⟨fields', hm'⟩ := m'
  obtain rfl : fields = fields' := hfields
  rfl

omit [PyUnicode] in
/-- **A lineage is known by its hash**, where the values hashed for it are known by theirs. -/
lemma lineage_ext {bindingHash bindingHash' : String} {l l' : CaseSourceLineage}
    (hl : SoundLineage bindingHash l) (hl' : SoundLineage bindingHash' l')
    (hcore : Apart sourceLineageDomain (.obj l.core) (.obj l'.core))
    (hmaterial : l.operationKind = l'.operationKind → MaterialsApart l l')
    (hblob : l.operationKind = l'.operationKind →
      BytesApart l.operationBlobBytes l'.operationBlobBytes)
    (h : l.lineageHash = l'.lineageHash) : l = l' := by
  have hcores := Json.obj.inj (hcore _ hl.hash (h ▸ hl'.hash))
  obtain ⟨hversion, hroot, hparent, hin, hkind, hcontract, hmaterialHash, hout⟩ := core_inj hcores
  obtain ⟨material, hwf, hjson, hdigest, hget⟩ := hl.material
  obtain ⟨material', hwf', hjson', hdigest', hget'⟩ := hl'.material
  obtain rfl := Json.obj.inj (hmaterial hkind material material' hwf hwf' hjson hjson' _ hdigest
    (by rw [hkind, hmaterialHash]; exact hdigest'))
  have htext := Except.ok.inj (hjson.symm.trans hjson')
  have hraw : l.operationBlobBytes = l'.operationBlobBytes := by
    rw [← hkind, hget] at hget'
    exact hblob hkind (resolutionBlob_inj (Json.obj.inj (Option.some.inj hget')))
  have hfields : l.toLineageRecord = l'.toLineageRecord := by
    cases hr : l.toLineageRecord
    cases hr' : l'.toLineageRecord
    simp only [hr, hr'] at h hversion hroot hparent hin hkind hcontract hmaterialHash hout htext hraw
    rw [h, hversion, hroot, hparent, hin, hkind, hcontract, hmaterialHash, hout, htext, hraw]
  obtain ⟨record, hchecked⟩ := l
  obtain ⟨record', hchecked'⟩ := l'
  obtain rfl : record = record' := hfields
  rfl

/-! ## One assurance, one history -/

omit [PyUnicode] in
/-- The members of two sets with the same entries. -/
lemma members_ext {members members' : List CaseSourceMember} {entries : List Json}
    (h : mapEach (fun m => m.setMember.toDict) members = .ok entries)
    (h' : mapEach (fun m => m.setMember.toDict) members' = .ok entries)
    (hbytes : ∀ pair ∈ members.zip members', BytesApart pair.1.rawBytes pair.2.rawBytes) :
    members = members' := by
  rw [mapEach_eq_ok] at h h'
  induction h generalizing members' with
  | nil =>
      cases h'
      rfl
  | @cons m entry rest entries hm _ ih =>
      cases h' with
      | @cons m' _ rest' _ hm' h' =>
          rw [List.zip_cons_cons] at hbytes
          have hfirst : m = m' := member_ext hm hm' (hbytes (m, m') List.mem_cons_self)
          have hrest : rest = rest' :=
            ih h' fun pair hpair => hbytes pair (List.mem_cons_of_mem _ hpair)
          rw [hfirst, hrest]

/-- The sources of two sets with one hash. -/
lemma sources_ext {c c' : LineageContext} (hc : ConsistentContext c) (hc' : ConsistentContext c')
    (hapart : HashesApart c c')
    (h : c.caseSourceSet.sourceSetHash = c'.caseSourceSet.sourceSetHash) :
    c.bundle.manifestBytes = c'.bundle.manifestBytes ∧ c.bundle.members = c'.bundle.members := by
  obtain ⟨subject, hsubject, hdigest, -⟩ := caseSourceSetOf_eq_ok.mp hc.sources
  obtain ⟨subject', hsubject', hdigest', -⟩ := caseSourceSetOf_eq_ok.mp hc'.sources
  obtain rfl := Json.obj.inj (hapart.sets subject subject' hsubject hsubject' _ hdigest
    (h ▸ hdigest'))
  simp only [sourceSetWithoutHash, bind_eq_ok, Except.ok.injEq] at hsubject hsubject'
  obtain ⟨entries, hentries, rfl⟩ := hsubject
  obtain ⟨entries', hentries', heq⟩ := hsubject'
  have hitems := ofList_inj heq (by simp) (by simp)
  simp only [List.cons.injEq, Prod.mk.injEq, Json.obj.injEq, Json.arr.injEq, true_and, and_true]
    at hitems
  obtain ⟨hblob, rfl⟩ := hitems
  exact ⟨hapart.manifests (resolutionBlob_inj hblob.symm),
    members_ext hentries hentries' hapart.members⟩

omit [PyUnicode] in
lemma recordsSteps_map {steps : List DerivationStep} {lineages : List CaseSourceLineage}
    (h : RecordsSteps steps lineages) : steps.map (fun step => (step.kind, step.raw)) =
      lineages.map fun l => (l.operationKind, l.operationBlobBytes) := by
  induction h with
  | nil => rfl
  | cons hstep _ ih => rw [List.map_cons, List.map_cons, ih, hstep.1, hstep.2]

/-- Cases that lead to one hash are one case. -/
lemma sameCase_of_hash {c c' : LineageContext} (hc : ConsistentContext c)
    (hc' : ConsistentContext c') (hapart : CasesApart c c')
    (h : terminalCaseHash c.rootCaseHash c.lineages =
      terminalCaseHash c'.rootCaseHash c'.lineages) : SameCase c c' := by
  obtain ⟨case, hcase, -, haccepted, hhash⟩ := hc.case
  obtain ⟨case', hcase', -, haccepted', hhash'⟩ := hc'.case
  refine ⟨case, case', hcase, hcase', ?_⟩
  have hvalues := hapart case case' hcase hcase' (by rw [hhash, hhash', h])
  rw [hashedValue_of_accepted haccepted, hashedValue_of_accepted haccepted'] at hvalues
  -- the first one is hashed, so it has a projection
  have hprojected : ∃ projection, canonicalCaseProjection case = .ok projection := by
    obtain ⟨value, hvalue, -⟩ := bind_eq_ok.mp hhash
    rw [hashedValue_of_accepted haccepted] at hvalue
    cases hp : canonicalCaseProjection case with
    | error e =>
        rw [hp] at hvalue
        cases hvalue
    | ok projection => exact ⟨projection, rfl⟩
  obtain ⟨projection, hprojection⟩ := hprojected
  refine ⟨projection, hprojection, ?_⟩
  rw [hprojection] at hvalues
  cases hp : canonicalCaseProjection case' with
  | error e =>
      rw [hp] at hvalues
      cases hvalues
  | ok projection' =>
      rw [hp] at hvalues
      exact congrArg _ (Json.obj.inj (Except.ok.inj hvalues)).symm

/-- **Two derivations that end in one assurance are one history**, where no two of the values that
the hashes are taken of share a hash: one manifest, the same members in every byte, the same changes
in the same order, with the raw bytes of each, and cases of the root and of the end that differ only
in the order of the arrays that have none. -/
theorem assurance_binds_history {build build' : CaseSourceBundle → Result BuiltCase}
    {bundle bundle' : CaseSourceBundle} {steps steps' : List DerivationStep}
    {root root' c c' : LineageContext} (hroot : prepareCaseSourceContext build bundle = .ok root)
    (hroot' : prepareCaseSourceContext build' bundle' = .ok root')
    (hderive : deriveAll root steps = .ok c) (hderive' : deriveAll root' steps' = .ok c')
    (hroots : CasesApart root root') (hapart : HashesApart c c')
    (hassurance : c.assurance = c'.assurance) :
    bundle.manifestBytes = bundle'.manifestBytes ∧ bundle.members = bundle'.members ∧
      SameCase root root' ∧ c.lineages = c'.lineages ∧
      steps.map (fun step => (step.kind, step.raw)) =
        steps'.map (fun step => (step.kind, step.raw)) ∧ SameCase c c' := by
  obtain ⟨hconsistent, hbundle, hempty⟩ := prepareCaseSourceContext_consistent hroot
  obtain ⟨hconsistent', hbundle', hempty'⟩ := prepareCaseSourceContext_consistent hroot'
  obtain ⟨hc, hsame, added, hadded, hrecords⟩ := deriveAll_adds hconsistent hderive
  obtain ⟨hc', hsame', added', hadded', hrecords'⟩ := deriveAll_adds hconsistent' hderive'
  rw [hempty, List.nil_append] at hadded
  rw [hempty', List.nil_append] at hadded'
  have hset : c.caseSourceSet.sourceSetHash = c'.caseSourceSet.sourceSetHash :=
    Option.some.inj (congrArg CaseSourceAssurance.setHash hassurance)
  have hbinding : c.caseSourceBindingHash = c'.caseSourceBindingHash :=
    Option.some.inj (congrArg CaseSourceAssurance.bindingHash hassurance)
  have htip : HashChain.tip lineageNaming c.lineages = HashChain.tip lineageNaming c'.lineages :=
    congrArg CaseSourceAssurance.lineageHash hassurance
  obtain ⟨hmanifest, hmembers⟩ := sources_ext hc hc' hapart hset
  have hrootHash : c.rootCaseHash = c'.rootCaseHash := by
    have hprojection := Json.obj.inj (hapart.bindings _ hc.binding (hbinding ▸ hc'.binding))
    have hitems := ofList_inj hprojection (by simp) (by simp)
    simp only [List.cons.injEq, Prod.mk.injEq, Json.str.injEq, true_and, and_true] at hitems
    exact hitems.2
  have hlineages : c.lineages = c'.lineages := by
    refine HashChain.Chain.unique hc.chain hc'.chain (fun l hl l' hl' hname => ?_) htip
    exact lineage_ext (hc.each l hl) (hc'.each l' hl') (hapart.cores l hl l' hl')
      (hapart.materials l hl l' hl') (hapart.blobs l hl l' hl') hname
  have hrootCase : SameCase root root' := by
    refine sameCase_of_hash hconsistent hconsistent' hroots ?_
    rw [hempty, hempty', ← hsame.rootCase, ← hsame'.rootCase, hrootHash]
  have hcase : SameCase c c' := sameCase_of_hash hc hc' hapart.cases (by rw [hrootHash, hlineages])
  rw [hsame.bundle, hbundle, hsame'.bundle, hbundle'] at hmanifest hmembers
  refine ⟨hmanifest, hmembers, hrootCase, hlineages, ?_, hcase⟩
  rw [recordsSteps_map hrecords, recordsSteps_map hrecords', ← hadded, ← hadded', hlineages]

end Binding

section Ascii

attribute [local instance] asciiUnicode

/-- The same sources, captured in memory. -/
def memoryBundle : CaseSourceBundle where
  manifestBytes := sampleBundle.manifestBytes
  members := sampleBundle.members
  snapshot :=
    { sourceKind := "IN_MEMORY_BUNDLE"
      captures :=
        [⟨⟨"case.json", 2, "JSON", false⟩, by decide +kernel⟩,
         ⟨⟨"flow.csv", 1, "CSV", false⟩, by decide +kernel⟩,
         ⟨⟨"pfmea.csv", 1, "CSV", false⟩, by decide +kernel⟩,
         ⟨⟨"plan.csv", 1, "CSV", false⟩, by decide +kernel⟩,
         ⟨⟨"sop.csv", 1, "CSV", false⟩, by decide +kernel⟩,
         ⟨⟨"record.csv", 1, "CSV", false⟩, by decide +kernel⟩]
      isSealed := false
      checked := by decide +kernel }
  contractVersion := sourcePackVersion
  checked := by decide +kernel

/-- A context whose lineages have each their own hashes, against the same one from other sources. -/
lemma hashesApart_withBundle {c : LineageContext} (hc : ConsistentContext c)
    {bundle : CaseSourceBundle} (hmanifest : bundle.manifestBytes = c.bundle.manifestBytes)
    (hmembers : bundle.members = c.bundle.members)
    (hnames : (c.lineages.map fun l => l.lineageHash).Nodup)
    (hmaterials : (c.lineages.map fun l => l.operationMaterialHash).Nodup)
    (hblobs : (c.lineages.map fun l => sha256Bytes l.operationBlobBytes).Nodup) :
    HashesApart c (c.withBundle bundle) where
  sets subject subject' h h' digest _ _ := by
    have hsame : sourceSetWithoutHash (c.withBundle bundle).bundle =
        sourceSetWithoutHash c.bundle := by
      simp only [LineageContext.withBundle, sourceSetWithoutHash, hmanifest, hmembers]
    rw [hsame, h] at h'
    exact congrArg Json.obj (Except.ok.inj h')
  bindings _ _ _ := rfl
  manifests _ := hmanifest.symm
  members pair hpair _ := by
    have hzip : pair ∈ c.bundle.members.zip c.bundle.members := by
      rw [← hmembers]
      exact hmembers ▸ hpair
    rw [List.zip_eq_zipWith, List.zipWith_self] at hzip
    obtain ⟨m, -, rfl⟩ := List.mem_map.mp hzip
    rfl
  cores l hl l' hl' digest h h' := by
    have hname : l.lineageHash = l'.lineageHash := by
      rw [← Except.ok.inj (h.symm.trans (hc.each l hl).hash)]
      exact Except.ok.inj (h'.symm.trans (hc.each l' hl').hash)
    rw [List.inj_on_of_nodup_map hnames hl hl' hname]
  materials l hl l' hl' hkind material material' hwf hwf' hjson hjson' digest h h' := by
    have hread : ∀ {l : CaseSourceLineage} {material : Dict}, l ∈ c.lineages →
        (Json.obj material).WF → dumps (.obj material) = .ok l.operationMaterialJson →
        domainDigest (operationDomain l.operationKind) (.obj material) =
          .ok l.operationMaterialHash := by
      intro l material hl hwf hjson
      obtain ⟨stored, hstored, hdumps, hdigest, -⟩ := (hc.each l hl).material
      obtain rfl := Json.obj.inj (Except.ok.inj ((loads_dumps ⟨true⟩ hwf hjson).symm.trans
        (loads_dumps ⟨true⟩ hstored hdumps)))
      exact hdigest
    have hhash : l.operationMaterialHash = l'.operationMaterialHash := by
      have hfirst := hread hl hwf hjson
      have hsecond := hread hl' hwf' hjson'
      rw [← hkind] at hsecond
      rw [← Except.ok.inj (h.symm.trans hfirst)]
      exact Except.ok.inj (h'.symm.trans hsecond)
    obtain rfl := List.inj_on_of_nodup_map hmaterials hl hl' hhash
    exact Except.ok.inj ((loads_dumps ⟨true⟩ hwf hjson).symm.trans (loads_dumps ⟨true⟩ hwf' hjson'))
  blobs l hl l' hl' _ h := by rw [List.inj_on_of_nodup_map hblobs hl hl' h]
  cases case case' hcase hcase' _ := by rw [Except.ok.inj (hcase.symm.trans hcase')]

theorem assurance_binds_history_flow : ∃ root root' c c',
    prepareCaseSourceContext (fun _ => .ok sampleBuilt) sampleBundle = .ok root ∧
    prepareCaseSourceContext (fun _ => .ok sampleBuilt) memoryBundle = .ok root' ∧
    deriveAll root sampleSteps = .ok c ∧ deriveAll root' sampleSteps = .ok c' ∧
    SameCase root root' ∧ c.lineages = c'.lineages ∧ c.lineages.length = 3 ∧ SameCase c c' := by
  obtain ⟨root, c, hroot, hderive, hstands⟩ := sampleSteps_derive
  have hnames := congrArg (List.map fun d => d.1) hstands.lineages
  have hmaterials := congrArg (List.map fun d => d.2.1) hstands.lineages
  have hblobs := congrArg (List.map fun d => d.2.2) hstands.lineages
  simp only [List.map_map] at hnames hmaterials hblobs
  have hroot' : prepareCaseSourceContext (fun _ => .ok sampleBuilt) memoryBundle =
      .ok (root.withBundle memoryBundle) := by
    simp only [prepareCaseSourceContext, bind_eq_ok, Except.ok.injEq] at hroot ⊢
    obtain ⟨built, hbuilt, hash, hhash, set, hset, binding, hbinding, json, hjson, rfl⟩ := hroot
    exact ⟨built, hbuilt, hash, hhash, set, hset, binding, hbinding, json, hjson, rfl⟩
  have hderive' := deriveAll_withBundle memoryBundle hderive
  obtain ⟨hconsistent, hbundle, -⟩ := prepareCaseSourceContext_consistent hroot
  obtain ⟨hc, hsame, -⟩ := deriveAll_adds hconsistent hderive
  have hsources : c.bundle = sampleBundle := hsame.bundle.trans hbundle
  have hroots : CasesApart root (root.withBundle memoryBundle) := by
    intro case case' hcase hcase' _
    rw [Except.ok.inj (hcase.symm.trans hcase')]
  have hapart : HashesApart c (c.withBundle memoryBundle) :=
    hashesApart_withBundle hc (by rw [hsources]; rfl) (by rw [hsources]; rfl)
      (hnames ▸ (by decide +kernel)) (hmaterials ▸ (by decide +kernel))
      (hblobs ▸ (by decide +kernel))
  obtain ⟨-, -, hrootCase, hlineages, -, hcase⟩ :=
    assurance_binds_history hroot hroot' hderive hderive' hroots hapart rfl
  have hlength : c.lineages.length = 3 := by
    have hlengths := congrArg List.length hstands.lineages
    rwa [List.length_map] at hlengths
  exact ⟨root, _, c, _, hroot, hroot', hderive, hderive', hrootCase, hlineages, hlength, hcase⟩

end Ascii

end QualityCI

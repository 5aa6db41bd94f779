import QualityCI.Replay.Patching
import QualityCI.Replay.Sharing

/-!
# What a resolution changes

The list of operations of a resolution is whatever JSON holds, before any check, and the case is an
object in memory.

* `validatePaths` — the paths a list of operations may write to.
* `resolveCase`, `resolveCaseIn` — the resolved case, as a value and as an object.
* `ResolutionFrame` — what the resolved case has of the case, and of the rebuilt documents.
* **`resolveCase_frame`** — every resolution that returns; the object given is unchanged, whether it
  returns or raises.
-/

namespace QualityCI

open Py

/-! ## The resolution -/

/-- The check of the event's risk. -/
def requireSameRisk (proposed case : Dict) : Result Unit :=
  require ((proposed.dictAt "event").get? "risk_level" = (case.dictAt "event").get? "risk_level")
    ("resolution blocked; v0.1 resolutions cannot reclassify event risk; " ++
      "create a new event revision and approval subject")

/-- The marks of a resolution. -/
def markResolved (proposed : Dict) (resolutionId : String) : Dict :=
  (proposed.erase "active_mutation").set "applied_resolution" (.str resolutionId)

section Resolving

variable [PyUnicode]

/-- One operation, in the loop of `validate_resolution_operation_paths`.  An identity or a path that
is no text reads as the empty one, which is refused with the same message. -/
def validatePathOf (index : ℕ) (touched : Dict) (operation : Json) : Result Dict := do
  require (operation.isDict = true ∧
      (operation.obj?.getD []).getD "target" (.str "document") = .str "document")
    "revision artifacts can replace documents only"
  validateOperationPath index touched (operationOf operation)

/-- `validate_resolution_operation_paths`, of any list. -/
def validatePaths (operations : List Json) : Result (List String) := do
  require (operations ≠ []) "resolution operations must be a non-empty list"
  let touched ← enumerateM validatePathOf 0 [] operations
  .ok (touched.filterMap fun entry => entry.2.str?)

/-- What is checked before the operations are applied. -/
def requireCovered (resolutionId : String) (operations : List Json) (context : ArtifactContext) :
    Result Unit := do
  require (isBlank resolutionId = false) "resolution_id must be a non-empty string"
  let touched ← validatePaths operations
  require (SameMembers (touched.map normalizedIdentity)
        (context.artifactIndex.map normalizedIdentity) ∧
      touched.length = context.artifactIndex.length)
    "sealed artifact context does not exactly cover resolution operations"

/-- The patched case, with the rebuilt documents in the place of those they replace. -/
def withRebuilt (patched : Dict) (context : ArtifactContext) : Result Dict := do
  let documents ← patched.getItem "documents"
  let index ← documentsById documents
  let rebuiltIds := context.documents.map fun doc => doc.textAt "document_id"
  require ((∀ id ∈ rebuiltIds, id ≠ "") ∧ (rebuiltIds.map normalizedIdentity).Nodup ∧
      rebuiltIds.length = context.artifactIndex.length ∧
      SameMembers rebuiltIds context.artifactIndex)
    "sealed artifact documents do not exactly match its artifact index"
  let index ← replaceDocuments index context.documents
  .ok (patched.set "documents" (.arr (index.map Prod.snd)))

/-- `resolve_case_from_artifact_context`, of a case and any list of operations. -/
def resolveCase (case : Dict) (resolutionId : String) (operations : List Json)
    (context : ArtifactContext) : Result Dict := do
  requireCovered resolutionId operations context
  let patched ← applyMutation case (mutationOf s!"resolution:{resolutionId}" operations)
  let proposed ← withRebuilt patched context
  validateCaseDict proposed
  requireSameRisk proposed case
  .ok (markResolved proposed resolutionId)

/-! ## The same, in memory -/

open Action

/-- `resolve_case_from_artifact_context` of the object in a cell: the cell of the resolved case. -/
def resolveCaseIn (a : ℕ) (resolutionId : String) (operations : List Json)
    (context : ArtifactContext) : Action Json ℕ := do
  lift (requireCovered resolutionId operations context)
  let b ← applyMutationIn a (mutationOf s!"resolution:{resolutionId}" operations)
  let value ← readCell b
  let patched ← lift (gettable value)
  let proposed ← lift (withRebuilt patched context)
  writeCell b (.obj proposed)
  lift (validateCaseDict proposed)
  let value ← readCell a
  let case ← lift (gettable value)
  lift (requireSameRisk proposed case)
  writeCell b (.obj (markResolved proposed resolutionId))
  pure b

/-! ## What the resolved case has -/

/-- What a resolved case has of the case and of the rebuilt documents. -/
structure ResolutionFrame (case : Dict) (resolutionId : String) (operations : List Json)
    (context : ArtifactContext) (resolved : Dict) : Prop where
  event : resolved.get? "event" = case.get? "event"
  others : ∀ key, key ∉ ["documents", "active_mutation", "applied_resolution"] →
    resolved.get? key = case.get? key
  active : resolved.get? "active_mutation" = none
  applied : resolved.get? "applied_resolution" = some (.str resolutionId)
  documents : ∃ (patched : Dict) (proposed rows : List Dict),
    applyMutation case (mutationOf s!"resolution:{resolutionId}" operations) = .ok patched ∧
    patched.get? "documents" = some (.arr (proposed.map .obj)) ∧
    resolved.get? "documents" = some (.arr (rows.map .obj)) ∧
    rows.length = (case.rowsAt "documents").length ∧
    ∀ (i : ℕ) (before : Dict), (case.rowsAt "documents")[i]? = some before →
      ∃ document after, proposed[i]? = some document ∧ rows[i]? = some after ∧
        DocumentFrame operations context before document after

/-! ## The paths -/

/-- The documents that have been touched after some more operations. -/
lemma touched_of_loop {operations : List Json} {i : ℕ} {touched touched' : Dict}
    (h : enumerateM validatePathOf i touched operations = .ok touched') :
    (∀ key v, touched.get? key = some v → touched'.get? key = some v) ∧
      (∀ operation ∈ operations, WritesFact operation ∧
        touched'.get? (normalizedIdentity (operationOf operation).documentId) =
          some (.str (operationOf operation).documentId)) ∧
      ∀ entry ∈ touched', entry ∈ touched ∨
        ∃ operation ∈ operations, entry.2 = .str (operationOf operation).documentId := by
  induction operations generalizing i touched with
  | nil =>
      obtain rfl := Except.ok.inj h
      exact ⟨fun _ _ hv => hv, by simp, fun _ he => Or.inl he⟩
  | cons operation rest ih =>
      simp only [enumerateM, bind_eq_ok, validatePathOf, validateOperationPath, exists_unit,
        require_eq_ok, Except.ok.injEq] at h
      obtain ⟨touched₁, ⟨⟨hdict, htarget⟩, hid, -, -, ⟨-, hroot⟩, hsame, rfl⟩, hrest⟩ := h
      obtain ⟨hkeeps, hall, hfrom⟩ := ih hrest
      refine ⟨fun key v hv => hkeeps key v ?_, ?_, fun entry he => ?_⟩
      · rw [Dict.get?_set]
        split_ifs with hkey
        · rw [Dict.getD, hkey, hv, Option.getD_some] at hsame
          rw [hsame]
        · exact hv
      · refine List.forall_mem_cons.mpr ⟨⟨⟨hdict, htarget, hid, hroot⟩, hkeeps _ _ ?_⟩, hall⟩
        rw [Dict.get?_set, if_pos rfl]
      · rcases hfrom entry he with hmem | ⟨o, ho, heq⟩
        · rcases Dict.mem_set hmem with rfl | hmem
          · exact Or.inr ⟨operation, List.mem_cons_self, rfl⟩
          · exact Or.inl hmem
        · exact Or.inr ⟨o, List.mem_cons_of_mem _ ho, heq⟩

/-- **The touched documents** are those that the operations name. -/
lemma validatePaths_spec {operations : List Json} {touched : List String}
    (h : validatePaths operations = .ok touched) :
    (∀ operation ∈ operations, WritesFact operation ∧
      (operationOf operation).documentId ∈ touched) ∧
    ∀ id ∈ touched, ∃ operation ∈ operations, (operationOf operation).documentId = id := by
  simp only [validatePaths, bind_eq_ok, exists_unit, require_eq_ok, Except.ok.injEq] at h
  obtain ⟨-, entries, hloop, rfl⟩ := h
  obtain ⟨-, hall, hfrom⟩ := touched_of_loop hloop
  constructor
  · intro operation hoperation
    obtain ⟨hwrites, hget⟩ := hall operation hoperation
    exact ⟨hwrites, List.mem_filterMap.mpr ⟨_, Dict.get?_eq_some_mem hget, rfl⟩⟩
  · intro id hid
    obtain ⟨entry, hentry, hstr⟩ := List.mem_filterMap.mp hid
    rcases hfrom entry hentry with hmem | ⟨operation, hoperation, heq⟩
    · exact absurd hmem List.not_mem_nil
    · refine ⟨operation, hoperation, ?_⟩
      rw [heq] at hstr
      exact Option.some.inj hstr

/-! ## The resolved case -/

/-- Which of the documents of an accepted case are rebuilt: the index is matched to the operations
by normalized identity and to the rebuilt documents by exact identity. -/
lemma rebuilt_iff_named {case : Dict} {operations : List Json} {touched index rebuilt : List String}
    (hdistinct : ((documentIds case).map normalizedIdentity).Nodup)
    (htouched : (∀ operation ∈ operations, WritesFact operation ∧
        (operationOf operation).documentId ∈ touched) ∧
      ∀ id ∈ touched, ∃ operation ∈ operations, (operationOf operation).documentId = id)
    (hnamed : ∀ operation ∈ operations, (operationOf operation).documentId ∈ documentIds case)
    (hcover : SameMembers (touched.map normalizedIdentity) (index.map normalizedIdentity))
    (hindex : SameMembers rebuilt index) (hfound : ∀ id ∈ rebuilt, id ∈ documentIds case)
    {id : String} (hid : id ∈ documentIds case) :
    id ∈ rebuilt ↔ ∃ operation ∈ operations, (operationOf operation).documentId = id := by
  have hinj := List.inj_on_of_nodup_map hdistinct
  constructor
  · intro hmem
    obtain ⟨t, ht, heq⟩ := List.mem_map.mp
      (hcover.2 _ (List.mem_map_of_mem (hindex.1 id hmem)))
    obtain ⟨operation, hoperation, rfl⟩ := htouched.2 t ht
    exact ⟨operation, hoperation, hinj (hnamed operation hoperation) hid heq⟩
  · rintro ⟨operation, hoperation, rfl⟩
    obtain ⟨j, hj, heq⟩ := List.mem_map.mp
      (hcover.1 _ (List.mem_map_of_mem (htouched.1 operation hoperation).2))
    have hrebuilt := hindex.2 j hj
    rw [← hinj (hfound j hrebuilt) hid heq]
    exact hrebuilt

/-- What the rebuilt documents make of the patched case. -/
lemma withRebuilt_eq_ok {patched proposed : Dict} {rows : List Dict} {context : ArtifactContext}
    (hget : patched.get? "documents" = some (.arr (rows.map .obj)))
    (hids : ∀ doc ∈ rows, doc.get? "document_id" = some (.str (doc.textAt "document_id")))
    (hnodup : (rows.map fun d => d.textAt "document_id").Nodup)
    (h : withRebuilt patched context = .ok proposed) :
    proposed = patched.set "documents"
        (.arr ((rows.map (substituted context.documents)).map .obj)) ∧
      (∀ r ∈ context.documents, r.textAt "document_id" ≠ "") ∧
      (context.documents.map fun d => d.textAt "document_id").Nodup ∧
      SameMembers (context.documents.map fun d => d.textAt "document_id") context.artifactIndex ∧
      ∀ r ∈ context.documents, ∃ row ∈ rows,
        row.textAt "document_id" = r.textAt "document_id" ∧ SameFacts row r := by
  simp only [withRebuilt, bind_eq_ok, Dict.getItem_eq_ok, hget, Option.some.injEq,
    exists_eq_left', documentsById_texts hids hnodup, Except.ok.injEq, exists_unit,
    require_eq_ok] at h
  obtain ⟨⟨hne, hdistinct, -, hmembers⟩, index, hreplace, rfl⟩ := h
  have hdistinct := hdistinct.of_map
  obtain ⟨rfl, hfound⟩ := replaceDocuments_eq_ok hnodup hdistinct hreplace
  refine ⟨?_, fun r hr => hne _ (List.mem_map_of_mem hr), hdistinct, hmembers, hfound⟩
  rw [indexOf, List.map_map, List.map_map, List.map_map]
  rfl

/-- **What a resolution that returns has changed.** -/
theorem resolveCase_eq_ok {case resolved : Dict} {resolutionId : String} {operations : List Json}
    {context : ArtifactContext} (hcase : AcceptedCase case)
    (h : resolveCase case resolutionId operations context = .ok resolved) :
    ResolutionFrame case resolutionId operations context resolved := by
  simp only [resolveCase, requireCovered, bind_eq_ok, exists_unit, require_eq_ok,
    Except.ok.injEq] at h
  obtain ⟨⟨-, touched, htouched, hcover, -⟩, patched, hpatch, proposed, hwith, -, -, rfl⟩ := h
  obtain ⟨hget, haccepted⟩ := hcase.documents
  have hids : ∀ doc ∈ case.rowsAt "documents",
      doc.get? "document_id" = some (.str (doc.textAt "document_id")) :=
    fun doc hdoc => (haccepted.each doc hdoc).id.1
  have hdistinct : ((documentIds case).map normalizedIdentity).Nodup := by
    rw [documentIds, ← map_documentIdOf]
    exact haccepted.distinct
  have hpaths := validatePaths_spec htouched
  have hwrites : ∀ operation ∈ operations, WritesFact operation :=
    fun operation hoperation => (hpaths.1 operation hoperation).1
  obtain ⟨⟨s, rows, rfl, hpatched⟩, hnamed⟩ := applyMutation_patched hget hids hwrites hpatch
  have hrowsGet : (s.case.set "active_mutation" (.str s!"resolution:{resolutionId}")).get? "documents" =
      some (.arr (rows.map .obj)) := by
    rw [Dict.get?_set, if_neg (by decide)]
    exact hpatched.documents
  have hrowIds : ∀ doc ∈ rows, doc.get? "document_id" = some (.str (doc.textAt "document_id")) := by
    intro doc hdoc
    obtain ⟨i, hi⟩ := List.mem_iff_getElem?.mp hdoc
    have hlt : i < (case.rowsAt "documents").length := by
      rw [← hpatched.length]
      exact (List.getElem?_eq_some_iff.mp hi).1
    have hsame := (hpatched.each i _ _ (List.getElem?_eq_getElem hlt) hi).1
    rw [hids _ (List.getElem_mem hlt)] at hsame
    rw [hsame, Dict.textAt_eq hsame]
  have hrowsNodup : (rows.map fun d => d.textAt "document_id").Nodup := by
    rw [hpatched.ids]
    exact hdistinct.of_map
  obtain ⟨rfl, hne, hcontext, hmembers, hfound⟩ :=
    withRebuilt_eq_ok hrowsGet hrowIds hrowsNodup hwith
  have hrebuilt : ∀ id ∈ documentIds case,
      id ∈ context.documents.map (fun d => d.textAt "document_id") ↔
        ∃ operation ∈ operations, (operationOf operation).documentId = id := by
    refine fun id hid => rebuilt_iff_named hdistinct hpaths hnamed hcover hmembers ?_ hid
    intro id hid
    obtain ⟨r, hr, rfl⟩ := List.mem_map.mp hid
    obtain ⟨row, hrow, heq, -⟩ := hfound r hr
    rw [← hpatched.ids, ← heq]
    exact List.mem_map_of_mem hrow
  have hothers : ∀ key, key ∉ ["documents", "active_mutation", "applied_resolution"] →
      (markResolved ((s.case.set "active_mutation" (.str s!"resolution:{resolutionId}")).set "documents"
        (.arr ((rows.map (substituted context.documents)).map .obj))) resolutionId).get? key =
      case.get? key := by
    intro key hkey
    simp only [List.mem_cons, List.not_mem_nil, or_false, not_or] at hkey
    rw [markResolved, Dict.get?_set, if_neg (Ne.symm hkey.2.2), Dict.get?_erase,
      if_neg (Ne.symm hkey.2.1), Dict.get?_set, if_neg (Ne.symm hkey.1), Dict.get?_set,
      if_neg (Ne.symm hkey.2.1)]
    exact hpatched.entries key hkey.1
  refine ⟨hothers "event" (by decide), hothers, ?_, ?_, _, rows,
    rows.map (substituted context.documents), hpatch, hrowsGet, ?_, ?_, fun i before hbefore => ?_⟩
  · rw [markResolved, Dict.get?_set, if_neg (by decide), Dict.get?_erase, if_pos rfl]
  · rw [markResolved, Dict.get?_set, if_pos rfl]
  · rw [markResolved, Dict.get?_set, if_neg (by decide), Dict.get?_erase, if_neg (by decide),
      Dict.get?_set, if_pos rfl]
  · rw [List.length_map]
    exact hpatched.length
  · have hlt : i < rows.length := by
      rw [hpatched.length]
      exact (List.getElem?_eq_some_iff.mp hbefore).1
    have hrow := List.getElem?_eq_getElem hlt
    refine ⟨rows[i], _, hrow, ?_, documentFrame_substituted hpatched hids hdistinct.of_map hwrites
      hne hcontext hfound hrebuilt hbefore hrow⟩
    rw [List.getElem?_map, hrow]
    rfl

/-! ## The objects -/

/-- **A resolution writes into its copy only.** -/
lemma spares_resolveCase {n a : ℕ} {resolutionId : String} {operations : List Json}
    {context : ArtifactContext} :
    Spares n (resolveCaseIn a resolutionId operations context) fun b => n ≤ b := by
  refine spares_bind spares_lift fun _ _ => spares_bind spares_applyMutation fun b hb => ?_
  refine spares_bind spares_readCell fun value _ => spares_bind spares_lift fun patched _ => ?_
  refine spares_bind spares_lift fun proposed _ => ?_
  refine spares_bind (spares_writeCell hb) fun _ _ => spares_bind spares_lift fun _ _ => ?_
  refine spares_bind spares_readCell fun value _ => spares_bind spares_lift fun case _ => ?_
  refine spares_bind spares_lift fun _ _ => ?_
  exact spares_bind (spares_writeCell hb) fun _ _ => spares_pure hb

/-- **The objects follow the values.** -/
lemma computes_resolveCase {cells : List Json} {a : ℕ} {case : Dict} {resolutionId : String}
    {operations : List Json} {context : ArtifactContext} (h : cells[a]? = some (.obj case)) :
    Computes Json.obj (resolveCaseIn a resolutionId operations context) cells
      (resolveCase case resolutionId operations context) := by
  have ha : a < cells.length := (List.getElem?_eq_some_iff.mp h).1
  refine computes_lift fun _ _ => ?_
  refine computes_bind_spared (computes_applyMutation h) spares_applyMutation (le_refl _) ?_
  intro b cells' patched htake hb hcell
  refine computes_read hcell ?_
  rw [gettable, lift_ok_bind]
  refine computes_lift fun proposed _ => computes_write ?_
  have hlt : b < cells'.length := (List.getElem?_eq_some_iff.mp hcell).1
  have hkept : (cells'.set b (.obj proposed))[a]? = some (.obj case) := by
    have htaken := congrArg (fun l : List Json => l[a]?) htake
    simp only [List.getElem?_take_of_lt ha] at htaken
    rw [List.getElem?_set_ne (by omega), htaken, h]
  refine computes_lift fun _ _ => computes_read hkept ?_
  rw [gettable, lift_ok_bind]
  refine computes_lift fun _ _ => computes_write (computes_pure ?_)
  simp [hlt]

/-- **The frame of a resolution.**  Whatever objects there are and whichever validated case among
them is resolved, they are as they were when the resolution returns or raises; and when it returns,
the resolved case has everything but the documents and the two marks from the case, its documents
in their order, those that no operation names as they were, and in the place of the others the
rebuilt documents, which have the facts that the operations make. -/
theorem resolveCase_frame (cells : List Json) (a : Fin cells.length) (resolutionId : String)
    (operations : List Json) (context : ArtifactContext)
    (hcase : validateCase (cells.get a) = .ok ()) :
    (resolveCaseIn a resolutionId operations context cells).2.take cells.length = cells ∧
      ∀ b, (resolveCaseIn a resolutionId operations context cells).1 = .ok b →
        ∃ case resolved, cells.get a = .obj case ∧
          (resolveCaseIn a resolutionId operations context cells).2[b]? = some (.obj resolved) ∧
          ResolutionFrame case resolutionId operations context resolved := by
  refine ⟨spares_resolveCase.unchanged, fun b hb => ?_⟩
  simp only [validateCase, bind_eq_ok, requireDict_eq_ok] at hcase
  obtain ⟨case, hcell, hvalid⟩ := hcase
  have hget : cells[(a : ℕ)]? = some (.obj case) := by simp [← hcell]
  have hcomputes : Computes Json.obj (resolveCaseIn a resolutionId operations context) cells
      (resolveCase case resolutionId operations context) := computes_resolveCase hget
  obtain ⟨resolved, hresolved, hstored⟩ := hcomputes.returns hb
  exact ⟨case, resolved, hcell, hstored, resolveCase_eq_ok (validateCase_accepted hvalid) hresolved⟩

end Resolving

section Ascii

attribute [local instance] asciiUnicode

/-- A step is added, the owner and the revision are new, and a note that is not there is deleted. -/
def changedOperations : List Json :=
  [sampleOperation "fields.process_steps" (.arr [.str "S1", .str "S2"]),
   sampleOperation "owner" (.str "PE"), sampleOperation "revision" (.str "3"),
   .obj <| Dict.ofList
     [("op", .str "delete"), ("document_id", .str "FLOW"), ("path", .str "fields.note")]]

/-- The flow as the lines `process_step_id`, `S1` and `S2` make it. -/
def changedArtifacts : ArtifactContext := sampleArtifacts <|
  flowDocument "3" "PE" "48cda523608d44bb79d036cc85322522b21a804df5c3099580cc991c7e4f4e78" 22
    ["S1", "S2"]

theorem resolveCase_frame_flow : Supersedes changedArtifacts sampleContext.case ∧
    ∃ b case resolved,
      (resolveCaseIn 0 "R-1" changedOperations changedArtifacts [.obj sampleContext.case]).1 =
        .ok b ∧
      Json.obj sampleContext.case = .obj case ∧
      (resolveCaseIn 0 "R-1" changedOperations changedArtifacts [.obj sampleContext.case]).2[b]? =
        some (.obj resolved) ∧
      ResolutionFrame case "R-1" changedOperations changedArtifacts resolved := by
  have hsome : (resolveCaseIn 0 "R-1" changedOperations changedArtifacts
      [.obj sampleContext.case]).1.toOption.isSome = true := by decide +kernel
  obtain ⟨b, hb⟩ := exists_ok_of_isSome hsome
  obtain ⟨case, resolved, hcase, hstored, hframe⟩ :=
    (resolveCase_frame [.obj sampleContext.case] ⟨0, by decide⟩ "R-1" changedOperations
      changedArtifacts (by decide +kernel)).2 b hb
  exact ⟨by decide +kernel, b, case, resolved, hb, hcase, hstored, hframe⟩

end Ascii

end QualityCI

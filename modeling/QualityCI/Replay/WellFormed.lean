import QualityCI.Replay.Application
import QualityCI.Replay.Frame
import QualityCI.Replay.Language

/-!
# Values that stay well-formed

A mutation writes well-formed values into a well-formed case, and a resolution puts well-formed
documents in it.  What they return lists its keys once and in order, so its text can be read back.

* **`applyMutation_wf`** — of a mutation.
* **`resolveCase_wf`**, `resolveCase_accepted` — of a resolution, and that a hash of what it returns
  has validated it.
* `nativeOperationsForApplication_wf` — of the operations of a replay.
-/

namespace QualityCI

open Py

/-! ## Edits -/

lemma loads_wf {mode : LoadMode} {text : String} {v : Json} (h : loads mode text = .ok v) :
    v.WF := by
  rw [loads] at h
  split at h
  · rename_i value hparse
    obtain rfl := Except.ok.inj h
    exact parseText_wf hparse
  · simp at h

lemma dictOf_wf {v : Json} (hv : v.WF) : (Json.obj (v.obj?.getD [])).WF := by
  cases v with
  | obj d => exact hv
  | _ => exact Json.wf_obj.mpr ⟨List.Pairwise.nil, by simp [Json.obj?]⟩

lemma getItem_wf {v inner : Json} {key : String} (hv : v.WF) (h : v.getItem key = .ok inner) :
    inner.WF := by
  cases v with
  | obj d => exact hv.get? (Dict.getItem_eq_ok.mp h)
  | _ => simp [Json.getItem] at h

lemma setItem_wf {item v out : Json} {key : String} (hitem : item.WF) (hv : v.WF)
    (h : setItem item v key = .ok out) : out.WF := by
  cases v with
  | obj d =>
      obtain rfl := Except.ok.inj h
      exact hv.set key hitem
  | _ => simp [setItem] at h

lemma popItem_wf {v out : Json} {key : String} (hv : v.WF) (h : popItem v key = .ok out) :
    out.WF := by
  cases v with
  | obj d =>
      obtain rfl := Except.ok.inj h
      exact hv.erase key
  | _ => simp [popItem] at h

lemma lastOf_wf {o : Option Json} (ho : ∀ value ∈ o, value.WF) {v out : Json} {key : String}
    (hv : v.WF) (h : lastOf o v key = .ok out) : out.WF := by
  cases o with
  | none => exact popItem_wf hv h
  | some value => exact setItem_wf (ho value rfl) hv h

/-- A walk along a path keeps what its last statement keeps. -/
lemma atPath_wf {o : Option Json} (ho : ∀ value ∈ o, value.WF) {parts : List String}
    {v out : Json} (hv : v.WF) (h : atPath (lastOf o) v parts = .ok out) : out.WF := by
  induction parts generalizing v out with
  | nil => simp [atPath] at h
  | cons key rest ih =>
      cases rest with
      | nil => exact lastOf_wf ho hv h
      | cons next rest =>
          simp only [atPath, bind_eq_ok] at h
          obtain ⟨inner, hinner, edited, hedited, hset⟩ := h
          exact setItem_wf (ih (getItem_wf hv hinner) hedited) hv hset

section Applying

variable [PyUnicode]

lemma writeOf_wf {operation : Dict} (hwf : (Json.obj operation).WF) {o : Option Json}
    (h : writeOf operation = .ok o) : ∀ value ∈ o, value.WF := by
  intro value hvalue
  simp only [writeOf] at h
  split_ifs at h with hset hdelete
  rotate_right
  · simp at h
  · cases hget : operation.get? "value" with
    | none => simp [hget] at h
    | some written =>
        rw [hget] at h
        obtain rfl := Except.ok.inj h
        obtain rfl := Option.mem_some.mp hvalue
        exact hwf.get? hget
  · obtain rfl := Except.ok.inj h
    cases hvalue

lemma edit_wf {operation : Dict} (hwf : (Json.obj operation).WF) {path : String}
    {target out : Json} (htarget : target.WF) (h : edit operation path target = .ok out) :
    out.WF := by
  rw [edit_eq, bind_eq_ok] at h
  obtain ⟨o, ho, hedit⟩ := h
  exact atPath_wf (writeOf_wf hwf ho) htarget hedit

/-- The case and the indexed documents are well-formed. -/
structure MutationState.WellFormed (s : MutationState) : Prop where
  case : (Json.obj s.case).WF
  detached : ∀ docs ∈ s.detached, ∀ doc ∈ docs, doc.WF

omit [PyUnicode] in
lemma MutationState.WellFormed.documents {s : MutationState} (h : s.WellFormed) :
    ∀ doc ∈ s.documents, doc.WF := by
  intro doc hdoc
  rw [MutationState.documents] at hdoc
  cases hdetached : s.detached with
  | some docs =>
      rw [hdetached, Option.getD_some] at hdoc
      exact h.detached docs hdetached doc hdoc
  | none =>
      rw [hdetached, Option.getD_none] at hdoc
      cases hget : s.case.get? "documents" with
      | none => simp [hget] at hdoc
      | some v =>
          cases v with
          | arr items =>
              simp only [hget, Option.bind_some, Json.arr?, Option.getD_some] at hdoc
              exact Json.wf_arr.mp (h.case.get? hget) doc hdoc
          | _ => simp [hget, Json.arr?] at hdoc

omit [PyUnicode] in
lemma MutationState.WellFormed.setDocument {s : MutationState} (h : s.WellFormed) (i : ℕ)
    {doc : Json} (hdoc : doc.WF) : (s.setDocument i doc).WellFormed := by
  have hset : ∀ docs : List Json, (∀ d ∈ docs, d.WF) → ∀ d ∈ docs.set i doc, d.WF := by
    intro docs hdocs d hd
    rcases List.mem_or_eq_of_mem_set hd with hd | rfl
    · exact hdocs d hd
    · exact hdoc
  unfold MutationState.setDocument
  cases hdetached : s.detached with
  | some docs =>
      refine ⟨h.case, fun docs' hdocs' => ?_⟩
      obtain rfl := Option.mem_some.mp hdocs'
      exact hset docs (h.detached docs hdetached)
  | none =>
      refine ⟨h.case.set _ (Json.wf_arr.mpr (hset _ h.documents)), fun docs hdocs => ?_⟩
      simp at hdocs

/-- **One operation** keeps the state well-formed. -/
lemma applyDict_wf {keys : List Json} {s s' : MutationState} (hs : s.WellFormed)
    {operation : Dict} (hwf : (Json.obj operation).WF)
    (h : applyDict keys s operation = .ok s') : s'.WellFormed := by
  simp only [applyDict, bind_eq_ok] at h
  obtain ⟨name, -, path, -, h⟩ := h
  split_ifs at h with hevent hcase
  · simp only [bind_eq_ok, Except.ok.injEq] at h
    obtain ⟨event, hget, edited, hedit, rfl⟩ := h
    exact ⟨hs.case.set _ (edit_wf hwf (hs.case.get? (Dict.getItem_eq_ok.mp hget)) hedit),
      hs.detached⟩
  · simp only [bind_eq_ok, Except.ok.injEq] at h
    obtain ⟨edited, hedit, rfl⟩ := h
    have hedited := edit_wf hwf hs.case hedit
    refine ⟨?_, fun docs hdocs => ?_⟩
    · exact dictOf_wf hedited
    · simp only [MutationState.replaceCase] at hdocs
      split_ifs at hdocs
      · obtain rfl := Option.mem_some.mp hdocs
        exact hs.documents
      · exact hs.detached docs hdocs
  · simp only [bind_eq_ok, exists_unit] at h
    obtain ⟨id, -, -, h⟩ := h
    cases hlookup : lookupId keys id with
    | none => simp [hlookup] at h
    | some i =>
        simp only [hlookup, bind_eq_ok, Except.ok.injEq] at h
        obtain ⟨doc, hedit, rfl⟩ := h
        refine hs.setDocument i (edit_wf hwf ?_ hedit)
        rw [List.getD_eq_getElem?_getD]
        cases hget : s.documents[i]? with
        | none => simp [Json.WF]
        | some before => exact hs.documents before (List.mem_of_getElem? hget)

lemma applyOperations_wf {keys : List Json} {operations : List Json} {s s' : MutationState}
    (hs : s.WellFormed) (hwf : ∀ operation ∈ operations, operation.WF)
    (h : applyOperations keys s operations = .ok s') : s'.WellFormed := by
  induction operations generalizing s with
  | nil =>
      obtain rfl := Except.ok.inj h
      exact hs
  | cons operation rest ih =>
      simp only [applyOperations, bind_eq_ok] at h
      obtain ⟨s₁, hstep, hrest⟩ := h
      have hoperation := hwf operation List.mem_cons_self
      cases operation with
      | obj d =>
          refine ih (applyDict_wf hs hoperation hstep) (fun o ho => ?_) hrest
          exact hwf o (List.mem_cons_of_mem _ ho)
      | _ => simp [applyOperation] at hstep

/-- **A mutation** keeps the case well-formed. -/
theorem applyMutation_wf {case mutation mutated : Dict} (hcase : (Json.obj case).WF)
    (hmutation : (Json.obj mutation).WF) (h : applyMutation case mutation = .ok mutated) :
    (Json.obj mutated).WF := by
  simp only [applyMutation, bind_eq_ok, Except.ok.injEq] at h
  obtain ⟨id, -, operations, hoperations, documents, -, keys, -, s, hrun, rfl⟩ := h
  have hlist := (requireBoundedList_eq_ok.mp hoperations).1
  have hitems : ∀ operation ∈ operations, operation.WF := by
    have hget : mutation.get? "operations" = some (.arr operations) :=
      get?_of_getD hlist (by simp)
    exact Json.wf_arr.mp (hmutation.get? hget)
  have hstart : MutationState.WellFormed ⟨case, none⟩ := ⟨hcase, by simp⟩
  exact (applyOperations_wf hstart hitems hrun).case.set _ (Json.wf_str id)

/-! ## The rebuilt documents -/

omit [PyUnicode] in
lemma putDocument_wf {index : DocumentIndex} (hindex : ∀ entry ∈ index, entry.2.WF) (key : Json)
    {document : Json} (hdocument : document.WF) :
    ∀ entry ∈ putDocument index key document, entry.2.WF := by
  induction index with
  | nil => simpa [putDocument] using hdocument
  | cons first rest ih =>
      have hrest : ∀ entry ∈ rest, entry.2.WF := fun e he => hindex e (List.mem_cons_of_mem _ he)
      intro entry hentry
      simp only [putDocument] at hentry
      split_ifs at hentry
      · rcases List.mem_cons.mp hentry with rfl | hin
        · exact hdocument
        · exact hrest entry hin
      · rcases List.mem_cons.mp hentry with rfl | hin
        · exact hindex entry List.mem_cons_self
        · exact ih hrest entry hin

omit [PyUnicode] in
lemma iterate_wf {v : Json} {items : List Json} (hv : v.WF) (h : v.iterate = .ok items) :
    ∀ item ∈ items, item.WF := by
  cases v with
  | arr rows =>
      obtain rfl := Except.ok.inj h
      exact Json.wf_arr.mp hv
  | str s =>
      obtain rfl := Except.ok.inj h
      simp
  | obj d =>
      obtain rfl := Except.ok.inj h
      simp
  | _ => simp [Json.iterate] at h

omit [PyUnicode] in
lemma documentsById_wf {documents : Json} (hdocuments : documents.WF) {index : DocumentIndex}
    (h : documentsById documents = .ok index) : ∀ entry ∈ index, entry.2.WF := by
  simp only [documentsById, bind_eq_ok, Except.ok.injEq] at h
  obtain ⟨items, hitems, keys, hkeys, rfl⟩ := h
  have hwf := iterate_wf hdocuments hitems
  have hfold : ∀ (entries : List (Json × Json)) (index : DocumentIndex),
      (∀ entry ∈ index, entry.2.WF) → (∀ entry ∈ entries, entry.2.WF) →
      ∀ entry ∈ entries.foldl (fun index entry => putDocument index entry.1 entry.2) index,
        entry.2.WF := by
    intro entries
    induction entries with
    | nil => exact fun index hindex _ => hindex
    | cons first rest ih =>
        intro index hindex hentries
        refine ih _ (putDocument_wf hindex _ (hentries first List.mem_cons_self)) ?_
        exact fun e he => hentries e (List.mem_cons_of_mem _ he)
  refine hfold _ [] (by simp) fun entry hentry => ?_
  exact hwf entry.2 (List.of_mem_zip hentry).2

omit [PyUnicode] in
lemma replaceDocuments_wf {rebuilt : List Dict} (hrebuilt : ∀ doc ∈ rebuilt, (Json.obj doc).WF)
    {index index' : DocumentIndex} (hindex : ∀ entry ∈ index, entry.2.WF)
    (h : replaceDocuments index rebuilt = .ok index') : ∀ entry ∈ index', entry.2.WF := by
  induction rebuilt generalizing index with
  | nil =>
      obtain rfl := Except.ok.inj h
      exact hindex
  | cons doc rest ih =>
      simp only [replaceDocuments, bind_eq_ok, replaceDocument] at h
      obtain ⟨index₁, hreplace, hrest⟩ := h
      cases hat : documentAt index (.str (doc.textAt "document_id")) with
      | none => simp [hat] at hreplace
      | some expected =>
          simp only [hat, bind_eq_ok, exists_unit, Except.ok.injEq] at hreplace
          obtain ⟨_, -, -, rfl⟩ := hreplace
          refine ih (fun d hd => hrebuilt d (List.mem_cons_of_mem _ hd)) ?_ hrest
          exact putDocument_wf hindex _ (hrebuilt doc List.mem_cons_self)

/-- **A resolution** keeps the case well-formed, with well-formed documents. -/
theorem resolveCase_wf {case resolved : Dict} {resolutionId : String} {operations : List Json}
    {context : ArtifactContext} (hcase : (Json.obj case).WF)
    (hoperations : ∀ operation ∈ operations, operation.WF)
    (hdocuments : ∀ doc ∈ context.documents, (Json.obj doc).WF)
    (h : resolveCase case resolutionId operations context = .ok resolved) :
    (Json.obj resolved).WF := by
  simp only [resolveCase, withRebuilt, bind_eq_ok, exists_unit, Except.ok.injEq] at h
  obtain ⟨-, patched, hpatch, proposed, ⟨documents, hget, index, hindex, -, index', hreplace, rfl⟩,
    -, -, rfl⟩ := h
  have hmutation : (Json.obj (mutationOf s!"resolution:{resolutionId}" operations)).WF := by
    refine Json.wf_ofList ?_
    simp only [List.forall_mem_cons, List.not_mem_nil, false_implies, implies_true, and_true]
    exact ⟨Json.wf_str _, Json.wf_arr.mpr hoperations⟩
  have hpatched := applyMutation_wf hcase hmutation hpatch
  have hentries := replaceDocuments_wf hdocuments
    (documentsById_wf (hpatched.get? (Dict.getItem_eq_ok.mp hget)) hindex) hreplace
  have hrows : (Json.arr (index'.map Prod.snd)).WF := by
    refine Json.wf_arr.mpr fun doc hdoc => ?_
    obtain ⟨entry, hentry, rfl⟩ := List.mem_map.mp hdoc
    exact hentries entry hentry
  exact ((hpatched.set _ hrows).erase _).set _ (Json.wf_str _)

omit [PyUnicode] in
lemma nativeOperationForApplication_wf {operation applied : Json} (hwf : operation.WF)
    (h : nativeOperationForApplication operation = .ok applied) : applied.WF := by
  simp only [nativeOperationForApplication, bind_eq_ok, Except.ok.injEq] at h
  obtain ⟨op, hop, target, htarget, id, hid, path, hpath, value, hvalue, json, hjson, rfl⟩ := h
  refine Json.wf_ofList ?_
  simp only [List.forall_mem_cons, List.not_mem_nil, false_implies, implies_true, and_true]
  exact ⟨getItem_wf hwf hop, getItem_wf hwf htarget, getItem_wf hwf hid, getItem_wf hwf hpath,
    getItem_wf (getItem_wf hwf hvalue) hjson⟩

/-- The operations that a native replay applies are well-formed. -/
lemma nativeOperationsForApplication_wf {material application : Dict} {operations : Json}
    {items : List Json} (hwf : (Json.obj material).WF)
    (h : nativeOperationsForApplication material = .ok application)
    (hget : application.getItem "operations" = .ok operations)
    (hitems : operations.iterate = .ok items) : ∀ operation ∈ items, operation.WF := by
  simp only [nativeOperationsForApplication, bind_eq_ok, Except.ok.injEq] at h
  obtain ⟨id, -, applied, happlied, recorded, hrecorded, converted, hconverted, rfl⟩ := h
  have hrows := iterate_wf (hwf.get? (Dict.getItem_eq_ok.mp happlied)) hrecorded
  have hread : Dict.get? (Dict.ofList [("mutation_id", Json.str s!"native-replay:{id.toStr}"),
      ("operations", .arr converted)]) "operations" = some (.arr converted) :=
    Dict.get?_ofList_of_mem (by simp) (by simp)
  obtain rfl := Option.some.inj (hread.symm.trans (Dict.getItem_eq_ok.mp hget))
  obtain rfl := Except.ok.inj hitems
  intro operation hoperation
  obtain ⟨row, hrow, hfrom⟩ := mapEach_exists hconverted hoperation
  exact nativeOperationForApplication_wf (hrows row hrow) hfrom

/-- A resolved case that has a hash has been validated. -/
lemma resolveCase_accepted {case resolved : Dict} {resolutionId hash : String}
    {operations : List Json} {context : ArtifactContext}
    (h : resolveCase case resolutionId operations context = .ok resolved)
    (hhash : canonicalHash (.obj resolved) = .ok hash) : validateCaseDict resolved = .ok () := by
  simp only [resolveCase, bind_eq_ok, exists_unit, Except.ok.injEq] at h
  obtain ⟨-, patched, -, proposed, -, hvalid, -, rfl⟩ := h
  have haccepted := validateCase_accepted hvalid
  have hkept : ∀ key, key ≠ "active_mutation" → key ≠ "applied_resolution" →
      (markResolved proposed resolutionId).get? key = proposed.get? key := by
    intro key hactive happlied
    rw [markResolved, Dict.get?_set, if_neg (Ne.symm happlied), Dict.get?_erase,
      if_neg (Ne.symm hactive)]
  have hversion := hkept "schema_version" (by decide) (by decide)
  have hevent := hkept "event" (by decide) (by decide)
  have hdocuments := hkept "documents" (by decide) (by decide)
  rw [haccepted.version] at hversion
  rw [haccepted.event] at hevent
  rw [haccepted.documents.1] at hdocuments
  simp only [canonicalHash, hashedValue, hashedDict, hversion, hevent, hdocuments, ↓reduceIte,
    bind_eq_ok, exists_unit] at hhash
  obtain ⟨_, ⟨hresolved, -⟩, -⟩ := hhash
  exact hresolved

end Applying

end QualityCI

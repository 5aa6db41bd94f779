import QualityCI.Loader.Composition
import QualityCI.Loader.ErrorContract
import QualityCI.Replay.Operations

/-!
# What operations make of the documents

A resolution applies its operations to a copy of the case, and puts rebuilt documents in the place
of documents with their identities.  Here the list of operations is whatever JSON holds, and the
case is an object in memory: the copy is written to operation by operation.

* `documentsById`, `replaceDocument` — the dictionary of documents, and one of them replaced.
* `applyMutationIn` — the mutation of an object in memory.
* `Patched` — the documents while the operations run; `patched_step`, `patched_run`.
* `replaceDocuments_eq_ok` — the rebuilt documents stand where the documents with their identities
  stood.
* `DocumentFrame` — what becomes of one document.
-/

namespace QualityCI

open Py

/-! ## The documents by identity -/

/-- The documents of a case under their identities, in the order of insertion. -/
abbrev DocumentIndex := List (Json × Json)

/-- `index.get(key)`. -/
def documentAt (index : DocumentIndex) (key : Json) : Option Json :=
  (index.find? fun entry => sameKey entry.1 key).map Prod.snd

/-- `index[key] = document`. -/
def putDocument : DocumentIndex → Json → Json → DocumentIndex
  | [], key, document => [(key, document)]
  | entry :: rest, key, document =>
      if sameKey entry.1 key = true then (entry.1, document) :: rest
      else entry :: putDocument rest key document

/-- `{item["document_id"]: item for item in documents}`. -/
def documentsById (documents : Json) : Result DocumentIndex := do
  let items ← documents.iterate
  let keys ← mapEach indexKey items
  .ok ((keys.zip items).foldl (fun index entry => putDocument index entry.1 entry.2) [])

/-- One rebuilt document, in the loop of `resolve_case_from_artifact_context`. -/
def replaceDocument (index : DocumentIndex) (rebuilt : Dict) : Result DocumentIndex :=
  let id := rebuilt.textAt "document_id"
  let message := s!"rebuilt artifact facts differ from approved patch for {id}"
  match documentAt index (.str id) with
  | some expected => do
      let expected ← gettable expected
      require (∀ key ∈ factKeys,
        pyEq (expected.getD key .null) (rebuilt.getD key .null) = true) message
      .ok (putDocument index (.str id) (.obj rebuilt))
  | none => valueError message

/-- The loop. -/
def replaceDocuments : DocumentIndex → List Dict → Result DocumentIndex
  | index, [] => .ok index
  | index, rebuilt :: rest => do
      let index ← replaceDocument index rebuilt
      replaceDocuments index rest

/-! ## A mutation in memory -/

section Memory

variable [PyUnicode]

open Action

/-- The loop of `apply_mutation`, which writes to the copy in cell `b`. -/
def applyOperationsIn (b : ℕ) (keys : List Json) :
    MutationState → List Json → Action Json MutationState
  | s, [] => pure s
  | s, operation :: rest => do
      let s ← lift (applyOperation keys s operation)
      writeCell b (.obj s.case)
      applyOperationsIn b keys s rest

/-- `apply_mutation` of the object in a cell: the cell of the mutated copy. -/
def applyMutationIn (a : ℕ) (mutation : Dict) : Action Json ℕ := do
  let id ← lift (mutationId mutation)
  let operations ← lift (requireBoundedList (mutation.getD "operations" .null)
    "mutation operations" maxMutationOperations)
  let b ← deepcopy a
  let value ← readCell b
  let case ← lift (gettable value)
  let documents ← lift (case.getItem "documents")
  let keys ← lift (indexKeys documents)
  let s ← applyOperationsIn b keys ⟨case, none⟩ operations
  writeCell b (.obj (s.case.set "active_mutation" (.str id)))
  pure b

lemma spares_applyOperations {n b : ℕ} (hb : n ≤ b) (keys : List Json) (operations : List Json)
    (s : MutationState) : Spares n (applyOperationsIn b keys s operations) fun _ => True := by
  induction operations generalizing s with
  | nil => exact spares_pure trivial
  | cons operation rest ih =>
      refine spares_bind spares_lift fun s _ => ?_
      exact spares_bind (spares_writeCell hb) fun _ _ => ih s

/-- A mutation writes into its copy only. -/
lemma spares_applyMutation {n a : ℕ} {mutation : Dict} :
    Spares n (applyMutationIn a mutation) fun b => n ≤ b := by
  refine spares_bind spares_lift fun id _ => spares_bind spares_lift fun operations _ => ?_
  refine spares_bind spares_deepcopy fun b hb => spares_bind spares_readCell fun value _ => ?_
  refine spares_bind spares_lift fun case _ => spares_bind spares_lift fun documents _ => ?_
  refine spares_bind spares_lift fun keys _ => ?_
  refine spares_bind (spares_applyOperations hb keys operations ⟨case, none⟩) fun s _ => ?_
  exact spares_bind (spares_writeCell hb) fun _ _ => spares_pure hb

/-- The loop keeps the case of its state in the cell. -/
lemma computes_applyOperations {b : ℕ} {keys operations : List Json} {s : MutationState}
    {cells : List Json} {f : MutationState → Action Json ℕ} {g : MutationState → Result Dict}
    (h : cells[b]? = some (.obj s.case))
    (hf : ∀ s' cells', cells'[b]? = some (.obj s'.case) → Computes Json.obj (f s') cells' (g s')) :
    Computes Json.obj (applyOperationsIn b keys s operations >>= f) cells
      (applyOperations keys s operations >>= g) := by
  induction operations generalizing s cells with
  | nil => exact hf s cells h
  | cons operation rest ih =>
      rw [applyOperationsIn, applyOperations, bind_bind, bind_assoc]
      refine computes_lift fun s' _ => ?_
      rw [bind_bind]
      refine computes_write (ih ?_)
      have hlt : b < cells.length := (List.getElem?_eq_some_iff.mp h).1
      simp [hlt]

lemma computes_applyMutation {cells : List Json} {a : ℕ} {case mutation : Dict}
    (h : cells[a]? = some (.obj case)) :
    Computes Json.obj (applyMutationIn a mutation) cells (applyMutation case mutation) := by
  refine computes_lift fun id _ => computes_lift fun operations _ => ?_
  refine computes_deepcopy_bind h fun b cells' hb => computes_read hb ?_
  rw [gettable, lift_ok_bind]
  refine computes_lift fun documents _ => computes_lift fun keys _ => ?_
  refine computes_applyOperations hb fun s cells' hs => computes_write (computes_pure ?_)
  have hlt : b < cells'.length := (List.getElem?_eq_some_iff.mp hs).1
  simp [hlt]

end Memory

/-! ## What becomes of a document -/

/-- An operation names the document. -/
def NamesDocument (operations : List Json) (document : Dict) : Prop :=
  ∃ operation : Dict, .obj operation ∈ operations ∧
    operation.get? "document_id" = document.get? "document_id"

/-- What a resolution makes of a document, from what its operations make of it. -/
structure DocumentFrame (operations : List Json) (context : ArtifactContext)
    (before patched after : Dict) : Prop where
  id : after.get? "document_id" = before.get? "document_id"
  unnamed : ¬NamesDocument operations before → after = before
  rebuilt : NamesDocument operations before → after ∈ context.documents ∧
    (∀ document ∈ context.documents,
      document.get? "document_id" = before.get? "document_id" → document = after) ∧
    ∀ key ∈ factKeys, pyEq (patched.getD key .null) (after.getD key .null) = true

/-! ## The operations -/

/-- The operation writes to a fact of a document. -/
structure WritesFact (operation : Json) : Prop where
  dict : operation.isDict = true
  target : (operation.obj?.getD []).getD "target" (.str "document") = .str "document"
  named : isBlank (operationOf operation).documentId = false
  root : (segments (operationOf operation).path).headD "" ∈ allowedFactRoots

/-- The case after some of the operations, with its documents. -/
structure Patched (operations : List Json) (case : Dict) (s : MutationState) (rows : List Dict) :
    Prop where
  attached : s.detached = none
  entries : ∀ key, key ≠ "documents" → s.case.get? key = case.get? key
  documents : s.case.get? "documents" = some (.arr (rows.map .obj))
  length : rows.length = (case.rowsAt "documents").length
  each : ∀ (i : ℕ) (before after : Dict), (case.rowsAt "documents")[i]? = some before →
    rows[i]? = some after →
    after.get? "document_id" = before.get? "document_id" ∧
      (¬NamesDocument operations before → after = before)

/-- The identities of the documents of a case. -/
def documentIds (case : Dict) : List String :=
  (case.rowsAt "documents").map fun doc => doc.textAt "document_id"

/-- Only a text is the same key as a text. -/
lemma sameKey_str {t : String} {v : Json} : sameKey (.str t) v = true ↔ v = .str t := by
  cases v with
  | str s => simp [sameKey, numberOf, eq_comm]
  | float x => cases x <;> simp [sameKey, numberOf]
  | _ => simp [sameKey, numberOf]

/-- An identity that is found is one of those there are. -/
lemma lookupId_texts {ids : List String} {id : Json} {i : ℕ}
    (h : lookupId (ids.map .str) id = some i) : ∃ t, ids[i]? = some t ∧ id = .str t := by
  induction ids generalizing i with
  | nil => simp [lookupId] at h
  | cons t rest ih =>
      rw [List.map_cons, lookupId] at h
      cases hrest : lookupId (rest.map .str) id with
      | some j =>
          rw [hrest] at h
          obtain rfl := Option.some.inj h
          simpa using ih hrest
      | none =>
          simp only [hrest] at h
          split_ifs at h with hsame
          obtain rfl := Option.some.inj h
          exact ⟨t, rfl, sameKey_str.mp hsame⟩

lemma mutationPath_get {operation : Dict} {path : String}
    (h : mutationPath operation = .ok path) : operation.get? "path" = some (.str path) := by
  unfold mutationPath at h
  split at h
  · rename_i p hget
    split_ifs at h
    · exact absurd h valueError_ne_ok
    · obtain rfl := Except.ok.inj h
      exact hget
  · exact absurd h valueError_ne_ok

/-- The keys of documents with texts for identities. -/
lemma indexKeys_texts {rows : List Dict}
    (hids : ∀ doc ∈ rows, doc.get? "document_id" = some (.str (doc.textAt "document_id"))) :
    indexKeys (.arr (rows.map .obj)) =
      .ok (rows.map fun doc => .str (doc.textAt "document_id")) := by
  have hkey : ∀ v ∈ rows.map Json.obj,
      indexKey v = .ok (.str ((v.obj?.getD []).textAt "document_id")) := by
    intro v hv
    obtain ⟨doc, hdoc, rfl⟩ := List.mem_map.mp hv
    rw [indexKey, Json.getItem, Dict.getItem_eq_ok.mpr (hids doc hdoc)]
    rfl
  rw [indexKeys, Json.iterate, ok_bind, mapEach_map hkey, List.map_map]
  rfl

lemma get?_of_textAt_ne {d : Dict} {key : String} (h : d.textAt key ≠ "") :
    d.get? key = some (.str (d.textAt key)) := by
  unfold Dict.textAt at h ⊢
  cases hget : d.get? key with
  | none => simp [hget, Json.str?] at h
  | some v => cases v <;> simp_all [Json.str?]

/-- The documents that the operations have patched keep their identities. -/
lemma Patched.ids {operations : List Json} {case : Dict} {s : MutationState} {rows : List Dict}
    (h : Patched operations case s rows) :
    rows.map (fun d => d.textAt "document_id") = documentIds case := by
  refine List.ext_getElem (by simp [documentIds, h.length]) fun i hi hi' => ?_
  rw [List.length_map] at hi
  rw [documentIds, List.length_map] at hi'
  have hid := (h.each i _ _ (List.getElem?_eq_getElem hi') (List.getElem?_eq_getElem hi)).1
  simp only [documentIds, List.getElem_map]
  rw [Dict.textAt, hid]
  rfl

section Applying

variable [PyUnicode]

/-- **One operation** changes a fact of a document that it names. -/
theorem patched_step {operations : List Json} {case : Dict} {s s' : MutationState}
    {rows : List Dict} (h : Patched operations case s rows)
    (hids : ∀ doc ∈ case.rowsAt "documents",
      doc.get? "document_id" = some (.str (doc.textAt "document_id")))
    {operation : Json} (hmem : operation ∈ operations) (hwrites : WritesFact operation)
    (hstep : applyOperation ((documentIds case).map .str) s operation = .ok s') :
    (∃ rows', Patched operations case s' rows') ∧
      (operationOf operation).documentId ∈ documentIds case := by
  obtain ⟨d, rfl⟩ := Json.isDict_iff.mp hwrites.dict
  have htarget : mutationTarget d = .ok "document" := by
    have hget : Dict.getD d "target" (.str "document") = .str "document" := hwrites.target
    rw [mutationTarget, hget]
    rfl
  cases applyDict_eq_ok.mp hstep with
  | event path event event' hevent => simp [htarget] at hevent
  | case path case' hcase => simp [htarget] at hcase
  | document path id i doc _ hpath hid hhash hlookup hedit =>
      obtain ⟨t, ht, rfl⟩ := lookupId_texts hlookup
      have htext : (operationOf (.obj d)).documentId = t := Dict.textAt_eq hid
      rw [documentIds, List.getElem?_map, Option.map_eq_some_iff] at ht
      obtain ⟨before, hbefore, hbid⟩ := ht
      have hin : before ∈ case.rowsAt "documents" := List.mem_of_getElem? hbefore
      have hbget : before.get? "document_id" = some (.str t) := by rw [hids before hin, hbid]
      have hlt : i < rows.length := by
        rw [h.length]
        exact (List.getElem?_eq_some_iff.mp hbefore).1
      have hdocuments : s.documents = rows.map .obj := by
        rw [MutationState.documents, h.attached, h.documents]
        rfl
      have hdoc : s.documents.getD i .null = .obj rows[i] := by
        rw [hdocuments, List.getD_eq_getElem?_getD, List.getElem?_map,
          List.getElem?_eq_getElem hlt]
        rfl
      rw [hdoc] at hedit
      obtain ⟨o, key, rest, entry, -, hsegments, -, rfl⟩ := (edit_obj hpath).mp hedit
      have hkey : key ≠ "document_id" := by
        have hroot := hwrites.root
        have hpathOf : (operationOf (.obj d)).path = path := Dict.textAt_eq (mutationPath_get hpath)
        rw [hpathOf, hsegments, List.headD_cons] at hroot
        rintro rfl
        exact absurd hroot (by decide)
      have hstate : s.setDocument i (.obj (put rows[i] key entry)) =
          ⟨s.case.set "documents" (.arr ((rows.set i (put rows[i] key entry)).map .obj)), none⟩ := by
        simp only [MutationState.setDocument, h.attached, hdocuments, List.map_set]
      refine ⟨⟨rows.set i (put rows[i] key entry), ?_⟩, ?_⟩
      · rw [hstate]
        refine ⟨rfl, fun k hk => ?_, ?_, ?_, fun j before' after' hb ha => ?_⟩
        · rw [Dict.get?_set, if_neg (Ne.symm hk)]
          exact h.entries k hk
        · rw [Dict.get?_set, if_pos rfl]
        · rw [List.length_set]
          exact h.length
        · rw [List.getElem?_set] at ha
          split_ifs at ha with hij
          · subst hij
            obtain rfl := Option.some.inj (hbefore.symm.trans hb)
            obtain rfl := Option.some.inj ha
            refine ⟨?_, fun hnot => absurd ⟨d, hmem, hid.trans hbget.symm⟩ hnot⟩
            rw [get?_put, if_neg hkey]
            exact (h.each i before rows[i] hbefore (List.getElem?_eq_getElem hlt)).1
          · exact h.each j before' after' hb ha
      · rw [htext, ← hbid]
        exact List.mem_map_of_mem hin

/-- **The operations**, one after the other. -/
theorem patched_run {operations : List Json} {case : Dict}
    (hids : ∀ doc ∈ case.rowsAt "documents",
      doc.get? "document_id" = some (.str (doc.textAt "document_id")))
    {rest : List Json} (hrest : ∀ operation ∈ rest, operation ∈ operations ∧ WritesFact operation)
    {s s' : MutationState} {rows : List Dict} (h : Patched operations case s rows)
    (hrun : applyOperations ((documentIds case).map .str) s rest = .ok s') :
    (∃ rows', Patched operations case s' rows') ∧
      ∀ operation ∈ rest, (operationOf operation).documentId ∈ documentIds case := by
  induction rest generalizing s rows with
  | nil =>
      obtain rfl := Except.ok.inj hrun
      exact ⟨⟨rows, h⟩, by simp⟩
  | cons operation rest ih =>
      simp only [applyOperations, bind_eq_ok] at hrun
      obtain ⟨s₁, hstep, hrun⟩ := hrun
      obtain ⟨⟨hmem, hwrites⟩, hrest⟩ := List.forall_mem_cons.mp hrest
      obtain ⟨⟨rows₁, hpatched⟩, hnamed⟩ := patched_step h hids hmem hwrites hstep
      obtain ⟨hend, hall⟩ := ih hrest hpatched hrun
      exact ⟨hend, List.forall_mem_cons.mpr ⟨hnamed, hall⟩⟩

/-- **The operations of a mutation** that writes to facts of documents only. -/
lemma applyMutation_patched {case patched : Dict} {id : String} {operations : List Json}
    (hget : case.get? "documents" = some (.arr ((case.rowsAt "documents").map .obj)))
    (hids : ∀ doc ∈ case.rowsAt "documents",
      doc.get? "document_id" = some (.str (doc.textAt "document_id")))
    (hwrites : ∀ operation ∈ operations, WritesFact operation)
    (h : applyMutation case (mutationOf id operations) = .ok patched) :
    (∃ s rows, patched = s.case.set "active_mutation" (.str id) ∧
      Patched operations case s rows) ∧
      ∀ operation ∈ operations, (operationOf operation).documentId ∈ documentIds case := by
  obtain ⟨-, -, documents, keys, s, hdocuments, hkeys, hrun, rfl⟩ := applyMutation_eq_ok.mp h
  obtain rfl := Option.some.inj (hget.symm.trans hdocuments)
  obtain rfl := Except.ok.inj ((indexKeys_texts hids).symm.trans hkeys)
  have hstart : Patched operations case ⟨case, none⟩ (case.rowsAt "documents") := by
    refine ⟨rfl, fun _ _ => rfl, hget, rfl, fun i before after hb ha => ?_⟩
    obtain rfl := Option.some.inj (hb.symm.trans ha)
    exact ⟨rfl, fun _ => rfl⟩
  have hkeys : (documentIds case).map Json.str =
      (case.rowsAt "documents").map fun doc : Dict => .str (doc.textAt "document_id") := by
    rw [documentIds, List.map_map]
    rfl
  rw [← hkeys] at hrun
  obtain ⟨⟨rows, hpatched⟩, hall⟩ := patched_run hids (fun o ho => ⟨ho, hwrites o ho⟩) hstart hrun
  exact ⟨⟨s, rows, rfl, hpatched⟩, hall⟩

end Applying

/-! ## The rebuilt documents -/

/-- The index of documents with distinct texts for identities. -/
def indexOf (rows : List Dict) : DocumentIndex :=
  rows.map fun (doc : Dict) => (.str (doc.textAt "document_id"), .obj doc)

/-- The rebuilt document in the place of a document, where there is one. -/
def substituted (rebuilt : List Dict) (doc : Dict) : Dict :=
  (rebuilt.find? fun d => d.textAt "document_id" = doc.textAt "document_id").getD doc

/-- The facts agree. -/
def SameFacts (doc rebuilt : Dict) : Prop :=
  ∀ key ∈ factKeys, pyEq (doc.getD key .null) (rebuilt.getD key .null) = true

section Index

variable {rows : List Dict}

lemma putDocument_fresh {doc : Dict}
    (h : doc.textAt "document_id" ∉ rows.map fun d => d.textAt "document_id") :
    putDocument (indexOf rows) (.str (doc.textAt "document_id")) (.obj doc) =
      indexOf (rows ++ [doc]) := by
  induction rows with
  | nil => rfl
  | cons row rest ih =>
      rw [List.map_cons, List.mem_cons, not_or] at h
      have hnot : ¬sameKey (.str (row.textAt "document_id"))
          (.str (doc.textAt "document_id")) = true := by
        rw [sameKey_str, Json.str.injEq]
        exact h.1
      simp only [indexOf, List.map_cons, putDocument, if_neg hnot, List.cons_append,
        List.cons.injEq, true_and]
      exact ih h.2

/-- **The dictionary of documents** with distinct texts for identities. -/
lemma documentsById_texts
    (hids : ∀ doc ∈ rows, doc.get? "document_id" = some (.str (doc.textAt "document_id")))
    (hnodup : (rows.map fun d => d.textAt "document_id").Nodup) :
    documentsById (.arr (rows.map .obj)) = .ok (indexOf rows) := by
  have hfold : ∀ before after : List Dict,
      ((before ++ after).map fun d => d.textAt "document_id").Nodup →
      (indexOf after).foldl (fun index entry => putDocument index entry.1 entry.2)
        (indexOf before) = indexOf (before ++ after) := by
    intro before after
    induction after generalizing before with
    | nil => simp [indexOf]
    | cons doc rest ih =>
        intro hnodup
        have hfresh : doc.textAt "document_id" ∉ before.map fun d => d.textAt "document_id" := by
          rw [List.map_append, List.nodup_append] at hnodup
          exact fun hmem => hnodup.2.2 _ hmem _ List.mem_cons_self rfl
        rw [List.append_cons] at hnodup ⊢
        rw [← ih (before ++ [doc]) hnodup, ← putDocument_fresh hfresh]
        rfl
  have hkeys := indexKeys_texts hids
  rw [indexKeys, Json.iterate, ok_bind] at hkeys
  rw [documentsById, Json.iterate, ok_bind, hkeys, ok_bind, List.zip_map', Except.ok.injEq]
  exact hfold [] rows hnodup

lemma documentAt_indexOf (t : String) : documentAt (indexOf rows) (.str t) =
    (rows.find? fun d => d.textAt "document_id" = t).map .obj := by
  induction rows with
  | nil => rfl
  | cons row rest ih =>
      rw [documentAt, indexOf, List.map_cons, List.find?_cons, List.find?_cons]
      by_cases heq : row.textAt "document_id" = t
      · have hsame : sameKey (.str t) (.str t) = true := sameKey_str.mpr rfl
        simp only [heq, hsame, decide_true, Option.map_some]
      · have hnot : sameKey (.str (row.textAt "document_id")) (.str t) = false := by
          rw [Bool.eq_false_iff, ne_eq, sameKey_str, Json.str.injEq]
          exact fun h => heq h.symm
        simp only [hnot, heq, decide_false]
        exact ih

lemma substituted_id (rebuilt : List Dict) (doc : Dict) :
    (substituted rebuilt doc).textAt "document_id" = doc.textAt "document_id" := by
  unfold substituted
  cases hfind : rebuilt.find? fun d => d.textAt "document_id" = doc.textAt "document_id" with
  | none => rfl
  | some r => simpa using List.find?_some hfind

lemma substituted_of_notMem {rebuilt : List Dict} {doc : Dict}
    (h : doc.textAt "document_id" ∉ rebuilt.map fun d => d.textAt "document_id") :
    substituted rebuilt doc = doc := by
  have hnone : (rebuilt.find? fun d => d.textAt "document_id" = doc.textAt "document_id") =
      none := by
    refine List.find?_eq_none.mpr fun d hd => ?_
    rw [decide_eq_true_eq]
    exact fun heq => h (heq ▸ List.mem_map_of_mem hd)
  rw [substituted, hnone, Option.getD_none]

lemma substituted_cons (r : Dict) (rest : List Dict) (doc : Dict) :
    substituted (r :: rest) doc =
      if r.textAt "document_id" = doc.textAt "document_id" then r else substituted rest doc := by
  unfold substituted
  rw [List.find?_cons]
  by_cases heq : r.textAt "document_id" = doc.textAt "document_id"
  · simp [heq]
  · simp [heq]

/-- Putting a rebuilt document replaces the one document with its identity. -/
lemma putDocument_indexOf {r : Dict} (hnodup : (rows.map fun d => d.textAt "document_id").Nodup)
    (hmem : r.textAt "document_id" ∈ rows.map fun d => d.textAt "document_id") :
    putDocument (indexOf rows) (.str (r.textAt "document_id")) (.obj r) =
      indexOf (rows.map (substituted [r])) := by
  induction rows with
  | nil => exact absurd hmem List.not_mem_nil
  | cons row rest ih =>
      rw [List.map_cons, List.nodup_cons] at hnodup
      by_cases heq : r.textAt "document_id" = row.textAt "document_id"
      · have hsame : sameKey (.str (row.textAt "document_id")) (.str (row.textAt "document_id")) =
            true := sameKey_str.mpr rfl
        have hrest : rest.map (substituted [r]) = rest := by
          refine (List.map_congr_left fun doc hdoc => ?_).trans (List.map_id rest)
          refine substituted_of_notMem fun hin => hnodup.1 ?_
          rw [List.map_singleton, List.mem_singleton] at hin
          rw [← heq, ← hin]
          exact List.mem_map_of_mem hdoc
        simp only [indexOf, List.map_cons, putDocument, hrest, substituted_cons, heq, hsame,
          if_true]
      · have hnot : ¬sameKey (.str (row.textAt "document_id")) (.str (r.textAt "document_id")) =
            true := by
          rw [sameKey_str, Json.str.injEq]
          exact heq
        rw [List.map_cons, List.mem_cons] at hmem
        have hih := ih hnodup.2 (hmem.resolve_left heq)
        simp only [indexOf, List.map_cons, putDocument, if_neg hnot, substituted_cons,
          if_neg heq, List.cons.injEq] at hih ⊢
        exact ⟨rfl, hih⟩

lemma replaceDocument_eq_ok {r : Dict} {index : DocumentIndex}
    (hnodup : (rows.map fun d => d.textAt "document_id").Nodup)
    (h : replaceDocument (indexOf rows) r = .ok index) :
    index = indexOf (rows.map (substituted [r])) ∧
      ∃ row ∈ rows, row.textAt "document_id" = r.textAt "document_id" ∧ SameFacts row r := by
  simp only [replaceDocument, documentAt_indexOf] at h
  cases hfind : rows.find? fun d => d.textAt "document_id" = r.textAt "document_id" with
  | none => simp [hfind] at h
  | some row =>
      simp only [hfind, Option.map_some, gettable, bind_eq_ok, Except.ok.injEq, exists_eq_left',
        exists_unit, require_eq_ok] at h
      obtain ⟨hfacts, rfl⟩ := h
      have hrow : row ∈ rows := List.mem_of_find?_eq_some hfind
      have hid : row.textAt "document_id" = r.textAt "document_id" := by
        simpa using List.find?_some hfind
      refine ⟨putDocument_indexOf hnodup ?_, row, hrow, hid, hfacts⟩
      rw [← hid]
      exact List.mem_map_of_mem hrow

/-- **The rebuilt documents** take the places of the documents with their identities, whose facts
they have. -/
theorem replaceDocuments_eq_ok {rebuilt : List Dict} {index : DocumentIndex}
    (hnodup : (rows.map fun d => d.textAt "document_id").Nodup)
    (hdistinct : (rebuilt.map fun d => d.textAt "document_id").Nodup)
    (h : replaceDocuments (indexOf rows) rebuilt = .ok index) :
    index = indexOf (rows.map (substituted rebuilt)) ∧
      ∀ r ∈ rebuilt, ∃ row ∈ rows,
        row.textAt "document_id" = r.textAt "document_id" ∧ SameFacts row r := by
  induction rebuilt generalizing rows with
  | nil =>
      obtain rfl := Except.ok.inj h
      have hnone : rows.map (substituted []) = rows :=
        (List.map_congr_left fun _ _ => rfl).trans (List.map_id rows)
      exact ⟨by rw [hnone], by simp⟩
  | cons r rest ih =>
      simp only [replaceDocuments, bind_eq_ok] at h
      obtain ⟨index₁, hstep, hrest⟩ := h
      obtain ⟨rfl, hfound⟩ := replaceDocument_eq_ok hnodup hstep
      rw [List.map_cons, List.nodup_cons] at hdistinct
      have hids : ((rows.map (substituted [r])).map fun d => d.textAt "document_id") =
          rows.map fun d => d.textAt "document_id" := by
        rw [List.map_map]
        exact List.map_congr_left fun doc _ => substituted_id [r] doc
      obtain ⟨rfl, hothers⟩ := ih (hids ▸ hnodup) hdistinct.2 hrest
      constructor
      · rw [List.map_map]
        refine congrArg indexOf (List.map_congr_left fun doc _ => ?_)
        rw [Function.comp_apply, substituted_cons, substituted_cons]
        split_ifs with heq
        · exact substituted_of_notMem hdistinct.1
        · rfl
      · refine List.forall_mem_cons.mpr ⟨hfound, fun r' hr' => ?_⟩
        obtain ⟨row', hrow', hid, hfacts⟩ := hothers r' hr'
        obtain ⟨row, hrow, rfl⟩ := List.mem_map.mp hrow'
        rw [substituted_cons] at hid hfacts
        split_ifs at hid hfacts with heq
        · exact absurd (hid ▸ List.mem_map_of_mem hr') hdistinct.1
        · exact ⟨row, hrow, hid, hfacts⟩

end Index

/-- **One document**, the rebuilt documents being those that the operations name. -/
lemma documentFrame_substituted {operations : List Json} {case : Dict} {s : MutationState}
    {rows : List Dict} {context : ArtifactContext} (h : Patched operations case s rows)
    (hids : ∀ doc ∈ case.rowsAt "documents",
      doc.get? "document_id" = some (.str (doc.textAt "document_id")))
    (hnodup : (documentIds case).Nodup)
    (hwrites : ∀ operation ∈ operations, WritesFact operation)
    (hne : ∀ r ∈ context.documents, r.textAt "document_id" ≠ "")
    (hdistinct : (context.documents.map fun d => d.textAt "document_id").Nodup)
    (hfound : ∀ r ∈ context.documents, ∃ row ∈ rows,
      row.textAt "document_id" = r.textAt "document_id" ∧ SameFacts row r)
    (hrebuilt : ∀ id ∈ documentIds case,
      id ∈ context.documents.map (fun d => d.textAt "document_id") ↔
        ∃ operation ∈ operations, (operationOf operation).documentId = id)
    {i : ℕ} {before row : Dict} (hbefore : (case.rowsAt "documents")[i]? = some before)
    (hrow : rows[i]? = some row) :
    DocumentFrame operations context before row (substituted context.documents row) := by
  have hin : before ∈ case.rowsAt "documents" := List.mem_of_getElem? hbefore
  have hbget := hids before hin
  obtain ⟨hrowid, hsame⟩ := h.each i before row hbefore hrow
  have hrowtext : row.textAt "document_id" = before.textAt "document_id" := by
    rw [Dict.textAt, hrowid]
    rfl
  have hnamed : NamesDocument operations before ↔
      ∃ operation ∈ operations, (operationOf operation).documentId = before.textAt "document_id" := by
    constructor
    · rintro ⟨operation, hmem, hid⟩
      exact ⟨_, hmem, Dict.textAt_eq (hid.trans hbget)⟩
    · rintro ⟨operation, hmem, hid⟩
      obtain ⟨d, rfl⟩ := Json.isDict_iff.mp (hwrites operation hmem).dict
      have hblank : Dict.textAt d "document_id" ≠ "" := by
        intro hempty
        have hnamed := (hwrites _ hmem).named
        rw [show (operationOf (.obj d)).documentId = "" from hempty] at hnamed
        exact absurd hnamed (by decide)
      refine ⟨d, hmem, ?_⟩
      rw [get?_of_textAt_ne hblank, hbget]
      exact congrArg (fun t => some (Json.str t)) hid
  have hiff := hrebuilt _ (List.mem_map_of_mem hin)
  by_cases hname : NamesDocument operations before
  · obtain ⟨r, hr, hrid⟩ := List.mem_map.mp (hiff.mpr (hnamed.mp hname))
    have hafter : substituted context.documents row = r := by
      have hsome : (context.documents.find? fun d =>
          d.textAt "document_id" = row.textAt "document_id").isSome = true := by
        rw [List.find?_isSome]
        exact ⟨r, hr, by simp [hrid, hrowtext]⟩
      obtain ⟨r', hfind⟩ := Option.isSome_iff_exists.mp hsome
      have hid' : r'.textAt "document_id" = row.textAt "document_id" := by
        simpa using List.find?_some hfind
      rw [substituted, hfind, Option.getD_some]
      refine List.inj_on_of_nodup_map hdistinct (List.mem_of_find?_eq_some hfind) hr ?_
      rw [hid', hrowtext, hrid]
    have hrget : r.get? "document_id" = before.get? "document_id" := by
      rw [get?_of_textAt_ne (hne r hr), hrid, hbget]
    obtain ⟨row', hrow', hid', hfacts⟩ := hfound r hr
    have hrows : (rows.map fun d => d.textAt "document_id").Nodup := by rw [h.ids]; exact hnodup
    obtain rfl : row' = row := by
      refine List.inj_on_of_nodup_map hrows hrow' (List.mem_of_getElem? hrow) ?_
      rw [hid', hrid, hrowtext]
    rw [hafter]
    refine ⟨hrget, fun hnot => absurd hname hnot, fun _ => ⟨hr, fun document hdocument hget => ?_,
      hfacts⟩⟩
    refine List.inj_on_of_nodup_map hdistinct hdocument hr ?_
    rw [Dict.textAt, hget, ← hrget]
    rfl
  · have hnot : row.textAt "document_id" ∉
        context.documents.map fun d => d.textAt "document_id" := by
      rw [hrowtext]
      exact fun hmem => hname (hnamed.mpr (hiff.mp hmem))
    rw [substituted_of_notMem hnot]
    exact ⟨hrowid, fun _ => hsame hname, fun h => absurd h hname⟩

end QualityCI

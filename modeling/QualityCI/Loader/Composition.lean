import QualityCI.Loader.Accepted
import QualityCI.Loader.Mutation

/-!
# Mutations one after the other

Two lists of operations run one after the other, each in its own mutation, build the index of the
documents twice; run as one list they build it once.  The two agree for whatever operations come
second exactly when the first leaves the index as it is: it puts no other documents in the place
of the case's, and gives no document another identity.

* `OperationEffect`, **`applyDict_eq_ok`** — what one operation does.
* `Follows`, **`follows_step`** — a run with the old index follows a run with the new one.
* `IndexView`, `KeepsIndex` — what a list of operations leaves of the index.
* **`applyMutation_composes_iff`** — when mutations compose.
-/

namespace QualityCI

open Py

section Composition

variable [PyUnicode]

/-! ## One operation -/

/-- What an operation that is a dictionary does to the state. -/
inductive OperationEffect (keys : List Json) (s : MutationState) (operation : Dict) :
    MutationState → Prop
  | event (path : String) (event event' : Json) (htarget : mutationTarget operation = .ok "event")
      (hpath : mutationPath operation = .ok path) (hevent : s.case.get? "event" = some event)
      (hedit : edit operation path event = .ok event') :
      OperationEffect keys s operation { s with case := s.case.set "event" event' }
  | case (path : String) (case' : Dict) (htarget : mutationTarget operation = .ok "case")
      (hpath : mutationPath operation = .ok path)
      (hedit : edit operation path (.obj s.case) = .ok (.obj case')) :
      OperationEffect keys s operation (s.replaceCase path case')
  | document (path : String) (id : Json) (i : ℕ) (doc : Json)
      (htarget : mutationTarget operation = .ok "document")
      (hpath : mutationPath operation = .ok path) (hid : operation.get? "document_id" = some id)
      (hhash : requireHashable id = .ok ()) (hlookup : lookupId keys id = some i)
      (hedit : edit operation path (s.documents.getD i .null) = .ok doc) :
      OperationEffect keys s operation (s.setDocument i doc)

lemma mutationTarget_mem {operation : Dict} {name : String}
    (h : mutationTarget operation = .ok name) : name ∈ mutationTargets := by
  unfold mutationTarget at h
  split at h
  · split_ifs at h with hmem
    · obtain rfl := Except.ok.inj h
      exact hmem
    · exact absurd h valueError_ne_ok
  · exact absurd h valueError_ne_ok

omit [PyUnicode] in
lemma splitDots_ne_nil (cs part : List Char) : splitDots cs part ≠ [] := by
  induction cs generalizing part with
  | nil => simp [splitDots]
  | cons c cs ih =>
      unfold splitDots
      split_ifs
      · simp
      · exact ih _

omit [PyUnicode] in
/-- The segments of a checked path. -/
lemma mutationPath_segments {operation : Dict} {path : String}
    (h : mutationPath operation = .ok path) : ∃ key rest, segments path = key :: rest := by
  have hne : path ≠ "" := by
    unfold mutationPath at h
    split at h
    · split_ifs at h with hempty
      · exact absurd h valueError_ne_ok
      · obtain rfl := Except.ok.inj h
        exact hempty
    · exact absurd h valueError_ne_ok
  rw [segments, if_neg hne]
  cases hsplit : splitDots path.toList [] with
  | nil => exact absurd hsplit (splitDots_ne_nil _ _)
  | cons part rest => exact ⟨_, _, rfl⟩

/-- An edit of a dictionary gives a dictionary. -/
lemma edit_obj {operation : Dict} {path : String} (hpath : mutationPath operation = .ok path)
    {d : Dict} {v : Json} :
    edit operation path (.obj d) = .ok v ↔ ∃ o key rest entry, writeOf operation = .ok o ∧
      segments path = key :: rest ∧ entryEdit o key rest (d.get? key) = .ok entry ∧
      v = .obj (put d key entry) := by
  obtain ⟨key, rest, hsegments⟩ := mutationPath_segments hpath
  simp only [edit_eq, hsegments, bind_eq_ok, atPath_obj, Except.ok.injEq]
  constructor
  · rintro ⟨o, ho, entry, hentry, rfl⟩
    exact ⟨o, key, rest, entry, ho, rfl, hentry, rfl⟩
  · rintro ⟨o, _, _, entry, ho, hcons, hentry, rfl⟩
    obtain ⟨rfl, rfl⟩ := List.cons.inj hcons
    exact ⟨o, ho, entry, hentry, rfl⟩

/-- **One operation.** -/
theorem applyDict_eq_ok {keys : List Json} {s s' : MutationState} {operation : Dict} :
    applyDict keys s operation = .ok s' ↔ OperationEffect keys s operation s' := by
  constructor
  · intro h
    simp only [applyDict, bind_eq_ok] at h
    obtain ⟨name, htarget, path, hpath, h⟩ := h
    have hmem := mutationTarget_mem htarget
    split_ifs at h with hevent hcase
    · subst hevent
      simp only [bind_eq_ok, Dict.getItem_eq_ok, Except.ok.injEq] at h
      obtain ⟨event, hget, event', hedit, rfl⟩ := h
      exact .event path event event' htarget hpath hget hedit
    · subst hcase
      simp only [bind_eq_ok, Except.ok.injEq] at h
      obtain ⟨edited, hedit, rfl⟩ := h
      obtain ⟨_, key, rest, entry, -, -, -, rfl⟩ := (edit_obj hpath).mp hedit
      exact .case path _ htarget hpath hedit
    · have hname : name = "document" := by
        simp only [mutationTargets, List.mem_cons, List.not_mem_nil, or_false] at hmem
        tauto
      subst hname
      simp only [bind_eq_ok, Dict.getItem_eq_ok, exists_unit] at h
      obtain ⟨id, hid, hhash, h⟩ := h
      split at h
      · exact absurd h valueError_ne_ok
      · rename_i i hlookup
        simp only [bind_eq_ok, Except.ok.injEq] at h
        obtain ⟨doc, hedit, rfl⟩ := h
        exact .document path id i doc htarget hpath hid hhash hlookup hedit
  · intro h
    cases h with
    | event path event event' htarget hpath hevent hedit =>
        simp only [applyDict, htarget, hpath, ok_bind, if_pos, Dict.getItem, hevent, hedit]
    | case path case' htarget hpath hedit =>
        simp [applyDict, htarget, hpath, ok_bind, hedit, Json.obj?]
    | document path id i doc htarget hpath hid hhash hlookup hedit =>
        simp only [applyDict, htarget, hpath, ok_bind, Dict.getItem, hid, hhash, hlookup, hedit]
        rfl

/-! ## Following -/

/-- **A run follows another**: the cases agree but for the mutation's name, which in the followed
run is a text where they differ, and the documents that the followed run can name are the same in
both. -/
structure Follows (keys keys' : List Json) (t t' : MutationState) : Prop where
  entries : ∀ key, key ≠ "active_mutation" → t.case.get? key = t'.case.get? key
  marker : t.case.get? "active_mutation" = t'.case.get? "active_mutation" ∨
    ∃ s, t'.case.get? "active_mutation" = some (.str s)
  index : (∀ id, lookupId keys' id = none) ∨
    ((∀ id i, lookupId keys' id = some i → lookupId keys id = some i) ∧ t.detached = t'.detached)

section Step

variable {keys keys' : List Json} {t t' : MutationState}

omit [PyUnicode] in
lemma Follows.documents (h : Follows keys keys' t t') (hdetached : t.detached = t'.detached) :
    t.documents = t'.documents := by
  rw [MutationState.documents, MutationState.documents, hdetached, h.entries "documents" (by decide)]

omit [PyUnicode] in
/-- Cases that follow each other still do once the same entry is written in both. -/
lemma Follows.put (h : Follows keys keys' t t') (key : String) (entry : Option Json)
    {detached detached' : Option (List Json)}
    (hdetached : t.detached = t'.detached → detached = detached') :
    Follows keys keys' ⟨put t.case key entry, detached⟩ ⟨put t'.case key entry, detached'⟩ := by
  refine ⟨fun k hk => ?_, ?_, ?_⟩
  · simp only [get?_put, h.entries k hk]
  · simp only [get?_put]
    split_ifs
    · exact Or.inl rfl
    · exact h.marker
  · exact h.index.imp id fun hsame => ⟨hsame.1, hdetached hsame.2⟩

omit [PyUnicode] in
lemma Follows.set (h : Follows keys keys' t t') (key : String) (v : Json) :
    Follows keys keys' { t with case := t.case.set key v } { t' with case := t'.case.set key v } :=
  h.put key (some v) id

/-- An edit that succeeds on the followed case does the same on the following one. -/
lemma Follows.edit_case (h : Follows keys keys' t t') {operation : Dict} {path : String}
    (hpath : mutationPath operation = .ok path) {d' : Dict}
    (hedit : edit operation path (.obj t'.case) = .ok (.obj d')) :
    ∃ key entry, d' = QualityCI.put t'.case key entry ∧
      edit operation path (.obj t.case) = .ok (.obj (QualityCI.put t.case key entry)) := by
  obtain ⟨o, key, rest, entry, ho, hsegments, hentry, hd⟩ := (edit_obj hpath).mp hedit
  refine ⟨key, entry, Json.obj.inj hd,
    (edit_obj hpath).mpr ⟨o, key, rest, entry, ho, hsegments, ?_, rfl⟩⟩
  by_cases hkey : key = "active_mutation"
  · subst hkey
    rcases h.marker with hsame | ⟨s, hs⟩
    · rw [hsame]
      exact hentry
    · -- the name is a text, so nothing below it was edited
      cases rest with
      | nil => exact hentry
      | cons next rest =>
          rw [hs] at hentry
          simp only [entryEdit, bind_eq_ok] at hentry
          obtain ⟨v, hv, -⟩ := hentry
          exact absurd hv (atPath_str o s next rest v)
  · rw [h.entries key hkey]
    exact hentry

/-- **A step of the followed run is a step of the following one.** -/
theorem follows_step (h : Follows keys keys' t t') {operation : Json} {u' : MutationState}
    (hstep : applyOperation keys' t' operation = .ok u') :
    ∃ u, applyOperation keys t operation = .ok u ∧ Follows keys keys' u u' := by
  cases operation with
  | obj operation =>
      simp only [applyOperation] at hstep ⊢
      cases applyDict_eq_ok.mp hstep with
      | event path event event' htarget hpath hevent hedit =>
          rw [← h.entries "event" (by decide)] at hevent
          exact ⟨_, applyDict_eq_ok.mpr (.event path event event' htarget hpath hevent hedit),
            h.set "event" event'⟩
      | case path case' htarget hpath hedit =>
          obtain ⟨key, entry, rfl, hedit'⟩ := h.edit_case hpath hedit
          refine ⟨_, applyDict_eq_ok.mpr (.case path _ htarget hpath hedit'), ?_⟩
          refine h.put key entry fun hdetached => ?_
          split_ifs
          · rw [h.documents hdetached]
          · exact hdetached
      | document path name i doc htarget hpath hid hhash hlookup hedit =>
          rcases h.index with hnone | ⟨hlookups, hdetached⟩
          · rw [hnone name] at hlookup
            exact absurd hlookup (by simp)
          · rw [← h.documents hdetached] at hedit
            refine ⟨_, applyDict_eq_ok.mpr (.document path name i doc htarget hpath hid
              hhash (hlookups name i hlookup) hedit), ?_⟩
            rw [MutationState.setDocument, MutationState.setDocument, ← hdetached,
              ← h.documents hdetached]
            cases hlist : t.detached with
            | some docs =>
                exact ⟨h.entries, h.marker, h.index.imp id fun hsame => ⟨hsame.1, rfl⟩⟩
            | none =>
                have hboth := h.set "documents" (.arr (t.documents.set i doc))
                rw [hlist] at hdetached
                simpa [hlist, ← hdetached] using hboth
  | _ => exact absurd hstep valueError_ne_ok

/-- **A run is followed to its end.** -/
theorem follows_run (h : Follows keys keys' t t') {operations : List Json} {u' : MutationState}
    (hrun : applyOperations keys' t' operations = .ok u') :
    ∃ u, applyOperations keys t operations = .ok u ∧ Follows keys keys' u u' := by
  induction operations generalizing t t' with
  | nil =>
      obtain rfl := Except.ok.inj hrun
      exact ⟨t, rfl, h⟩
  | cons operation rest ih =>
      simp only [applyOperations, bind_eq_ok] at hrun ⊢
      obtain ⟨s', hstep, hrest⟩ := hrun
      obtain ⟨s, hs, hfollows⟩ := follows_step h hstep
      obtain ⟨u, hu, hend⟩ := ih hfollows hrest
      exact ⟨u, ⟨s, hs, hu⟩, hend⟩

end Step

/-- Two lists of operations run as one. -/
lemma applyOperations_append {keys : List Json} {s : MutationState} {p q : List Json} :
    applyOperations keys s (p ++ q) = (do
      let middle ← applyOperations keys s p
      applyOperations keys middle q) := by
  induction p generalizing s with
  | nil => rfl
  | cons operation rest ih =>
      simp only [List.cons_append, applyOperations]
      cases applyOperation keys s operation with
      | error e => rfl
      | ok middle =>
          simp only [ok_bind]
          exact ih

/-! ## What a list of operations leaves of the index -/

/-- The identities of the indexed documents, and what stands in the place of the case's documents
once they were replaced. -/
structure IndexView where
  ids : List (Option Json)
  replaced : Option (Option Json) := none

/-- What the operation writes, as far as its text says. -/
def writtenOf (operation : Dict) : Option Json := (writeOf operation).toOption.join

/-- The view after one operation: a case operation on `documents` replaces them, and a document
operation on `document_id` gives a document another identity. -/
def IndexView.step (keys : List Json) (view : IndexView) : Json → IndexView
  | .obj operation =>
      if mutationTarget operation = .ok "case" ∧ mutationPath operation = .ok "documents" then
        { view with replaced := some (writtenOf operation) }
      else if mutationTarget operation = .ok "document" ∧
          mutationPath operation = .ok "document_id" then
        match (Dict.get? operation "document_id").bind (lookupId keys) with
        | some i => { view with ids := view.ids.set i (writtenOf operation) }
        | none => view
      else view
  | _ => view

/-- The view of a list of operations. -/
def indexView (keys : List Json) (operations : List Json) : IndexView :=
  operations.foldl (IndexView.step keys) ⟨keys.map some, none⟩

/-- **The operations keep the index**: either they leave the case its documents, and whichever
identity then names a document named it before; or they put something else in their place, in
which no identity names a document. -/
def KeepsIndex (case : Dict) (operations : List Json) : Prop :=
  ∀ documents keys, case.get? "documents" = some documents → indexKeys documents = .ok keys →
    match (indexView keys operations).replaced with
    | none => ∀ keys', (indexView keys operations).ids = keys'.map some →
        (∀ key ∈ keys', requireHashable key = .ok ()) →
        ∀ id i, lookupId keys' id = some i → lookupId keys id = some i
    | some documents' => ∀ v keys', documents' = some v → indexKeys v = .ok keys' →
        ∀ id, lookupId keys' id = none

omit [PyUnicode] in
lemma lookupId_lt {keys : List Json} {id : Json} {i : ℕ} (h : lookupId keys id = some i) :
    i < keys.length := by
  induction keys generalizing i with
  | nil => simp [lookupId] at h
  | cons key rest ih =>
      rw [lookupId] at h
      rw [List.length_cons]
      cases hrest : lookupId rest id with
      | some j =>
          rw [hrest] at h
          obtain rfl := Option.some.inj h
          have := ih hrest
          omega
      | none =>
          rw [hrest] at h
          simp only at h
          split_ifs at h
          obtain rfl := Option.some.inj h
          omega

omit [PyUnicode] in
lemma indexKey_eq_ok {doc key : Json} :
    indexKey doc = .ok key ↔ ∃ d : Dict, doc = .obj d ∧ d.get? "document_id" = some key ∧
      requireHashable key = .ok () := by
  cases doc with
  | obj d => simp [indexKey, Json.getItem]
  | _ => simp [indexKey, Json.getItem]

omit [PyUnicode] in
/-- Only a list of documents has keys. -/
lemma indexKeys_eq_ok {documents : Json} {keys : List Json} (h : indexKeys documents = .ok keys) :
    (∃ items, documents = .arr items ∧
      List.Forall₂ (fun doc key => indexKey doc = .ok key) items keys) ∨
    (keys = [] ∧ ∀ items, documents ≠ .arr items) := by
  simp only [indexKeys, bind_eq_ok, mapEach_eq_ok] at h
  obtain ⟨items, hitems, hall⟩ := h
  have htexts : ∀ texts : List String, items = texts.map Json.str → keys = [] := by
    rintro texts rfl
    cases texts with
    | nil =>
        cases hall
        rfl
    | cons text rest =>
        cases hall with
        | cons hkey _ =>
            obtain ⟨d, hd, -⟩ := indexKey_eq_ok.mp hkey
            exact absurd hd (by simp)
  cases documents with
  | arr xs =>
      obtain rfl := Except.ok.inj hitems
      exact Or.inl ⟨xs, rfl, hall⟩
  | obj d =>
      obtain rfl := Except.ok.inj hitems
      exact Or.inr ⟨htexts _ rfl, by simp⟩
  | str s =>
      obtain rfl := Except.ok.inj hitems
      refine Or.inr ⟨htexts (s.toList.map String.singleton) ?_, by simp⟩
      rw [List.map_map]
      rfl
  | _ => exact absurd hitems typeError_ne_ok

omit [PyUnicode] in
lemma splitDots_singleton {cs part word : List Char} (h : splitDots cs part = [word]) :
    word = part.reverse ++ cs := by
  induction cs generalizing part with
  | nil => simpa [splitDots, eq_comm] using h
  | cons c cs ih =>
      unfold splitDots at h
      split_ifs at h with hdot
      · exact absurd (List.cons.inj h).2 (splitDots_ne_nil cs [])
      · rw [ih h]
        simp

omit [PyUnicode] in
/-- A path of one segment is that segment. -/
lemma segments_singleton {path key : String} (h : segments path = [key]) : path = key := by
  unfold segments at h
  split_ifs at h
  obtain ⟨word, hword, rfl⟩ := List.map_eq_singleton_iff.mp h
  rw [splitDots_singleton hword]
  simp

/-! ## The view and the state -/

/-- The values are the same, or both are dictionaries: an edit below a dictionary leaves one. -/
def Shaped (o w : Option Json) : Prop :=
  o = w ∨ ((∃ d, o = some (.obj d)) ∧ ∃ d, w = some (.obj d))

/-- The view says what the state's index and documents are. -/
inductive Tracks (keys : List Json) (view : IndexView) (s : MutationState) : Prop
  | attached (hview : view.replaced = none) (hstate : s.detached = none)
      (hdocs : List.Forall₂ (fun doc id => ∃ d : Dict, doc = .obj d ∧
        Shaped (d.get? "document_id") id) s.documents view.ids)
      (hkeys : keys.length = view.ids.length)
  | replaced (w : Option Json) (hview : view.replaced = some w) (hstate : s.detached.isSome = true)
      (hshape : Shaped (s.case.get? "documents") w)

omit [PyUnicode] in
/-- Editing below the first segment leaves a dictionary. -/
lemma entryEdit_below {o : Option Json} {key next : String} {rest : List String}
    {entry entry' : Option Json} (h : entryEdit o key (next :: rest) entry = .ok entry') :
    (∃ d, entry = some (.obj d)) ∧ ∃ d, entry' = some (.obj d) := by
  cases entry with
  | none => exact absurd h keyError_ne_ok
  | some inner =>
      simp only [entryEdit, bind_eq_ok, Except.ok.injEq] at h
      obtain ⟨edited, hedited, rfl⟩ := h
      cases inner with
      | obj d =>
          rw [atPath_obj] at hedited
          simp only [bind_eq_ok, Except.ok.injEq] at hedited
          obtain ⟨_, -, rfl⟩ := hedited
          exact ⟨⟨d, rfl⟩, ⟨_, rfl⟩⟩
      | _ =>
          cases rest with
          | nil => cases o <;> simp [atPath, lastOf, setItem, popItem] at hedited
          | cons _ _ => simp [atPath, Json.getItem] at hedited

omit [PyUnicode] in
/-- The entry that an edit along a path changes: the written value at its end, and a dictionary
below a dictionary elsewhere. -/
lemma shaped_entryEdit {o : Option Json} {key : String} {rest : List String}
    {entry entry' w : Option Json} (h : entryEdit o key rest entry = .ok entry')
    (hshape : Shaped entry w) (hrest : rest ≠ []) : Shaped entry' w := by
  cases rest with
  | nil => exact absurd rfl hrest
  | cons next rest =>
      obtain ⟨⟨d, rfl⟩, hdict⟩ := entryEdit_below h
      rcases hshape with rfl | ⟨-, hw⟩
      · exact Or.inr ⟨hdict, ⟨d, rfl⟩⟩
      · exact Or.inr ⟨hdict, hw⟩

lemma writtenOf_eq {operation : Dict} {o : Option Json} (h : writeOf operation = .ok o) :
    writtenOf operation = o := by
  simp [writtenOf, h, Except.toOption]

omit [PyUnicode] in
lemma requireHashable_obj {d : Dict} : requireHashable (.obj d) ≠ .ok () := typeError_ne_ok

omit [PyUnicode] in
/-- Documents whose identities are known have those as their keys. -/
lemma indexKeys_iff_ids {items : List Json} {ids : List (Option Json)}
    (h : List.Forall₂ (fun doc id => ∃ d : Dict, doc = .obj d ∧
      Shaped (d.get? "document_id") id) items ids) {keys : List Json} :
    List.Forall₂ (fun doc key => indexKey doc = .ok key) items keys ↔
      ids = keys.map some ∧ ∀ key ∈ keys, requireHashable key = .ok () := by
  induction h generalizing keys with
  | nil =>
      cases keys with
      | nil => simp
      | cons key rest => simp
  | @cons doc id docs ids hdoc _ ih =>
      obtain ⟨d, rfl, hshape⟩ := hdoc
      cases keys with
      | nil => simp
      | cons key rest =>
          have hkey : indexKey (.obj d) = .ok key ↔ id = some key ∧ requireHashable key = .ok () := by
            rw [indexKey_eq_ok]
            constructor
            · rintro ⟨d', hd, hget, hhash⟩
              obtain rfl := Json.obj.inj hd
              rcases hshape with hsame | ⟨⟨e, he⟩, -⟩
              · exact ⟨hsame ▸ hget, hhash⟩
              · obtain rfl := Option.some.inj (hget.symm.trans he)
                exact absurd hhash requireHashable_obj
            · rintro ⟨rfl, hhash⟩
              refine ⟨d, rfl, ?_, hhash⟩
              rcases hshape with hsame | ⟨-, ⟨e, he⟩⟩
              · exact hsame
              · obtain rfl := Option.some.inj he
                exact absurd hhash requireHashable_obj
          rw [List.forall₂_cons, hkey, ih, List.map_cons, List.cons.injEq, List.forall_mem_cons]
          tauto

omit [PyUnicode] in
/-- Attached documents are the case's. -/
lemma attached_documents {s : MutationState} (hstate : s.detached = none)
    (hne : s.documents ≠ []) : s.case.get? "documents" = some (.arr s.documents) := by
  simp only [MutationState.documents, hstate, Option.getD_none] at hne ⊢
  cases hget : s.case.get? "documents" with
  | none => simp [hget] at hne
  | some v =>
      cases v with
      | arr items => rfl
      | _ => simp [hget, Json.arr?] at hne

section Tracking

variable {keys : List Json} {view : IndexView} {s s' : MutationState}

omit [PyUnicode] in
/-- A change of other entries is tracked. -/
lemma Tracks.of_entry (h : Tracks keys view s) {case' : Dict}
    (hdocs : case'.get? "documents" = s.case.get? "documents") :
    Tracks keys view { s with case := case' } := by
  cases h with
  | attached hview hstate hall hkeys =>
      refine .attached hview hstate ?_ hkeys
      simpa only [MutationState.documents, hdocs] using hall
  | replaced w hview hstate hshape =>
      refine .replaced w hview hstate ?_
      rw [hdocs]
      exact hshape

/-- An operation on the case is tracked. -/
lemma Tracks.case (h : Tracks keys view s) {operation : Dict} {path : String} {case' : Dict}
    (htarget : mutationTarget operation = .ok "case")
    (hpath : mutationPath operation = .ok path)
    (hedit : edit operation path (.obj s.case) = .ok (.obj case')) :
    Tracks keys (view.step keys (.obj operation)) (s.replaceCase path case') := by
  obtain ⟨o, key, rest, entry, ho, hsegments, hentry, hcase⟩ := (edit_obj hpath).mp hedit
  obtain rfl := Json.obj.inj hcase
  by_cases hdocuments : path = "documents"
  · subst hdocuments
    obtain ⟨rfl, rfl⟩ : key = "documents" ∧ rest = [] := by
      have hone : segments "documents" = ["documents"] := by decide
      rw [hone] at hsegments
      exact ⟨(List.cons.inj hsegments).1.symm, (List.cons.inj hsegments).2.symm⟩
    obtain rfl := Except.ok.inj hentry
    rw [IndexView.step, if_pos ⟨htarget, hpath⟩]
    refine .replaced o (by rw [writtenOf_eq ho]) ?_ (Or.inl ?_)
    · simp [MutationState.replaceCase]
    · simp [MutationState.replaceCase]
  · have hsame : view.step keys (.obj operation) = view := by
      rw [IndexView.step, if_neg, if_neg]
      · simp [htarget]
      · simp [hpath, hdocuments]
    have hstate : s.replaceCase path (put s.case key entry) =
        { s with case := put s.case key entry } := by
      rw [MutationState.replaceCase, if_neg hdocuments]
    rw [hsame, hstate]
    by_cases hkey : key = "documents"
    · subst hkey
      have hrest : rest ≠ [] := by
        rintro rfl
        exact hdocuments (segments_singleton hsegments)
      cases h with
      | attached hview hattached hall hkeys =>
          -- only a dictionary is edited below, and a dictionary has no indexed documents
          obtain ⟨next, more, rfl⟩ := List.exists_cons_of_ne_nil hrest
          obtain ⟨⟨d, hd⟩, ⟨d', hd'⟩⟩ := entryEdit_below hentry
          have hnone : s.documents = [] := by
            simp [MutationState.documents, hattached, hd, Json.arr?]
          rw [hnone] at hall
          refine .attached hview hattached ?_ hkeys
          simpa [MutationState.documents, hattached, hd', Json.arr?] using hall
      | replaced w hview hdetached hshape =>
          refine .replaced w hview hdetached ?_
          rw [get?_put, if_pos rfl]
          exact shaped_entryEdit hentry hshape hrest
    · exact h.of_entry (by rw [get?_put, if_neg hkey])

omit [PyUnicode] in
lemma forall₂_set {α β : Type} {rel : α → β → Prop} {xs : List α} {ys : List β}
    (h : List.Forall₂ rel xs ys) {x : α} {y : β} (hxy : rel x y) (i : ℕ) :
    List.Forall₂ rel (xs.set i x) (ys.set i y) := by
  induction h generalizing i with
  | nil => exact List.Forall₂.nil
  | cons hab hrest ih =>
      cases i with
      | zero => exact List.Forall₂.cons hxy hrest
      | succ i => exact List.Forall₂.cons hab (ih i)

/-- An operation on a document is tracked. -/
lemma Tracks.document (h : Tracks keys view s) {operation : Dict} {path : String} {id doc : Json}
    {i : ℕ} (htarget : mutationTarget operation = .ok "document")
    (hpath : mutationPath operation = .ok path) (hid : operation.get? "document_id" = some id)
    (hlookup : lookupId keys id = some i)
    (hedit : edit operation path (s.documents.getD i .null) = .ok doc) :
    Tracks keys (view.step keys (.obj operation)) (s.setDocument i doc) := by
  cases h with
  | replaced w hview hdetached hshape =>
      have hview' : (view.step keys (.obj operation)).replaced = some w := by
        rw [IndexView.step, if_neg (by simp [htarget])]
        split_ifs
        · rw [hid, Option.bind_some, hlookup]
          exact hview
        · exact hview
      obtain ⟨docs, hdocs⟩ := Option.isSome_iff_exists.mp hdetached
      refine .replaced w hview' ?_ ?_
      · simp [MutationState.setDocument, hdocs]
      · simpa [MutationState.setDocument, hdocs] using hshape
  | attached hview hattached hall hkeys =>
      have hlength := hall.length_eq
      have hi : i < s.documents.length := by
        have := lookupId_lt hlookup
        omega
      obtain ⟨d, hd, hshape⟩ := (List.forall₂_iff_get.mp hall).2 i hi (by omega)
      simp only [List.get_eq_getElem] at hd hshape
      have hdoc : s.documents.getD i .null = .obj d := by
        rw [List.getD_eq_getElem?_getD, List.getElem?_eq_getElem hi, Option.getD_some, hd]
      rw [hdoc] at hedit
      obtain ⟨o, key, rest, entry, ho, hsegments, hentry, rfl⟩ := (edit_obj hpath).mp hedit
      have hdocuments : (s.setDocument i (.obj (put d key entry))).documents =
          s.documents.set i (.obj (put d key entry)) := by
        simp [MutationState.documents, MutationState.setDocument, hattached, Json.arr?]
      have hstate : (s.setDocument i (.obj (put d key entry))).detached = none := by
        simp [MutationState.setDocument, hattached]
      by_cases hname : path = "document_id"
      · subst hname
        obtain ⟨rfl, rfl⟩ : key = "document_id" ∧ rest = [] := by
          have hone : segments "document_id" = ["document_id"] := by decide
          rw [hone] at hsegments
          exact ⟨(List.cons.inj hsegments).1.symm, (List.cons.inj hsegments).2.symm⟩
        obtain rfl := Except.ok.inj hentry
        have hview' : view.step keys (.obj operation) =
            { view with ids := view.ids.set i o } := by
          rw [IndexView.step, if_neg (by simp [htarget]), if_pos ⟨htarget, hpath⟩, hid,
            Option.bind_some, hlookup, writtenOf_eq ho]
        rw [hview']
        refine .attached hview hstate ?_ (by simpa using hkeys)
        rw [hdocuments]
        exact forall₂_set hall ⟨_, rfl, Or.inl (by simp)⟩ i
      · have hview' : view.step keys (.obj operation) = view := by
          rw [IndexView.step, if_neg (by simp [htarget]), if_neg (by simp [hpath, hname])]
        rw [hview']
        refine .attached hview hstate ?_ hkeys
        rw [hdocuments]
        have hset : view.ids = view.ids.set i (view.ids.get ⟨i, by omega⟩) := by simp
        rw [hset]
        refine forall₂_set hall ⟨_, rfl, ?_⟩ i
        rw [get?_put]
        split_ifs with hkey
        · subst hkey
          have hrest : rest ≠ [] := by
            rintro rfl
            exact hname (segments_singleton hsegments)
          exact shaped_entryEdit hentry hshape hrest
        · exact hshape

/-- **The view tracks a step.** -/
theorem tracks_step (h : Tracks keys view s) {operation : Json}
    (hstep : applyOperation keys s operation = .ok s') :
    Tracks keys (view.step keys operation) s' := by
  cases operation with
  | obj operation =>
      cases applyDict_eq_ok.mp hstep with
      | event path event event' htarget hpath hevent hedit =>
          have hview : view.step keys (.obj operation) = view := by
            rw [IndexView.step, if_neg (by simp [htarget]), if_neg (by simp [htarget])]
          rw [hview]
          exact h.of_entry (by simp)
      | case path case' htarget hpath hedit => exact h.case htarget hpath hedit
      | document path name i doc htarget hpath hid _ hlookup hedit =>
          exact h.document htarget hpath hid hlookup hedit
  | _ => exact absurd hstep valueError_ne_ok

/-- **The view tracks a run.** -/
theorem tracks_run (h : Tracks keys view s) {operations : List Json}
    (hrun : applyOperations keys s operations = .ok s') :
    Tracks keys (operations.foldl (IndexView.step keys) view) s' := by
  induction operations generalizing view s with
  | nil =>
      obtain rfl := Except.ok.inj hrun
      exact h
  | cons operation rest ih =>
      simp only [applyOperations, bind_eq_ok] at hrun
      obtain ⟨middle, hstep, hrest⟩ := hrun
      exact ih (tracks_step h hstep) hrest

omit [PyUnicode] in
/-- The view of no operations tracks the first state. -/
lemma tracks_start {case : Dict} {documents : Json} (hdocs : case.get? "documents" = some documents)
    (hkeys : indexKeys documents = .ok keys) :
    Tracks keys ⟨keys.map some, none⟩ ⟨case, none⟩ := by
  refine .attached rfl rfl ?_ (by simp)
  rcases indexKeys_eq_ok hkeys with ⟨items, rfl, hall⟩ | ⟨rfl, hnot⟩
  · simp only [MutationState.documents, hdocs, Option.getD_none, Option.bind_some, Json.arr?,
      Option.getD_some]
    rw [List.forall₂_map_right_iff]
    refine hall.imp fun doc key hkey => ?_
    obtain ⟨d, rfl, hget, -⟩ := indexKey_eq_ok.mp hkey
    exact ⟨d, rfl, Or.inl hget⟩
  · have hnone : documents.arr? = none := by
      cases documents with
      | arr items => exact absurd rfl (hnot items)
      | _ => rfl
    simp [MutationState.documents, hdocs, hnone]

end Tracking

/-! ## Composition -/

/-- The mutation with a name and a list of operations. -/
def mutationOf (id : String) (operations : List Json) : Dict :=
  Dict.ofList [("mutation_id", .str id), ("operations", .arr operations)]

/-- The cases are the same up to the name of the mutation. -/
def SameButMutation (a b : Dict) : Prop :=
  ∀ key, key ≠ "active_mutation" → a.get? key = b.get? key

/-- **Running `p` and then `q` is running `p ++ q`**, whenever the two runs succeed. -/
def Composes (case : Dict) (p q : List Json) : Prop :=
  ∀ id id' id'' r r', id'' ≠ "" → applyMutation case (mutationOf id p) = .ok r →
    applyMutation r (mutationOf id' q) = .ok r' →
    ∃ r'', applyMutation case (mutationOf id'' (p ++ q)) = .ok r'' ∧ SameButMutation r' r''

lemma applyMutation_eq_ok {case : Dict} {id : String} {operations : List Json} {r : Dict} :
    applyMutation case (mutationOf id operations) = .ok r ↔
      id ≠ "" ∧ operations.length ≤ maxMutationOperations ∧ ∃ documents keys s,
        case.get? "documents" = some documents ∧ indexKeys documents = .ok keys ∧
        applyOperations keys ⟨case, none⟩ operations = .ok s ∧
        r = s.case.set "active_mutation" (.str id) := by
  have hid : mutationId (mutationOf id operations) = .ok id ↔ id ≠ "" := by
    simp [mutationId, mutationOf, Dict.ofList]
  have hids : ∀ other, mutationId (mutationOf id operations) = .ok other → other = id := by
    intro other hother
    have hget : (mutationOf id operations).get? "mutation_id" = some (.str id) := by
      simp [mutationOf, Dict.ofList]
    simp only [mutationId, hget] at hother
    split_ifs at hother
    · exact absurd hother valueError_ne_ok
    · exact (Except.ok.inj hother).symm
  have hoperations : (mutationOf id operations).getD "operations" .null = .arr operations := by
    simp [mutationOf, Dict.ofList, Dict.getD]
  simp only [applyMutation, bind_eq_ok, hoperations, requireBoundedList, require_eq_ok,
    exists_unit, Except.ok.injEq, Dict.getItem_eq_ok]
  constructor
  · rintro ⟨other, hother, _, ⟨hlength, rfl⟩, documents, hdocuments, keys, hkeys, s, hs, rfl⟩
    obtain rfl := hids other hother
    exact ⟨hid.mp hother, hlength, documents, keys, s, hdocuments, hkeys, hs, rfl⟩
  · rintro ⟨hne, hlength, documents, keys, s, hdocuments, hkeys, hs, rfl⟩
    exact ⟨id, hid.mpr hne, _, ⟨hlength, rfl⟩, documents, hdocuments, keys, hkeys, s, hs, rfl⟩

/-- The state that a list of operations keeping the index leaves is followed. -/
lemma follows_start {case : Dict} {documents : Json} {keys keys' : List Json} {p : List Json}
    {s : MutationState} {id : String} {documents' : Json}
    (hkeep : KeepsIndex case p) (hdocs : case.get? "documents" = some documents)
    (hkeys : indexKeys documents = .ok keys)
    (hrun : applyOperations keys ⟨case, none⟩ p = .ok s)
    (hdocs' : (s.case.set "active_mutation" (.str id)).get? "documents" = some documents')
    (hkeys' : indexKeys documents' = .ok keys') :
    Follows keys keys' s ⟨s.case.set "active_mutation" (.str id), none⟩ := by
  have hentries : ∀ key, key ≠ "active_mutation" →
      s.case.get? key = (s.case.set "active_mutation" (.str id)).get? key := by
    intro key hkey
    rw [Dict.get?_set, if_neg hkey.symm]
  refine ⟨hentries, Or.inr ⟨id, by simp⟩, ?_⟩
  rw [← hentries "documents" (by decide)] at hdocs'
  have hkept := hkeep documents keys hdocs hkeys
  cases tracks_run (tracks_start hdocs hkeys) hrun with
  | attached hview hstate hall hlength =>
      rw [← indexView] at hview hall
      rw [hview] at hkept
      rcases indexKeys_eq_ok hkeys' with ⟨items, rfl, hitems⟩ | ⟨rfl, -⟩
      · refine Or.inr ⟨?_, hstate⟩
        have hdocuments : s.documents = items := by
          simp [MutationState.documents, hstate, hdocs', Json.arr?]
        rw [hdocuments] at hall
        obtain ⟨hids, hhash⟩ := (indexKeys_iff_ids hall).mp hitems
        exact hkept keys' hids hhash
      · exact Or.inl fun _ => rfl
  | replaced w hview hstate hshape =>
      rw [← indexView] at hview
      rw [hview] at hkept
      rw [hdocs'] at hshape
      left
      rcases hshape with rfl | ⟨⟨d, hd⟩, -⟩
      · exact hkept documents' keys' rfl hkeys'
      · obtain rfl := Option.some.inj hd
        rcases indexKeys_eq_ok hkeys' with ⟨items, hitems, -⟩ | ⟨rfl, -⟩
        · exact absurd hitems (by simp)
        · exact fun _ => rfl

/-- **Operations that keep the index compose with every list after them.** -/
theorem composes_of_keepsIndex {case : Dict} {p q : List Json} (hkeep : KeepsIndex case p)
    (hlength : p.length + q.length ≤ maxMutationOperations) : Composes case p q := by
  intro id id' id'' r r' hne hp hq
  obtain ⟨-, -, documents, keys, s, hdocs, hkeys, hrun, rfl⟩ := applyMutation_eq_ok.mp hp
  obtain ⟨-, -, documents', keys', s', hdocs', hkeys', hrun', rfl⟩ := applyMutation_eq_ok.mp hq
  have hfollows := follows_start hkeep hdocs hkeys hrun hdocs' hkeys'
  obtain ⟨u, hu, hend⟩ := follows_run hfollows hrun'
  refine ⟨_, applyMutation_eq_ok.mpr ⟨hne, by rw [List.length_append]; exact hlength, documents,
    keys, u, hdocs, hkeys, ?_, rfl⟩, fun key hkey => ?_⟩
  · rw [applyOperations_append, hrun]
    exact hu
  · rw [Dict.get?_set, Dict.get?_set, if_neg hkey.symm, if_neg hkey.symm, hend.entries key hkey]

/-- Nothing after them composes with anything. -/
lemma composes_nil {case : Dict} {p : List Json} : Composes case p [] := by
  intro id id' id'' r r' hne hp hq
  obtain ⟨-, hlength, documents, keys, s, hdocs, hkeys, hrun, rfl⟩ := applyMutation_eq_ok.mp hp
  obtain ⟨-, -, _, _, s', -, -, hrun', rfl⟩ := applyMutation_eq_ok.mp hq
  obtain rfl := Except.ok.inj hrun'
  rw [← List.append_nil p] at hrun hlength
  refine ⟨_, applyMutation_eq_ok.mpr ⟨hne, hlength, documents, keys, s, hdocs, hkeys, hrun, rfl⟩,
    fun key hkey => ?_⟩
  simp only [Dict.get?_set, if_neg hkey.symm]

/-! ## A lost update -/

/-- An operation that writes a note into a document. -/
def noteOperation (id : Json) (note : Bool) : Dict :=
  Dict.ofList [("document_id", id), ("path", .str "note"), ("op", .str "set"),
    ("value", .bool note)]

lemma noteOperation_eq_ok {keys : List Json} {s s' : MutationState} {id : Json} {note : Bool} :
    applyOperation keys s (.obj (noteOperation id note)) = .ok s' ↔ ∃ i doc,
      requireHashable id = .ok () ∧ lookupId keys id = some i ∧
      setItem (.bool note) (s.documents.getD i .null) "note" = .ok doc ∧
      s' = s.setDocument i doc := by
  have htarget : mutationTarget (noteOperation id note) = .ok "document" := by
    simp [mutationTarget, noteOperation, Dict.ofList, Dict.getD, mutationTargets]
  have hpath : mutationPath (noteOperation id note) = .ok "note" := by
    simp [mutationPath, noteOperation, Dict.ofList]
  have hwrite : writeOf (noteOperation id note) = .ok (some (.bool note)) := by
    simp [writeOf, noteOperation, Dict.ofList, Dict.getD]
  have hid : (noteOperation id note).get? "document_id" = some id := by
    simp [noteOperation, Dict.ofList]
  have hsegments : segments "note" = ["note"] := by decide
  have hedit : ∀ target, edit (noteOperation id note) "note" target =
      setItem (.bool note) target "note" := by
    intro target
    rw [edit_eq, hwrite, ok_bind, hsegments]
    rfl
  simp only [applyOperation, applyDict, htarget, hpath, ok_bind, Dict.getItem, hid, hedit]
  rw [if_neg (by decide), if_neg (by decide), seq_eq_ok]
  cases lookupId keys id with
  | none => simp
  | some i =>
      simp only [bind_eq_ok, Except.ok.injEq, Option.some.injEq]
      constructor
      · rintro ⟨hhash, doc, hdoc, rfl⟩
        exact ⟨i, doc, hhash, rfl, hdoc, rfl⟩
      · rintro ⟨j, doc, hhash, rfl, hdoc, rfl⟩
        exact ⟨hhash, doc, hdoc, rfl⟩

omit [PyUnicode] in
lemma requireHashable_of_sameKey {key id : Json} (h : sameKey key id = true)
    (hhash : requireHashable key = .ok ()) : requireHashable id = .ok () := by
  have hcontainer : ∀ v : Json, numberOf v = none → sameKey key v = true → key = v := by
    intro v hv hsame
    unfold sameKey at hsame
    rw [hv] at hsame
    split at hsame
    · simp_all
    · simp only [decide_eq_true_eq] at hsame
      exact hsame.1
    · simp at hsame
  cases id with
  | arr xs => exact hcontainer _ rfl h ▸ hhash
  | obj d => exact hcontainer _ rfl h ▸ hhash
  | _ => rfl

omit [PyUnicode] in
lemma requireHashable_of_lookupId {keys : List Json} {id : Json} {i : ℕ}
    (h : lookupId keys id = some i) (hhash : ∀ key ∈ keys, requireHashable key = .ok ()) :
    requireHashable id = .ok () := by
  induction keys generalizing i with
  | nil => simp [lookupId] at h
  | cons key rest ih =>
      rw [List.forall_mem_cons] at hhash
      rw [lookupId] at h
      cases hrest : lookupId rest id with
      | some j => exact ih hrest hhash.2
      | none =>
          rw [hrest] at h
          simp only at h
          split_ifs at h with hsame
          exact requireHashable_of_sameKey hsame hhash.1

omit [PyUnicode] in
lemma hashable_of_indexKeys {items keys : List Json}
    (h : List.Forall₂ (fun doc key => indexKey doc = .ok key) items keys) :
    ∀ key ∈ keys, requireHashable key = .ok () := by
  induction h with
  | nil => simp
  | cons hkey _ ih =>
      obtain ⟨_, -, -, hhash⟩ := indexKey_eq_ok.mp hkey
      exact List.forall_mem_cons.mpr ⟨hhash, ih⟩

/-- The note in a mutation of its own. -/
lemma note_after {r : Dict} {id : String} {items : List Json} {keys : List Json} {name : Json}
    {i : ℕ} {d : Dict} (note : Bool) (hid : id ≠ "")
    (hitems : r.get? "documents" = some (.arr items))
    (hkeys : List.Forall₂ (fun doc key => indexKey doc = .ok key) items keys)
    (hname : lookupId keys name = some i) (hdoc : items[i]? = some (.obj d)) :
    ∃ r', applyMutation r (mutationOf id [.obj (noteOperation name note)]) = .ok r' ∧
      r'.get? "documents" = some (.arr (items.set i (.obj (d.set "note" (.bool note))))) := by
  have hdocuments : (⟨r, none⟩ : MutationState).documents = items := by
    simp only [MutationState.documents, hitems, Option.getD_none, Option.bind_some, Json.arr?,
      Option.getD_some]
  have hindex : indexKeys (.arr items) = .ok keys := by
    simp only [indexKeys, bind_eq_ok, mapEach_eq_ok]
    exact ⟨items, rfl, hkeys⟩
  have hhash : requireHashable name = .ok () :=
    requireHashable_of_lookupId hname (hashable_of_indexKeys hkeys)
  have hstep := noteOperation_eq_ok.mpr ⟨i, .obj (d.set "note" (.bool note)), hhash, hname,
    show setItem (.bool note) ((⟨r, none⟩ : MutationState).documents.getD i .null) "note" = _ by
      rw [hdocuments, List.getD_eq_getElem?_getD, hdoc]
      rfl, rfl⟩
  have hrun : applyOperations keys ⟨r, none⟩ [.obj (noteOperation name note)] =
      .ok ((⟨r, none⟩ : MutationState).setDocument i (.obj (d.set "note" (.bool note)))) := by
    simp only [applyOperations, bind_eq_ok, Except.ok.injEq]
    exact ⟨_, hstep, rfl⟩
  refine ⟨_, applyMutation_eq_ok.mpr ⟨hid, by simp [maxMutationOperations], _, keys, _,
    hitems, hindex, hrun, rfl⟩, ?_⟩
  rw [Dict.get?_set, if_neg (by decide), MutationState.setDocument, hdocuments]
  simp

/-- The note at the end of the list of operations. -/
lemma note_within {case : Dict} {p : List Json} {id : String} {documents : Json} {keys : List Json}
    {s : MutationState} {name : Json} {note : Bool} {r : Dict}
    (hdocs : case.get? "documents" = some documents) (hkeys : indexKeys documents = .ok keys)
    (hrun : applyOperations keys ⟨case, none⟩ p = .ok s)
    (h : applyMutation case (mutationOf id (p ++ [.obj (noteOperation name note)])) = .ok r) :
    ∃ i doc, lookupId keys name = some i ∧
      r.get? "documents" = (s.setDocument i doc).case.get? "documents" := by
  obtain ⟨-, -, documents', keys', u, hdocs', hkeys', hrun', rfl⟩ := applyMutation_eq_ok.mp h
  obtain rfl : documents = documents' := Option.some.inj (hdocs.symm.trans hdocs')
  obtain rfl : keys = keys' := Except.ok.inj (hkeys.symm.trans hkeys')
  rw [applyOperations_append, hrun, ok_bind] at hrun'
  simp only [applyOperations, bind_eq_ok, Except.ok.injEq] at hrun'
  obtain ⟨_, hnoted, rfl⟩ := hrun'
  obtain ⟨i, doc, -, hi, -, rfl⟩ := noteOperation_eq_ok.mp hnoted
  refine ⟨i, doc, hi, ?_⟩
  rw [Dict.get?_set, if_neg (by decide)]

/-- **The lost update.**  When an identity names a document after the operations and, in the index
built before them, no document or another one or one that the case no longer holds, the note is
not written where it belongs. -/
theorem not_composes_note {case : Dict} {p : List Json} {id : String} {documents : Json}
    {keys keys' : List Json} {s : MutationState} {items : List Json} (hid : id ≠ "")
    (hlength : p.length < maxMutationOperations) (hdocs : case.get? "documents" = some documents)
    (hkeys : indexKeys documents = .ok keys)
    (hrun : applyOperations keys ⟨case, none⟩ p = .ok s)
    (hitems : s.case.get? "documents" = some (.arr items))
    (hkeys' : List.Forall₂ (fun doc key => indexKey doc = .ok key) items keys') {name : Json}
    {i : ℕ} (hname : lookupId keys' name = some i)
    (hlost : s.detached.isSome = true ∨ lookupId keys name ≠ some i) :
    ∃ q, p.length + q.length ≤ maxMutationOperations ∧ ¬Composes case p q := by
  have hi : i < items.length := by
    have := lookupId_lt hname
    have := hkeys'.length_eq
    omega
  obtain ⟨d, hd⟩ : ∃ d : Dict, items[i]? = some (.obj d) := by
    have hkey := (List.forall₂_iff_get.mp hkeys').2 i hi (by have := hkeys'.length_eq; omega)
    obtain ⟨d, hd, -⟩ := indexKey_eq_ok.mp hkey
    exact ⟨d, by rw [List.getElem?_eq_getElem hi, ← hd, List.get_eq_getElem]⟩
  -- a note that the document does not have yet
  obtain ⟨note, hnote⟩ : ∃ note, d.get? "note" ≠ some (.bool note) := by
    by_cases hfalse : d.get? "note" = some (.bool false)
    · exact ⟨true, by rw [hfalse]; decide⟩
    · exact ⟨false, hfalse⟩
  refine ⟨[.obj (noteOperation name note)], by rw [List.length_singleton]; omega, ?_⟩
  intro hcomposes
  have hget : (s.case.set "active_mutation" (.str id)).get? "documents" = some (.arr items) := by
    rw [Dict.get?_set, if_neg (by decide), hitems]
  have hfirst := applyMutation_eq_ok.mpr ⟨hid, hlength.le, documents, keys, s, hdocs, hkeys, hrun,
    rfl⟩
  obtain ⟨r', hsecond, hr'⟩ := note_after note hid hget hkeys' hname hd
  obtain ⟨r'', hboth, hsame⟩ := hcomposes id id id _ _ hid hfirst hsecond
  obtain ⟨j, doc, hj, hr''⟩ := note_within hdocs hkeys hrun hboth
  -- the document as the two runs leave it
  have hwritten : ∃ ys, (s.setDocument j doc).case.get? "documents" = some (.arr ys) ∧
      ys[i]? = some (.obj d) := by
    cases hdetached : s.detached with
    | some docs => exact ⟨items, by simp [MutationState.setDocument, hdetached, hitems], hd⟩
    | none =>
        have hne : j ≠ i := by
          rintro rfl
          simp [hdetached, hj] at hlost
        have hdocuments : s.documents = items := by
          simp [MutationState.documents, hdetached, hitems, Json.arr?]
        refine ⟨items.set j doc, by simp [MutationState.setDocument, hdetached, hdocuments], ?_⟩
        rw [List.getElem?_set_ne hne, hd]
  obtain ⟨ys, hys, hget'⟩ := hwritten
  have heq := hsame "documents" (by decide)
  rw [hr', hr'', hys, Option.some.injEq, Json.arr.injEq] at heq
  rw [← heq, List.getElem?_set_self hi, Option.some.injEq, Json.obj.injEq] at hget'
  exact hnote (by rw [← hget']; simp)

/-- **Mutations compose exactly when the first keeps the index**, or leaves no room for a second. -/
theorem applyMutation_composes_iff {case : Dict} {p : List Json} {id : String} {r : Dict}
    (hp : applyMutation case (mutationOf id p) = .ok r) :
    (∀ q, p.length + q.length ≤ maxMutationOperations → Composes case p q) ↔
      p.length = maxMutationOperations ∨ KeepsIndex case p := by
  obtain ⟨hid, hlength, documents, keys, s, hdocs, hkeys, hrun, -⟩ := applyMutation_eq_ok.mp hp
  constructor
  · intro hall
    by_contra hnot
    obtain ⟨hne, hbroken⟩ := not_or.mp hnot
    have hroom : p.length < maxMutationOperations := by omega
    suffices h : ∃ q, p.length + q.length ≤ maxMutationOperations ∧ ¬Composes case p q by
      obtain ⟨q, hq, hno⟩ := h
      exact hno (hall q hq)
    by_contra hnone
    refine hbroken fun documents' keys' hdocs' hkeys' => ?_
    obtain rfl : documents = documents' := Option.some.inj (hdocs.symm.trans hdocs')
    obtain rfl : keys = keys' := Except.ok.inj (hkeys.symm.trans hkeys')
    have htracks := tracks_run (tracks_start hdocs hkeys) hrun
    rw [← indexView] at htracks
    cases htracks with
    | attached hview hstate hids _ =>
        rw [hview]
        intro keys' hkeys'' hhash name i hname
        by_contra hlost
        have hindexed := (indexKeys_iff_ids hids).mpr ⟨hkeys'', hhash⟩
        have hitems : s.case.get? "documents" = some (.arr s.documents) := by
          refine attached_documents hstate ?_
          rintro hempty
          rw [hempty] at hindexed
          cases hindexed
          simp [lookupId] at hname
        exact hnone (not_composes_note hid hroom hdocs hkeys hrun hitems hindexed hname
          (Or.inr hlost))
    | replaced w hview hstate hshape =>
        rw [hview]
        rintro v keys' rfl hkeys'' name
        by_contra hname
        obtain ⟨i, hi⟩ := Option.ne_none_iff_exists'.mp hname
        rcases indexKeys_eq_ok hkeys'' with ⟨items, rfl, hall'⟩ | ⟨rfl, -⟩
        · have hitems : s.case.get? "documents" = some (.arr items) := by
            rcases hshape with hsame | ⟨-, ⟨d, hd⟩⟩
            · exact hsame
            · exact absurd hd (by simp)
          exact hnone (not_composes_note hid hroom hdocs hkeys hrun hitems hall' hi
            (Or.inl hstate))
        · simp [lookupId] at hi
  · rintro (hfull | hkeep) q hq
    · have hnil : q = [] := List.length_eq_zero_iff.mp (by omega)
      rw [hnil]
      exact composes_nil
    · exact composes_of_keepsIndex hkeep hq

end Composition

section Ascii

attribute [local instance] asciiUnicode

/-- An operation that gives the sample's first document another identity. -/
def renameOperation : Json := .obj <| Dict.ofList
  [("document_id", .str "FLOW"), ("path", .str "document_id"), ("op", .str "set"),
   ("value", .str "FLOW-2")]

/-- An operation that gives a document another owner. -/
def ownerOperation (id : String) : Json := .obj <| Dict.ofList
  [("document_id", .str id), ("path", .str "owner"), ("op", .str "set"), ("value", .str "PE")]

/-- The sample with an owner changed: nothing more is asked of the operations after it. -/
theorem applyMutation_composes_owner : ∃ r,
    applyMutation (sampleCase (sampleEvent "LOW" [] []) sampleDocuments)
      (mutationOf "M-1" [ownerOperation "FLOW"]) = .ok r ∧
    ((∀ q, [ownerOperation "FLOW"].length + q.length ≤ maxMutationOperations →
        Composes (sampleCase (sampleEvent "LOW" [] []) sampleDocuments) [ownerOperation "FLOW"] q) ↔
      [ownerOperation "FLOW"].length = maxMutationOperations ∨
        KeepsIndex (sampleCase (sampleEvent "LOW" [] []) sampleDocuments)
          [ownerOperation "FLOW"]) := by
  have hreturns : (applyMutation (sampleCase (sampleEvent "LOW" [] []) sampleDocuments)
      (mutationOf "M-1" [ownerOperation "FLOW"])).toOption.isSome = true := by decide +kernel
  obtain ⟨r, hr⟩ := exists_ok_of_isSome hreturns
  exact ⟨r, hr, applyMutation_composes_iff hr⟩

/-- A document is renamed, and changed under its new name: two mutations do both, one does not
know the new name. -/
theorem applyMutation_not_composes : ∃ case p q, p.length + q.length ≤ maxMutationOperations ∧
    ¬Composes case p q := by
  refine ⟨sampleCase (sampleEvent "LOW" [] []) sampleDocuments, [renameOperation],
    [ownerOperation "FLOW-2"], by decide, ?_⟩
  intro hcomposes
  have hboth : ((applyMutation (sampleCase (sampleEvent "LOW" [] []) sampleDocuments)
      (mutationOf "M-1" [renameOperation])).bind fun r =>
        applyMutation r (mutationOf "M-2" [ownerOperation "FLOW-2"])).toOption.isSome = true := by
    decide +kernel
  obtain ⟨r', hr'⟩ := exists_ok_of_isSome hboth
  obtain ⟨r, hr, hsecond⟩ := bind_eq_ok.mp hr'
  obtain ⟨r'', hone, -⟩ := hcomposes "M-1" "M-2" "M-3" r r' (by decide) hr hsecond
  have hunknown : (applyMutation (sampleCase (sampleEvent "LOW" [] []) sampleDocuments)
      (mutationOf "M-3" ([renameOperation] ++ [ownerOperation "FLOW-2"]))).toOption.isSome =
        false := by decide +kernel
  rw [hone] at hunknown
  exact absurd hunknown (by simp [Except.toOption])

end Ascii

end QualityCI

import QualityCI.Lib.FieldUpdate
import QualityCI.Lib.JsonText
import QualityCI.Lib.KeySort
import QualityCI.Loader.Accepted
import QualityCI.Loader.Mutation

/-!
# Derived reference identities

The approved inspection record names a work instruction and a control plan by identifier and
revision.  The builder looks each one up among the documents it has built and completes the
reference with a type and with the hash of the document found.

* `finalizeControlledReferences` — the index of the documents, the registry of the two targets and
  the completed inspection record.
* `Names` — a reference has the identity of a document.
* **`finalizeControlledReferences_eq_ok`** — what the documents are when the builder returns, and
  what it makes of them.
* `finalizeControlledReferences_names_iff` — the type comes from the role that was asked for, not
  from the document that was found; the references name documents exactly when the two agree.
-/

namespace QualityCI

open Py

/-! ## The builder's errors -/

def caseBuilderErrorClass : ErrorClass := .derived .valueError "CaseBuilderError"

/-- `raise ManifestError(message)`. -/
def manifestError {α : Type} (message : String) : Result α :=
  .error ⟨.derived caseBuilderErrorClass "ManifestError", message⟩

/-- `raise DuplicateIdentifierError(message)`. -/
def duplicateIdentifierError {α : Type} (message : String) : Result α :=
  .error ⟨.derived caseBuilderErrorClass "DuplicateIdentifierError", message⟩

@[simp] lemma manifestError_ne_ok {α : Type} {message : String} {a : α} :
    (manifestError message : Result α) ≠ .ok a := by
  simp [manifestError]

@[simp] lemma duplicateIdentifierError_ne_ok {α : Type} {message : String} {a : α} :
    (duplicateIdentifierError message : Result α) ≠ .ok a := by
  simp [duplicateIdentifierError]

/-! ## Comparing values -/

mutual

/-- `v == w`. -/
def pyEquals : Json → Json → Bool
  | .arr items, .arr items' => pyEqualItems items items'
  | .obj entries, .obj entries' =>
      entries.length = entries'.length && pyEqualEntries entries entries'
  | v, w => sameKey v w

/-- The members of two lists, in order. -/
def pyEqualItems : List Json → List Json → Bool
  | [], [] => true
  | x :: xs, y :: ys => pyEquals x y && pyEqualItems xs ys
  | _, _ => false

/-- Each item of a dictionary, under its key in the other. -/
def pyEqualEntries : List (String × Json) → Dict → Bool
  | [], _ => true
  | (key, x) :: xs, other =>
      (match other.get? key with
        | some y => pyEquals x y
        | none => false) && pyEqualEntries xs other

end

/-- `a.get(key) == b.get(key)`. -/
def sameField (a b : Dict) (key : String) : Bool :=
  pyEquals (a.getD key .null) (b.getD key .null)

/-! ## The registry -/

section Build

variable [PyUnicode]

/-- The roles of the inspection record's references, in the order they are looked up. -/
def referenceTargets : List String := ["SOP", "CONTROL_PLAN"]

/-- One pass of the loop that indexes the documents. -/
def exactId (ids : List Json) (document : Dict) : Result (List Json) := do
  let id ← document.getItem "document_id"
  requireHashable id
  whenever (ids.any (sameKey · id) = true) (duplicateIdentifierError
    s!"duplicate exact document_id in controlled reference registry: {id.toStr}")
  .ok (ids ++ [id])

/-- The keys of `by_exact_id`, one for each document. -/
def exactIds (documents : List Dict) : Result (List Json) :=
  enumerateM (fun _ ids document => exactId ids document) 0 [] documents

omit [PyUnicode] in
/-- The record whose references are completed. -/
def isApprovedInspection (document : Dict) : Bool :=
  document.get? "document_type" = some (.str "INSPECTION_RECORD") &&
    document.get? "status" = some (.str "APPROVED")

omit [PyUnicode] in
/-- `inspection.get("fields", {}).get("references", default)`. -/
def referencesAt (inspection : Dict) (default : Json) : Result Json :=
  match inspection.getD "fields" (.obj []) with
  | .obj fields => .ok (Dict.getD fields "references" default)
  | v => attributeError s!"'{v.typeName}' object has no attribute 'get'"

omit [PyUnicode] in
/-- The identifier that the reference of a role claims, `None` when it is not there. -/
def claimedId (references : Json) (role : String) : Json :=
  match references with
  | .obj references =>
      match Dict.getD references role .null with
      | .obj observation => Dict.getD observation "document_id" .null
      | _ => .null
  | _ => .null

omit [PyUnicode] in
/-- The entry of one role in the registry. -/
def registryEntry (documents : List Dict) (ids : List Json) (references : Json) (role : String) :
    Result Dict := do
  let claimed := claimedId references role
  requireHashable claimed
  match (lookupId ids claimed).bind fun i => documents[i]? with
  | none => manifestError s!"Inspection reference target does not exist: {role}"
  | some target => do
      let sourceHash := ((target.get? "source_hash").bind Json.str?).getD ""
      whenever (isLowercaseSha256 sourceHash = false)
        (manifestError s!"Inspection reference target is not byte-addressed: {role}")
      let id ← target.getItem "document_id"
      let revision ← target.getItem "revision"
      .ok (Dict.ofList [("document_type", .str role), ("document_id", id), ("revision", revision),
        ("source_hash", .str sourceHash)])

/-! ## The inspection record -/

omit [PyUnicode] in
/-- The provenance of one derived leaf of a reference. -/
def derivedProvenance (role leaf value sourceHash : String) (target : Dict) : Json :=
  .obj (Dict.ofList
    [("mapping_kind", .str "DERIVED_REFERENCE_IDENTITY"),
     ("target", .str s!"fields.references.{role}.{leaf}"), ("value", .str value),
     ("reference_role", .str role), ("target_document_id", target.getD "document_id" .null),
     ("target_revision", target.getD "revision" .null), ("target_source_hash", .str sourceHash),
     ("derivation_contract", .str "qualityci-derived-reference-identity-0.1")])

omit [PyUnicode] in
/-- One pass of the loop over the roles: the references and the provenance. -/
def overlayRole (registry : List (String × Dict)) (state : Dict × List Json) (role : String) :
    Result (Dict × List Json) :=
  match state.1.get? role, registry.lookup role with
  | some (.obj identity), some target => do
      whenever (¬(target.getD "document_type" .null = .str role ∧
          sameField target identity "document_id" = true ∧
          sameField target identity "revision" = true))
        (manifestError s!"Inspection reference target identity differs: {role}")
      let sourceHash := target.textAt "source_hash"
      whenever (isLowercaseSha256 sourceHash = false)
        (manifestError s!"Inspection reference target is not byte-addressed: {role}")
      let identity := (Dict.set identity "document_type" (.str role)).set "source_hash"
        (.str sourceHash)
      .ok (state.1.set role (.obj identity), state.2 ++
        [derivedProvenance role "document_type" role sourceHash target,
         derivedProvenance role "source_hash" sourceHash sourceHash target])
  | _, _ => manifestError s!"Inspection reference is missing: {role}"

/-- The key that the provenance is sorted under. -/
def provenanceKey (item : Json) : Result (List String × Json) :=
  match item with
  | .obj entry => .ok ([(Dict.getD entry "target" (.str "")).toStr,
      (Dict.getD entry "mapping_kind" (.str "")).toStr, String.ofList (jsonText item)], item)
  | v => attributeError s!"'{v.typeName}' object has no attribute 'get'"

/-- `_finalize_inspection_reference_with_registry`. -/
def finalizeInspection (inspection : Dict) (registry : List (String × Dict)) : Result Dict := do
  let inspection := inspection.set "reference_contract_version"
    (.str controlledReferenceContractVersion)
  let references ← referencesAt inspection .null
  match references, inspection.get? "mapping_provenance" with
  | .obj references, some (.arr provenance) => do
      let (references, provenance) ←
        enumerateM (fun _ state role => overlayRole registry state role) 0 (references, provenance)
          referenceTargets
      let keyed ← mapEach provenanceKey provenance
      let sorted := (KeySort.sortBy Prod.fst keyed).map Prod.snd
      .ok ((inspection.set "mapping_provenance" (.arr sorted)).set "fields"
        (.obj ((inspection.dictAt "fields").set "references" (.obj references))))
  | .obj _, _ => manifestError "Inspection mapping provenance is missing"
  | _, _ => manifestError "Inspection references are missing"

/-- `_finalize_controlled_references`: the documents, the inspection record completed in place. -/
def finalizeControlledReferences (documents : List Dict) : Result (List Dict) := do
  let ids ← exactIds documents
  match documents.findIdx? isApprovedInspection with
  | none => manifestError "controlled references require an approved Inspection record"
  | some i => do
      let inspection := documents.getD i []
      let references ← referencesAt inspection (.obj [])
      let registry ← mapEach (fun role => do
        let entry ← registryEntry documents ids references role
        pure (role, entry)) referenceTargets
      let inspection ← finalizeInspection inspection registry
      .ok (documents.set i inspection)

/-! ## What the references name -/

omit [PyUnicode] in
/-- The reference of a role in the approved inspection record. -/
def inspectionReference (documents : List Dict) (role : String) : Option Dict :=
  (documents.find? isApprovedInspection).bind fun inspection =>
    (((inspection.dictAt "fields").dictAt "references").get? role).bind Json.obj?

/-- The fields of a reference identity. -/
def referenceIdentityFields : List String :=
  ["document_type", "document_id", "revision", "source_hash"]

/-- A reference has the identity of a document. -/
def Names (identity document : Dict) : Prop :=
  ∀ key ∈ referenceIdentityFields, sameField document identity key = true

/-- Each role's reference names a document of the list. -/
def ReferencesNamed (documents : List Dict) : Prop :=
  ∀ role ∈ referenceTargets, ∃ identity, inspectionReference documents role = some identity ∧
    ∃ document ∈ documents, Names identity document

/-- The document that each role's reference claims by its identifier has the type of the role. -/
def ClaimsRoles (documents : List Dict) : Prop :=
  ∀ role ∈ referenceTargets, ∀ identity ∈ inspectionReference documents role,
    ∀ document ∈ documents, sameField document identity "document_id" = true →
      document.get? "document_type" = some (.str role)

/-! ## Keys of the index -/

omit [PyUnicode] in
lemma sameKey_iff {v w : Json} : sameKey v w = true ↔
    numberOf v = numberOf w ∧ (numberOf v = none → v = w ∧ v ≠ .float .nan) := by
  unfold sameKey
  cases hv : numberOf v with
  | none =>
      cases hw : numberOf w with
      | none => simp
      | some q => simp
  | some p =>
      cases hw : numberOf w with
      | none => simp
      | some q => simp

omit [PyUnicode] in
/-- Two values that are one key with a third are one key. -/
lemma sameKey_of_common {u v w : Json} (hu : sameKey u w = true) (hv : sameKey v w = true) :
    sameKey u v = true := by
  rw [sameKey_iff] at hu hv ⊢
  refine ⟨hu.1.trans hv.1.symm, fun hnone => ?_⟩
  obtain ⟨rfl, hnan⟩ := hu.2 hnone
  obtain ⟨rfl, -⟩ := hv.2 (hv.1.trans hnone)
  exact ⟨rfl, hnan⟩

omit [PyUnicode] in
lemma sameKey_symm {v w : Json} (h : sameKey v w = true) : sameKey w v = true := by
  rw [sameKey_iff] at h ⊢
  refine ⟨h.1.symm, fun hnone => ?_⟩
  obtain ⟨rfl, hnan⟩ := h.2 (h.1.trans hnone)
  exact ⟨rfl, hnan⟩

omit [PyUnicode] in
/-- Against a value that can be a key, equality is sameness of keys. -/
lemma pyEquals_of_hashable {v w : Json} (h : requireHashable w = .ok ()) :
    pyEquals v w = sameKey v w := by
  cases w with
  | arr _ => simp [requireHashable] at h
  | obj _ => simp [requireHashable] at h
  | _ => cases v <;> rfl

omit [PyUnicode] in
lemma pyEquals_str {v : Json} {s : String} : pyEquals v (.str s) = true ↔ v = .str s := by
  rw [pyEquals_of_hashable rfl, sameKey_iff]
  constructor
  · rintro ⟨hnumber, h⟩
    exact (h (hnumber.trans rfl)).1
  · rintro rfl
    exact ⟨rfl, fun _ => ⟨rfl, by simp⟩⟩

/-- **The index**: every document has an identifier, and no two have the same. -/
lemma exactIds_eq_ok {documents : List Dict} {start ids : List Json} {i : ℕ}
    (hstart : start.Pairwise fun a b => sameKey a b = false)
    (h : enumerateM (fun _ ids document => exactId ids document) i start documents = .ok ids) :
    ∃ own, ids = start ++ own ∧
      List.Forall₂ (fun document id => Dict.get? document "document_id" = some id) documents own ∧
      ids.Pairwise fun a b => sameKey a b = false := by
  induction documents generalizing start i with
  | nil =>
      obtain rfl := Except.ok.inj h
      exact ⟨[], by simp, List.Forall₂.nil, hstart⟩
  | cons document rest ih =>
      simp only [enumerateM, exactId, bind_eq_ok, exists_unit, Dict.getItem_eq_ok, whenever_eq_ok,
        duplicateIdentifierError_ne_ok, imp_false, Bool.not_eq_true, Except.ok.injEq] at h
      obtain ⟨_, ⟨id, hid, -, hnew, rfl⟩, hrest⟩ := h
      have hfresh : ∀ key ∈ start, sameKey key id = false := by
        intro key hkey
        have := List.any_eq_false.mp hnew key hkey
        simpa using this
      have hnext : (start ++ [id]).Pairwise fun a b => sameKey a b = false := by
        refine List.pairwise_append.mpr ⟨hstart, List.pairwise_singleton _ _, ?_⟩
        intro key hkey other hother
        obtain rfl := List.mem_singleton.mp hother
        exact hfresh key hkey
      obtain ⟨own, rfl, hown, hpairwise⟩ := ih hnext hrest
      exact ⟨id :: own, by simp, List.Forall₂.cons hid hown, hpairwise⟩

omit [PyUnicode] in
/-- What is found for a role, and what is registered of it. -/
lemma registryEntry_eq_ok {documents : List Dict} {ids : List Json} {references : Json}
    {role : String} {entry : Dict} (h : registryEntry documents ids references role = .ok entry) :
    requireHashable (claimedId references role) = .ok () ∧
    ∃ j target id revision sourceHash,
      lookupId ids (claimedId references role) = some j ∧ documents[j]? = some target ∧
      Dict.get? target "document_id" = some id ∧ Dict.get? target "revision" = some revision ∧
      Dict.get? target "source_hash" = some (.str sourceHash) ∧
      entry = Dict.ofList [("document_type", .str role), ("document_id", id),
        ("revision", revision), ("source_hash", .str sourceHash)] := by
  simp only [registryEntry, bind_eq_ok, exists_unit] at h
  obtain ⟨hhash, h⟩ := h
  refine ⟨hhash, ?_⟩
  split at h
  · simp at h
  · rename_i target htarget
    simp only [bind_eq_ok, exists_unit, whenever_eq_ok, manifestError_ne_ok, imp_false,
      Bool.not_eq_false, Dict.getItem_eq_ok, Except.ok.injEq] at h
    obtain ⟨hsha, id, hid, revision, hrevision, rfl⟩ := h
    obtain ⟨j, hj, hat⟩ := Option.bind_eq_some_iff.mp htarget
    have hsource : Dict.get? target "source_hash" =
        some (.str (((Dict.get? target "source_hash").bind Json.str?).getD "")) := by
      cases hget : (Dict.get? target "source_hash").bind Json.str? with
      | none =>
          rw [hget] at hsha
          exact absurd hsha (by decide)
      | some s =>
          obtain ⟨v, hv, hs⟩ := Option.bind_eq_some_iff.mp hget
          rw [hv, Json.str?_eq_some.mp hs]
          rfl
    exact ⟨j, target, id, revision, _, hj, hat, hid, hrevision, hsource, rfl⟩

omit [PyUnicode] in
lemma referencesAt_of_get? {inspection references : Dict} {default : Json}
    (hfields : inspection.get? "fields" = some (.obj (inspection.dictAt "fields")))
    (hreferences : (inspection.dictAt "fields").get? "references" = some (.obj references)) :
    referencesAt inspection default = .ok (.obj references) := by
  simp only [referencesAt, Dict.getD, hfields, Option.getD_some, hreferences]

omit [PyUnicode] in
/-- A completed reference: what the record claimed, the role and the hash of the target. -/
def completed (identity : Dict) (role sourceHash : String) : Dict :=
  (identity.set "document_type" (.str role)).set "source_hash" (.str sourceHash)

omit [PyUnicode] in
/-- What one pass over a role asks and does. -/
lemma overlayRole_eq_ok {registry : List (String × Dict)} {state state' : Dict × List Json}
    {role : String} (h : overlayRole registry state role = .ok state') :
    ∃ identity target : Dict, state.1.get? role = some (.obj identity) ∧
      registry.lookup role = some target ∧ sameField target identity "document_id" = true ∧
      sameField target identity "revision" = true ∧
      state'.1 = state.1.set role
        (.obj (completed identity role (target.textAt "source_hash"))) := by
  unfold overlayRole at h
  split at h
  · rename_i identity target hidentity htarget
    simp only [bind_eq_ok, exists_unit, whenever_eq_ok, manifestError_ne_ok, imp_false, not_not,
      Except.ok.injEq] at h
    obtain ⟨⟨-, hid, hrevision⟩, -, rfl⟩ := h
    exact ⟨identity, target, hidentity, htarget, hid, hrevision, rfl⟩
  · simp at h

omit [PyUnicode] in
lemma referencesAt_obj {inspection references : Dict} {default : Json}
    (h : referencesAt inspection default = .ok (.obj references)) (hdefault : default = .null) :
    inspection.get? "fields" = some (.obj (inspection.dictAt "fields")) ∧
      (inspection.dictAt "fields").get? "references" = some (.obj references) := by
  subst hdefault
  unfold referencesAt at h
  cases hfields : inspection.get? "fields" with
  | none => simp [Dict.getD, hfields] at h
  | some v =>
      cases v with
      | obj fields =>
          have hget : Dict.getD fields "references" .null = .obj references := by
            simpa [Dict.getD, hfields] using h
          have hdict : inspection.dictAt "fields" = fields := Dict.dictAt_eq hfields
          rw [hdict]
          refine ⟨rfl, ?_⟩
          cases hreferences : Dict.get? fields "references" with
          | none => simp [Dict.getD, hreferences] at hget
          | some w =>
              rw [Dict.getD, hreferences, Option.getD_some] at hget
              rw [hget]
      | _ => simp [Dict.getD, hfields] at h

/-- **The completed inspection record.**  Each role's reference claims the identifier and the
revision registered for it, and is completed; the identity of the record itself stays. -/
lemma finalizeInspection_eq_ok {inspection inspection' : Dict} {registry : List (String × Dict)}
    (h : finalizeInspection inspection registry = .ok inspection') :
    (∀ key ∈ "status" :: referenceIdentityFields, inspection'.get? key = inspection.get? key) ∧
    ∃ references references' : Dict,
      inspection.get? "fields" = some (.obj (inspection.dictAt "fields")) ∧
      (inspection.dictAt "fields").get? "references" = some (.obj references) ∧
      ((inspection'.dictAt "fields").get? "references") = some (.obj references') ∧
      ∀ role ∈ referenceTargets, ∃ identity target : Dict,
        references.get? role = some (.obj identity) ∧
        registry.lookup role = some target ∧ sameField target identity "document_id" = true ∧
        sameField target identity "revision" = true ∧
        references'.get? role =
          some (.obj (completed identity role (target.textAt "source_hash"))) := by
  simp only [finalizeInspection, bind_eq_ok] at h
  obtain ⟨references, hreferences, h⟩ := h
  split at h
  case h_2 => simp at h
  case h_3 => simp at h
  case h_1 references provenance hprovenance =>
    simp only [bind_eq_ok, Prod.exists, Except.ok.injEq, Prod.mk.injEq, referenceTargets,
      enumerateM] at h
    obtain ⟨_, _, ⟨_, _, hsop, _, _, hplan, rfl, rfl⟩, keyed, -, rfl⟩ := h
    obtain ⟨sop, sopTarget, hgetSop, hlookSop, hidSop, hrevSop, hsop⟩ := overlayRole_eq_ok hsop
    obtain ⟨plan, planTarget, hgetPlan, hlookPlan, hidPlan, hrevPlan, hplan⟩ :=
      overlayRole_eq_ok hplan
    simp only at hsop hplan
    subst hsop hplan
    obtain ⟨hfields, hget⟩ := referencesAt_obj hreferences rfl
    have hsame : (inspection.set "reference_contract_version"
        (.str controlledReferenceContractVersion)).dictAt "fields" =
          inspection.dictAt "fields" := by
      simp [Dict.dictAt]
    rw [hsame] at hfields hget
    refine ⟨?_, references, (Dict.set references "SOP"
        (.obj (completed sop "SOP" (sopTarget.textAt "source_hash")))).set "CONTROL_PLAN"
        (.obj (completed plan "CONTROL_PLAN" (planTarget.textAt "source_hash"))),
      by simpa using hfields, hget, ?_, ?_⟩
    · intro key hkey
      simp only [referenceIdentityFields, List.mem_cons, List.not_mem_nil, or_false] at hkey
      rcases hkey with rfl | rfl | rfl | rfl | rfl <;> simp
    · simp [Dict.dictAt, Json.obj?]
    · intro role hrole
      simp only [referenceTargets, List.mem_cons, List.not_mem_nil, or_false] at hrole
      rcases hrole with rfl | rfl
      · exact ⟨sop, sopTarget, hgetSop, hlookSop, hidSop, hrevSop, by simp⟩
      · refine ⟨plan, planTarget, ?_, hlookPlan, hidPlan, hrevPlan, by simp⟩
        simpa using hgetPlan

omit [PyUnicode] in
/-- A list against itself with one member changed. -/
lemma forall₂_set_self {α : Type} {R : α → α → Prop} {l : List α} {i : ℕ} {y : α}
    (hself : ∀ x ∈ l, R x x) (h : ∀ x, l[i]? = some x → R x y) : List.Forall₂ R l (l.set i y) := by
  induction l generalizing i with
  | nil => exact List.Forall₂.nil
  | cons x rest ih =>
      cases i with
      | zero =>
          refine List.Forall₂.cons (h x rfl) (List.forall₂_same.mpr fun z hz => ?_)
          exact hself z (List.mem_cons_of_mem x hz)
      | succ i =>
          refine List.Forall₂.cons (hself x List.mem_cons_self) (ih ?_ h)
          exact fun z hz => hself z (List.mem_cons_of_mem x hz)

omit [PyUnicode] in
/-- The registry has the entry of a role under the role. -/
lemma registryEntry_of_lookup {documents : List Dict} {ids : List Json} {references : Json}
    {registry : List (String × Dict)} {role : String} {entry : Dict}
    (h : mapEach (fun role => do
      let entry ← registryEntry documents ids references role
      pure (role, entry)) referenceTargets = .ok registry)
    (hrole : role ∈ referenceTargets) (hentry : registry.lookup role = some entry) :
    registryEntry documents ids references role = .ok entry := by
  simp only [referenceTargets, mapEach, bind_eq_ok, pure_eq_ok, Except.ok.injEq] at h
  obtain ⟨_, ⟨sop, hsop, rfl⟩, _, ⟨_, ⟨plan, hplan, rfl⟩, _, rfl, rfl⟩, rfl⟩ := h
  simp only [referenceTargets, List.mem_cons, List.not_mem_nil, or_false] at hrole
  rcases hrole with rfl | rfl
  · obtain rfl : sop = entry := by simpa [List.lookup_cons] using hentry
    exact hsop
  · obtain rfl : plan = entry := by simpa [List.lookup_cons] using hentry
    exact hplan

omit [PyUnicode] in
/-- The approved inspection record, completed in its place, is still the one that is found. -/
lemma find_approvedInspection {documents : List Dict} {inspection' : Dict} {i : ℕ}
    (hfind : documents.findIdx? isApprovedInspection = some i)
    (h : isApprovedInspection inspection' = true) :
    documents.find? isApprovedInspection = some (documents.getD i []) ∧
      (documents.set i inspection').find? isApprovedInspection = some inspection' := by
  obtain ⟨hlt, hhere, hbefore⟩ := List.findIdx?_eq_some_iff_getElem.mp hfind
  constructor
  · rw [List.find?_eq_some_iff_getElem]
    rw [List.getD_eq_getElem?_getD, List.getElem?_eq_getElem hlt, Option.getD_some]
    exact ⟨hhere, i, hlt, rfl, fun j hj => by simpa using hbefore j hj⟩
  · rw [List.find?_eq_some_iff_getElem]
    refine ⟨h, i, by simpa using hlt, List.getElem_set_self _, fun j hj => ?_⟩
    rw [List.getElem_set_ne (by omega)]
    simpa using hbefore j hj

/-- What the builder has found and made for one role. -/
structure Resolved (documents documents' : List Dict) (role : String) (identity target : Dict)
    (sourceHash : String) : Prop where
  claimed : inspectionReference documents role = some identity
  hashable : requireHashable (identity.getD "document_id" .null) = .ok ()
  found : target ∈ documents
  sameId : sameField target identity "document_id" = true
  sameRevision : sameField target identity "revision" = true
  hash : target.get? "source_hash" = some (.str sourceHash)
  made : inspectionReference documents' role = some (completed identity role sourceHash)

/-- **What the builder returns.**  Each role's reference claims a document of the list and is
completed with the role and the document's hash; no two documents have the same identifier, and the
identities of the documents stay. -/
theorem finalizeControlledReferences_eq_ok {documents documents' : List Dict}
    (h : finalizeControlledReferences documents = .ok documents') :
    (∀ role ∈ referenceTargets, ∃ identity target sourceHash,
      Resolved documents documents' role identity target sourceHash) ∧
    (∀ document ∈ documents, ∀ other ∈ documents,
      sameKey (document.getD "document_id" .null) (other.getD "document_id" .null) = true →
        document = other) ∧
    List.Forall₂ (fun document document' : Dict => ∀ key ∈ referenceIdentityFields,
      document'.get? key = document.get? key) documents documents' := by
  simp only [finalizeControlledReferences, bind_eq_ok] at h
  obtain ⟨ids, hids, h⟩ := h
  obtain ⟨own, rfl, hown, hdistinct⟩ := exactIds_eq_ok List.Pairwise.nil hids
  cases hfind : documents.findIdx? isApprovedInspection with
  | none => simp [hfind] at h
  | some i =>
      simp only [hfind, bind_eq_ok, Except.ok.injEq] at h
      obtain ⟨claims, hclaims, registry, hregistry, inspection', hinspection, rfl⟩ := h
      obtain ⟨hkept, references, references', hfields, hreferences, hreferences', hroles⟩ :=
        finalizeInspection_eq_ok hinspection
      have happroved : isApprovedInspection inspection' = true := by
        obtain ⟨hlt, hhere, -⟩ := List.findIdx?_eq_some_iff_getElem.mp hfind
        rw [isApprovedInspection, hkept "status" (by simp),
          hkept "document_type" (by simp [referenceIdentityFields]), ← isApprovedInspection,
          List.getD_eq_getElem?_getD, List.getElem?_eq_getElem hlt, Option.getD_some]
        exact hhere
      obtain ⟨hbefore, hafter⟩ := find_approvedInspection hfind happroved
      rw [referencesAt_of_get? hfields hreferences] at hclaims
      obtain rfl := Except.ok.inj hclaims
      refine ⟨?_, ?_, ?_⟩
      · intro role hrole
        obtain ⟨identity, entry, hidentity, hentry, hid, hrevision, hmade⟩ := hroles role hrole
        have hregistered : registryEntry documents ids (.obj references) role = .ok entry :=
          registryEntry_of_lookup hregistry hrole hentry
        obtain ⟨hhash, j, target, id, revision, sourceHash, hfound, hat, htargetId, htargetRev,
          htargetHash, rfl⟩ := registryEntry_eq_ok hregistered
        have hclaimed : claimedId (.obj references) role = identity.getD "document_id" .null := by
          simp only [claimedId, Dict.getD, hidentity, Option.getD_some]
        refine ⟨identity, target, sourceHash, ?_, hclaimed ▸ hhash, List.mem_of_getElem? hat, ?_,
          ?_, htargetHash, ?_⟩
        · rw [inspectionReference, hbefore, Option.bind_some, Dict.dictAt_eq hreferences, hidentity]
          rfl
        · simpa [sameField, Dict.getD, Dict.ofList, htargetId] using hid
        · simpa [sameField, Dict.getD, Dict.ofList, htargetRev] using hrevision
        · rw [inspectionReference, hafter, Option.bind_some, Dict.dictAt_eq hreferences', hmade]
          simp [Dict.ofList, Dict.textAt, Json.str?, Json.obj?]
      · have hids' : ids = documents.map fun d => d.getD "document_id" .null := by
          symm
          rw [← List.forall₂_eq_eq_eq, List.forall₂_map_left_iff]
          exact hown.imp fun d id hid => by simp [Dict.getD, hid]
        rw [hids', List.pairwise_map] at hdistinct
        have hsymm : Std.Symm fun a b : Dict =>
            sameKey (a.getD "document_id" .null) (b.getD "document_id" .null) = false := by
          refine ⟨fun a b hab => ?_⟩
          rw [Bool.eq_false_iff] at hab ⊢
          exact fun hba => hab (sameKey_symm hba)
        intro document hdocument other hother hsame
        by_contra hne
        have hfalse := hdistinct.forall hdocument hother hne
        rw [hsame] at hfalse
        exact absurd hfalse (by decide)
      · refine forall₂_set_self (fun document _ _ _ => rfl) fun document hdocument key hkey => ?_
        rw [hkept key (List.mem_cons_of_mem _ hkey), List.getD_eq_getElem?_getD, hdocument]
        rfl

omit [PyUnicode] in
/-- A completed reference keeps what the record claimed. -/
lemma getD_completed (identity : Dict) (role sourceHash key : String) :
    (completed identity role sourceHash).getD key .null =
      if key = "source_hash" then .str sourceHash
      else if key = "document_type" then .str role else identity.getD key .null := by
  simp only [completed, Dict.getD, Dict.get?_set]
  by_cases hhash : key = "source_hash"
  · simp [hhash]
  · by_cases htype : key = "document_type"
    · simp [htype]
    · simp [hhash, htype, Ne.symm (a := key) hhash, Ne.symm (a := key) htype]

omit [PyUnicode] in
/-- The document that a claim finds is the only one with the claimed identifier. -/
lemma Resolved.unique {documents documents' : List Dict} {role sourceHash : String}
    {identity target : Dict} (h : Resolved documents documents' role identity target sourceHash)
    (hdistinct : ∀ document ∈ documents, ∀ other ∈ documents,
      sameKey (document.getD "document_id" .null) (other.getD "document_id" .null) = true →
        document = other)
    {document : Dict} (hdocument : document ∈ documents)
    (hsame : sameField document identity "document_id" = true) : document = target := by
  have htarget := h.sameId
  rw [sameField, pyEquals_of_hashable h.hashable] at hsame htarget
  exact hdistinct document hdocument target h.found (sameKey_of_common hsame htarget)

lemma claimsRoles_of_named {documents documents' : List Dict}
    (h : finalizeControlledReferences documents = .ok documents')
    (hnamed : ReferencesNamed documents') : ClaimsRoles documents := by
  obtain ⟨hroles, hdistinct, hkept⟩ := finalizeControlledReferences_eq_ok h
  intro role hrole identity hidentity document hdocument hsame
  obtain ⟨identity₀, target, sourceHash, hresolved⟩ := hroles role hrole
  obtain rfl : identity₀ = identity :=
    Option.some.inj (hresolved.claimed.symm.trans hidentity)
  obtain rfl := hresolved.unique hdistinct hdocument hsame
  obtain ⟨made, hmade, named, hnamedIn, hnames⟩ := hnamed role hrole
  obtain rfl := Option.some.inj (hresolved.made.symm.trans hmade)
  -- the document named is one of the list, and the one the claim found
  obtain ⟨original, horiginal, hfields⟩ := forall₂_exists_right hkept.flip hnamedIn
  have hid := hnames "document_id" (by decide)
  have htype := hnames "document_type" (by decide)
  rw [sameField, getD_completed, Dict.getD, hfields "document_id" (by decide)] at hid
  rw [sameField, getD_completed, Dict.getD, hfields "document_type" (by decide)] at htype
  obtain rfl := hresolved.unique hdistinct horiginal (by simpa [sameField, Dict.getD] using hid)
  have hrole' : (Dict.get? original "document_type").getD .null = .str role :=
    pyEquals_str.mp (by simpa using htype)
  cases hget : Dict.get? original "document_type" with
  | none => simp [hget] at hrole'
  | some v => rw [hget, Option.getD_some] at hrole'; rw [hrole']

lemma named_of_claimsRoles {documents documents' : List Dict}
    (h : finalizeControlledReferences documents = .ok documents')
    (hclaims : ClaimsRoles documents) : ReferencesNamed documents' := by
  obtain ⟨hroles, -, hkept⟩ := finalizeControlledReferences_eq_ok h
  intro role hrole
  obtain ⟨identity, target, sourceHash, hresolved⟩ := hroles role hrole
  refine ⟨_, hresolved.made, ?_⟩
  obtain ⟨named, hnamedIn, hfields⟩ := forall₂_exists_right hkept hresolved.found
  have htype := hclaims role hrole identity hresolved.claimed target hresolved.found
    hresolved.sameId
  refine ⟨named, hnamedIn, fun key hkey => ?_⟩
  have hget := hfields key hkey
  simp only [referenceIdentityFields, List.mem_cons, List.not_mem_nil, or_false] at hkey
  rw [sameField, getD_completed, Dict.getD, hget]
  rcases hkey with rfl | rfl | rfl | rfl
  · rw [htype]
    exact pyEquals_str.mpr rfl
  · exact hresolved.sameId
  · exact hresolved.sameRevision
  · rw [hresolved.hash]
    exact pyEquals_str.mpr rfl

/-- **When the references name documents.**  A reference is given the type of its role whatever the
document found under its identifier is; it names a document exactly when that document has the type
of the role. -/
theorem finalizeControlledReferences_names_iff {documents documents' : List Dict}
    (h : finalizeControlledReferences documents = .ok documents') :
    ReferencesNamed documents' ↔ ClaimsRoles documents :=
  ⟨claimsRoles_of_named h, named_of_claimsRoles h⟩

end Build

/-! ## A control plan under the role of a work instruction -/

section Ascii

attribute [local instance] asciiUnicode

/-- A document of a type that a reference can claim. -/
def targetDocument (documentType id : String) (digit : Char) : Dict := Dict.ofList
  [("document_type", .str documentType), ("document_id", .str id), ("revision", .str "A"),
   ("status", .str "APPROVED"), ("source_hash", .str (String.ofList (List.replicate 64 digit)))]

/-- The claim of an identifier. -/
def referenceClaim (id : String) : Json := .obj (Dict.ofList
  [("document_id", .str id), ("revision", .str "A")])

/-- The documents of a case whose inspection record claims a document as its work instruction. -/
def documentsClaiming (id : String) : List Dict :=
  [targetDocument "SOP" "SOP-1" 'a', targetDocument "CONTROL_PLAN" "CP-1" 'b',
   (((targetDocument "INSPECTION_RECORD" "IR-1" 'c').set "mapping_provenance" (.arr [])).set
     "fields" (.obj (Dict.ofList [("references", .obj (Dict.ofList
       [("SOP", referenceClaim id), ("CONTROL_PLAN", referenceClaim "CP-1")]))])))]

/-- A record that claims a work instruction and a control plan. -/
theorem finalizeControlledReferences_names_sample :
    ∃ documents', finalizeControlledReferences (documentsClaiming "SOP-1") = .ok documents' ∧
      (ReferencesNamed documents' ↔ ClaimsRoles (documentsClaiming "SOP-1")) := by
  obtain ⟨documents', h⟩ : ∃ documents', finalizeControlledReferences (documentsClaiming "SOP-1") =
      .ok documents' := exists_ok_of_isSome (by decide +kernel)
  exact ⟨documents', h, finalizeControlledReferences_names_iff h⟩

/-- A record that claims its control plan as its work instruction too is completed, and the
reference it is given names no document. -/
theorem control_plan_named_as_sop :
    ∃ documents documents', finalizeControlledReferences documents = .ok documents' ∧
      ¬ReferencesNamed documents' := by
  obtain ⟨documents', h⟩ : ∃ documents', finalizeControlledReferences (documentsClaiming "CP-1") =
      .ok documents' := exists_ok_of_isSome (by decide +kernel)
  refine ⟨_, documents', h, fun hnamed => ?_⟩
  have htype := claimsRoles_of_named h hnamed "SOP" (by decide)
    (Dict.ofList [("document_id", .str "CP-1"), ("revision", .str "A")]) (by decide +kernel)
    (targetDocument "CONTROL_PLAN" "CP-1" 'b') (by decide +kernel) (by decide +kernel)
  exact absurd htype (by decide +kernel)

end Ascii

end QualityCI

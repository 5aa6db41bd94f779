import QualityCI.Replay.Sharing

/-!
# The two parsers of a resolution

The workflow decodes a native resolution before it is approved, and the lineage decodes the same
bytes again when it is derived and when it is replayed.  Each has the grammar written out for
itself.  They agree on the shape of a resolution, its keys, its operations and its values, and
they differ in what they ask of its texts: the workflow asks that a text is not blank, the lineage
that it has no whitespace around it and no control character in it.

* `validateRawOperationPaths` — the paths a resolution may write to, of the operations as read.
* `NativeResolutionShape` — what both parsers ask.
* `validateNativeResolution_accepts`, `projectResolution_accepts` — the language of each parser.
* **`nativeResolution_parsers_agree_iff`** — they accept the same and read it alike exactly where
  the texts that the workflow takes are exact.
* `padded_resolution_rejected` — a resolution that is approved and then has no lineage.
-/

namespace QualityCI

open Py

/-! ## The paths of the operations -/

section Paths

variable [PyUnicode]

/-- One operation, in the loop of `validate_resolution_operation_paths`, as it was read. -/
def validateRawOperationPath (index : ℕ) (touched : Dict) (operation : Json) : Result Dict :=
  match operation with
  | .obj d => do
      require (Dict.getD d "target" (.str "document") = .str "document")
        "revision artifacts can replace documents only"
      -- a document_id or a path that is no text is rejected as a blank one is
      validateOperationPath index touched (operationOf operation)
  | _ => valueError "revision artifacts can replace documents only"

/-- `validate_resolution_operation_paths`, of the operations as they were read. -/
def validateRawOperationPaths (operations : Json) : Result (List String) :=
  match operations with
  | .arr items => do
      require (items ≠ []) "resolution operations must be a non-empty list"
      let touched ← enumerateM validateRawOperationPath 0 [] items
      .ok (touched.filterMap fun entry => entry.2.str?)
  | _ => valueError "resolution operations must be a non-empty list"

/-- The bytes hold a resolution whose operations have paths that it may write to. -/
def HasResolutionPaths (raw : Bytes) : Prop := ∃ (d : Dict) (touched : List String),
  strictUtf8Json raw "native resolution bytes are invalid JSON" = .ok (.obj d) ∧
  validateRawOperationPaths (d.getD "operations" .null) = .ok touched

end Paths

/-! ## Texts -/

/-- A non-empty string with no whitespace around it and no control character in it. -/
def IsExactText (value : Json) : Prop := ∃ s, value = .str s ∧ (s ≠ "" ∧ s = strip s) ∧
  ∀ c ∈ s.toList, ¬(c.toNat < 32 ∨ c.toNat = 127)

lemma sourceExactNonempty_eq_ok {value : Json} {label : String} {u : Unit} :
    sourceExactNonempty value label = .ok u ↔ IsExactText value := by
  cases value with
  | str s => simp [sourceExactNonempty, IsExactText]
  | _ => simp [sourceExactNonempty, IsExactText]

lemma IsExactText.isNonempty {value : Json} (h : IsExactText value) : IsNonemptyString value := by
  obtain ⟨s, rfl, ⟨hne, htrimmed⟩, -⟩ := h
  exact ⟨s, rfl, isBlank_of_trimmed hne htrimmed⟩

/-- A character of a path: of an identifier, or the full stop between two of them. -/
def IsPathChar (c : Char) : Prop :=
  ('A' ≤ c ∧ c ≤ 'Z') ∨ ('a' ≤ c ∧ c ≤ 'z') ∨ c = '_' ∨ ('0' ≤ c ∧ c ≤ '9') ∨ c = '.'

lemma IsPathChar.toNat_bounds {c : Char} (h : IsPathChar c) : 32 < c.toNat ∧ c.toNat < 127 := by
  have hle : ∀ a b : Char, a ≤ b ↔ a.toNat ≤ b.toNat := fun a b => Iff.rfl
  unfold IsPathChar at h
  simp only [hle] at h
  rcases h with h | h | rfl | h | rfl
  · exact ⟨lt_of_lt_of_le (by decide) h.1, lt_of_le_of_lt h.2 (by decide)⟩
  · exact ⟨lt_of_lt_of_le (by decide) h.1, lt_of_le_of_lt h.2 (by decide)⟩
  · decide
  · exact ⟨lt_of_lt_of_le (by decide) h.1, lt_of_le_of_lt h.2 (by decide)⟩
  · decide

lemma IsPathChar.not_space {c : Char} (h : IsPathChar c) : isSpace c = false := by
  obtain ⟨hlow, hhigh⟩ := h.toNat_bounds
  simp only [isSpace, Bool.or_eq_false_iff, Bool.and_eq_false_iff, decide_eq_false_iff_not]
  omega

lemma isPathSegment_chars {segment : String} (h : isPathSegment segment = true) :
    ∀ c ∈ segment.toList, IsPathChar c := by
  unfold isPathSegment at h
  cases hchars : segment.toList with
  | nil => simp
  | cons c cs =>
      simp only [hchars, Bool.and_eq_true, decide_eq_true_eq, List.all_eq_true] at h
      obtain ⟨hfirst, hrest⟩ := h
      intro x hx
      rcases List.mem_cons.mp hx with rfl | hin
      · rcases hfirst with hfirst | hfirst | hfirst
        · exact Or.inl hfirst
        · exact Or.inr (Or.inl hfirst)
        · exact Or.inr (Or.inr (Or.inl hfirst))
      · rcases hrest x hin with (hstart | hstart | hstart) | hdigit
        · exact Or.inl hstart
        · exact Or.inr (Or.inl hstart)
        · exact Or.inr (Or.inr (Or.inl hstart))
        · exact Or.inr (Or.inr (Or.inr (Or.inl hdigit)))

/-- The characters of a text are full stops and those of its parts. -/
lemma splitDots_chars {cs part : List Char} {c : Char} (h : c ∈ cs ∨ c ∈ part) :
    c = '.' ∨ ∃ word ∈ splitDots cs part, c ∈ word := by
  induction cs generalizing part with
  | nil =>
      have hpart : c ∈ part := by simpa using h
      exact Or.inr ⟨part.reverse, List.mem_cons_self, List.mem_reverse.mpr hpart⟩
  | cons x cs ih =>
      unfold splitDots
      split_ifs with hdot
      · rcases h with hin | hpart
        · rcases List.mem_cons.mp hin with rfl | hin
          · exact Or.inl hdot
          · rcases @ih [] (Or.inl hin) with hc | ⟨word, hword, hc⟩
            · exact Or.inl hc
            · exact Or.inr ⟨word, List.mem_cons_of_mem _ hword, hc⟩
        · exact Or.inr ⟨part.reverse, List.mem_cons_self, List.mem_reverse.mpr hpart⟩
      · refine ih ?_
        rcases h with hin | hpart
        · rcases List.mem_cons.mp hin with rfl | hin
          · exact Or.inr List.mem_cons_self
          · exact Or.inl hin
        · exact Or.inr (List.mem_cons_of_mem _ hpart)

/-- **A path of identifiers** is an exact text. -/
theorem isExactText_path {path : String} (hne : path ≠ "")
    (h : ∀ segment ∈ segments path, isPathSegment segment = true) : IsExactText (.str path) := by
  have hchars : ∀ c ∈ path.toList, IsPathChar c := by
    intro c hc
    rcases @splitDots_chars _ [] _ (Or.inl hc) with rfl | ⟨word, hword, hin⟩
    · exact Or.inr (Or.inr (Or.inr (Or.inr rfl)))
    · have hsegment : String.ofList word ∈ segments path := by
        rw [segments, if_neg hne]
        exact List.mem_map_of_mem hword
      exact isPathSegment_chars (h _ hsegment) c (by rwa [String.toList_ofList])
  refine ⟨path, rfl, ⟨hne, (strip_eq_self fun c hc => (hchars c hc).not_space).symm⟩, ?_⟩
  intro c hc
  have hbounds := (hchars c hc).toNat_bounds
  omega

/-! ## The operations -/

/-- `operation[key]`. -/
def operationField (operation : Json) (key : String) : Json :=
  Dict.getD (operation.obj?.getD []) key .null

/-- What both parsers ask of an operation, its document and its path apart. -/
def IsSetOperation (operation : Json) : Prop := ∃ d : Dict, operation = .obj d ∧
  HasExactKeys d nativeSetOperationKeys ∧ d.getD "op" .null = .str "set"

lemma validateResolutionOperation_eq_ok {index : ℕ} {operation : Json} :
    validateResolutionOperation index operation = .ok () ↔ ∃ d : Dict, operation = .obj d ∧
      d.getD "target" (.str "document") = .str "document" ∧
      IsNonemptyString (d.getD "document_id" .null) ∧
      requireHashable (d.getD "op" .null) = .ok () ∧
      (d.getD "op" .null = .str "set" ∨ d.getD "op" .null = .str "delete") ∧
      ((d.getD "path" .null).isStr = true ∧ d.getD "path" .null ≠ .str "") ∧
      (d.getD "op" .null = .str "set" → d.contains "value" = true) := by
  cases operation with
  | obj d =>
      simp only [validateResolutionOperation, bind_eq_ok, exists_unit, require_eq_ok,
        Json.obj.injEq, exists_eq_left']
  | _ => simp [validateResolutionOperation]

lemma validateNativeOperation_eq_ok {index : ℕ} {operation : Json} :
    validateNativeOperation index operation = .ok () ↔
      HasExactKeys (operation.obj?.getD []) nativeSetOperationKeys ∧
      operationField operation "op" = .str "set" := by
  simp only [validateNativeOperation, seq_eq_ok, require_eq_ok, operationField]

/-- The workflow's checks of an operation whose path is an exact text. -/
lemma validateOperation_eq_ok {i j : ℕ} {operation : Json}
    (hpath : IsExactText (operationField operation "path")) :
    (validateResolutionOperation i operation = .ok () ∧
        validateNativeOperation j operation = .ok ()) ↔
      IsSetOperation operation ∧ IsNonemptyString (operationField operation "document_id") := by
  rw [validateResolutionOperation_eq_ok, validateNativeOperation_eq_ok]
  constructor
  · rintro ⟨⟨d, rfl, -, hid, -, -, -, -⟩, hkeys, hop⟩
    exact ⟨⟨d, rfl, hkeys, hop⟩, hid⟩
  · rintro ⟨⟨d, rfl, hkeys, hop⟩, hid⟩
    obtain ⟨path, hpathEq, ⟨hne, -⟩, -⟩ := hpath
    have hpathField : d.getD "path" .null = .str path := hpathEq
    have htarget : d.get? "target" = none := by
      have hnotin : "target" ∉ d.keys := fun hin => absurd (hkeys.1 _ hin) (by decide)
      simpa [Dict.mem_keys_iff, Dict.contains] using hnotin
    have hvalue : d.contains "value" = true := Dict.mem_keys_iff.mp (hkeys.2 "value" (by decide))
    refine ⟨⟨d, rfl, ?_, hid, ?_, Or.inl hop, ?_, fun _ => hvalue⟩, hkeys, hop⟩
    · rw [Dict.getD, htarget, Option.getD_none]
    · rw [hop]
      rfl
    · rw [hpathField]
      exact ⟨rfl, fun h => hne (Json.str.inj h)⟩

/-- The lineage's check of an operation. -/
lemma projectOperation_eq_ok {index : ℕ} {operation : Json} :
    projectOperation index operation = .ok () ↔ IsSetOperation operation ∧
      IsExactText (operationField operation "document_id") ∧
      IsExactText (operationField operation "path") ∧
      (operationField operation "value").isFinite = true := by
  cases operation with
  | obj d =>
      simp only [projectOperation, bind_eq_ok, exists_unit, require_eq_ok,
        sourceExactNonempty_eq_ok, IsSetOperation, Json.obj.injEq, exists_eq_left',
        operationField, Json.obj?, Option.getD_some, and_assoc]
  | _ => simp [projectOperation, IsSetOperation]

/-! ## The language of each parser -/

def nativeTextKeys : List String := ["resolution_id", "description", "replacement_set_id"]

/-- The texts on which the two parsers differ: those of the resolution itself, and the documents
of its operations. -/
def resolutionTexts (d : Dict) (operations : List Json) : List Json :=
  nativeTextKeys.map (fun key => d.getD key .null) ++
    operations.map fun operation => operationField operation "document_id"

/-- What both parsers ask of a resolution with the given operations. -/
structure NativeResolutionShape (d : Dict) (operations : List Json) : Prop where
  keys : HasExactKeys d nativeResolutionKeys
  list : d.getD "operations" .null = .arr operations
  nonempty : operations ≠ []
  set : ∀ operation ∈ operations, IsSetOperation operation
  finite : ∀ operation ∈ operations, (operationField operation "value").isFinite = true

/-- A value that is not the default is there. -/
lemma get?_of_getD {d : Dict} {key : String} {v : Json} (h : d.getD key .null = v)
    (hne : v ≠ .null) : d.get? key = some v := by
  cases hget : d.get? key with
  | none => exact absurd (by simpa [Dict.getD, hget] using h.symm) hne
  | some w => rwa [Dict.getD, hget, Option.getD_some, ← Option.some.injEq] at h

/-- A dictionary with exactly the given keys is finite when what it holds under them is. -/
lemma isFinite_of_keys {d : Dict} (hd : d.Ordered) {keys : List String}
    (hkeys : HasExactKeys d keys) (h : ∀ key ∈ keys, (d.getD key .null).isFinite = true) :
    (Json.obj d).isFinite = true := by
  refine isFinite_obj.mpr fun e he => ?_
  have hget : d.get? e.1 = some e.2 := hd.get?_eq_some_iff.mpr he
  have hfinite := h e.1 (hkeys.1 e.1 (List.mem_map_of_mem he))
  rwa [Dict.getD, hget, Option.getD_some] at hfinite

lemma isFinite_getD {d : Dict} (h : (Json.obj d).isFinite = true) (key : String) :
    (d.getD key .null).isFinite = true := by
  cases hget : d.get? key with
  | none => simp [Dict.getD, hget, Json.isFinite]
  | some v =>
      rw [Dict.getD, hget, Option.getD_some]
      exact isFinite_obj.mp h _ (Dict.get?_eq_some_mem hget)

lemma IsNonemptyString.isFinite {v : Json} (h : IsNonemptyString v) : v.isFinite = true := by
  obtain ⟨s, rfl, -⟩ := h
  rfl

/-- The values of the operations are what can keep a resolution from being finite. -/
lemma NativeResolutionShape.isFinite {d : Dict} {operations : List Json}
    (h : NativeResolutionShape d operations) (hwf : (Json.obj d).WF)
    (htexts : ∀ text ∈ resolutionTexts d operations, IsNonemptyString text)
    (hpaths : ∀ operation ∈ operations, IsExactText (operationField operation "path")) :
    (Json.obj d).isFinite = true := by
  have hget := get?_of_getD h.list (by simp)
  have hitems := Json.wf_arr.mp (hwf.get? hget)
  have hown : ∀ key ∈ nativeTextKeys, (d.getD key .null).isFinite = true := fun key hkey =>
    (htexts _ (List.mem_append_left _ (List.mem_map_of_mem hkey))).isFinite
  have hlist : (d.getD "operations" .null).isFinite = true := by
    rw [h.list]
    refine isFinite_arr.mpr fun operation hin => ?_
    obtain ⟨e, rfl, hkeys, hop⟩ := h.set operation hin
    have hid := htexts _ (List.mem_append_right _ (List.mem_map_of_mem hin))
    have hordered := (Json.wf_obj.mp (hitems _ hin)).1
    refine isFinite_of_keys hordered hkeys ?_
    simp only [nativeSetOperationKeys, List.forall_mem_cons, List.not_mem_nil, false_implies,
      implies_true, and_true]
    refine ⟨?_, hid.isFinite, (hpaths _ hin).isNonempty.isFinite, h.finite _ hin⟩
    rw [hop]
    rfl
  refine isFinite_of_keys (Json.wf_obj.mp hwf).1 h.keys ?_
  simp only [nativeResolutionKeys, List.forall_mem_cons, List.not_mem_nil, false_implies,
    implies_true, and_true]
  exact ⟨hown _ (by decide), hown _ (by decide), hown _ (by decide), hlist⟩

section Accepting

variable {d : Dict} {operations : List Json}

/-- The two loops of the workflow's parser over the operations. -/
lemma validateNativeResolutionOperations_eq_ok {decoded : List Operation}
    (hpaths : ∀ operation ∈ operations, IsExactText (operationField operation "path")) :
    validateNativeResolutionOperations (.arr operations) = .ok decoded ↔
      (operations ≠ [] ∧ ∀ operation ∈ operations, IsSetOperation operation ∧
        IsNonemptyString (operationField operation "document_id")) ∧
      decoded = operations.map operationOf := by
  have hfirst : enumerateM (fun index _ operation => validateResolutionOperation index operation)
      0 () operations = .ok () ↔
        ∀ operation ∈ operations, validateResolutionOperation 0 operation = .ok () :=
    enumerateM_unit_iff fun j x => by
      rw [validateResolutionOperation_eq_ok, validateResolutionOperation_eq_ok]
  have hsecond : enumerateM (fun index _ operation => validateNativeOperation index operation)
      0 () operations = .ok () ↔
        ∀ operation ∈ operations, validateNativeOperation 0 operation = .ok () :=
    enumerateM_unit_iff fun j x => by
      rw [validateNativeOperation_eq_ok, validateNativeOperation_eq_ok]
  have hboth : ∀ operation ∈ operations,
      (validateResolutionOperation 0 operation = .ok () ∧
        validateNativeOperation 0 operation = .ok ()) ↔
      IsSetOperation operation ∧ IsNonemptyString (operationField operation "document_id") :=
    fun operation hin => validateOperation_eq_ok (hpaths operation hin)
  simp only [validateNativeResolutionOperations, validateResolutionOperations, seq_eq_ok,
    require_eq_ok, hfirst, hsecond, Except.ok.injEq]
  constructor
  · rintro ⟨⟨hne, h1⟩, h2, rfl⟩
    exact ⟨⟨hne, fun operation hin => (hboth operation hin).mp ⟨h1 operation hin, h2 operation hin⟩⟩,
      rfl⟩
  · rintro ⟨⟨hne, h⟩, rfl⟩
    exact ⟨⟨hne, fun operation hin => ((hboth operation hin).mpr (h operation hin)).1⟩,
      fun operation hin => ((hboth operation hin).mpr (h operation hin)).2, rfl⟩

/-- The loop of the lineage's parser over the operations. -/
lemma projectOperations_eq_ok :
    enumerateM (fun index _ operation => projectOperation index operation) 0 () operations =
        .ok () ↔
      ∀ operation ∈ operations, IsSetOperation operation ∧
        IsExactText (operationField operation "document_id") ∧
        IsExactText (operationField operation "path") ∧
        (operationField operation "value").isFinite = true :=
  enumerateM_unit_iff fun _ _ => projectOperation_eq_ok

lemma resolutionTexts_forall {P : Json → Prop} :
    (∀ text ∈ resolutionTexts d operations, P text) ↔
      (P (d.getD "resolution_id" .null) ∧ P (d.getD "description" .null) ∧
        P (d.getD "replacement_set_id" .null)) ∧
      ∀ operation ∈ operations, P (operationField operation "document_id") := by
  simp [resolutionTexts, nativeTextKeys, or_imp, forall_and, and_assoc]

/-- **The language of the workflow's parser**: the shape, with texts that are not blank. -/
theorem validateNativeResolution_accepts (hwf : (Json.obj d).WF)
    (hlist : d.getD "operations" .null = .arr operations)
    (hpaths : ∀ operation ∈ operations, IsExactText (operationField operation "path"))
    {resolution : NativeResolution} :
    validateNativeResolution (.obj d) = .ok resolution ↔
      (NativeResolutionShape d operations ∧
        ∀ text ∈ resolutionTexts d operations, IsNonemptyString text) ∧
      resolution = ⟨d.textAt "resolution_id", d.textAt "description",
        d.textAt "replacement_set_id", operations.map operationOf⟩ := by
  simp only [validateNativeResolution, hlist, bind_eq_ok, exists_unit, require_eq_ok,
    validateNativeResolutionOperations_eq_ok hpaths, Except.ok.injEq, resolutionTexts_forall]
  constructor
  · rintro ⟨hkeys, hfinite, hid, hdescription, hset, _, ⟨⟨hne, hoperations⟩, rfl⟩, rfl⟩
    refine ⟨⟨⟨hkeys, hlist, hne, fun operation hin => (hoperations operation hin).1, ?_⟩,
      ⟨hid, hdescription, hset⟩, fun operation hin => (hoperations operation hin).2⟩, rfl⟩
    intro operation hin
    have hitem := isFinite_arr.mp (hlist ▸ isFinite_getD hfinite "operations") operation hin
    obtain ⟨e, rfl, -⟩ := (hoperations _ hin).1
    exact isFinite_getD hitem "value"
  · rintro ⟨⟨hshape, htexts⟩, rfl⟩
    have hfinite := hshape.isFinite hwf (resolutionTexts_forall.mpr htexts) hpaths
    obtain ⟨⟨hid, hdescription, hset⟩, hdocuments⟩ := htexts
    exact ⟨hshape.keys, hfinite, hid, hdescription, hset, _,
      ⟨⟨hshape.nonempty, fun operation hin =>
        ⟨hshape.set operation hin, hdocuments operation hin⟩⟩, rfl⟩, rfl⟩

/-- **The language of the lineage's parser**: the shape, with exact texts. -/
theorem projectResolution_accepts (hlist : d.getD "operations" .null = .arr operations)
    (hpaths : ∀ operation ∈ operations, IsExactText (operationField operation "path"))
    {projected : ResolutionProjection} :
    projectResolution (.obj d) = .ok projected ↔
      (NativeResolutionShape d operations ∧
        ∀ text ∈ resolutionTexts d operations, IsExactText text) ∧
      projected = ⟨d.textAt "resolution_id", d.textAt "replacement_set_id",
        appliedOperations (operations.map operationOf)⟩ := by
  simp only [projectResolution, hlist, seq_eq_ok, require_eq_ok, forEach_eq_ok,
    sourceExactNonempty_eq_ok, projectOperations_eq_ok, Except.ok.injEq, resolutionTexts_forall,
    List.forall_mem_cons, List.not_mem_nil, false_implies, implies_true, and_true]
  constructor
  · rintro ⟨hkeys, htexts, hne, hoperations, rfl⟩
    exact ⟨⟨⟨hkeys, hlist, hne, fun operation hin => (hoperations operation hin).1,
      fun operation hin => (hoperations operation hin).2.2.2⟩, htexts,
      fun operation hin => (hoperations operation hin).2.1⟩, rfl⟩
  · rintro ⟨⟨hshape, htexts, hdocuments⟩, rfl⟩
    exact ⟨hshape.keys, htexts, hshape.nonempty, fun operation hin =>
      ⟨hshape.set operation hin, hdocuments operation hin, hpaths operation hin,
        hshape.finite operation hin⟩, rfl⟩

end Accepting

/-! ## The paths that pass -/

section Agreement

variable [PyUnicode]

lemma validateOperationPath_exact {index : ℕ} {touched touched' : Dict} {o : Operation}
    (h : validateOperationPath index touched o = .ok touched') : IsExactText (.str o.path) := by
  simp only [validateOperationPath, seq_eq_ok, require_eq_ok] at h
  obtain ⟨-, hblank, hsegments, -⟩ := h
  refine isExactText_path ?_ fun segment hin => (hsegments segment hin).2.1
  intro hempty
  rw [hempty] at hblank
  exact absurd hblank (by decide)

/-- A resolution whose paths pass has a list of operations, with exact paths. -/
lemma validateRawOperationPaths_exact {v : Json} {touched : List String}
    (h : validateRawOperationPaths v = .ok touched) : ∃ operations, v = .arr operations ∧
      ∀ operation ∈ operations, IsExactText (operationField operation "path") := by
  cases v with
  | arr items =>
      simp only [validateRawOperationPaths, bind_eq_ok, exists_unit, require_eq_ok] at h
      obtain ⟨-, _, hloop, -⟩ := h
      refine ⟨items, rfl, fun operation hin => ?_⟩
      obtain ⟨j, t, t', hbody⟩ := enumerateM_mem hloop operation hin
      cases operation with
      | obj d =>
          simp only [validateRawOperationPath, seq_eq_ok] at hbody
          have hexact := validateOperationPath_exact hbody.2
          have hpath : isBlank (Dict.textAt d "path") = false := by
            obtain ⟨s, hs, ⟨hne, htrimmed⟩, -⟩ := hexact
            rw [show Dict.textAt d "path" = s from Json.str.inj hs]
            exact isBlank_of_trimmed hne htrimmed
          have hget := (hasText_iff_textAt.mpr hpath).1
          have hfield : operationField (.obj d) "path" = .str (Dict.textAt d "path") := by
            show Dict.getD d "path" .null = _
            rw [Dict.getD, hget, Option.getD_some]
          rw [hfield]
          exact hexact
      | _ => simp [validateRawOperationPath] at hbody
  | _ => simp [validateRawOperationPaths] at h

/-! ## Agreement -/

/-- What the two parsers have read is the same. -/
structure SameReading (resolution : NativeResolution) (projected : ResolutionProjection) :
    Prop where
  resolutionId : projected.resolutionId = resolution.resolutionId
  replacementSetId : projected.replacementSetId = resolution.replacementSetId
  operations : projected.appliedOperations = appliedOperations resolution.operations

/-- The two parsers accept the bytes or reject them together, and read them alike. -/
def ParsersAgree (raw : Bytes) : Prop :=
  ((∃ resolution, nativeResolutionFromBytes raw = .ok resolution) ↔
    ∃ projected, nativeResolutionProjection raw = .ok projected) ∧
  ∀ resolution projected, nativeResolutionFromBytes raw = .ok resolution →
    nativeResolutionProjection raw = .ok projected → SameReading resolution projected

/-- Where the bytes hold a resolution of the shape that both parsers ask, with texts that are not
blank, its texts are exact. -/
def TextsAreExact (raw : Bytes) : Prop := ∀ (d : Dict) (operations : List Json),
  strictUtf8Json raw "native resolution bytes are invalid JSON" = .ok (.obj d) →
  NativeResolutionShape d operations →
  (∀ text ∈ resolutionTexts d operations, IsNonemptyString text) →
  ∀ text ∈ resolutionTexts d operations, IsExactText text

/-- **When the two parsers agree**: on bytes whose operations have paths that pass, they accept
the same and read it alike if and only if the texts of a resolution of the common shape are
exact as soon as none of them is blank. -/
theorem nativeResolution_parsers_agree_iff {raw : Bytes} (hraw : HasResolutionPaths raw) :
    ParsersAgree raw ↔ TextsAreExact raw := by
  obtain ⟨d, touched, hread, htouched⟩ := hraw
  obtain ⟨operations, hlist, hpaths⟩ := validateRawOperationPaths_exact htouched
  have hwf := strictUtf8Json_wf hread
  have hnative : nativeResolutionFromBytes raw = validateNativeResolution (.obj d) := by
    rw [nativeResolutionFromBytes, hread, ok_bind]
  have hprojection : nativeResolutionProjection raw = projectResolution (.obj d) := by
    rw [nativeResolutionProjection, hread, ok_bind]
  simp only [ParsersAgree, hnative, hprojection, validateNativeResolution_accepts hwf hlist hpaths,
    projectResolution_accepts hlist hpaths, exists_and_left, exists_eq, and_true]
  constructor
  · rintro ⟨hiff, -⟩ d' operations' hread' hshape htexts
    obtain rfl : d = d' := Json.obj.inj (Except.ok.inj (hread.symm.trans hread'))
    obtain rfl : operations = operations' := Json.arr.inj (hlist.symm.trans hshape.list)
    exact (hiff.mp ⟨hshape, htexts⟩).2
  · intro hexact
    refine ⟨⟨fun h => ⟨h.1, hexact d operations hread h.1 h.2⟩, fun h => ⟨h.1, fun text hin =>
      (h.2 text hin).isNonempty⟩⟩, ?_⟩
    rintro resolution projected ⟨-, rfl⟩ ⟨-, rfl⟩
    exact ⟨rfl, rfl, rfl⟩

end Agreement

/-! ## Two resolutions -/

section Ascii

attribute [local instance] asciiUnicode

/-- Bytes of a resolution with operations whose paths pass. -/
lemma hasResolutionPaths_of_text {d : Dict} (hwf : (Json.obj d).WF)
    (hfinite : (Json.obj d).isFinite = true)
    (hpaths : (validateRawOperationPaths (d.getD "operations" .null)).toOption.isSome = true) :
    HasResolutionPaths (encodeUtf8 (String.ofList (jsonText (.obj d)))) := by
  obtain ⟨touched, htouched⟩ := exists_ok_of_isSome hpaths
  exact ⟨d, touched, strictUtf8Json_jsonText _ hwf hfinite, htouched⟩

theorem nativeResolution_parsers_agree_sample :
    ParsersAgree (sampleResolutionBytes keptOperations) ↔
      TextsAreExact (sampleResolutionBytes keptOperations) :=
  nativeResolution_parsers_agree_iff
    (hasResolutionPaths_of_text (by decide +kernel) (by decide +kernel) (by decide +kernel))

/-- A resolution whose identity has a blank in front. -/
def paddedResolution : Dict := Dict.ofList
  [("resolution_id", .str " R-1"), ("description", .str "steps"),
   ("replacement_set_id", .str "RS-1"), ("operations", .arr keptOperations)]

/-- Its bytes. -/
def paddedResolutionBytes : Bytes :=
  encodeUtf8 (String.ofList (jsonText (.obj paddedResolution)))

/-- **A resolution that is approved and then has no lineage**: the workflow takes the padded
identity, and the lineage rejects it. -/
theorem padded_resolution_rejected :
    HasResolutionPaths paddedResolutionBytes ∧
    (∃ resolution, nativeResolutionFromBytes paddedResolutionBytes = .ok resolution ∧
      resolution.resolutionId = " R-1") ∧
    nativeResolutionProjection paddedResolutionBytes = valueError
      "native resolution resolution_id must be an exact non-empty trimmed string" ∧
    ¬ParsersAgree paddedResolutionBytes := by
  have hread := strictUtf8Json_jsonText "native resolution bytes are invalid JSON"
    (show (Json.obj paddedResolution).WF by decide +kernel) (by decide +kernel)
  have hnative : nativeResolutionFromBytes paddedResolutionBytes =
      .ok ⟨" R-1", "steps", "RS-1", keptOperations.map operationOf⟩ := by
    rw [nativeResolutionFromBytes, paddedResolutionBytes, hread]
    decide +kernel
  have hprojection : nativeResolutionProjection paddedResolutionBytes = valueError
      "native resolution resolution_id must be an exact non-empty trimmed string" := by
    rw [nativeResolutionProjection, paddedResolutionBytes, hread]
    decide +kernel
  refine ⟨?_, ⟨_, hnative, rfl⟩, hprojection, fun h => ?_⟩
  · exact hasResolutionPaths_of_text (by decide +kernel) (by decide +kernel) (by decide +kernel)
  · obtain ⟨projected, hprojected⟩ := h.1.mp ⟨_, hnative⟩
    rw [hprojection] at hprojected
    exact valueError_ne_ok hprojected

end Ascii

end QualityCI

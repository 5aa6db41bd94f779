import QualityCI.Lib.JsonPath
import QualityCI.Lib.PyRaises

/-!
# The leaves of a document

Every scalar in the fields of a rebuilt document is the target of one mapping.  The targets are
paths: the leaves are listed by a recursive printer, and the value of a mapping is compared with
what a pattern leads to along its target.

* `valueAtPath` — the value that a path leads to.
* `scalarLeafPaths` — the paths of the leaves.
* `PlainKeys` — the values whose keys a path can name; `IsLeaf` — a leaf and its position.
* **`mem_scalarLeafPaths`** — the paths are those of the leaves.
* **`leafPaths_roundTrip`** — each path leads to its leaf, and each leaf has one path.
-/

namespace QualityCI

open Py

/-! ## Paths and values -/

/-- One step, in the loop of `_value_at_path`. -/
def stepInto (path : String) (cursor : Json) (step : PathStep) : Result Json :=
  match cursor.child? step, step with
  | some inner, _ => .ok inner
  | none, .key _ => valueError s!"mapping target does not exist: {path}"
  | none, .index _ => valueError s!"mapping target index does not exist: {path}"

/-- The loop of `_value_at_path`. -/
def walkSteps (path : String) : Json → List PathStep → Result Json
  | cursor, [] => .ok cursor
  | cursor, step :: rest => do
      let cursor ← stepInto path cursor step
      walkSteps path cursor rest

/-- `_value_at_path`. -/
def valueAtPath (root : Json) (path : String) : Result Json :=
  walkSteps path root (findSteps (path.toList.length + 1) true path.toList)

/-- The path with one more step. -/
def pathTo (path : String) (step : PathStep) : String := path ++ String.ofList (renderStep step)

mutual

/-- `_scalar_leaf_paths`. -/
def scalarLeafPaths : Json → String → List String
  | .obj d, path => entryLeafPaths d path
  | .arr items, path => itemLeafPaths items path 0
  | .null, path | .bool _, path | .int _, path | .float _, path | .str _, path => [path]

/-- The items of a dictionary, in the loop of `_scalar_leaf_paths`. -/
def entryLeafPaths : List (String × Json) → String → List String
  | [], _ => []
  | (key, v) :: rest, path => scalarLeafPaths v (pathTo path (.key key)) ++ entryLeafPaths rest path

/-- The members of a list, in the loop of `_scalar_leaf_paths`. -/
def itemLeafPaths : List Json → String → ℕ → List String
  | [], _, _ => []
  | v :: rest, path, n => scalarLeafPaths v (pathTo path (.index n)) ++ itemLeafPaths rest path (n + 1)

end

/-! ## Leaves -/

/-- A value that is no container. -/
def IsScalar (v : Json) : Prop := v.isDict = false ∧ v.isList = false

/-- A leaf: a scalar, and its position. -/
def IsLeaf (v : Json) (steps : List PathStep) (leaf : Json) : Prop :=
  v.at? steps = some leaf ∧ IsScalar leaf

/-- The path of a position. -/
def pathOf (path : String) (steps : List PathStep) : String :=
  path ++ String.ofList (renderSteps steps)

lemma toList_pathOf (path : String) (steps : List PathStep) :
    (pathOf path steps).toList = path.toList ++ renderSteps steps := by
  have hsteps : (String.ofList (renderSteps steps)).toList = renderSteps steps :=
    String.toList_ofList
  rw [pathOf, String.toList_append, hsteps]

lemma pathOf_nil (path : String) : pathOf path [] = path := by
  simp [pathOf, renderSteps]

lemma pathOf_cons (path : String) (step : PathStep) (steps : List PathStep) :
    pathOf (pathTo path step) steps = pathOf path (step :: steps) := by
  simp only [pathOf, pathTo, renderSteps, List.flatMap_cons, String.ofList_append,
    String.append_assoc]

lemma isLeaf_nil {v leaf : Json} : IsLeaf v [] leaf ↔ leaf = v ∧ IsScalar v := by
  simp only [IsLeaf, Json.at?, Option.some.injEq]
  constructor
  · rintro ⟨rfl, h⟩
    exact ⟨rfl, h⟩
  · rintro ⟨rfl, h⟩
    exact ⟨rfl, h⟩

lemma isLeaf_cons {v leaf : Json} {step : PathStep} {steps : List PathStep} :
    IsLeaf v (step :: steps) leaf ↔ ∃ inner, v.child? step = some inner ∧
      IsLeaf inner steps leaf := by
  simp only [IsLeaf, Json.at?, Option.bind_eq_some_iff]
  constructor
  · rintro ⟨⟨inner, hinner, hat⟩, h⟩
    exact ⟨inner, hinner, hat, h⟩
  · rintro ⟨inner, hinner, hat, h⟩
    exact ⟨⟨inner, hinner, hat⟩, h⟩

/-- The paths of the leaves at and below a value. -/
def LeafPath (v : Json) (path : String) (p : String) : Prop :=
  ∃ steps leaf, IsLeaf v steps leaf ∧ p = pathOf path steps

/-- The leaves of a container are those of its members. -/
lemma leafPath_container {v : Json} {path p : String} (h : ¬IsScalar v) :
    LeafPath v path p ↔ ∃ step inner, v.child? step = some inner ∧
      LeafPath inner (pathTo path step) p := by
  constructor
  · rintro ⟨steps, leaf, hleaf, rfl⟩
    cases steps with
    | nil => exact absurd (isLeaf_nil.mp hleaf).2 h
    | cons step steps =>
        obtain ⟨inner, hinner, hrest⟩ := isLeaf_cons.mp hleaf
        exact ⟨step, inner, hinner, steps, leaf, hrest, (pathOf_cons path step steps).symm⟩
  · rintro ⟨step, inner, hinner, steps, leaf, hleaf, rfl⟩
    exact ⟨step :: steps, leaf, isLeaf_cons.mpr ⟨inner, hinner, hleaf⟩, pathOf_cons path step steps⟩

lemma leafPath_scalar {v : Json} {path p : String} (h : IsScalar v) :
    LeafPath v path p ↔ p = path := by
  constructor
  · rintro ⟨steps, leaf, hleaf, rfl⟩
    cases steps with
    | nil => exact pathOf_nil path
    | cons step steps =>
        obtain ⟨inner, hinner, -⟩ := isLeaf_cons.mp hleaf
        obtain ⟨hdict, hlist⟩ := h
        cases v <;> simp [Json.child?, Json.isDict, Json.isList] at hinner hdict hlist
  · rintro rfl
    exact ⟨[], v, isLeaf_nil.mpr ⟨rfl, h⟩, (pathOf_nil _).symm⟩

mutual

/-- **The paths are those of the leaves.** -/
theorem mem_scalarLeafPaths {p : String} : ∀ {v : Json}, v.WF → ∀ {path : String},
    p ∈ scalarLeafPaths v path ↔ LeafPath v path p
  | .obj d, h, path => by
      obtain ⟨hordered, hentries⟩ := Json.wf_obj.mp h
      have hmember : ∀ key v, Dict.get? d key = some v ↔ (key, v) ∈ d :=
        fun key v => hordered.get?_eq_some_iff
      rw [scalarLeafPaths, mem_entryLeafPaths hentries,
        leafPath_container (by simp [IsScalar, Json.isDict])]
      constructor
      · rintro ⟨key, v, hmem, hleaf⟩
        exact ⟨.key key, v, (hmember key v).mpr hmem, hleaf⟩
      · rintro ⟨step, v, hchild, hleaf⟩
        cases step with
        | key key => exact ⟨key, v, (hmember key v).mp hchild, hleaf⟩
        | index n => cases hchild
  | .arr items, h, path => by
      rw [scalarLeafPaths, mem_itemLeafPaths (Json.wf_arr.mp h),
        leafPath_container (by simp [IsScalar, Json.isList])]
      constructor
      · rintro ⟨n, v, hget, hleaf⟩
        exact ⟨.index n, v, hget, by simpa using hleaf⟩
      · rintro ⟨step, v, hchild, hleaf⟩
        cases step with
        | key key => cases hchild
        | index n => exact ⟨n, v, hchild, by simpa using hleaf⟩
  | .null, _, path | .bool _, _, path | .int _, _, path | .float _, _, path | .str _, _, path => by
      rw [scalarLeafPaths, List.mem_singleton,
        leafPath_scalar (by simp [IsScalar, Json.isDict, Json.isList])]

/-- The paths below the items of a dictionary. -/
theorem mem_entryLeafPaths {p : String} : ∀ {entries : List (String × Json)},
    (∀ e ∈ entries, e.2.WF) → ∀ {path : String}, p ∈ entryLeafPaths entries path ↔
      ∃ key v, (key, v) ∈ entries ∧ LeafPath v (pathTo path (.key key)) p
  | [], _, path => by simp [entryLeafPaths]
  | (key, v) :: rest, h, path => by
      obtain ⟨hv, hrest⟩ := List.forall_mem_cons.mp h
      rw [entryLeafPaths, List.mem_append, mem_scalarLeafPaths hv, mem_entryLeafPaths hrest]
      constructor
      · rintro (hleaf | ⟨k, w, hmem, hleaf⟩)
        · exact ⟨key, v, List.mem_cons_self, hleaf⟩
        · exact ⟨k, w, List.mem_cons_of_mem _ hmem, hleaf⟩
      · rintro ⟨k, w, hmem, hleaf⟩
        rcases List.mem_cons.mp hmem with heq | hmem
        · obtain ⟨rfl, rfl⟩ := Prod.mk.inj heq
          exact Or.inl hleaf
        · exact Or.inr ⟨k, w, hmem, hleaf⟩

/-- The paths below the members of a list, from an index on. -/
theorem mem_itemLeafPaths {p : String} : ∀ {items : List Json},
    (∀ v ∈ items, v.WF) → ∀ {path : String} {first : ℕ}, p ∈ itemLeafPaths items path first ↔
      ∃ n v, items[n]? = some v ∧ LeafPath v (pathTo path (.index (first + n))) p
  | [], _, path, first => by simp [itemLeafPaths]
  | v :: rest, h, path, first => by
      obtain ⟨hv, hrest⟩ := List.forall_mem_cons.mp h
      rw [itemLeafPaths, List.mem_append, mem_scalarLeafPaths hv, mem_itemLeafPaths hrest]
      constructor
      · rintro (hleaf | ⟨n, w, hget, hleaf⟩)
        · exact ⟨0, v, rfl, hleaf⟩
        · refine ⟨n + 1, w, hget, ?_⟩
          rwa [Nat.add_right_comm] at hleaf
      · rintro ⟨n, w, hget, hleaf⟩
        cases n with
        | zero =>
            obtain rfl := Option.some.inj hget
            exact Or.inl hleaf
        | succ n =>
            refine Or.inr ⟨n, w, hget, ?_⟩
            rwa [Nat.add_right_comm]

end

/-! ## The keys that a path can name -/

mutual

/-- Every key in the value is non-empty and holds neither a stop nor an opening bracket. -/
def hasPlainKeys : Json → Bool
  | .obj d => entriesPlain d
  | .arr items => itemsPlain items
  | .null | .bool _ | .int _ | .float _ | .str _ => true

/-- The keys of the items of a dictionary, and below. -/
def entriesPlain : List (String × Json) → Bool
  | [] => true
  | (key, v) :: rest => decide (PlainKey key) && hasPlainKeys v && entriesPlain rest

/-- The keys below the members of a list. -/
def itemsPlain : List Json → Bool
  | [] => true
  | v :: rest => hasPlainKeys v && itemsPlain rest

end

/-- The keys of the value are ones that a path can name. -/
def PlainKeys (v : Json) : Prop := hasPlainKeys v = true

instance (v : Json) : Decidable (PlainKeys v) := inferInstanceAs (Decidable (_ = _))

lemma plainKeys_obj {d : Dict} :
    PlainKeys (.obj d) ↔ ∀ e ∈ d, PlainKey e.1 ∧ PlainKeys e.2 := by
  rw [PlainKeys, hasPlainKeys]
  induction d with
  | nil => simp [entriesPlain]
  | cons e rest ih => simp [entriesPlain, ih, PlainKeys, and_assoc]

lemma plainKeys_arr {items : List Json} :
    PlainKeys (.arr items) ↔ ∀ v ∈ items, PlainKeys v := by
  rw [PlainKeys, hasPlainKeys]
  induction items with
  | nil => simp [itemsPlain]
  | cons v rest ih => simp [itemsPlain, ih, PlainKeys]

/-- A step into a value with plain keys names one of them. -/
lemma PlainKeys.child {v inner : Json} {step : PathStep} (h : PlainKeys v)
    (hinner : v.child? step = some inner) :
    (∀ name, step = .key name → PlainKey name) ∧ PlainKeys inner := by
  cases v with
  | obj d =>
      cases step with
      | key name =>
          have hentry := plainKeys_obj.mp h _ (Dict.get?_eq_some_mem hinner)
          refine ⟨fun name' hname => ?_, hentry.2⟩
          obtain rfl := PathStep.key.inj hname
          exact hentry.1
      | index n => cases hinner
  | arr items =>
      cases step with
      | key name => cases hinner
      | index n =>
          refine ⟨fun name hname => (by cases hname), ?_⟩
          exact plainKeys_arr.mp h _ (List.mem_of_getElem? hinner)
  | _ => cases step <;> cases hinner

/-- The positions in a value with plain keys can be written. -/
lemma PlainKeys.steps {v inner : Json} {steps : List PathStep} (h : PlainKeys v)
    (hinner : v.at? steps = some inner) : PlainSteps steps := by
  induction steps generalizing v with
  | nil => exact fun name hname => absurd hname List.not_mem_nil
  | cons step rest ih =>
      rw [Json.at?, Option.bind_eq_some_iff] at hinner
      obtain ⟨child, hchild, hrest⟩ := hinner
      obtain ⟨hstep, hplain⟩ := h.child hchild
      intro name hname
      rcases List.mem_cons.mp hname with heq | hmem
      · exact hstep name heq.symm
      · exact ih hplain hrest name hmem

/-! ## There and back -/

/-- A walk along the steps of a position leads to the value there. -/
lemma walkSteps_eq_ok {path : String} {root : Json} {steps : List PathStep} {v : Json} :
    walkSteps path root steps = .ok v ↔ root.at? steps = some v := by
  induction steps generalizing root with
  | nil => simp [walkSteps, Json.at?]
  | cons step rest ih =>
      rw [walkSteps, Json.at?]
      cases hchild : root.child? step with
      | none => cases step <;> simp [stepInto, hchild]
      | some inner => simp only [stepInto, hchild, ok_bind, ih, Option.bind_some]

/-- A document with these fields. -/
def documentOf (fields : Dict) : Json := .obj [("fields", .obj fields)]

/-- The path of a position leads to the value there. -/
theorem valueAtPath_pathOf {fields : Dict} {steps : List PathStep} {v : Json}
    (h : PlainSteps steps) (hv : (Json.obj fields).at? steps = some v) :
    valueAtPath (documentOf fields) (pathOf "fields" steps) = .ok v := by
  rw [valueAtPath, toList_pathOf, findSteps_render (by decide) h, walkSteps_eq_ok]
  exact hv

/-- The position of a leaf is the only one with its path. -/
lemma pathOf_injective {steps steps' : List PathStep} (h : PlainSteps steps)
    (h' : PlainSteps steps') (heq : pathOf "fields" steps = pathOf "fields" steps') :
    steps = steps' := by
  refine renderSteps_injective h h' ?_
  have hchars := congrArg String.toList heq
  rw [toList_pathOf, toList_pathOf] at hchars
  exact List.append_cancel_left hchars

/-- **The paths of the leaves.**  In a document whose keys are plain, each path that is listed
belongs to one leaf and leads to it; each leaf is listed under one path, and two leaves under
two. -/
theorem leafPaths_roundTrip {fields : Dict} (hwf : (Json.obj fields).WF)
    (hplain : PlainKeys (.obj fields)) :
    (∀ path ∈ scalarLeafPaths (.obj fields) "fields", ∃! steps, ∃ leaf,
      IsLeaf (.obj fields) steps leaf ∧ path = pathOf "fields" steps ∧
        valueAtPath (documentOf fields) path = .ok leaf) ∧
    (∀ steps leaf, IsLeaf (.obj fields) steps leaf →
      ∃! path, path ∈ scalarLeafPaths (.obj fields) "fields" ∧ path = pathOf "fields" steps) ∧
    ∀ steps steps' leaf leaf', IsLeaf (.obj fields) steps leaf →
      IsLeaf (.obj fields) steps' leaf' → steps ≠ steps' →
        pathOf "fields" steps ≠ pathOf "fields" steps' := by
  have hpaths : ∀ {steps leaf}, IsLeaf (.obj fields) steps leaf → PlainSteps steps :=
    fun hleaf => hplain.steps hleaf.1
  refine ⟨fun path hpath => ?_, fun steps leaf hleaf => ?_, ?_⟩
  · obtain ⟨steps, leaf, hleaf, rfl⟩ := (mem_scalarLeafPaths hwf).mp hpath
    refine ⟨steps, ⟨leaf, hleaf, rfl, valueAtPath_pathOf (hpaths hleaf) hleaf.1⟩, ?_⟩
    rintro steps' ⟨leaf', hleaf', heq, -⟩
    exact pathOf_injective (hpaths hleaf') (hpaths hleaf) heq.symm
  · refine ⟨pathOf "fields" steps, ⟨?_, rfl⟩, fun path hpath => hpath.2⟩
    exact (mem_scalarLeafPaths hwf).mpr ⟨steps, leaf, hleaf, rfl⟩
  · intro steps steps' leaf leaf' hleaf hleaf' hne heq
    exact hne (pathOf_injective (hpaths hleaf) (hpaths hleaf') heq)

/-- Fields with two rows, and a list in a list. -/
def sampleFields : Dict := Dict.ofList
  [("characteristics", .arr [.obj (Dict.ofList [("locator", .str "row 1")]),
    .obj (Dict.ofList [("locator", .str "row 2")])]),
   ("steps]", .arr [.arr [.str "S1", .null]])]

example : scalarLeafPaths (.obj sampleFields) "fields" =
    ["fields.characteristics[0].locator", "fields.characteristics[1].locator",
     "fields.steps][0][0]", "fields.steps][0][1]"] := by decide +kernel

theorem leafPaths_roundTrip_sample :
    (∀ path ∈ scalarLeafPaths (.obj sampleFields) "fields", ∃! steps, ∃ leaf,
      IsLeaf (.obj sampleFields) steps leaf ∧ path = pathOf "fields" steps ∧
        valueAtPath (documentOf sampleFields) path = .ok leaf) ∧
    valueAtPath (documentOf sampleFields) "fields.characteristics[1].locator" =
      .ok (.str "row 2") :=
  ⟨(leafPaths_roundTrip (by decide +kernel) (by decide +kernel)).1, by decide +kernel⟩

end QualityCI

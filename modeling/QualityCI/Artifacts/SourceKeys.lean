import QualityCI.Replay.Operations

/-!
# Keys of mapping sources

A mapping names the cell it was read from by an object.  Mappings are grouped by that object, and
as objects are no keys of a dictionary, a key is made of each: a tuple of its fields where it has
the shape that the builder writes, and its canonical text where it has another.

* `fixedMappingSourceKey`, `canonicalMappingSourceKey`, `mappingSourceKey` — the keys.
* `FixedShape` — the objects with a tuple of fields; **`FixedShape.ext`**: the fields are all there
  is.
* **`sameKey_iff_sameText`** — two objects have equal keys exactly when they have one text.
-/

namespace QualityCI

open Py

/-! ## The keys -/

def fixedMappingSourceKeys : List String :=
  ["source_id", "document_id", "source_hash", "locator", "kind", "coordinates", "column",
   "raw_value"]

def fixedMappingSourceStringKeys : List String :=
  ["source_id", "document_id", "source_hash", "locator", "kind", "column", "raw_value"]

def fixedMappingCoordinateKeys : List String := ["row", "column"]

/-- `type(value) is int`. -/
def isInt : Json → Bool
  | .int _ => true
  | _ => false

@[simp] lemma isInt_iff {v : Json} : isInt v = true ↔ ∃ n, v = .int n := by
  cases v <;> simp [isInt]

/-- `len(d) == len(keys) and all(key in d for key in keys)`. -/
def HasKeys (d : Dict) (keys : List String) : Prop :=
  d.length = keys.length ∧ ∀ key ∈ keys, d.contains key = true

instance (d : Dict) (keys : List String) : Decidable (HasKeys d keys) :=
  inferInstanceAs (Decidable (_ ∧ _))

/-- The shape that the builder writes. -/
structure FixedShape (source : Dict) : Prop where
  keys : HasKeys source fixedMappingSourceKeys
  strings : ∀ key ∈ fixedMappingSourceStringKeys, (source.getD key .null).isStr = true
  coordinates : (source.getD "coordinates" .null).isDict = true
  coordinateKeys : HasKeys (source.dictAt "coordinates") fixedMappingCoordinateKeys
  row : isInt ((source.dictAt "coordinates").getD "row" .null) = true
  column : isInt ((source.dictAt "coordinates").getD "column" .null) = true

instance (source : Dict) : Decidable (FixedShape source) :=
  decidable_of_iff (HasKeys source fixedMappingSourceKeys ∧
      (∀ key ∈ fixedMappingSourceStringKeys, (source.getD key .null).isStr = true) ∧
      (source.getD "coordinates" .null).isDict = true ∧
      HasKeys (source.dictAt "coordinates") fixedMappingCoordinateKeys ∧
      isInt ((source.dictAt "coordinates").getD "row" .null) = true ∧
      isInt ((source.dictAt "coordinates").getD "column" .null) = true)
    ⟨fun ⟨a, b, c, d, e, f⟩ => ⟨a, b, c, d, e, f⟩, fun ⟨a, b, c, d, e, f⟩ => ⟨a, b, c, d, e, f⟩⟩

/-- The tuple of the fields. -/
def fixedFields (source : Dict) : List Json :=
  [.str "fixed-source-v1", source.getD "source_id" .null, source.getD "document_id" .null,
   source.getD "source_hash" .null, source.getD "locator" .null, source.getD "kind" .null,
   (source.dictAt "coordinates").getD "row" .null,
   (source.dictAt "coordinates").getD "column" .null, source.getD "column" .null,
   source.getD "raw_value" .null]

/-- `_fixed_mapping_source_key`. -/
def fixedMappingSourceKey (source : Dict) : Option (List Json) :=
  if FixedShape source then some (fixedFields source) else none

/-- `_canonical_mapping_source_key`. -/
def canonicalMappingSourceKey (source : Dict) : Result (List Json) := do
  let encoded ← dumps (.obj source)
  let decoded ← loads ⟨false⟩ encoded
  let roundTrip ← dumps decoded
  let bridged := if roundTrip = encoded then decoded.obj?.bind fixedMappingSourceKey else none
  .ok (bridged.getD [.str "canonical-json", .str encoded])

/-- `_mapping_source_key`. -/
def mappingSourceKey (source : Dict) : Result (List Json) :=
  match fixedMappingSourceKey source with
  | some key => .ok key
  | none => canonicalMappingSourceKey source

/-! ## An object of the fixed shape -/

/-- A dictionary with as many keys as there are names has no other keys. -/
lemma HasKeys.mem {d : Dict} {names : List String} (h : HasKeys d names)
    (hnames : names.Nodup) {key : String} (hkey : d.contains key = true) : key ∈ names := by
  obtain ⟨hlength, hall⟩ := h
  have hsub : names ⊆ d.keys := fun name hname => Dict.mem_keys_iff.mpr (hall name hname)
  have hperm : names.Perm d.keys := by
    refine (List.subperm_of_subset hnames hsub).perm_of_length_le ?_
    rw [Dict.keys, List.length_map, hlength]
  exact hperm.mem_iff.mpr (Dict.mem_keys_iff.mpr hkey)

/-- Dictionaries with the keys of one list are equal when their values are. -/
lemma HasKeys.ext {a b : Dict} {names : List String} (ha : HasKeys a names) (hb : HasKeys b names)
    (hao : a.Ordered) (hbo : b.Ordered) (hnames : names.Nodup)
    (h : ∀ key ∈ names, a.getD key .null = b.getD key .null) : a = b := by
  have hget : ∀ {d : Dict} {key : String}, d.contains key = true →
      d.get? key = some (d.getD key .null) := by
    intro d key hkey
    obtain ⟨v, hv⟩ := Option.isSome_iff_exists.mp hkey
    rw [Dict.getD, hv, Option.getD_some]
  refine Dict.ext hao hbo fun key => ?_
  by_cases hkey : key ∈ names
  · rw [hget (ha.2 key hkey), hget (hb.2 key hkey), h key hkey]
  · have hnone : ∀ {d : Dict}, HasKeys d names → d.get? key = none := by
      intro d hd
      refine Option.not_isSome_iff_eq_none.mp fun hsome => hkey ?_
      exact hd.mem hnames hsome
    rw [hnone ha, hnone hb]

lemma FixedShape.get_coordinates {source : Dict} (h : FixedShape source) :
    source.getD "coordinates" .null = .obj (source.dictAt "coordinates") := by
  obtain ⟨d, hd⟩ := Json.isDict_iff.mp h.coordinates
  have hget : source.get? "coordinates" = some (.obj d) := by
    unfold Dict.getD at hd
    cases hv : source.get? "coordinates" with
    | none => simp [hv] at hd
    | some v => simpa [hv] using hd
  rw [hd, Dict.dictAt_eq hget]

lemma ordered_coordinates {source : Dict} (hwf : (Json.obj source).WF) :
    (source.dictAt "coordinates").Ordered := by
  unfold Dict.dictAt
  cases hv : source.get? "coordinates" with
  | none => exact List.Pairwise.nil
  | some v =>
      cases v with
      | obj d => exact (Json.wf_obj.mp (hwf.get? hv)).1
      | _ => exact List.Pairwise.nil

/-- **The fields of an object of the fixed shape are all there is of it.** -/
theorem FixedShape.ext {a b : Dict} (ha : FixedShape a) (hb : FixedShape b)
    (hawf : (Json.obj a).WF) (hbwf : (Json.obj b).WF) (h : fixedFields a = fixedFields b) :
    a = b := by
  simp only [fixedFields, List.cons.injEq, and_true, true_and] at h
  obtain ⟨hid, hdocument, hhash, hlocator, hkind, hrow, hcolumn, hname, hraw⟩ := h
  have hcoordinates : a.dictAt "coordinates" = b.dictAt "coordinates" := by
    refine ha.coordinateKeys.ext hb.coordinateKeys (ordered_coordinates hawf)
      (ordered_coordinates hbwf) (by decide) ?_
    simp only [fixedMappingCoordinateKeys, List.forall_mem_cons, List.not_mem_nil, false_implies,
      implies_true, and_true]
    exact ⟨hrow, hcolumn⟩
  refine ha.keys.ext hb.keys (Json.wf_obj.mp hawf).1 (Json.wf_obj.mp hbwf).1 (by decide) ?_
  simp only [fixedMappingSourceKeys, List.forall_mem_cons, List.not_mem_nil, false_implies,
    implies_true, and_true]
  exact ⟨hid, hdocument, hhash, hlocator, hkind,
    by rw [ha.get_coordinates, hb.get_coordinates, hcoordinates], hname, hraw⟩

/-- An object of the fixed shape holds texts and integers only, so it has a text. -/
lemma FixedShape.finite {source : Dict} (h : FixedShape source) (hwf : (Json.obj source).WF) :
    (Json.obj source).isFinite = true := by
  have hmem : ∀ {d : Dict}, d.Ordered → ∀ e ∈ d, d.contains e.1 = true ∧ d.getD e.1 .null = e.2 := by
    intro d hd e he
    have hget : d.get? e.1 = some e.2 := hd.get?_eq_some_iff.mpr he
    exact ⟨by rw [Dict.contains, hget]; rfl, by rw [Dict.getD, hget, Option.getD_some]⟩
  have hinside : (Json.obj (source.dictAt "coordinates")).isFinite = true := by
    refine isFinite_obj.mpr fun e he => ?_
    obtain ⟨hcontains, hvalue⟩ := hmem (ordered_coordinates hwf) e he
    have hkey := h.coordinateKeys.mem (by decide) hcontains
    have hint : isInt e.2 = true := by
      simp only [fixedMappingCoordinateKeys, List.mem_cons, List.not_mem_nil, or_false] at hkey
      rcases hkey with hkey | hkey
      · rw [← hvalue, hkey]
        exact h.row
      · rw [← hvalue, hkey]
        exact h.column
    obtain ⟨n, hn⟩ := isInt_iff.mp hint
    rw [hn]
    rfl
  refine isFinite_obj.mpr fun e he => ?_
  obtain ⟨hcontains, hvalue⟩ := hmem (Json.wf_obj.mp hwf).1 e he
  have hkey := h.keys.mem (by decide) hcontains
  by_cases hcoordinates : e.1 = "coordinates"
  · rw [← hvalue, hcoordinates, h.get_coordinates]
    exact hinside
  · have hstring : e.1 ∈ fixedMappingSourceStringKeys := by
      simp only [fixedMappingSourceKeys, fixedMappingSourceStringKeys, List.mem_cons,
        List.not_mem_nil, or_false] at hkey ⊢
      tauto
    obtain ⟨s, hs⟩ := Json.isStr_iff.mp (h.strings e.1 hstring)
    rw [← hvalue, hs]
    rfl

/-! ## Which key an object has -/

/-- An object of the fixed shape has its fields, and any other one its text: what the text reads
back as is the object again, so the bridge is never taken. -/
lemma mappingSourceKey_eq {source : Dict} (hwf : (Json.obj source).WF) :
    mappingSourceKey source =
      if FixedShape source then .ok (fixedFields source)
      else (dumps (.obj source)).bind fun encoded =>
        .ok [.str "canonical-json", .str encoded] := by
  unfold mappingSourceKey fixedMappingSourceKey
  by_cases hfixed : FixedShape source
  · simp only [if_pos hfixed]
  · simp only [if_neg hfixed, canonicalMappingSourceKey]
    cases htext : dumps (.obj source) with
    | error e => rfl
    | ok encoded =>
        simp only [ok_bind, loads_dumps ⟨false⟩ hwf htext, htext, ↓reduceIte]
        have hnone : (Json.obj source).obj?.bind fixedMappingSourceKey = none := by
          simp only [Json.obj?, Option.bind_some, fixedMappingSourceKey, if_neg hfixed]
        rw [hnone]
        rfl

/-- A tuple of the fixed shape holds texts and integers, which compare as they are. -/
lemma numbered_fixedFields {source : Dict} (h : FixedShape source) :
    numbered (.arr (fixedFields source)) = .arr (fixedFields source) := by
  have hstring : ∀ key ∈ fixedMappingSourceStringKeys,
      numbered (source.getD key .null) = source.getD key .null := by
    intro key hkey
    obtain ⟨s, hs⟩ := Json.isStr_iff.mp (h.strings key hkey)
    rw [hs, numbered]
  have hint : ∀ {v : Json}, isInt v = true → numbered v = v := by
    intro v hv
    obtain ⟨n, rfl⟩ := isInt_iff.mp hv
    rw [numbered]
  simp only [fixedMappingSourceStringKeys, List.forall_mem_cons, List.not_mem_nil, false_implies,
    implies_true, and_true] at hstring
  obtain ⟨hid, hdocument, hhash, hlocator, hkind, hname, hraw⟩ := hstring
  simp only [fixedFields, numbered, numberedItems, hid, hdocument, hhash, hlocator, hkind, hname,
    hraw, hint h.row, hint h.column]

/-- Two objects get keys, and Python takes the keys for equal. -/
def SameKey (a b : Dict) : Prop := ∃ ka kb, mappingSourceKey a = .ok ka ∧
  mappingSourceKey b = .ok kb ∧ pyEq (.arr ka) (.arr kb) = true

/-- Two objects have one canonical text. -/
def SameText (a b : Dict) : Prop := ∃ text, dumps (.obj a) = .ok text ∧ dumps (.obj b) = .ok text

/-- Objects with one text are the same. -/
lemma SameText.eq {a b : Dict} (h : SameText a b) (ha : (Json.obj a).WF) (hb : (Json.obj b).WF) :
    a = b := by
  obtain ⟨text, htext, htext'⟩ := h
  exact Json.obj.inj (dumps_injective ha hb htext htext')

lemma pyEq_refl (v : Json) : pyEq v v = true := by simp [pyEq]

/-- **The keys agree with canonical JSON.**  Two mapping sources have equal keys exactly when they
have one canonical text, whichever way each key was made. -/
theorem sameKey_iff_sameText {a b : Dict} (ha : (Json.obj a).WF) (hb : (Json.obj b).WF) :
    SameKey a b ↔ SameText a b := by
  constructor
  · rintro ⟨ka, kb, hka, hkb, heq⟩
    rw [mappingSourceKey_eq ha] at hka
    rw [mappingSourceKey_eq hb] at hkb
    rw [pyEq, decide_eq_true_eq] at heq
    split_ifs at hka hkb with hfa hfb hfb
    · -- both fixed: the fields are all there is
      obtain rfl := Except.ok.inj hka
      obtain rfl := Except.ok.inj hkb
      rw [numbered_fixedFields hfa, numbered_fixedFields hfb, Json.arr.injEq] at heq
      obtain rfl := hfa.ext hfb ha hb heq
      have htext := dumps_eq_ok.mpr ⟨hfa.finite ha, rfl⟩
      exact ⟨_, htext, htext⟩
    · -- tuples of different lengths
      obtain rfl := Except.ok.inj hka
      obtain ⟨text, -, hkb⟩ := bind_eq_ok.mp hkb
      obtain rfl := Except.ok.inj hkb
      simp [fixedFields, numbered, numberedItems] at heq
    · obtain rfl := Except.ok.inj hkb
      obtain ⟨text, -, hka⟩ := bind_eq_ok.mp hka
      obtain rfl := Except.ok.inj hka
      simp [fixedFields, numbered, numberedItems] at heq
    · obtain ⟨text, htext, hka⟩ := bind_eq_ok.mp hka
      obtain ⟨text', htext', hkb⟩ := bind_eq_ok.mp hkb
      obtain rfl := Except.ok.inj hka
      obtain rfl := Except.ok.inj hkb
      simp only [numbered, numberedItems, Json.arr.injEq, List.cons.injEq, Json.str.injEq,
        true_and, and_true] at heq
      exact ⟨text, htext, heq ▸ htext'⟩
  · intro hsame
    obtain rfl := hsame.eq ha hb
    obtain ⟨text, htext, -⟩ := hsame
    have hkey : ∃ key, mappingSourceKey a = .ok key := by
      rw [mappingSourceKey_eq ha, htext]
      split_ifs
      · exact ⟨_, rfl⟩
      · exact ⟨_, rfl⟩
    obtain ⟨key, hkey⟩ := hkey
    exact ⟨key, key, hkey, hkey, pyEq_refl _⟩

/-- A source as the builder writes it, with a row. -/
def sampleSource (row : Json) : Dict := Dict.ofList
  [("source_id", .str "SRC"), ("document_id", .str "CP"), ("source_hash", .str "00"),
   ("locator", .str "CSV#row-2.cell-A"), ("kind", .str "CELL"),
   ("coordinates", .obj (Dict.ofList [("row", row), ("column", .int 1)])),
   ("column", .str "target"), ("raw_value", .str "10")]

/-- A row that is an integer takes the fast path, and one that is a boolean the other. -/
theorem sameKey_iff_sameText_sample :
    FixedShape (sampleSource (.int 1)) ∧ ¬FixedShape (sampleSource (.bool true)) ∧
      (SameKey (sampleSource (.int 1)) (sampleSource (.bool true)) ↔
        SameText (sampleSource (.int 1)) (sampleSource (.bool true))) :=
  ⟨by decide, by decide, sameKey_iff_sameText (by decide +kernel) (by decide +kernel)⟩

end QualityCI

import QualityCI.Lib.PyFloat
import QualityCI.Lib.PyExcept
import QualityCI.Lib.TextOrder
import Mathlib.Data.String.Basic
import Mathlib.Data.List.Sort

/-!
# JSON values as Python holds them

`None`, booleans, integers of any size, floats, strings, lists and string-keyed dictionaries.  A
dictionary is the list of its items in the order of their keys: two dictionaries with the same
items are the same value, as they are for Python's `==`.  The order of insertion is not kept.

* `Json`, with decidable equality.
* `Dict.set`, `Dict.erase` — the updates of a dictionary, with what a lookup sees after them.
* `Json.WF` — the keys of every dictionary inside are listed once and in order.
* **`Dict.ext`** — a well-formed dictionary is determined by what looking up its keys returns.
-/

namespace Py

/-- A JSON value. -/
inductive Json
  | null
  | bool (b : Bool)
  | int (n : ℤ)
  | float (x : PyFloat)
  | str (s : String)
  | arr (items : List Json)
  | obj (entries : List (String × Json))

/-- The items of a dictionary. -/
abbrev Dict := List (String × Json)

/-! ## Equality -/

mutual

/-- Structural equality of two values. -/
def Json.decEq : (a b : Json) → Decidable (a = b)
  | .null, .null => isTrue rfl
  | .bool a, .bool b => decidable_of_iff (a = b) (by simp)
  | .int a, .int b => decidable_of_iff (a = b) (by simp)
  | .float a, .float b => decidable_of_iff (a = b) (by simp)
  | .str a, .str b => decidable_of_iff (a = b) (by simp)
  | .arr a, .arr b =>
      match Json.decEqItems a b with
      | isTrue h => isTrue (h ▸ rfl)
      | isFalse h => isFalse fun e => h (Json.arr.inj e)
  | .obj a, .obj b =>
      match Json.decEqEntries a b with
      | isTrue h => isTrue (h ▸ rfl)
      | isFalse h => isFalse fun e => h (Json.obj.inj e)
  | .null, .bool _ | .null, .int _ | .null, .float _ | .null, .str _ | .null, .arr _
  | .null, .obj _ | .bool _, .null | .bool _, .int _ | .bool _, .float _ | .bool _, .str _
  | .bool _, .arr _ | .bool _, .obj _ | .int _, .null | .int _, .bool _ | .int _, .float _
  | .int _, .str _ | .int _, .arr _ | .int _, .obj _ | .float _, .null | .float _, .bool _
  | .float _, .int _ | .float _, .str _ | .float _, .arr _ | .float _, .obj _ | .str _, .null
  | .str _, .bool _ | .str _, .int _ | .str _, .float _ | .str _, .arr _ | .str _, .obj _
  | .arr _, .null | .arr _, .bool _ | .arr _, .int _ | .arr _, .float _ | .arr _, .str _
  | .arr _, .obj _ | .obj _, .null | .obj _, .bool _ | .obj _, .int _ | .obj _, .float _
  | .obj _, .str _ | .obj _, .arr _ => isFalse (by simp)

/-- Structural equality of two lists of values. -/
def Json.decEqItems : (a b : List Json) → Decidable (a = b)
  | [], [] => isTrue rfl
  | [], _ :: _ => isFalse (by simp)
  | _ :: _, [] => isFalse (by simp)
  | a :: as, b :: bs =>
      match Json.decEq a b with
      | isFalse h => isFalse fun e => h (List.cons.inj e).1
      | isTrue h =>
          match Json.decEqItems as bs with
          | isFalse hs => isFalse fun e => hs (List.cons.inj e).2
          | isTrue hs => isTrue (by rw [h, hs])

/-- Structural equality of two dictionaries' items. -/
def Json.decEqEntries : (a b : List (String × Json)) → Decidable (a = b)
  | [], [] => isTrue rfl
  | [], _ :: _ => isFalse (by simp)
  | _ :: _, [] => isFalse (by simp)
  | (k, a) :: as, (l, b) :: bs =>
      if hk : k = l then
        match Json.decEq a b with
        | isFalse h => isFalse fun e => h (Prod.mk.inj (List.cons.inj e).1).2
        | isTrue h =>
            match Json.decEqEntries as bs with
            | isFalse hs => isFalse fun e => hs (List.cons.inj e).2
            | isTrue hs => isTrue (by rw [hk, h, hs])
      else isFalse fun e => hk (Prod.mk.inj (List.cons.inj e).1).1

end

instance : DecidableEq Json := Json.decEq

/-! ## Dictionaries -/

namespace Dict

/-- `d.get(key)`. -/
def get? (d : Dict) (key : String) : Option Json := List.lookup key d

/-- `key in d`. -/
def contains (d : Dict) (key : String) : Bool := (d.get? key).isSome

/-- `d.get(key, default)`. -/
def getD (d : Dict) (key : String) (default : Json) : Json := (d.get? key).getD default

/-- `d.get(key)`, for a reader that treats a missing key and `None` alike. -/
def present? (d : Dict) (key : String) : Option Json :=
  match d.get? key with
  | some .null => none
  | o => o

/-- `d[key]`. -/
def getItem (d : Dict) (key : String) : Result Json :=
  match d.get? key with
  | some v => .ok v
  | none => keyError key

/-- `d[key] = value`. -/
def set : Dict → String → Json → Dict
  | [], key, value => [(key, value)]
  | (k, v) :: rest, key, value =>
      if k = key then (key, value) :: rest
      else if key < k then (key, value) :: (k, v) :: rest
      else (k, v) :: set rest key value

/-- The dictionary of a literal. -/
def ofList (entries : List (String × Json)) : Dict :=
  entries.foldl (fun d e => d.set e.1 e.2) []

/-- `d.pop(key, None)`. -/
def erase (d : Dict) (key : String) : Dict := d.filter fun e => e.1 ≠ key

/-- The keys of a dictionary, in order. -/
def keys (d : Dict) : List String := d.map Prod.fst

/-- Keys listed once and in order. -/
def Ordered (d : Dict) : Prop := d.Pairwise fun a b => a.1 < b.1

@[simp] lemma get?_nil (key : String) : get? [] key = none := rfl

lemma get?_cons (k : String) (v : Json) (rest : Dict) (key : String) :
    get? ((k, v) :: rest) key = if k = key then some v else get? rest key := by
  unfold get?
  rw [List.lookup_cons]
  by_cases h : k = key
  · simp [h]
  · have : (key == k) = false := by simpa using fun e => h e.symm
    simp [h, this]

@[simp] lemma get?_set (d : Dict) (key key' : String) (value : Json) :
    (d.set key value).get? key' = if key = key' then some value else d.get? key' := by
  induction d with
  | nil => simp [set, get?_cons]
  | cons e rest ih =>
      obtain ⟨k, v⟩ := e
      unfold set
      split_ifs <;> simp_all [get?_cons]

@[simp] lemma get?_erase (d : Dict) (key key' : String) :
    (d.erase key).get? key' = if key = key' then none else d.get? key' := by
  induction d with
  | nil => simp [erase]
  | cons e rest ih =>
      obtain ⟨k, v⟩ := e
      unfold erase at ih ⊢
      by_cases hk : k = key
      · simp only [List.filter_cons, hk, ne_eq, not_true_eq_false, decide_false,
          Bool.false_eq_true, ↓reduceIte, ih, get?_cons]
        split_ifs <;> rfl
      · simp only [List.filter_cons, ne_eq, hk, not_false_eq_true, decide_true, ↓reduceIte,
          get?_cons, ih]
        split_ifs <;> simp_all

lemma get?_eq_some_mem {d : Dict} {key : String} {v : Json} (h : d.get? key = some v) :
    (key, v) ∈ d := by
  induction d with
  | nil => simp at h
  | cons e rest ih =>
      obtain ⟨k, w⟩ := e
      rw [get?_cons] at h
      split_ifs at h with hk
      · obtain rfl := Option.some.inj h
        simp [hk]
      · exact List.mem_cons_of_mem _ (ih h)

lemma Ordered.get?_eq_some_iff {d : Dict} (hd : d.Ordered) {key : String} {v : Json} :
    d.get? key = some v ↔ (key, v) ∈ d := by
  refine ⟨get?_eq_some_mem, fun h => ?_⟩
  induction d with
  | nil => simp at h
  | cons e rest ih =>
      obtain ⟨k, w⟩ := e
      rw [get?_cons]
      rcases List.mem_cons.mp h with heq | hin
      · simp only [Prod.mk.injEq] at heq
        simp [heq]
      · have hlt : k < key := List.rel_of_pairwise_cons hd hin
        rw [if_neg hlt.ne]
        exact ih (List.Pairwise.of_cons hd) hin

lemma mem_keys_iff {d : Dict} {key : String} : key ∈ d.keys ↔ d.contains key = true := by
  induction d with
  | nil => simp [keys, contains]
  | cons e rest ih =>
      obtain ⟨k, v⟩ := e
      simp only [keys, contains, List.map_cons, List.mem_cons, get?_cons] at ih ⊢
      by_cases h : k = key
      · simp [h]
      · have hne : ¬key = k := fun e => h e.symm
        simp [h, hne, ih]

/-- **Extensionality.**  A dictionary is determined by its lookups. -/
theorem ext {a b : Dict} (ha : a.Ordered) (hb : b.Ordered) (h : ∀ key, a.get? key = b.get? key) :
    a = b := by
  have hirrefl : Std.Irrefl fun x y : String × Json => x.1 < y.1 := ⟨fun x => lt_irrefl x.1⟩
  have htrans : IsTrans (String × Json) fun x y => x.1 < y.1 := ⟨fun _ _ _ => lt_trans⟩
  have hasymm : Std.Antisymm fun x y : String × Json => x.1 < y.1 :=
    ⟨fun _ _ h1 h2 => absurd h1 (lt_asymm h2)⟩
  refine List.Pairwise.eq_of_mem_iff ha hb fun e => ?_
  obtain ⟨k, v⟩ := e
  rw [← ha.get?_eq_some_iff, ← hb.get?_eq_some_iff, h k]

lemma mem_set {d : Dict} {key : String} {value : Json} {e : String × Json}
    (h : e ∈ d.set key value) : e = (key, value) ∨ e ∈ d := by
  induction d with
  | nil =>
      rw [set, List.mem_singleton] at h
      exact Or.inl h
  | cons f rest ih =>
      obtain ⟨k, v⟩ := f
      unfold set at h
      split_ifs at h
      · rcases List.mem_cons.mp h with rfl | hin
        · exact Or.inl rfl
        · exact Or.inr (List.mem_cons_of_mem _ hin)
      · rcases List.mem_cons.mp h with rfl | hin
        · exact Or.inl rfl
        · exact Or.inr hin
      · rcases List.mem_cons.mp h with rfl | hin
        · exact Or.inr List.mem_cons_self
        · exact (ih hin).imp id (List.mem_cons_of_mem _)

/-- A dictionary literal holds nothing but its entries. -/
lemma mem_ofList {entries : List (String × Json)} {e : String × Json}
    (h : e ∈ ofList entries) : e ∈ entries := by
  have hrun : ∀ (entries : List (String × Json)) (acc : Dict),
      e ∈ entries.foldl (fun (d : Dict) e => d.set e.1 e.2) acc → e ∈ acc ∨ e ∈ entries := by
    intro entries
    induction entries with
    | nil =>
        intro acc hacc
        exact Or.inl hacc
    | cons f rest ih =>
        intro acc hacc
        rcases ih _ hacc with hin | hin
        · rcases mem_set hin with rfl | hin
          · exact Or.inr List.mem_cons_self
          · exact Or.inl hin
        · exact Or.inr (List.mem_cons_of_mem _ hin)
  rcases hrun entries [] h with hin | hin
  · exact absurd hin List.not_mem_nil
  · exact hin

lemma Ordered.set {d : Dict} (hd : d.Ordered) (key : String) (value : Json) :
    (d.set key value).Ordered := by
  induction d with
  | nil => exact List.pairwise_singleton _ _
  | cons f rest ih =>
      obtain ⟨k, v⟩ := f
      have hrest : ∀ e ∈ rest, k < e.1 := fun e he => List.rel_of_pairwise_cons hd he
      unfold Dict.set
      split_ifs with h1 h2
      · subst h1
        exact List.Pairwise.cons hrest (List.Pairwise.of_cons hd)
      · refine List.Pairwise.cons (fun e he => ?_) hd
        rcases List.mem_cons.mp he with rfl | hin
        · exact h2
        · exact lt_trans h2 (hrest e hin)
      · refine List.Pairwise.cons (fun e he => ?_) (ih (List.Pairwise.of_cons hd))
        rcases mem_set he with rfl | hin
        · exact lt_of_le_of_ne (not_lt.mp h2) h1
        · exact hrest e hin

lemma Ordered.erase {d : Dict} (hd : d.Ordered) (key : String) : (d.erase key).Ordered :=
  List.Pairwise.filter _ hd

/-- What a literal with distinct keys holds. -/
theorem get?_ofList {entries : List (String × Json)} (hnodup : (entries.map Prod.fst).Nodup)
    (key : String) : (ofList entries).get? key = List.lookup key entries := by
  have hrun : ∀ (entries : List (String × Json)) (acc : Dict), (entries.map Prod.fst).Nodup →
      get? (entries.foldl (fun (d : Dict) e => d.set e.1 e.2) acc) key =
        (List.lookup key entries).or (acc.get? key) := by
    intro entries
    induction entries with
    | nil =>
        intro acc _
        rfl
    | cons e rest ih =>
        intro acc hnodup
        obtain ⟨hnotin, hrest⟩ := List.nodup_cons.mp hnodup
        rw [List.foldl_cons, ih _ hrest, get?_set]
        by_cases hkey : e.1 = key
        · have hnone : List.lookup key rest = none := by
            refine List.lookup_eq_none_iff.mpr fun p hp => ?_
            have hne : p.1 ≠ e.1 := fun heq => hnotin (heq ▸ List.mem_map_of_mem hp)
            simpa [← hkey] using fun heq => hne heq.symm
          have hhead : List.lookup key (e :: rest) = some e.2 := by
            rw [← hkey, List.lookup_cons, beq_self_eq_true]
          rw [hnone, hhead, if_pos hkey]
          rfl
        · have hne : (key == e.1) = false := by simpa using fun heq => hkey heq.symm
          rw [if_neg hkey, List.lookup_cons, hne]
  have h := hrun entries [] hnodup
  rw [get?_nil, Option.or_none] at h
  exact h

lemma lookup_of_mem {entries : List (String × Json)} (hnodup : (entries.map Prod.fst).Nodup)
    {key : String} {v : Json} (h : (key, v) ∈ entries) : entries.lookup key = some v := by
  obtain ⟨before, after, rfl⟩ := List.append_of_mem h
  refine List.lookup_eq_some_iff.mpr ⟨before, after, rfl, fun e he => ?_⟩
  rw [List.map_append, List.nodup_append] at hnodup
  have hne := hnodup.2.2 e.1 (List.mem_map_of_mem he) key (by simp)
  simpa using fun heq => hne heq.symm

/-- A literal with distinct keys holds its items. -/
lemma get?_ofList_of_mem {entries : List (String × Json)}
    (hnodup : (entries.map Prod.fst).Nodup) {key : String} {v : Json} (h : (key, v) ∈ entries) :
    (ofList entries).get? key = some v := by
  rw [get?_ofList hnodup, lookup_of_mem hnodup h]

lemma mem_keys_ofList {entries : List (String × Json)} (hnodup : (entries.map Prod.fst).Nodup)
    (key : String) : key ∈ (ofList entries).keys ↔ key ∈ entries.map Prod.fst := by
  rw [mem_keys_iff, contains, get?_ofList hnodup, Option.isSome_iff_ne_none, ne_eq,
    List.lookup_eq_none_iff]
  simp only [bne_iff_ne, ne_eq, not_forall, not_not, List.mem_map, exists_prop]
  exact ⟨fun ⟨p, hp, hkey⟩ => ⟨p, hp, hkey.symm⟩, fun ⟨p, hp, hkey⟩ => ⟨p, hp, hkey.symm⟩⟩

end Dict

/-! ## Well-formed values -/

mutual

/-- Every dictionary in the value lists its keys once and in order. -/
def Json.WF : Json → Prop
  | .null | .bool _ | .int _ | .float _ | .str _ => True
  | .arr items => Json.ItemsWF items
  | .obj entries => Dict.Ordered entries ∧ Json.EntriesWF entries

/-- Every value of a list is well-formed. -/
def Json.ItemsWF : List Json → Prop
  | [] => True
  | x :: xs => x.WF ∧ Json.ItemsWF xs

/-- Every value of a dictionary is well-formed. -/
def Json.EntriesWF : List (String × Json) → Prop
  | [] => True
  | (_, x) :: xs => x.WF ∧ Json.EntriesWF xs

end

instance (d : Dict) : Decidable d.Ordered := by
  unfold Dict.Ordered
  infer_instance

mutual

/-- Well-formedness of a value is decided by looking at all of it. -/
def Json.decWF : (v : Json) → Decidable v.WF
  | .null | .bool _ | .int _ | .float _ | .str _ => isTrue (by simp [Json.WF])
  | .arr items => Json.decItemsWF items
  | .obj entries =>
      match (inferInstance : Decidable (Dict.Ordered entries)), Json.decEntriesWF entries with
      | isTrue h, isTrue h' => isTrue ⟨h, h'⟩
      | isFalse h, _ => isFalse fun e => h e.1
      | _, isFalse h => isFalse fun e => h e.2

/-- Well-formedness of the members of a list. -/
def Json.decItemsWF : (items : List Json) → Decidable (Json.ItemsWF items)
  | [] => isTrue trivial
  | x :: xs =>
      match Json.decWF x, Json.decItemsWF xs with
      | isTrue h, isTrue h' => isTrue ⟨h, h'⟩
      | isFalse h, _ => isFalse fun e => h e.1
      | _, isFalse h => isFalse fun e => h e.2

/-- Well-formedness of the values of a dictionary. -/
def Json.decEntriesWF : (entries : List (String × Json)) → Decidable (Json.EntriesWF entries)
  | [] => isTrue trivial
  | (_, x) :: xs =>
      match Json.decWF x, Json.decEntriesWF xs with
      | isTrue h, isTrue h' => isTrue ⟨h, h'⟩
      | isFalse h, _ => isFalse fun e => h e.1
      | _, isFalse h => isFalse fun e => h e.2

end

instance (v : Json) : Decidable v.WF := Json.decWF v

namespace Json

lemma itemsWF_iff {items : List Json} : ItemsWF items ↔ ∀ x ∈ items, x.WF := by
  induction items with
  | nil => simp [ItemsWF]
  | cons x xs ih => simp [ItemsWF, ih]

lemma entriesWF_iff {entries : Dict} : EntriesWF entries ↔ ∀ e ∈ entries, e.2.WF := by
  induction entries with
  | nil => simp [EntriesWF]
  | cons e xs ih =>
      obtain ⟨k, x⟩ := e
      simp [EntriesWF, ih]

@[simp] lemma wf_arr {items : List Json} : (arr items).WF ↔ ∀ x ∈ items, x.WF := by
  rw [WF, itemsWF_iff]

lemma wf_obj {d : Dict} : (obj d).WF ↔ d.Ordered ∧ ∀ e ∈ d, e.2.WF := by
  rw [WF, entriesWF_iff]

@[simp] lemma wf_str (s : String) : (str s).WF := by simp [WF]

lemma WF.get? {d : Dict} (h : (obj d).WF) {key : String} {v : Json} (hv : d.get? key = some v) :
    v.WF :=
  (wf_obj.mp h).2 _ (Dict.get?_eq_some_mem hv)

lemma WF.set {d : Dict} (h : (obj d).WF) (key : String) {v : Json} (hv : v.WF) :
    (obj (d.set key v)).WF := by
  rw [wf_obj] at h ⊢
  refine ⟨h.1.set key v, fun e he => ?_⟩
  rcases Dict.mem_set he with rfl | hin
  · exact hv
  · exact h.2 e hin

lemma WF.erase {d : Dict} (h : (obj d).WF) (key : String) : (obj (d.erase key)).WF := by
  rw [wf_obj] at h ⊢
  exact ⟨h.1.erase key, fun e he => h.2 e (List.mem_of_mem_filter he)⟩

lemma wf_ofList {entries : List (String × Json)} (h : ∀ e ∈ entries, e.2.WF) :
    (obj (Dict.ofList entries)).WF := by
  have hrun : ∀ (entries : List (String × Json)) (acc : Dict), (obj acc).WF →
      (∀ e ∈ entries, e.2.WF) →
      (obj (entries.foldl (fun (d : Dict) e => d.set e.1 e.2) acc)).WF := by
    intro entries
    induction entries with
    | nil =>
        intro acc hacc _
        exact hacc
    | cons e rest ih =>
        intro acc hacc hall
        exact ih _ (hacc.set e.1 (hall e List.mem_cons_self))
          fun f hf => hall f (List.mem_cons_of_mem _ hf)
  exact hrun entries [] (wf_obj.mpr ⟨List.Pairwise.nil, by simp⟩) h

/-! ## Questions Python asks of a value -/

/-- The name of the value's type. -/
def typeName : Json → String
  | null => "NoneType"
  | bool _ => "bool"
  | int _ => "int"
  | float _ => "float"
  | str _ => "str"
  | arr _ => "list"
  | obj _ => "dict"

/-- `isinstance(value, str)`. -/
def isStr : Json → Bool
  | str _ => true
  | _ => false

/-- `isinstance(value, dict)`. -/
def isDict : Json → Bool
  | obj _ => true
  | _ => false

/-- `isinstance(value, list)`. -/
def isList : Json → Bool
  | arr _ => true
  | _ => false

/-- The text of a string. -/
def str? : Json → Option String
  | str s => some s
  | _ => none

/-- The items of a dictionary. -/
def obj? : Json → Option Dict
  | obj d => some d
  | _ => none

/-- The members of a list. -/
def arr? : Json → Option (List Json)
  | arr xs => some xs
  | _ => none

/-- `bool(value)`. -/
def truthy : Json → Bool
  | null => false
  | bool b => b
  | int n => n ≠ 0
  | float (.finite x) => x.mant ≠ 0
  | float (.inf _) => true
  | float .nan => true
  | str s => s ≠ ""
  | arr xs => !xs.isEmpty
  | obj d => !d.isEmpty

/-- `iter(value)`: the members of a list, the keys of a dictionary, the characters of a string. -/
def iterate : Json → Result (List Json)
  | arr xs => .ok xs
  | obj d => .ok ((Dict.keys d).map str)
  | str s => .ok (s.toList.map fun c => str (String.singleton c))
  | v => typeError s!"'{v.typeName}' object is not iterable"

/-- `value[key]` for a string key. -/
def getItem : Json → String → Result Json
  | obj d, key => Dict.getItem d key
  | arr _, _ => typeError "list indices must be integers or slices, not str"
  | str _, _ => typeError "string indices must be integers, not 'str'"
  | v, _ => typeError s!"'{v.typeName}' object is not subscriptable"

/-- `value.get(key)`. -/
def get : Json → String → Result (Option Json)
  | obj d, key => .ok (Dict.get? d key)
  | v, _ => attributeError s!"'{v.typeName}' object has no attribute 'get'"

@[simp] lemma isStr_iff {v : Json} : v.isStr = true ↔ ∃ s, v = str s := by cases v <;> simp [isStr]

/-- A list of strings is the list of its texts. -/
lemma map_str?_of_all {items : List Json} (h : items.all isStr = true) :
    (items.filterMap str?).map str = items := by
  induction items with
  | nil => rfl
  | cons x xs ih =>
      simp only [List.all_cons, Bool.and_eq_true] at h
      obtain ⟨s, rfl⟩ := isStr_iff.mp h.1
      rw [List.filterMap_cons_some (by rfl), List.map_cons, ih h.2]

@[simp] lemma isDict_iff {v : Json} : v.isDict = true ↔ ∃ d, v = obj d := by
  cases v <;> simp [isDict]
@[simp] lemma isList_iff {v : Json} : v.isList = true ↔ ∃ xs, v = arr xs := by
  cases v <;> simp [isList]
@[simp] lemma str?_eq_some {v : Json} {s : String} : v.str? = some s ↔ v = str s := by
  cases v <;> simp [str?]
@[simp] lemma obj?_eq_some {v : Json} {d : Dict} : v.obj? = some d ↔ v = obj d := by
  cases v <;> simp [obj?]
@[simp] lemma arr?_eq_some {v : Json} {xs : List Json} : v.arr? = some xs ↔ v = arr xs := by
  cases v <;> simp [arr?]

end Json

/-- The string under a key, empty when there is none. -/
def Dict.textAt (d : Dict) (key : String) : String := ((d.get? key).bind Json.str?).getD ""

/-- The list of dictionaries under a key, empty when there is none. -/
def Dict.rowsAt (d : Dict) (key : String) : List Dict :=
  (((d.get? key).bind Json.arr?).getD []).filterMap Json.obj?

/-- The list of strings under a key, empty when there is none. -/
def Dict.textsAt (d : Dict) (key : String) : List String :=
  (((d.get? key).bind Json.arr?).getD []).filterMap Json.str?

/-- The dictionary under a key, empty when there is none. -/
def Dict.dictAt (d : Dict) (key : String) : Dict := ((d.get? key).bind Json.obj?).getD []

section Accessors

variable {d : Dict} {key : String}

lemma Dict.textAt_eq {s : String} (h : d.get? key = some (.str s)) : d.textAt key = s := by
  simp [Dict.textAt, h, Json.str?]

lemma Dict.dictAt_eq {e : Dict} (h : d.get? key = some (.obj e)) : d.dictAt key = e := by
  simp [Dict.dictAt, h, Json.obj?]

lemma Dict.rowsAt_eq {rows : List Dict} (h : d.get? key = some (.arr (rows.map .obj))) :
    d.rowsAt key = rows := by
  simp [Dict.rowsAt, h, Json.arr?, List.filterMap_map, Function.comp_def, Json.obj?]

lemma Dict.textsAt_eq {ss : List String} (h : d.get? key = some (.arr (ss.map .str))) :
    d.textsAt key = ss := by
  simp [Dict.textsAt, h, Json.arr?, List.filterMap_map, Function.comp_def, Json.str?]

end Accessors

lemma Dict.present?_eq_some {d : Dict} {key : String} {v : Json} :
    d.present? key = some v ↔ d.get? key = some v ∧ v ≠ .null := by
  unfold Dict.present?
  cases h : d.get? key with
  | none => simp
  | some w => cases w <;> aesop

lemma Dict.present?_eq_none {d : Dict} {key : String} :
    d.present? key = none ↔ d.get? key = none ∨ d.get? key = some .null := by
  unfold Dict.present?
  cases h : d.get? key with
  | none => simp
  | some w => cases w <;> simp

@[simp] lemma Dict.getItem_eq_ok {d : Dict} {key : String} {v : Json} :
    d.getItem key = .ok v ↔ d.get? key = some v := by
  unfold Dict.getItem
  cases d.get? key with
  | none => simp
  | some w => simp

end Py

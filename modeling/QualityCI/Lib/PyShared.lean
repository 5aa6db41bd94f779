import QualityCI.Lib.JsonText

/-!
# Values held in several places

Storing a value in a dictionary stores a reference to it, and a later write through the dictionary
changes the value for everyone who holds it.  Here a value that is held in several places is a
cell, and everywhere else a value is a tree whose leaves are what nothing can be stored in.

* `Node` — a value in memory; `Node.ofJson` — a new one, which shares nothing.
* `Node.read` — the value as JSON, with the cells it refers to.
* `Node.assign` — the write at the end of a path, which changes the value it starts from or one
  cell on the way.
* **`assign_cases`** — where a write lands.
* **`read_eq_some`**, `read_unique`, `read_transfer` — what a value reads as.
* **`read_set`** — a cell may be replaced by anything that reads the same.
* **`Stored.read`** — storing what is there already changes no reading.
-/

namespace Py

/-- A value in memory: one that nothing can be stored in, a dictionary, or a reference to a cell. -/
inductive Node
  | leaf (value : Json)
  | dict (members : List (String × Node))
  | shared (cell : ℕ)

namespace Node

/-! ## New values -/

mutual

/-- A new value. -/
def ofJson : Json → Node
  | .obj d => .dict (ofEntries d)
  | .null => .leaf .null
  | .bool b => .leaf (.bool b)
  | .int n => .leaf (.int n)
  | .float x => .leaf (.float x)
  | .str s => .leaf (.str s)
  | .arr items => .leaf (.arr items)

/-- The members of a new dictionary. -/
def ofEntries : List (String × Json) → List (String × Node)
  | [] => []
  | (key, v) :: rest => (key, ofJson v) :: ofEntries rest

end

mutual

/-- How many dictionaries lie around the innermost member, the value included. -/
def height : Json → ℕ
  | .obj d => heightEntries d + 1
  | .null | .bool _ | .int _ | .float _ | .str _ | .arr _ => 1

/-- The height of the highest member. -/
def heightEntries : List (String × Json) → ℕ
  | [] => 0
  | (_, v) :: rest => max (height v) (heightEntries rest)

end

/-! ## Reading -/

/-- The object that a value refers to. -/
def target (cells : List Node) : Node → Node
  | .shared i => cells.getD i (.leaf .null)
  | n => n

/-- The dictionary of the members under some keys, each read by `read`. -/
def readMembers (read : Node → Option Json) (members : List (String × Node)) :
    List String → Option Dict
  | [] => some []
  | key :: keys => do
      let member ← members.lookup key
      let v ← read member
      let d ← readMembers read members keys
      some (d.set key v)

/-- The value, with the cells it refers to; `fuel` bounds the dictionaries on the way down. -/
def read (cells : List Node) : ℕ → Node → Option Json
  | 0, _ => none
  | fuel + 1, n =>
      match n.target cells with
      | .leaf v => if v.isDict = true then none else some v
      | .dict members => do
          let d ← readMembers (read cells fuel) members (members.map Prod.fst)
          some (.obj d)
      | .shared _ => none

/-! ## Writing -/

/-- The members with one stored. -/
def setMember : List (String × Node) → String → Node → List (String × Node)
  | [], key, n => [(key, n)]
  | (k, m) :: rest, key, n =>
      if k = key then (key, n) :: rest else (k, m) :: setMember rest key n

/-- `value[key]`. -/
def getMember : Node → String → Result Node
  | .dict members, key =>
      match members.lookup key with
      | some n => .ok n
      | none => keyError key
  | .leaf v, key => do
      let _ ← v.getItem key
      keyError key
  | .shared _, _ => typeError "'object' object is not subscriptable"

/-- `value[key] = item`. -/
def storeMember (item : Node) : Node → String → Result Node
  | .dict members, key => .ok (.dict (setMember members key item))
  | .leaf (.arr _), _ => typeError "list indices must be integers or slices, not str"
  | .leaf v, _ => typeError s!"'{v.typeName}' object does not support item assignment"
  | .shared _, _ => typeError "'object' object does not support item assignment"

/-- What a write changes: the value it starts from, or a cell on the way. -/
inductive Change
  | here (n : Node)
  | cell (i : ℕ) (n : Node)

/-- The change as seen from the value that holds `child`, whose target it is a change of. -/
def Change.under (child : Node) (store : Node → Result Node) : Change → Result Change
  | .cell i m => .ok (.cell i m)
  | .here m =>
      match child with
      | .shared i => .ok (.cell i m)
      | .leaf _ | .dict _ => do
          let n ← store m
          .ok (.here n)

/-- `for part in parts[:-1]: cursor = cursor[part]`, and then `cursor[parts[-1]] = item`. -/
def assign (cells : List Node) (item : Node) : Node → List String → Result Change
  | _, [] => .error ⟨.indexError, "list index out of range"⟩
  | n, [key] => do
      let m ← storeMember item n key
      .ok (.here m)
  | n, key :: next :: rest => do
      let child ← n.getMember key
      let change ← assign cells item (child.target cells) (next :: rest)
      change.under child fun m => storeMember m n key

/-! ## Walking -/

/-- `value.get(key)`, of a value that may be anything. -/
def member (cells : List Node) (n : Node) (key : String) : Option Node :=
  match n.target cells with
  | .dict members => members.lookup key
  | .leaf _ | .shared _ => none

/-- The value at the end of a path. -/
def walk (cells : List Node) : Node → List String → Option Node
  | n, [] => some n
  | n, key :: rest => (n.member cells key).bind fun child => walk cells child rest

/-- The value at the end of a path that meets no reference before its end. -/
def inline (n : Node) (path : List String) : Option Node := n.walk [] path

end Node

/-- The value at the end of a path. -/
def Json.valueAt : Json → List String → Option Json
  | v, [] => some v
  | .obj d, key :: rest => (Dict.get? d key).bind fun w => w.valueAt rest
  | .null, _ :: _ | .bool _, _ :: _ | .int _, _ :: _ | .float _, _ :: _ | .str _, _ :: _
  | .arr _, _ :: _ => none

namespace Node

section Walking

variable {cells : List Node}

@[simp] lemma target_leaf (v : Json) : (leaf v).target cells = leaf v := rfl

@[simp] lemma target_dict (members : List (String × Node)) :
    (dict members).target cells = dict members := rfl

@[simp] lemma walk_nil (n : Node) : n.walk cells [] = some n := rfl

@[simp] lemma walk_cons (n : Node) (key : String) (rest : List String) :
    n.walk cells (key :: rest) = (n.member cells key).bind fun child => child.walk cells rest := rfl

lemma walk_append (n : Node) (path rest : List String) :
    n.walk cells (path ++ rest) = (n.walk cells path).bind fun m => m.walk cells rest := by
  induction path generalizing n with
  | nil => rfl
  | cons key path ih =>
      rw [List.cons_append, walk_cons, walk_cons]
      cases n.member cells key with
      | none => rfl
      | some child => exact ih child

lemma member_eq_some {n child : Node} {key : String} (h : n.member cells key = some child) :
    ∃ members, n.target cells = dict members ∧ members.lookup key = some child := by
  unfold member at h
  cases htarget : n.target cells with
  | leaf v => simp [htarget] at h
  | dict members =>
      rw [htarget] at h
      exact ⟨members, rfl, h⟩
  | shared i => simp [htarget] at h

lemma member_dict (members : List (String × Node)) (key : String) :
    (dict members).member cells key = members.lookup key := rfl

lemma lookup_entry (k : String) (m : Node) (rest : List (String × Node)) (key : String) :
    List.lookup key ((k, m) :: rest) = if k = key then some m else rest.lookup key := by
  rw [List.lookup_cons]
  by_cases h : k = key
  · simp [h]
  · have hne : (key == k) = false := by simpa using fun e => h e.symm
    simp [h, hne]

@[simp] lemma lookup_setMember (members : List (String × Node)) (key key' : String) (n : Node) :
    (setMember members key n).lookup key' = if key = key' then some n else members.lookup key' := by
  induction members with
  | nil => rw [setMember, lookup_entry]
  | cons e rest ih =>
      obtain ⟨k, m⟩ := e
      unfold setMember
      split_ifs with hk h h
      · rw [lookup_entry, if_pos h]
      · rw [lookup_entry, if_neg h, lookup_entry, if_neg (hk ▸ h)]
      · rw [lookup_entry, if_neg (h ▸ hk), ih, if_pos h]
      · rw [lookup_entry, lookup_entry, ih, if_neg h]

end Walking

/-! ## Where a write lands -/

/-- `m` is `n` with the item stored at the end of a path that meets no reference. -/
inductive Stored (item : Node) : Node → List String → Node → Prop
  | last (members : List (String × Node)) (key : String) :
      Stored item (.dict members) [key] (.dict (setMember members key item))
  | step {members : List (String × Node)} {key : String} {child child' : Node}
      {rest : List String} (hchild : members.lookup key = some child)
      (h : Stored item child rest child') :
      Stored item (.dict members) (key :: rest) (.dict (setMember members key child'))

section Writing

variable {cells : List Node} {item : Node}

lemma getMember_eq_ok {n child : Node} {key : String} (h : n.getMember key = .ok child) :
    ∃ members, n = dict members ∧ members.lookup key = some child := by
  cases n with
  | leaf v =>
      unfold getMember at h
      cases hget : v.getItem key with
      | error e => simp [hget, bind, Except.bind] at h
      | ok w => simp [hget, bind, Except.bind, keyError] at h
  | dict members =>
      unfold getMember at h
      cases hlookup : members.lookup key with
      | none => simp [hlookup, keyError] at h
      | some m =>
          simp only [hlookup, Except.ok.injEq] at h
          exact ⟨members, rfl, by rw [hlookup, h]⟩
  | shared i => simp [getMember, typeError] at h

lemma storeMember_eq_ok {n m : Node} {key : String} (h : storeMember item n key = .ok m) :
    ∃ members, n = dict members ∧ m = dict (setMember members key item) := by
  cases n with
  | leaf v => cases v <;> simp [storeMember, typeError] at h
  | dict members => exact ⟨members, rfl, (Except.ok.inj h).symm⟩
  | shared i => simp [storeMember, typeError] at h

/-- What a write changes. -/
def Lands (cells : List Node) (item n : Node) (parts : List String) : Change → Prop
  | .here m => Stored item n parts m
  | .cell i m => ∃ path rest, parts = path ++ rest ∧ path ≠ [] ∧
      n.walk cells path = some (.shared i) ∧ Stored item ((shared i).target cells) rest m

/-- A write starts from a dictionary. -/
lemma assign_dict {n : Node} {parts : List String} {change : Change}
    (h : assign cells item n parts = .ok change) : ∃ members, n = dict members := by
  match parts with
  | [] => simp [assign] at h
  | [key] =>
      simp only [assign, bind_eq_ok] at h
      obtain ⟨m, hm, -⟩ := h
      obtain ⟨members, rfl, -⟩ := storeMember_eq_ok hm
      exact ⟨members, rfl⟩
  | key :: next :: rest =>
      simp only [assign, bind_eq_ok] at h
      obtain ⟨child, hchild, -⟩ := h
      obtain ⟨members, rfl, -⟩ := getMember_eq_ok hchild
      exact ⟨members, rfl⟩

/-- A path that is not empty sees the object behind a reference. -/
lemma walk_target {n : Node} {members : List (String × Node)} (h : n.target cells = dict members)
    {path : List String} (hpath : path ≠ []) :
    n.walk cells path = (dict members).walk cells path := by
  cases path with
  | nil => exact absurd rfl hpath
  | cons key rest =>
      have hmember : n.member cells key = (dict members).member cells key := by
        unfold member
        rw [h, target_dict]
      rw [walk_cons, walk_cons, hmember]

/-- **A write lands** in the value it starts from, or in the last cell on its path. -/
theorem assign_cases {n : Node} {parts : List String} {change : Change}
    (h : assign cells item n parts = .ok change) : Lands cells item n parts change := by
  induction parts generalizing n change with
  | nil => simp [assign] at h
  | cons key rest ih =>
      cases rest with
      | nil =>
          simp only [assign, bind_eq_ok, Except.ok.injEq] at h
          obtain ⟨m, hm, rfl⟩ := h
          obtain ⟨members, rfl, rfl⟩ := storeMember_eq_ok hm
          exact Stored.last members key
      | cons next rest =>
          simp only [assign, bind_eq_ok] at h
          obtain ⟨child, hchild, inner, hinner, hunder⟩ := h
          obtain ⟨members, rfl, hlookup⟩ := getMember_eq_ok hchild
          obtain ⟨ms, hms⟩ := assign_dict hinner
          have hland := ih hinner
          have hstep : ∀ path : List String, path ≠ [] →
              (dict members).walk cells (key :: path) =
                (child.target cells).walk cells path := by
            intro path hpath
            rw [walk_cons, member_dict, hlookup, Option.bind_some, hms, walk_target hms hpath]
          cases inner with
          | cell i m =>
              obtain rfl := Except.ok.inj hunder
              obtain ⟨path, rel, hparts, hpath, hwalk, hstored⟩ := hland
              refine ⟨key :: path, rel, by rw [hparts, List.cons_append], by simp, ?_, hstored⟩
              rw [hstep path hpath, hwalk]
          | here m =>
              cases child with
              | shared i =>
                  obtain rfl := Except.ok.inj hunder
                  refine ⟨[key], next :: rest, rfl, by simp, ?_, hland⟩
                  rw [walk_cons, member_dict, hlookup]
                  rfl
              | leaf v =>
                  simp only [Change.under, storeMember, bind_eq_ok, Except.ok.injEq,
                    exists_eq_left'] at hunder
                  obtain rfl := hunder
                  exact Stored.step hlookup hland
              | dict inner =>
                  simp only [Change.under, storeMember, bind_eq_ok, Except.ok.injEq,
                    exists_eq_left'] at hunder
                  obtain rfl := hunder
                  exact Stored.step hlookup hland

lemma Stored.path_ne_nil {n m : Node} {path : List String} (h : Stored item n path m) :
    path ≠ [] := by
  cases h with
  | last members key => simp
  | step hchild h => simp

lemma Stored.source_dict {n m : Node} {path : List String} (h : Stored item n path m) :
    ∃ members, n = .dict members := by
  cases h with
  | last members key => exact ⟨_, rfl⟩
  | step hchild h => exact ⟨_, rfl⟩

lemma Stored.dict {n m : Node} {path : List String} (h : Stored item n path m) :
    ∃ members, m = .dict members := by
  cases h with
  | last members key => exact ⟨_, rfl⟩
  | step hchild h => exact ⟨_, rfl⟩

/-- What has been stored is at the end of its path. -/
lemma Stored.walk {n m : Node} {path : List String} (h : Stored item n path m) :
    m.walk cells path = some item := by
  induction h with
  | last members key =>
      rw [walk_cons, member_dict, lookup_setMember, if_pos rfl]
      rfl
  | step hchild h ih =>
      rw [walk_cons, member_dict, lookup_setMember, if_pos rfl]
      exact ih

/-- The references inside a value after a write: the item, and what the write has not replaced. -/
lemma Stored.inline {i j : ℕ} {n m : Node} {path : List String}
    (h : Stored (.shared i) n path m) {r : List String} (hr : m.inline r = some (.shared j)) :
    r = path ∧ j = i ∨ ¬path <+: r ∧ n.inline r = some (.shared j) := by
  induction h generalizing r with
  | last members key =>
      cases r with
      | nil => simp [Node.inline] at hr
      | cons key' r =>
          rw [Node.inline, walk_cons, member_dict, lookup_setMember] at hr
          by_cases hkey : key = key'
          · subst hkey
            rw [if_pos rfl, Option.bind_some] at hr
            cases r with
            | nil =>
                simp only [walk_nil, Option.some.injEq, Node.shared.injEq] at hr
                exact Or.inl ⟨rfl, hr.symm⟩
            | cons k r => simp [walk_cons, member, target] at hr
          · rw [if_neg hkey] at hr
            refine Or.inr ⟨fun hprefix => hkey (List.cons_prefix_cons.mp hprefix).1, ?_⟩
            rw [Node.inline, walk_cons, member_dict]
            exact hr
  | @step members key child child' rest hchild h ih =>
      cases r with
      | nil => simp [Node.inline] at hr
      | cons key' r =>
          rw [Node.inline, walk_cons, member_dict, lookup_setMember] at hr
          by_cases hkey : key = key'
          · subst hkey
            rw [if_pos rfl, Option.bind_some] at hr
            rcases ih hr with ⟨rfl, hj⟩ | ⟨hnot, hold⟩
            · exact Or.inl ⟨rfl, hj⟩
            · refine Or.inr ⟨fun hprefix => hnot (List.cons_prefix_cons.mp hprefix).2, ?_⟩
              rw [Node.inline, walk_cons, member_dict, hchild]
              exact hold
          · rw [if_neg hkey] at hr
            refine Or.inr ⟨fun hprefix => hkey (List.cons_prefix_cons.mp hprefix).1, ?_⟩
            rw [Node.inline, walk_cons, member_dict]
            exact hr

end Writing

/-! ## What a value reads as -/

section Reading

variable {cells : List Node}

lemma mem_names_iff {members : List (String × Node)} {key : String} :
    key ∈ members.map Prod.fst ↔ ∃ n, members.lookup key = some n := by
  induction members with
  | nil => simp
  | cons e rest ih =>
      obtain ⟨k, m⟩ := e
      rw [List.map_cons, List.mem_cons, ih, lookup_entry]
      by_cases h : k = key
      · simp [h]
      · have hne : ¬key = k := fun e => h e.symm
        simp [h, hne]

lemma mem_of_lookup {members : List (String × Node)} {key : String} {n : Node}
    (h : members.lookup key = some n) : (key, n) ∈ members := by
  obtain ⟨before, after, rfl, -⟩ := List.lookup_eq_some_iff.mp h
  simp

lemma readMembers_eq_some {readOne : Node → Option Json} {members : List (String × Node)}
    {keys : List String} {d : Dict} (h : readMembers readOne members keys = some d) :
    d.Ordered ∧ (∀ key ∈ keys, (members.lookup key).bind readOne ≠ none) ∧
      ∀ key, d.get? key = if key ∈ keys then (members.lookup key).bind readOne else none := by
  induction keys generalizing d with
  | nil =>
      obtain rfl := Option.some.inj h
      exact ⟨List.Pairwise.nil, by simp, by simp⟩
  | cons k keys ih =>
      simp only [readMembers, Option.bind_eq_bind, Option.bind_eq_some_iff] at h
      obtain ⟨m, hm, v, hv, e, he, hd⟩ := h
      obtain rfl := Option.some.inj hd
      obtain ⟨hordered, hall, hget⟩ := ih he
      have hread : (members.lookup k).bind readOne = some v := by rw [hm, Option.bind_some, hv]
      refine ⟨hordered.set k v, ?_, ?_⟩
      · intro key hkey
        rcases List.mem_cons.mp hkey with rfl | hin
        · simp [hread]
        · exact hall key hin
      · intro key
        rw [Dict.get?_set, hget]
        by_cases hkey : k = key
        · subst hkey
          simp [hread]
        · have hne : ¬key = k := fun e => hkey e.symm
          simp [hkey, hne]

lemma readMembers_exists {readOne : Node → Option Json} {members : List (String × Node)}
    {keys : List String} (h : ∀ key ∈ keys, (members.lookup key).bind readOne ≠ none) :
    ∃ d, readMembers readOne members keys = some d := by
  induction keys with
  | nil => exact ⟨[], rfl⟩
  | cons k keys ih =>
      obtain ⟨d, hd⟩ := ih fun key hkey => h key (List.mem_cons_of_mem _ hkey)
      obtain ⟨v, hv⟩ := Option.ne_none_iff_exists'.mp (h k List.mem_cons_self)
      obtain ⟨m, hm, hread⟩ := Option.bind_eq_some_iff.mp hv
      exact ⟨d.set k v, by simp [readMembers, hm, hread, hd]⟩

lemma read_succ (fuel : ℕ) (n : Node) :
    n.read cells (fuel + 1) =
      match n.target cells with
      | .leaf v => if v.isDict = true then none else some v
      | .dict members => do
          let d ← readMembers (read cells fuel) members (members.map Prod.fst)
          some (.obj d)
      | .shared _ => none := rfl

/-- **What a value reads as**: a leaf as itself, a dictionary as the dictionary of what its members
read as. -/
theorem read_eq_some {fuel : ℕ} {n : Node} {v : Json} :
    n.read cells (fuel + 1) = some v ↔
      (n.target cells = leaf v ∧ v.isDict = false) ∨
      ∃ members, ∃ d : Dict, n.target cells = dict members ∧ v = .obj d ∧ d.Ordered ∧
        ∀ key, Option.Rel (fun m w => m.read cells fuel = some w) (members.lookup key)
          (d.get? key) := by
  rw [read_succ]
  cases htarget : n.target cells with
  | leaf w =>
      by_cases hdict : w.isDict = true
      · simp only [hdict, ↓reduceIte, reduceCtorEq, leaf.injEq, false_and, exists_false, or_false,
          false_iff, not_and, Bool.not_eq_false]
        rintro rfl
        exact hdict
      · simp only [hdict, Bool.false_eq_true, ↓reduceIte, Option.some.injEq, leaf.injEq,
          reduceCtorEq, false_and, exists_false, or_false]
        refine ⟨?_, fun h => h.1⟩
        rintro rfl
        exact ⟨rfl, Bool.eq_false_iff.mpr hdict⟩
  | shared i => simp
  | dict members =>
      simp only [Option.bind_eq_bind, Option.bind_eq_some_iff, Option.some.injEq, reduceCtorEq,
        false_and, dict.injEq, false_or]
      constructor
      · rintro ⟨d, hd, rfl⟩
        obtain ⟨hordered, hall, hget⟩ := readMembers_eq_some hd
        refine ⟨members, d, rfl, rfl, hordered, fun key => ?_⟩
        rw [hget]
        cases hlookup : members.lookup key with
        | none => simp
        | some m =>
            have hin := mem_names_iff.mpr ⟨m, hlookup⟩
            have hread := hall key hin
            rw [hlookup, Option.bind_some] at hread
            obtain ⟨w, hw⟩ := Option.ne_none_iff_exists'.mp hread
            rw [if_pos hin, Option.bind_some, hw]
            exact Option.Rel.some hw
      · rintro ⟨_, d, rfl, rfl, hordered, hrel⟩
        have hall : ∀ key ∈ members.map Prod.fst,
            (members.lookup key).bind (fun m => m.read cells fuel) ≠ none := by
          intro key hkey
          obtain ⟨m, hm⟩ := mem_names_iff.mp hkey
          have h := hrel key
          rw [hm] at h
          cases hget : d.get? key with
          | none => simp [hget] at h
          | some w =>
              rw [hget, Option.rel_some_some] at h
              rw [hm, Option.bind_some, h]
              simp
        obtain ⟨e, he⟩ := readMembers_exists hall
        obtain ⟨hordered', -, hget⟩ := readMembers_eq_some he
        refine ⟨e, he, ?_⟩
        rw [Dict.ext hordered' hordered fun key => ?_]
        rw [hget]
        have h := hrel key
        cases hlookup : members.lookup key with
        | none =>
            rw [hlookup] at h
            cases hd : d.get? key with
            | none => simp
            | some w => simp [hd] at h
        | some m =>
            rw [hlookup] at h
            rw [if_pos (mem_names_iff.mpr ⟨m, hlookup⟩)]
            cases hd : d.get? key with
            | none => simp [hd] at h
            | some w =>
                rw [hd, Option.rel_some_some] at h
                rw [Option.bind_some, h]

/-- A reference reads as the object it refers to. -/
lemma read_target {n : Node} (h : (n.target cells).target cells = n.target cells) (fuel : ℕ) :
    n.read cells fuel = (n.target cells).read cells fuel := by
  cases fuel with
  | zero => rfl
  | succ fuel => rw [read_succ, read_succ, h]

lemma rel_some_left {α β : Type} {r : α → β → Prop} {a : α} {o : Option β}
    (h : Option.Rel r (some a) o) : ∃ b, o = some b ∧ r a b := by
  cases h with
  | some hab => exact ⟨_, rfl, hab⟩

lemma rel_some_right {α β : Type} {r : α → β → Prop} {o : Option α} {b : β}
    (h : Option.Rel r o (some b)) : ∃ a, o = some a ∧ r a b := by
  cases h with
  | some hab => exact ⟨_, rfl, hab⟩

lemma rel_none_left {α β : Type} {r : α → β → Prop} {o : Option β}
    (h : Option.Rel r none o) : o = none := by
  cases h with
  | none => rfl

lemma rel_none_right {α β : Type} {r : α → β → Prop} {o : Option α}
    (h : Option.Rel r o none) : o = none := by
  cases h with
  | none => rfl

/-- A value reads as one thing only. -/
theorem read_unique {fuel fuel' : ℕ} {n : Node} {v w : Json} (hv : n.read cells fuel = some v)
    (hw : n.read cells fuel' = some w) : v = w := by
  induction fuel generalizing fuel' n v w with
  | zero => simp [read] at hv
  | succ fuel ih =>
      cases fuel' with
      | zero => simp [read] at hw
      | succ fuel' =>
          rcases read_eq_some.mp hv with ⟨hleaf, -⟩ | ⟨members, d, hdict, rfl, hd, hrel⟩
          · rcases read_eq_some.mp hw with ⟨hleaf', -⟩ | ⟨members, e, hdict', -⟩
            · exact leaf.inj (hleaf.symm.trans hleaf')
            · simp [hleaf] at hdict'
          · rcases read_eq_some.mp hw with ⟨hleaf', -⟩ | ⟨members', e, hdict', rfl, he, hrel'⟩
            · simp [hdict] at hleaf'
            · obtain rfl := dict.inj (hdict.symm.trans hdict')
              congr 1
              refine Dict.ext hd he fun key => ?_
              have h := hrel key
              have h' := hrel' key
              cases hlookup : members.lookup key with
              | none =>
                  rw [hlookup] at h h'
                  rw [rel_none_left h, rel_none_left h']
              | some m =>
                  rw [hlookup] at h h'
                  obtain ⟨x, hx, hmx⟩ := rel_some_left h
                  obtain ⟨y, hy, hmy⟩ := rel_some_left h'
                  rw [hx, hy, ih hmx hmy]

/-- The fuel that reads one value reads every value that reads as the same. -/
theorem read_transfer {cells' : List Node} {fuel fuel' : ℕ} {n m : Node} {v : Json}
    (hn : n.read cells fuel = some v) (hm : m.read cells' fuel' = some v) :
    n.read cells fuel' = some v := by
  induction fuel' generalizing fuel n m v with
  | zero => simp [read] at hm
  | succ fuel' ih =>
      cases fuel with
      | zero => simp [read] at hn
      | succ fuel =>
          rw [read_eq_some]
          rcases read_eq_some.mp hn with hleaf | ⟨members, d, hdict, rfl, hd, hrel⟩
          · exact Or.inl hleaf
          · refine Or.inr ⟨members, d, hdict, rfl, hd, fun key => ?_⟩
            rcases read_eq_some.mp hm with ⟨-, hnot⟩ | ⟨members', e, -, heq, -, hrel'⟩
            · simp [Json.isDict] at hnot
            · obtain rfl := Json.obj.inj heq
              have h := hrel key
              have h' := hrel' key
              cases hget : Dict.get? d key with
              | none =>
                  rw [hget] at h
                  rw [rel_none_right h]
                  exact Option.Rel.none
              | some w =>
                  rw [hget] at h h'
                  obtain ⟨c, hlookup, hc⟩ := rel_some_right h
                  obtain ⟨c', -, hc'⟩ := rel_some_right h'
                  rw [hlookup]
                  exact Option.Rel.some (ih hc hc')

/-- **A cell may be replaced** by an object that reads the same. -/
theorem read_set {i : ℕ} {n : Node} (hi : i < cells.length) (hn : ∃ members, n = dict members)
    (hread : ∀ fuel v, (shared i).read cells fuel = some v → n.read cells fuel = some v)
    {fuel : ℕ} {m : Node} {v : Json} (hm : m.read cells fuel = some v) :
    m.read (cells.set i n) fuel = some v := by
  induction fuel generalizing m v with
  | zero => simp [read] at hm
  | succ fuel ih =>
      have hself : ∃ o, m.target (cells.set i n) = o ∧ o.target cells = o ∧
          o.read cells (fuel + 1) = some v := by
        obtain ⟨members, rfl⟩ := hn
        by_cases hmi : m = shared i
        · subst hmi
          exact ⟨dict members, by simp [target, hi], rfl, hread _ _ hm⟩
        · refine ⟨m.target cells, ?_, ?_, ?_⟩
          · cases m with
            | leaf v => rfl
            | dict ms => rfl
            | shared j =>
                have hne : i ≠ j := fun e => hmi (by rw [e])
                simp [target, List.getElem?_set_ne hne]
          · rcases read_eq_some.mp hm with ⟨hleaf, -⟩ | ⟨ms, d, hdict, -⟩
            · rw [hleaf]
              rfl
            · rw [hdict]
              rfl
          · rcases read_eq_some.mp hm with ⟨hleaf, hv⟩ | ⟨ms, d, hdict, hrest⟩
            · exact read_eq_some.mpr (Or.inl ⟨by rw [hleaf]; rfl, hv⟩)
            · exact read_eq_some.mpr (Or.inr ⟨ms, d, by rw [hdict]; rfl, hrest⟩)
      obtain ⟨o, ho, hobject, hread'⟩ := hself
      rw [read_eq_some, ho]
      rw [read_eq_some, hobject] at hread'
      rcases hread' with hleaf | ⟨ms, d, hdict, hv, hd, hrel⟩
      · exact Or.inl hleaf
      · refine Or.inr ⟨ms, d, hdict, hv, hd, fun key => ?_⟩
        have h := hrel key
        generalize ms.lookup key = a at h ⊢
        generalize d.get? key = b at h ⊢
        cases h with
        | none => exact Option.Rel.none
        | some hc => exact Option.Rel.some (ih hc)

/-- Storing an item that reads as what the value has at the path leaves it reading the same. -/
theorem Stored.read {item n m : Node} {path : List String} (h : Stored item n path m)
    {fuel : ℕ} {v w : Json} (hn : n.read cells fuel = some v) (hw : v.valueAt path = some w)
    {fuel' : ℕ} (hitem : item.read cells fuel' = some w) : m.read cells fuel = some v := by
  induction h generalizing fuel v with
  | last members key =>
      cases fuel with
      | zero => simp [Node.read] at hn
      | succ fuel =>
          rcases read_eq_some.mp hn with ⟨hleaf, -⟩ | ⟨ms, d, hdict, rfl, hd, hrel⟩
          · simp at hleaf
          · obtain rfl := Node.dict.inj hdict
            refine read_eq_some.mpr (Or.inr ⟨_, d, rfl, rfl, hd, fun key' => ?_⟩)
            rw [lookup_setMember]
            by_cases hkey : key = key'
            · subst hkey
              have hget : Dict.get? d key = some w := by
                rw [Json.valueAt, Option.bind_eq_some_iff] at hw
                obtain ⟨x, hx, hxw⟩ := hw
                rw [hx, Option.some.inj hxw]
              have h := hrel key
              rw [hget] at h
              rw [if_pos rfl, hget]
              obtain ⟨c, -, hc⟩ := rel_some_right h
              exact Option.Rel.some (read_transfer hitem hc)
            · rw [if_neg hkey]
              exact hrel key'
  | @step members key child child' rest hchild h ih =>
      cases fuel with
      | zero => simp [Node.read] at hn
      | succ fuel =>
          rcases read_eq_some.mp hn with ⟨hleaf, -⟩ | ⟨ms, d, hdict, rfl, hd, hrel⟩
          · simp at hleaf
          · obtain rfl := Node.dict.inj hdict
            refine read_eq_some.mpr (Or.inr ⟨_, d, rfl, rfl, hd, fun key' => ?_⟩)
            rw [lookup_setMember]
            by_cases hkey : key = key'
            · subst hkey
              rw [Json.valueAt, Option.bind_eq_some_iff] at hw
              obtain ⟨x, hx, hxw⟩ := hw
              have h := hrel key
              rw [hchild, hx] at h
              have hc : child.read cells fuel = some x := by simpa using h
              rw [if_pos rfl, hx]
              exact Option.Rel.some (ih hc hxw)
            · rw [if_neg hkey]
              exact hrel key'

/-- What is at the end of a path reads as what the value has there. -/
theorem read_walk {fuel : ℕ} {n m : Node} {v : Json} {path : List String}
    (hn : n.read cells fuel = some v) (hm : n.walk cells path = some m) :
    ∃ fuel' w, v.valueAt path = some w ∧ m.read cells fuel' = some w := by
  induction path generalizing fuel n v with
  | nil =>
      obtain rfl := Option.some.inj hm
      exact ⟨fuel, v, by cases v <;> rfl, hn⟩
  | cons key rest ih =>
      rw [walk_cons, Option.bind_eq_some_iff] at hm
      obtain ⟨child, hchild, hrest⟩ := hm
      obtain ⟨members, htarget, hlookup⟩ := member_eq_some hchild
      cases fuel with
      | zero => simp [Node.read] at hn
      | succ fuel =>
          rcases read_eq_some.mp hn with ⟨hleaf, -⟩ | ⟨ms, d, hdict, rfl, -, hrel⟩
          · simp [htarget] at hleaf
          · obtain rfl := Node.dict.inj (htarget.symm.trans hdict)
            have h := hrel key
            rw [hlookup] at h
            obtain ⟨w, hw, hc⟩ := rel_some_left h
            rw [Json.valueAt, hw, Option.bind_some]
            exact ih hc hrest

lemma valueAt_append (v : Json) (path rest : List String) :
    v.valueAt (path ++ rest) = (v.valueAt path).bind fun w => w.valueAt rest := by
  induction path generalizing v with
  | nil => cases v <;> rfl
  | cons key path ih =>
      cases v with
      | obj d =>
          rw [List.cons_append, Json.valueAt, Json.valueAt]
          cases Dict.get? d key with
          | none => rfl
          | some w => exact ih w
      | _ => rfl

/-! ### New values -/

lemma lookup_ofEntries (d : List (String × Json)) (key : String) :
    (ofEntries d).lookup key = (Dict.get? d key).map ofJson := by
  induction d with
  | nil => rfl
  | cons e rest ih =>
      obtain ⟨k, v⟩ := e
      rw [ofEntries, lookup_entry, Dict.get?_cons, ih]
      split_ifs <;> rfl

lemma height_le {d : List (String × Json)} {e : String × Json} (h : e ∈ d) :
    height e.2 ≤ heightEntries d := by
  induction d with
  | nil => simp at h
  | cons f rest ih =>
      obtain ⟨k, v⟩ := f
      rw [heightEntries]
      rcases List.mem_cons.mp h with rfl | hin
      · exact le_max_left _ _
      · exact le_trans (ih hin) (le_max_right _ _)

lemma target_ofJson (v : Json) : (ofJson v).target cells = ofJson v := by
  cases v <;> rfl

/-- A new value reads as the value it was made from. -/
theorem read_ofJson {v : Json} (hwf : v.WF) {fuel : ℕ} (hfuel : height v ≤ fuel) :
    (ofJson v).read cells fuel = some v := by
  induction fuel generalizing v with
  | zero => cases v <;> simp [height] at hfuel
  | succ fuel ih =>
      rw [read_eq_some]
      cases v with
      | obj d =>
          rw [Json.wf_obj] at hwf
          rw [height] at hfuel
          refine Or.inr ⟨ofEntries d, d, rfl, rfl, hwf.1, fun key => ?_⟩
          rw [lookup_ofEntries]
          cases hget : Dict.get? d key with
          | none => exact Option.Rel.none
          | some w =>
              have hin := Dict.get?_eq_some_mem hget
              have hle : height w ≤ heightEntries d := height_le hin
              exact Option.Rel.some (ih (hwf.2 _ hin) (by omega))
      | _ => exact Or.inl ⟨rfl, rfl⟩

mutual

/-- A new value refers to no cell. -/
theorem inline_ofJson : ∀ (v : Json) (path : List String) (i : ℕ),
    (ofJson v).inline path ≠ some (shared i)
  | .obj d, path, i => by
      cases path with
      | nil => simp [Node.inline, ofJson]
      | cons key rest => exact inline_ofEntries d key rest i
  | .null, path, i | .bool b, path, i | .int n, path, i | .float x, path, i | .str s, path, i
  | .arr items, path, i => by
      cases path with
      | nil => simp [Node.inline, ofJson]
      | cons key rest => simp [Node.inline, ofJson, member]

/-- Nor does any of its members. -/
theorem inline_ofEntries : ∀ (d : List (String × Json)) (key : String) (rest : List String) (i : ℕ),
    (dict (ofEntries d)).inline (key :: rest) ≠ some (shared i)
  | [], key, rest, i => by simp [Node.inline, ofEntries, member_dict]
  | (k, v) :: d, key, rest, i => by
      have hv := inline_ofJson v rest i
      have hd := inline_ofEntries d key rest i
      rw [Node.inline, walk_cons, member_dict] at hd ⊢
      rw [ofEntries, lookup_entry]
      split_ifs with h
      · exact hv
      · exact hd

end

end Reading

end Node

end Py

import QualityCI.Lib.PyShared

/-!
# Writes into shared values

A value with its cells.  When every cell has one place, given by a path from the value, a write
under a path is seen under that path and nowhere else, whichever cell it lands in.

* `Placed`, `CellsPlaced` — every reference stands at the place of its cell.
* `Heap` — a value and its cells, with `Heap.write`.
* **`Heap.Placed.walk_write`**, **`Heap.Placed.walk_written`** — what a write shows.
* **`Heap.inline_write`** — the references that follow no other, after a write.
* **`Heap.read_write`** — a write of what is there already changes no reading.
-/

namespace Py

namespace Node

/-! ## The places of cells -/

section Places

variable {cells cells' : List Node} {pos : ℕ → List String} {p path : List String}
  {item n n' : Node}

/-- In a value that stands at `p`, every reference stands at the place of its cell. -/
def Placed (pos : ℕ → List String) (p : List String) (n : Node) : Prop :=
  ∀ path i, n.inline path = some (shared i) → pos i = p ++ path

/-- Every cell stands at its place. -/
def CellsPlaced (pos : ℕ → List String) (cells : List Node) : Prop :=
  ∀ i, Placed pos (pos i) ((shared i).target cells)

lemma Placed.target (hn : Placed pos p n) (hcells : CellsPlaced pos cells) :
    Placed pos p (n.target cells) := by
  cases n with
  | leaf v => exact hn
  | dict members => exact hn
  | shared i =>
      have hpos : pos i = p := by simpa using hn [] i rfl
      exact hpos ▸ hcells i

lemma Placed.child {members : List (String × Node)} {key : String} {child : Node}
    (hn : Placed pos p (dict members)) (hchild : members.lookup key = some child) :
    Placed pos (p ++ [key]) child := by
  intro path i hpath
  rw [hn (key :: path) i (by rw [Node.inline, walk_cons, member_dict, hchild]; exact hpath)]
  simp

/-- A reference is met at the place of its cell. -/
lemma Placed.walk (hn : Placed pos p n) (hcells : CellsPlaced pos cells) {i : ℕ}
    (h : n.walk cells path = some (shared i)) : pos i = p ++ path := by
  induction path generalizing n p with
  | nil =>
      obtain rfl := Option.some.inj h
      exact hn [] i rfl
  | cons key rest ih =>
      rw [walk_cons, Option.bind_eq_some_iff] at h
      obtain ⟨child, hmember, hwalk⟩ := h
      obtain ⟨members, htarget, hlookup⟩ := member_eq_some hmember
      have htargets := hn.target hcells
      rw [htarget] at htargets
      rw [ih (htargets.child hlookup) hwalk]
      simp

/-- The value at `p` before and after a write at `place`: untouched, or with the item inside. -/
def Touched (item : Node) (place p : List String) (n n' : Node) : Prop :=
  n' = n ∨ ∃ rest, place = p ++ rest ∧ Stored item n rest n'

lemma Touched.target {place : List String} (h : Touched item place p n n') (hn : Placed pos p n)
    (hcells : ∀ i, Touched item place (pos i) ((shared i).target cells)
      ((shared i).target cells')) :
    Touched item place p (n.target cells) (n'.target cells') := by
  rcases h with rfl | ⟨rest, hplace, hstored⟩
  · cases n' with
    | leaf v => exact Or.inl rfl
    | dict members => exact Or.inl rfl
    | shared i =>
        have hpos : pos i = p := by simpa using hn [] i rfl
        exact hpos ▸ hcells i
  · refine Or.inr ⟨rest, hplace, ?_⟩
    cases hstored with
    | last members key => exact Stored.last members key
    | step hchild h => exact Stored.step hchild h

lemma Touched.child {place rest : List String} {members : List (String × Node)} {key : String}
    {child : Node} (h : Touched item place p (dict members) n')
    (hchild : members.lookup key = some child) (hplace : ¬place <+: p ++ key :: rest) :
    ∃ members' child', n' = dict members' ∧ members'.lookup key = some child' ∧
      Touched item place (p ++ [key]) child child' := by
  rcases h with rfl | ⟨rest', hrest, hstored⟩
  · exact ⟨members, child, rfl, hchild, Or.inl rfl⟩
  · cases hstored with
    | last _ key' =>
        have hne : key' ≠ key := by
          rintro rfl
          exact hplace ⟨rest, by rw [hrest]; simp⟩
        exact ⟨_, child, rfl, by rw [lookup_setMember, if_neg hne, hchild], Or.inl rfl⟩
    | @step _ key' child₀ child₀' rest₀ hchild₀ h =>
        by_cases hkey : key' = key
        · subst hkey
          obtain rfl := Option.some.inj (hchild₀.symm.trans hchild)
          refine ⟨_, child₀', rfl, by rw [lookup_setMember, if_pos rfl], Or.inr ⟨rest₀, ?_, h⟩⟩
          rw [hrest]
          simp
        · exact ⟨_, child, rfl, by rw [lookup_setMember, if_neg hkey, hchild], Or.inl rfl⟩

/-- **A write is seen nowhere but under its place**: the references elsewhere are as before. -/
theorem Touched.walk {place : List String} (h : Touched item place p n n') (hn : Placed pos p n)
    (hplaced : CellsPlaced pos cells)
    (hcells : ∀ i, Touched item place (pos i) ((shared i).target cells)
      ((shared i).target cells'))
    (hplace : ¬place <+: p ++ path) {j : ℕ} (hwalk : n.walk cells path = some (shared j)) :
    n'.walk cells' path = some (shared j) := by
  induction path generalizing n n' p with
  | nil =>
      obtain rfl := Option.some.inj hwalk
      rcases h with rfl | ⟨rest, -, hstored⟩
      · rfl
      · cases hstored
  | cons key rest ih =>
      rw [walk_cons, Option.bind_eq_some_iff] at hwalk
      obtain ⟨child, hmember, hrest⟩ := hwalk
      obtain ⟨members, htarget, hlookup⟩ := member_eq_some hmember
      have htargets := h.target hn hcells
      have hplaces := hn.target hplaced
      rw [htarget] at htargets hplaces
      obtain ⟨members', child', htarget', hlookup', hchild⟩ := htargets.child hlookup hplace
      have hmember' : n'.member cells' key = some child' := by
        simp only [Node.member, htarget', hlookup']
      rw [walk_cons, hmember', Option.bind_some]
      exact ih hchild (hplaces.child hlookup) (by simpa using hplace) hrest

/-- Storing a reference at its place keeps every reference at its place. -/
lemma Touched.placed {i : ℕ} (h : Touched (shared i) (pos i) p n n') (hn : Placed pos p n) :
    Placed pos p n' := by
  rcases h with rfl | ⟨rest, hrest, hstored⟩
  · exact hn
  · intro r j hr
    rcases hstored.inline hr with ⟨rfl, rfl⟩ | ⟨-, hold⟩
    · exact hrest
    · exact hn r j hold

/-- The first reference on a path. -/
lemma walk_first {i : ℕ} (h : n.walk cells path = some (shared i)) :
    ∃ j path₁ path₂, path = path₁ ++ path₂ ∧ n.inline path₁ = some (shared j) ∧
      (shared j).walk cells path₂ = some (shared i) := by
  induction path generalizing n with
  | nil =>
      obtain rfl := Option.some.inj h
      exact ⟨i, [], [], rfl, rfl, rfl⟩
  | cons key rest ih =>
      cases n with
      | leaf v => simp [member] at h
      | shared j => exact ⟨j, [], key :: rest, rfl, rfl, h⟩
      | dict members =>
          rw [walk_cons, Option.bind_eq_some_iff] at h
          obtain ⟨child, hmember, hrest⟩ := h
          obtain ⟨j, path₁, path₂, rfl, hinline, hwalk⟩ := ih hrest
          refine ⟨j, key :: path₁, path₂, rfl, ?_, hwalk⟩
          rw [member_dict] at hmember
          rw [Node.inline, walk_cons, member_dict, hmember]
          exact hinline

/-- No path goes on after a reference without following it. -/
lemma inline_after {path rest : List String} {i j : ℕ} (h : n.inline path = some (shared i))
    (h' : n.inline (path ++ rest) = some (shared j)) : rest = [] := by
  rw [Node.inline, walk_append, ← Node.inline, h, Option.bind_some] at h'
  cases rest with
  | nil => rfl
  | cons key rest => simp [member, target] at h'

end Places

end Node

/-! ## A value with its cells -/

open Node

/-- A value in memory and the cells that it and they refer to. -/
structure Heap where
  root : Node
  cells : List Node

namespace Heap

/-- The heap after a change of its value. -/
def apply (h : Heap) : Change → Heap
  | .here n => { h with root := n }
  | .cell i n => { h with cells := h.cells.set i n }

/-- A cell stored at the end of a path from the value. -/
def write (h : Heap) (i : ℕ) (parts : List String) : Result Heap := do
  let change ← assign h.cells (.shared i) h.root parts
  .ok (h.apply change)

/-- Every reference stands at the place of its cell. -/
def Placed (pos : ℕ → List String) (h : Heap) : Prop :=
  Node.Placed pos [] h.root ∧ CellsPlaced pos h.cells

variable {h h' : Heap} {i : ℕ} {parts : List String} {pos : ℕ → List String}

lemma write_eq_ok : h.write i parts = .ok h' ↔
    ∃ change, assign h.cells (.shared i) h.root parts = .ok change ∧ h.apply change = h' := by
  simp only [write, bind_eq_ok, Except.ok.injEq]

/-- Only a cell that exists can be written to. -/
lemma lt_of_stored {cells : List Node} {item m : Node} {path : List String}
    (hstored : Stored item ((shared i).target cells) path m) : i < cells.length := by
  by_contra hge
  have hnone : cells[i]? = none := List.getElem?_eq_none (by omega)
  simp only [target, List.getD_eq_getElem?_getD, hnone, Option.getD_none] at hstored
  cases hstored

lemma target_set {cells : List Node} {i j : ℕ} {m : Node} (hi : i < cells.length) :
    (shared j).target (cells.set i m) = if i = j then m else (shared j).target cells := by
  by_cases hij : i = j
  · subst hij
    simp [target, hi]
  · simp [target, List.getElem?_set_ne hij, hij]

/-- What a write does to the value and to each cell. -/
lemma write_touched (hp : h.Placed pos) (hw : h.write i parts = .ok h') :
    Touched (.shared i) parts [] h.root h'.root ∧
      ∀ j, Touched (.shared i) parts (pos j) ((shared j).target h.cells)
        ((shared j).target h'.cells) := by
  obtain ⟨change, hassign, rfl⟩ := write_eq_ok.mp hw
  have hland := assign_cases hassign
  cases change with
  | here m => exact ⟨Or.inr ⟨parts, rfl, hland⟩, fun j => Or.inl rfl⟩
  | cell k m =>
      obtain ⟨path, rest, hparts, -, hwalk, hstored⟩ := hland
      refine ⟨Or.inl rfl, fun j => ?_⟩
      have hk := lt_of_stored hstored
      have hpos := hp.1.walk hp.2 hwalk
      simp only [apply, target_set hk]
      split_ifs with hkj
      · subst hkj
        exact Or.inr ⟨rest, by rw [hpos, hparts]; rfl, hstored⟩
      · exact Or.inl rfl

/-- **A cell stored at its place** leaves every reference at its place. -/
theorem Placed.write (hp : h.Placed pos) (hw : h.write i (pos i) = .ok h') : h'.Placed pos := by
  obtain ⟨hroot, hcells⟩ := write_touched hp hw
  exact ⟨hroot.placed hp.1, fun j => (hcells j).placed (hp.2 j)⟩

/-- **A write is seen nowhere but under its path.** -/
theorem Placed.walk_write (hp : h.Placed pos) (hw : h.write i parts = .ok h') {path : List String}
    {j : ℕ} (hnot : ¬parts <+: path) (hwalk : h.root.walk h.cells path = some (shared j)) :
    h'.root.walk h'.cells path = some (shared j) := by
  obtain ⟨hroot, hcells⟩ := write_touched hp hw
  exact hroot.walk hp.1 hp.2 hcells hnot hwalk

/-- **What has been stored** is at the end of its path. -/
theorem Placed.walk_written (hp : h.Placed pos) (hw : h.write i parts = .ok h') :
    h'.root.walk h'.cells parts = some (shared i) := by
  have hkept : ∀ (path : List String) (j : ℕ), ¬parts <+: path →
      h.root.walk h.cells path = some (shared j) →
        h'.root.walk h'.cells path = some (shared j) := by
    intro path j hnot hwalk
    exact hp.walk_write hw hnot hwalk
  obtain ⟨change, hassign, rfl⟩ := write_eq_ok.mp hw
  have hland := assign_cases hassign
  cases change with
  | here m => exact Stored.walk hland
  | cell k m =>
      obtain ⟨path, rest, rfl, -, hwalk, hstored⟩ := hland
      have hrest := hstored.path_ne_nil
      have hnot : ¬path ++ rest <+: path := by
        intro hprefix
        have hlength := hprefix.length_le
        have hpositive := List.length_pos_iff.mpr hrest
        rw [List.length_append] at hlength
        omega
      have hk := lt_of_stored hstored
      obtain ⟨members, rfl⟩ := hstored.dict
      have htarget : (shared k).target (h.cells.set k (.dict members)) = .dict members := by
        rw [target_set hk, if_pos rfl]
      rw [walk_append, hkept path k hnot hwalk, Option.bind_some]
      exact (walk_target htarget hrest).trans hstored.walk

/-- The references in the value that follow no other, after a write. -/
theorem inline_write (hw : h.write i parts = .ok h') {path : List String} {j : ℕ}
    (hinline : h'.root.inline path = some (shared j)) :
    path = parts ∧ j = i ∨ ¬parts <+: path ∧ h.root.inline path = some (shared j) := by
  obtain ⟨change, hassign, rfl⟩ := write_eq_ok.mp hw
  have hland := assign_cases hassign
  cases change with
  | here m => exact Stored.inline hland hinline
  | cell k m =>
      obtain ⟨path', rest, rfl, -, hwalk, hstored⟩ := hland
      refine Or.inr ⟨fun hprefix => ?_, hinline⟩
      obtain ⟨j', path₁, path₂, rfl, hfirst, -⟩ := walk_first hwalk
      obtain ⟨tail, rfl⟩ := hprefix
      have hbeyond : h.root.inline (path₁ ++ (path₂ ++ rest ++ tail)) = some (shared j) := by
        rw [← hinline]
        simp only [apply, List.append_assoc]
      have hnil := inline_after hfirst hbeyond
      rw [List.append_eq_nil_iff, List.append_eq_nil_iff] at hnil
      exact hstored.path_ne_nil hnil.1.2

/-- **A write that changes no value.**  If what is written is what the first cell on the way has
at the rest of the path, everything reads the same afterwards. -/
theorem read_write (hw : h.write i parts = .ok h')
    (hsame : ∀ j path rest, parts = path ++ rest → rest ≠ [] →
      h.root.inline path = some (shared j) →
      ∃ fuel fuel' v w, (shared j).read h.cells fuel = some v ∧ v.valueAt rest = some w ∧
        (shared i).read h.cells fuel' = some w)
    {fuel : ℕ} {m : Node} {v : Json} (hread : m.read h.cells fuel = some v) :
    m.read h'.cells fuel = some v := by
  obtain ⟨change, hassign, rfl⟩ := write_eq_ok.mp hw
  have hland := assign_cases hassign
  cases change with
  | here n => exact hread
  | cell k n =>
      obtain ⟨path, rest, rfl, -, hwalk, hstored⟩ := hland
      have hrest := hstored.path_ne_nil
      obtain ⟨j, path₁, path₂, rfl, hfirst, hfollow⟩ := walk_first hwalk
      obtain ⟨fuel₁, fuel₂, v₁, w, hv₁, hat, hitem⟩ :=
        hsame j path₁ (path₂ ++ rest) (by simp) (by simp [hrest]) hfirst
      obtain ⟨fuel₃, v₂, hv₂, hk⟩ := read_walk hv₁ hfollow
      have hat₂ : v₂.valueAt rest = some w := by
        rw [valueAt_append, hv₂, Option.bind_some] at hat
        exact hat
      refine read_set (lt_of_stored hstored) hstored.dict (fun fuel' x hx => ?_) hread
      obtain rfl := read_unique hk hx
      obtain ⟨members, hmembers⟩ := hstored.source_dict
      have htwice : ((shared k).target h.cells).target h.cells = (shared k).target h.cells := by
        rw [hmembers]
        rfl
      rw [read_target htwice] at hx
      exact hstored.read hx hat₂ hitem

end Heap

end Py

import QualityCI.Lib.Json
import QualityCI.Lib.KeySort
import Mathlib.Data.Option.Basic
import Mathlib.Data.List.Perm.Basic

/-!
# Normalising a value field by field

A canonical form is often computed by replacing the values under some keys of a dictionary and by
sorting some lists.  Two values have one canonical form exactly when they are related field by
field; this file has the rules that take such a comparison apart.

* `Dict.updateAll` — replacing the values under given keys.
* **`agree_updateAll_iff`** — two dictionaries are normalised alike exactly when their values are,
  key by key.
* `sortRows` — sorting a list of dictionaries by a key that may raise.
* **`agree_sortRows_iff`** — two lists of rows sort alike exactly when the keys exist and each
  key's rows agree.
* `agree_sortRows_iff_perm` — with distinct keys: exactly when one list permutes the other.
-/

namespace Py

open KeySort

/-- Two arguments on which a function returns one result. -/
def Agree {α β : Type} (f : α → Result β) (a b : α) : Prop := ∃ r, f a = .ok r ∧ f b = .ok r

lemma Agree.symm {α β : Type} {f : α → Result β} {a b : α} (h : Agree f a b) : Agree f b a := by
  obtain ⟨r, ha, hb⟩ := h
  exact ⟨r, hb, ha⟩

@[simp] lemma agree_ok_iff {α : Type} {a b : α} : Agree Except.ok a b ↔ a = b := by
  simp [Agree, eq_comm]

/-- A relation between the members of two lists, where it matters only on members. -/
lemma forall₂_imp_mem {α β : Type} {R S : α → β → Prop} {xs : List α} {ys : List β}
    (h : List.Forall₂ R xs ys) (hRS : ∀ x ∈ xs, ∀ y ∈ ys, R x y → S x y) :
    List.Forall₂ S xs ys := by
  induction h with
  | nil => exact List.Forall₂.nil
  | cons hab _ ih =>
      refine List.Forall₂.cons (hRS _ List.mem_cons_self _ List.mem_cons_self hab) (ih ?_)
      exact fun x hx y hy => hRS x (List.mem_cons_of_mem _ hx) y (List.mem_cons_of_mem _ hy)

lemma forall₂_exists_right {α β : Type} {R : α → β → Prop} {xs : List α} {ys : List β}
    (h : List.Forall₂ R xs ys) {x : α} (hx : x ∈ xs) : ∃ y ∈ ys, R x y := by
  induction h with
  | nil => simp at hx
  | cons hab _ ih =>
      rcases List.mem_cons.mp hx with rfl | hin
      · exact ⟨_, List.mem_cons_self, hab⟩
      · obtain ⟨y, hy, hxy⟩ := ih hin
        exact ⟨y, List.mem_cons_of_mem _ hy, hxy⟩

/-- Lists are mapped alike exactly when their members are. -/
lemma agree_mapEach_iff {α β : Type} {f : α → Result β} {xs ys : List α} :
    Agree (mapEach f) xs ys ↔ List.Forall₂ (Agree f) xs ys := by
  constructor
  · rintro ⟨out, hx, hy⟩
    rw [mapEach_eq_ok] at hx hy
    induction hx generalizing ys with
    | nil =>
        cases hy
        exact List.Forall₂.nil
    | cons hab _ ih =>
        cases hy with
        | cons hcb hys => exact List.Forall₂.cons ⟨_, hab, hcb⟩ (ih hys)
  · intro h
    induction h with
    | nil => exact ⟨[], rfl, rfl⟩
    | cons hab _ ih =>
        obtain ⟨r, ha, hb⟩ := hab
        obtain ⟨out, hx, hy⟩ := ih
        exact ⟨r :: out, by simp [mapEach, ha, hx], by simp [mapEach, hb, hy]⟩

/-! ## Replacing values of a dictionary -/

namespace Dict

/-- `if key in d: d[key] = f(d[key])`. -/
def update (d : Dict) (key : String) (f : Json → Result Json) : Result Dict :=
  match d.get? key with
  | none => .ok d
  | some v => do
      let w ← f v
      .ok (d.set key w)

/-- The replacements one after the other. -/
def updateAll (d : Dict) : List (String × (Json → Result Json)) → Result Dict
  | [] => .ok d
  | (key, f) :: rest => do
      let d ← d.update key f
      updateAll d rest

/-- Two dictionaries with the same keys and related values. -/
def Related (rel : String → Json → Json → Prop) (a b : Dict) : Prop :=
  ∀ key, Option.Rel (rel key) (a.get? key) (b.get? key)

/-- What the replacements do to the value under a key. -/
def blockOf (blocks : List (String × (Json → Result Json))) (key : String) : Json → Result Json :=
  (blocks.lookup key).getD .ok

lemma blockOf_cons (k : String) (f : Json → Result Json)
    (rest : List (String × (Json → Result Json))) (key : String) :
    blockOf ((k, f) :: rest) key = if k = key then f else blockOf rest key := by
  unfold blockOf
  rw [List.lookup_cons]
  by_cases h : k = key
  · simp [h]
  · have : (key == k) = false := by simpa using fun e => h e.symm
    simp [h, this]

lemma blockOf_of_notMem {blocks : List (String × (Json → Result Json))} {key : String}
    (h : key ∉ blocks.map Prod.fst) : blockOf blocks key = .ok := by
  induction blocks with
  | nil => rfl
  | cons e rest ih =>
      obtain ⟨k, f⟩ := e
      simp only [List.map_cons, List.mem_cons, not_or] at h
      rw [blockOf_cons, if_neg fun e => h.1 e.symm, ih h.2]

/-- `f` on the value under a key, when there is one. -/
def onValue (f : Json → Result Json) : Option Json → Result (Option Json)
  | none => .ok none
  | some v => do
      let w ← f v
      .ok (some w)

@[simp] lemma onValue_ok (o : Option Json) : onValue .ok o = .ok o := by
  cases o with
  | none => rfl
  | some v => rfl

/-- A replacement that succeeds changes the value under its key and nothing else. -/
lemma update_eq_ok {d p : Dict} {key : String} {f : Json → Result Json} (hd : d.Ordered)
    (h : d.update key f = .ok p) :
    p.Ordered ∧ onValue f (d.get? key) = .ok (p.get? key) ∧
      ∀ k, k ≠ key → p.get? k = d.get? k := by
  unfold update at h
  cases hv : d.get? key with
  | none =>
      simp only [hv, Except.ok.injEq] at h
      subst h
      exact ⟨hd, by rw [hv]; rfl, fun _ _ => rfl⟩
  | some v =>
      simp only [hv, bind_eq_ok, Except.ok.injEq] at h
      obtain ⟨w, hw, rfl⟩ := h
      refine ⟨hd.set key w, by simp [onValue, hw], fun k hk => ?_⟩
      rw [get?_set, if_neg hk.symm]

lemma update_succeeds {d : Dict} {key : String} {f : Json → Result Json}
    (h : ∀ v, d.get? key = some v → ∃ w, f v = .ok w) : ∃ p, d.update key f = .ok p := by
  unfold update
  cases hv : d.get? key with
  | none => exact ⟨d, rfl⟩
  | some v =>
      obtain ⟨w, hw⟩ := h v hv
      exact ⟨d.set key w, by simp [hw]⟩

variable {blocks : List (String × (Json → Result Json))}

/-- The replacements under distinct keys act on each value by its own block. -/
lemma updateAll_eq_ok (hkeys : (blocks.map Prod.fst).Nodup) {d p : Dict} (hd : d.Ordered)
    (h : d.updateAll blocks = .ok p) :
    p.Ordered ∧ ∀ k, onValue (blockOf blocks k) (d.get? k) = .ok (p.get? k) := by
  induction blocks generalizing d with
  | nil =>
      obtain rfl := Except.ok.inj h
      exact ⟨hd, fun k => onValue_ok _⟩
  | cons e rest ih =>
      obtain ⟨key, f⟩ := e
      simp only [List.map_cons, List.nodup_cons] at hkeys
      simp only [updateAll, bind_eq_ok] at h
      obtain ⟨d₁, h₁, h₂⟩ := h
      obtain ⟨ho₁, hkey, hother⟩ := update_eq_ok hd h₁
      obtain ⟨hop, hrest⟩ := ih hkeys.2 ho₁ h₂
      refine ⟨hop, fun k => ?_⟩
      have hk := hrest k
      rw [blockOf_cons]
      split_ifs with hc
      · -- the later blocks leave this key's value alone
        subst hc
        rw [blockOf_of_notMem hkeys.1, onValue_ok] at hk
        rw [hkey, Except.ok.inj hk]
      · rw [← hother k fun e => hc e.symm]
        exact hk

lemma updateAll_succeeds (hkeys : (blocks.map Prod.fst).Nodup) {d : Dict} (hd : d.Ordered)
    (h : ∀ k v, d.get? k = some v → ∃ w, blockOf blocks k v = .ok w) :
    ∃ p, d.updateAll blocks = .ok p := by
  induction blocks generalizing d with
  | nil => exact ⟨d, rfl⟩
  | cons e rest ih =>
      obtain ⟨key, f⟩ := e
      simp only [List.map_cons, List.nodup_cons] at hkeys
      obtain ⟨d₁, h₁⟩ : ∃ p, d.update key f = .ok p := by
        refine update_succeeds fun v hv => ?_
        have := h key v hv
        rwa [blockOf_cons, if_pos rfl] at this
      obtain ⟨ho₁, -, hother⟩ := update_eq_ok hd h₁
      obtain ⟨p, hp⟩ := ih hkeys.2 ho₁ fun k v hv => by
        by_cases hk : k = key
        · rw [hk, blockOf_of_notMem hkeys.1]
          exact ⟨v, rfl⟩
        · rw [hother k hk] at hv
          have := h k v hv
          rwa [blockOf_cons, if_neg fun e => hk e.symm] at this
      exact ⟨p, by simp [updateAll, h₁, hp]⟩

lemma succeeds_of_onValue {f : Json → Result Json} {v : Json} {o : Option Json}
    (h : onValue f (some v) = .ok o) : ∃ w, f v = .ok w := by
  simp only [onValue, bind_eq_ok] at h
  obtain ⟨w, hw, -⟩ := h
  exact ⟨w, hw⟩

/-- A replacement that succeeds has succeeded on every value. -/
lemma blockOf_succeeds (hkeys : (blocks.map Prod.fst).Nodup) {d p : Dict} (hd : d.Ordered)
    (h : d.updateAll blocks = .ok p) {key : String} {v : Json} (hv : d.get? key = some v) :
    ∃ w, blockOf blocks key v = .ok w := by
  have hk := (updateAll_eq_ok hkeys hd h).2 key
  rw [hv] at hk
  exact succeeds_of_onValue hk

/-- Replacements under distinct keys, as a condition on the values. -/
lemma updateAll_eq_ok_iff (hkeys : (blocks.map Prod.fst).Nodup) {d p : Dict} (hd : d.Ordered) :
    d.updateAll blocks = .ok p ↔
      p.Ordered ∧ ∀ k, onValue (blockOf blocks k) (d.get? k) = .ok (p.get? k) := by
  refine ⟨updateAll_eq_ok hkeys hd, fun ⟨hp, hvalues⟩ => ?_⟩
  obtain ⟨q, hq⟩ : ∃ q, d.updateAll blocks = .ok q := by
    refine updateAll_succeeds hkeys hd fun k v hv => ?_
    have hk := hvalues k
    rw [hv] at hk
    exact succeeds_of_onValue hk
  obtain ⟨hqo, hqvalues⟩ := updateAll_eq_ok hkeys hd hq
  have hsame : q = p := ext hqo hp fun k => Except.ok.inj ((hqvalues k).symm.trans (hvalues k))
  rw [hq, hsame]

/-- **Two dictionaries are normalised alike exactly when their values are, key by key.** -/
theorem agree_updateAll_iff (hkeys : (blocks.map Prod.fst).Nodup) {a b : Dict} (ha : a.Ordered)
    (hb : b.Ordered) :
    Agree (fun d => d.updateAll blocks) a b ↔ Related (fun k => Agree (blockOf blocks k)) a b := by
  constructor
  · rintro ⟨p, hap, hbp⟩ k
    have h1 := (updateAll_eq_ok hkeys ha hap).2 k
    have h2 := (updateAll_eq_ok hkeys hb hbp).2 k
    cases hak : a.get? k with
    | none =>
        cases hbk : b.get? k with
        | none => exact Option.Rel.none
        | some w =>
            simp only [hak, hbk, onValue, bind_eq_ok, Except.ok.injEq] at h1 h2
            obtain ⟨u, -, hu⟩ := h2
            rw [← h1] at hu
            cases hu
    | some v =>
        cases hbk : b.get? k with
        | none =>
            simp only [hak, hbk, onValue, bind_eq_ok, Except.ok.injEq] at h1 h2
            obtain ⟨u, -, hu⟩ := h1
            rw [← h2] at hu
            cases hu
        | some w =>
            simp only [hak, hbk, onValue, bind_eq_ok, Except.ok.injEq] at h1 h2
            obtain ⟨u, hu, hpu⟩ := h1
            obtain ⟨u', hu', hpu'⟩ := h2
            obtain rfl : u = u' := Option.some.inj (hpu.trans hpu'.symm)
            exact Option.Rel.some ⟨u, hu, hu'⟩
  · intro h
    have hval : ∀ k, ∃ o, onValue (blockOf blocks k) (a.get? k) = .ok o ∧
        onValue (blockOf blocks k) (b.get? k) = .ok o := by
      intro k
      have hk := h k
      cases hak : a.get? k with
      | none =>
          cases hbk : b.get? k with
          | none => exact ⟨none, rfl, rfl⟩
          | some w =>
              rw [hak, hbk] at hk
              cases hk
      | some v =>
          cases hbk : b.get? k with
          | none =>
              rw [hak, hbk] at hk
              cases hk
          | some w =>
              rw [hak, hbk] at hk
              cases hk with
              | some hvw =>
                  obtain ⟨u, hu, hu'⟩ := hvw
                  exact ⟨some u, by simp [onValue, hu], by simp [onValue, hu']⟩
    have hdef : ∀ d : Dict, (∀ k, ∃ o, onValue (blockOf blocks k) (d.get? k) = .ok o) →
        ∀ k v, d.get? k = some v → ∃ w, blockOf blocks k v = .ok w := by
      intro d hd k v hv
      obtain ⟨o, ho⟩ := hd k
      rw [hv] at ho
      exact succeeds_of_onValue ho
    obtain ⟨p, hp⟩ := updateAll_succeeds hkeys ha (hdef a fun k => (hval k).imp fun _ h => h.1)
    obtain ⟨q, hq⟩ := updateAll_succeeds hkeys hb (hdef b fun k => (hval k).imp fun _ h => h.2)
    obtain ⟨hop, hrp⟩ := updateAll_eq_ok hkeys ha hp
    obtain ⟨hoq, hrq⟩ := updateAll_eq_ok hkeys hb hq
    have hpq : p = q := by
      refine ext hop hoq fun k => ?_
      obtain ⟨o, ho, ho'⟩ := hval k
      have h1 := hrp k
      have h2 := hrq k
      rw [ho] at h1
      rw [ho'] at h2
      rw [← Except.ok.inj h1, ← Except.ok.inj h2]
    exact ⟨p, hp, hpq ▸ hq⟩

lemma Related.imp {rel rel' : String → Json → Json → Prop} {a b : Dict}
    (hrel : ∀ k v w, a.get? k = some v → b.get? k = some w → rel k v w → rel' k v w)
    (h : Related rel a b) : Related rel' a b := by
  intro k
  have hk := h k
  cases hak : a.get? k with
  | none =>
      cases hbk : b.get? k with
      | none => exact Option.Rel.none
      | some w =>
          rw [hak, hbk] at hk
          cases hk
  | some v =>
      cases hbk : b.get? k with
      | none =>
          rw [hak, hbk] at hk
          cases hk
      | some w =>
          rw [hak, hbk] at hk
          cases hk with
          | some hvw => exact Option.Rel.some (hrel k v w hak hbk hvw)

/-- A dictionary is related to itself with one value replaced by a related one. -/
lemma related_set {rel : String → Json → Json → Prop} (hrefl : ∀ k v, rel k v v) {a : Dict}
    {key : String} {v w : Json} (hv : a.get? key = some v) (hrel : rel key v w) :
    Related rel a (a.set key w) := by
  intro k
  rw [get?_set]
  split_ifs with hk
  · subst hk
    rw [hv]
    exact Option.Rel.some hrel
  · cases a.get? k with
    | none => exact Option.Rel.none
    | some u => exact Option.Rel.some (hrefl k u)

lemma Related.get?_eq_none {rel : String → Json → Json → Prop} {a b : Dict}
    (h : Related rel a b) {k : String} (hk : a.get? k = none) : b.get? k = none := by
  have hrel := h k
  rw [hk] at hrel
  cases hbk : b.get? k with
  | none => rfl
  | some w =>
      rw [hbk] at hrel
      cases hrel

lemma Related.get? {rel : String → Json → Json → Prop} {a b : Dict} (h : Related rel a b)
    {k : String} {v : Json} (hv : a.get? k = some v) : ∃ w, b.get? k = some w ∧ rel k v w := by
  have hk := h k
  rw [hv] at hk
  cases hbk : b.get? k with
  | none =>
      rw [hbk] at hk
      cases hk
  | some w =>
      rw [hbk] at hk
      cases hk with
      | some hvw => exact ⟨w, rfl, hvw⟩

end Dict

/-! ## Sorting lists of rows -/

section Rows

variable {κ : Type} [LinearOrder κ] [Inhabited κ]

/-- `rows.sort(key=…)`: all keys are computed first. -/
def sortDicts (key : Dict → Result κ) (rows : List Dict) : Result (List Dict) := do
  let keyed ← mapEach (fun row => do
    let k ← key row
    .ok (k, row)) rows
  .ok ((sortBy Prod.fst keyed).map Prod.snd)

/-- The members of a list of dictionaries; `none` when some member is something else. -/
def dictsOf : List Json → Option (List Dict)
  | [] => some []
  | .obj d :: rest => (dictsOf rest).map (d :: ·)
  | _ :: _ => none

/-- `if isinstance(v, list) and all(isinstance(item, dict) …): v.sort(key=…)`. -/
def sortRows (key : Dict → Result κ) : Json → Result Json
  | .arr items =>
      match dictsOf items with
      | some rows => do
          let sorted ← sortDicts key rows
          .ok (.arr (sorted.map Json.obj))
      | none => .ok (.arr items)
  | v => .ok v

/-- The rows of one key, in their order. -/
def rowsOf (key : Dict → Result κ) (k : κ) (rows : List Dict) : List Dict :=
  rows.filter fun r => decide ((key r).toOption = some k)

omit [Inhabited κ] in
lemma mem_rowsOf {key : Dict → Result κ} {k : κ} {rows : List Dict} {row : Dict} :
    row ∈ rowsOf key k rows ↔ row ∈ rows ∧ key row = .ok k := by
  simp only [rowsOf, List.mem_filter, decide_eq_true_eq]
  cases key row <;> simp [Except.toOption]

/-- The key of a row that has one. -/
def keyOr (key : Dict → Result κ) (row : Dict) : κ := (key row).toOption.getD default

lemma dictsOf_eq_some {items : List Json} {rows : List Dict} :
    dictsOf items = some rows ↔ items = rows.map Json.obj := by
  induction items generalizing rows with
  | nil => cases rows <;> simp [dictsOf]
  | cons x xs ih =>
      cases x with
      | obj d => cases rows <;> simp [dictsOf, ih, and_comm]
      | _ => cases rows <;> simp [dictsOf]

@[simp] lemma dictsOf_map (rows : List Dict) : dictsOf (rows.map Json.obj) = some rows :=
  dictsOf_eq_some.mpr rfl

variable {key : Dict → Result κ} {xs ys rows : List Dict}

omit [LinearOrder κ] in
lemma key_eq_keyOr {row : Dict} (h : ∃ k, key row = .ok k) : key row = .ok (keyOr key row) := by
  obtain ⟨k, hk⟩ := h
  simp [keyOr, hk, Except.toOption]

lemma rowsOf_eq_filter (h : ∀ r ∈ rows, ∃ k, key r = .ok k) (k : κ) :
    rowsOf key k rows = rows.filter fun r => decide (keyOr key r = k) := by
  refine List.filter_congr fun r hr => ?_
  rw [key_eq_keyOr (h r hr)]
  simp [Except.toOption]

/-- Sorting succeeds when every row has a key, and then sorts by the keys. -/
lemma sortDicts_eq_ok {out : List Dict} :
    sortDicts key rows = .ok out ↔
      (∀ r ∈ rows, ∃ k, key r = .ok k) ∧ sortBy (keyOr key) rows = out := by
  have hsort : (sortBy Prod.fst (rows.map fun r => (keyOr key r, r))).map Prod.snd =
      sortBy (keyOr key) rows := by
    have hmap : sortBy Prod.fst (rows.map fun r => (keyOr key r, r)) =
        (sortBy (keyOr key) rows).map fun r => (keyOr key r, r) :=
      sortBy_map (fun r => (keyOr key r, r)) (fun _ => rfl) rows
    rw [hmap, List.map_map]
    exact List.map_id _
  have hkeyed (h : ∀ r ∈ rows, ∃ k, key r = .ok k) : mapEach (fun row => do
      let k ← key row
      .ok (k, row)) rows = .ok (rows.map fun r => (keyOr key r, r)) :=
    mapEach_map fun r hr => by simp [key_eq_keyOr (h r hr)]
  unfold sortDicts
  constructor
  · intro h
    simp only [bind_eq_ok, Except.ok.injEq] at h
    obtain ⟨keyed, hk, hout⟩ := h
    have hkeys : ∀ r ∈ rows, ∃ k, key r = .ok k := by
      intro r hr
      obtain ⟨y, -, hy⟩ := mapEach_mem hk hr
      simp only [bind_eq_ok] at hy
      obtain ⟨k, hk, -⟩ := hy
      exact ⟨k, hk⟩
    rw [hkeyed hkeys, Except.ok.injEq] at hk
    rw [← hk, hsort] at hout
    exact ⟨hkeys, hout⟩
  · rintro ⟨hkeys, hout⟩
    simp only [bind_eq_ok, Except.ok.injEq]
    exact ⟨_, hkeyed hkeys, hsort.trans hout⟩

lemma sortRows_map_eq_ok {r : Json} :
    sortRows key (.arr (rows.map Json.obj)) = .ok r ↔
      (∀ r ∈ rows, ∃ k, key r = .ok k) ∧ .arr ((sortBy (keyOr key) rows).map Json.obj) = r := by
  simp only [sortRows, dictsOf_map, bind_eq_ok, sortDicts_eq_ok, Except.ok.injEq]
  constructor
  · rintro ⟨out, ⟨hkeys, rfl⟩, rfl⟩
    exact ⟨hkeys, rfl⟩
  · rintro ⟨hkeys, rfl⟩
    exact ⟨_, ⟨hkeys, rfl⟩, rfl⟩

/-- **Two lists of rows sort alike exactly when the keys exist and each key's rows agree.** -/
theorem agree_sortRows_iff :
    Agree (sortRows key) (.arr (xs.map Json.obj)) (.arr (ys.map Json.obj)) ↔
      xs.Perm ys ∧ (∀ r ∈ xs, ∃ k, key r = .ok k) ∧
        ∀ k, rowsOf key k xs = rowsOf key k ys := by
  have hinj : Function.Injective Json.obj := fun _ _ => Json.obj.inj
  simp only [Agree, sortRows_map_eq_ok]
  constructor
  · rintro ⟨r, ⟨hkx, rfl⟩, hky, heq⟩
    rw [Json.arr.injEq, (List.map_injective_iff.mpr hinj).eq_iff] at heq
    refine ⟨perm_of_sortBy_eq heq.symm, hkx, fun k => ?_⟩
    rw [rowsOf_eq_filter hkx, rowsOf_eq_filter hky]
    exact sortBy_eq_iff.mp heq.symm k
  · rintro ⟨hperm, hkx, hrows⟩
    have hky : ∀ r ∈ ys, ∃ k, key r = .ok k := fun r hr => hkx r (hperm.mem_iff.mpr hr)
    refine ⟨_, ⟨hkx, rfl⟩, hky, ?_⟩
    have hsort : sortBy (keyOr key) xs = sortBy (keyOr key) ys := by
      refine sortBy_eq_iff.mpr fun k => ?_
      rw [← rowsOf_eq_filter hkx, ← rowsOf_eq_filter hky]
      exact hrows k
    rw [hsort]

/-- With distinct keys, rows sort alike exactly when one list permutes the other. -/
theorem agree_sortRows_iff_perm (hkeys : ∀ r ∈ xs, ∃ k, key r = .ok k)
    (hnodup : (xs.map (keyOr key)).Nodup) :
    Agree (sortRows key) (.arr (xs.map Json.obj)) (.arr (ys.map Json.obj)) ↔ xs.Perm ys := by
  rw [agree_sortRows_iff]
  refine ⟨fun h => h.1, fun hperm => ⟨hperm, hkeys, fun k => ?_⟩⟩
  have hky : ∀ r ∈ ys, ∃ k, key r = .ok k := fun r hr => hkeys r (hperm.mem_iff.mpr hr)
  rw [rowsOf_eq_filter hkeys, rowsOf_eq_filter hky]
  exact sortBy_eq_iff.mp (sortBy_eq_of_perm hnodup hperm) k

end Rows

end Py

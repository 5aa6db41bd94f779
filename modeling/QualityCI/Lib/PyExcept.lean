import Mathlib.Data.List.Basic
import Mathlib.Data.List.Nodup

/-!
# Calls that return or raise

A Python call either returns a value or raises an exception with a class and a message.  The
statements a validator is made of are given here with what their success says, so that a proof
about a validator reads its checks off one after the other and never unfolds the monad.

* `require`, `ensure`, `whenever` — the guarded `raise` of two classes, and a guarded block.
* `forEach`, `enumerateM` — the loops, without and with the loop's own variables.
* `bind_eq_ok`, `require_eq_ok`, `whenever_eq_ok`, `forEach_eq_ok` — the simp set of success.
* **`enumerateM_invariant`** — what each pass of a loop keeps, the loop keeps.
* **`enumerateM_distinct`** — the loop that keeps a set of the keys it has met, and raises on a
  repeated one, succeeds only on distinct keys.
-/

namespace Py

/-- The built-in exception classes, and the subclasses that a program derives from them. -/
inductive ErrorClass
  | valueError | typeError | keyError | attributeError | indexError | overflowError
  | runtimeError | unicodeError | integrityError | assertionError
  | derived (base : ErrorClass) (name : String)
  deriving DecidableEq, Repr

/-- `issubclass(cls, ancestor)`, of the classes there are. -/
def ErrorClass.isA : ErrorClass → ErrorClass → Bool
  | .derived base name, ancestor => .derived base name = ancestor || base.isA ancestor
  | .unicodeError, ancestor => .unicodeError = ancestor || .valueError = ancestor
  | cls, ancestor => cls = ancestor

/-- A raised exception. -/
structure PyError where
  cls : ErrorClass
  message : String
  deriving DecidableEq, Repr

/-- A call that returns or raises. -/
abbrev Result (α : Type) := Except PyError α

def valueError {α : Type} (message : String) : Result α := .error ⟨.valueError, message⟩
def typeError {α : Type} (message : String) : Result α := .error ⟨.typeError, message⟩
def keyError {α : Type} (key : String) : Result α := .error ⟨.keyError, key⟩
def attributeError {α : Type} (message : String) : Result α := .error ⟨.attributeError, message⟩

/-- `if not condition: raise ValueError(message)`. -/
def require (condition : Prop) [Decidable condition] (message : String) : Result Unit :=
  if condition then .ok () else valueError message

/-- `if not condition: raise AssertionError(message)`. -/
def ensure (condition : Prop) [Decidable condition] (message : String) : Result Unit :=
  if condition then .ok () else .error ⟨.assertionError, message⟩

/-- `if condition: block`. -/
def whenever (condition : Prop) [Decidable condition] (block : Result Unit) : Result Unit :=
  if condition then block else .ok ()

/-- `for item in items: body`. -/
def forEach {α : Type} (body : α → Result Unit) : List α → Result Unit
  | [] => .ok ()
  | x :: xs => do
      body x
      forEach body xs

/-- `for index, item in enumerate(items): body`, with the variables the body updates. -/
def enumerateM {α σ : Type} (body : ℕ → σ → α → Result σ) : ℕ → σ → List α → Result σ
  | _, s, [] => .ok s
  | i, s, x :: xs => do
      let s ← body i s x
      enumerateM body (i + 1) s xs

/-- `[f(item) for item in items]`. -/
def mapEach {α β : Type} (f : α → Result β) : List α → Result (List β)
  | [] => .ok []
  | x :: xs => do
      let y ← f x
      let ys ← mapEach f xs
      .ok (y :: ys)

/-- `any(p(item) for item in items)`, which stops at the first success. -/
def anyEach {α : Type} (p : α → Result Bool) : List α → Result Bool
  | [] => .ok false
  | x :: xs => do
      let found ← p x
      if found = true then .ok true else anyEach p xs

/-! ## What success says -/

section Success

variable {α β σ κ : Type}

@[simp] lemma bind_eq_ok {x : Result α} {f : α → Result β} {b : β} :
    (x >>= f) = .ok b ↔ ∃ a, x = .ok a ∧ f a = .ok b := by
  cases x with
  | ok a => simp [bind, Except.bind]
  | error e => simp [bind, Except.bind]

@[simp] lemma exists_unit {p : Unit → Prop} : (∃ u, p u) ↔ p () :=
  Unique.exists_iff

/-- A statement before the rest of a block. -/
@[simp high] lemma seq_eq_ok {x : Result Unit} {f : Unit → Result β} {b : β} :
    (x >>= f) = .ok b ↔ x = .ok () ∧ f () = .ok b := by
  simp

@[simp] lemma pure_eq_ok {a b : α} : (pure a : Result α) = .ok b ↔ a = b := by
  simp [pure, Except.pure]

@[simp] lemma valueError_ne_ok {m : String} {a : α} : (valueError m : Result α) ≠ .ok a := by
  simp [valueError]

@[simp] lemma typeError_ne_ok {m : String} {a : α} : (typeError m : Result α) ≠ .ok a := by
  simp [typeError]

@[simp] lemma keyError_ne_ok {m : String} {a : α} : (keyError m : Result α) ≠ .ok a := by
  simp [keyError]

@[simp] lemma attributeError_ne_ok {m : String} {a : α} :
    (attributeError m : Result α) ≠ .ok a := by
  simp [attributeError]

@[simp] lemma require_eq_ok {c : Prop} [Decidable c] {m : String} {u : Unit} :
    require c m = .ok u ↔ c := by
  unfold require
  split_ifs with h
  · simp [h]
  · simp [h]

@[simp] lemma ensure_eq_ok {c : Prop} [Decidable c] {m : String} {u : Unit} :
    ensure c m = .ok u ↔ c := by
  unfold ensure
  split_ifs with h
  · simp [h]
  · simp [h]

@[simp] lemma whenever_eq_ok {c : Prop} [Decidable c] {block : Result Unit} {u : Unit} :
    whenever c block = .ok u ↔ (c → block = .ok ()) := by
  unfold whenever
  split_ifs with h
  · simp [h]
  · simp [h]

@[simp] lemma forEach_eq_ok {body : α → Result Unit} {xs : List α} {u : Unit} :
    forEach body xs = .ok u ↔ ∀ x ∈ xs, body x = .ok () := by
  induction xs with
  | nil => simp [forEach]
  | cons x xs ih => simp [forEach, ih]

/-- No item succeeds in a search that finds none. -/
lemma anyEach_eq_false {p : α → Result Bool} {xs : List α} (h : anyEach p xs = .ok false) :
    ∀ x ∈ xs, p x = .ok false := by
  induction xs with
  | nil => simp
  | cons x xs ih =>
      simp only [anyEach, bind_eq_ok] at h
      obtain ⟨found, hfound, h⟩ := h
      split_ifs at h with htrue
      · exact absurd (Except.ok.inj h) (by decide)
      · have hfalse : p x = .ok false := by simpa [htrue] using hfound
        exact List.forall_mem_cons.mpr ⟨hfalse, ih h⟩

/-- What a computation that returns has as its value. -/
lemma exists_ok_of_isSome {x : Result α} (h : x.toOption.isSome = true) : ∃ a, x = .ok a := by
  cases x with
  | ok a => exact ⟨a, rfl⟩
  | error e => simp [Except.toOption] at h

lemma mapEach_eq_ok {f : α → Result β} {xs : List α} {ys : List β} :
    mapEach f xs = .ok ys ↔ List.Forall₂ (fun x y => f x = .ok y) xs ys := by
  induction xs generalizing ys with
  | nil => cases ys <;> simp [mapEach]
  | cons x xs ih =>
      cases ys with
      | nil => simp [mapEach]
      | cons y ys => simp [mapEach, ih]

lemma mapEach_mem {f : α → Result β} {xs : List α} {ys : List β} (h : mapEach f xs = .ok ys)
    {x : α} (hx : x ∈ xs) : ∃ y ∈ ys, f x = .ok y := by
  induction xs generalizing ys with
  | nil => simp at hx
  | cons z xs ih =>
      simp only [mapEach, bind_eq_ok, Except.ok.injEq] at h
      obtain ⟨y, hy, ys', hys, rfl⟩ := h
      rcases List.mem_cons.mp hx with rfl | hin
      · exact ⟨y, List.mem_cons_self, hy⟩
      · obtain ⟨w, hw, hxw⟩ := ih hys hin
        exact ⟨w, List.mem_cons_of_mem _ hw, hxw⟩

lemma mapEach_exists {f : α → Result β} {xs : List α} {ys : List β} (h : mapEach f xs = .ok ys)
    {y : β} (hy : y ∈ ys) : ∃ x ∈ xs, f x = .ok y := by
  induction xs generalizing ys with
  | nil =>
      obtain rfl := Except.ok.inj h
      simp at hy
  | cons z xs ih =>
      simp only [mapEach, bind_eq_ok, Except.ok.injEq] at h
      obtain ⟨w, hw, ws, hws, rfl⟩ := h
      rcases List.mem_cons.mp hy with rfl | hin
      · exact ⟨z, List.mem_cons_self, hw⟩
      · obtain ⟨x, hx, hxy⟩ := ih hws hin
        exact ⟨x, List.mem_cons_of_mem _ hx, hxy⟩

/-- A list every item of which maps successfully maps to the list of the results. -/
lemma mapEach_map {f : α → Result β} {g : α → β} {xs : List α}
    (h : ∀ x ∈ xs, f x = .ok (g x)) : mapEach f xs = .ok (xs.map g) := by
  rw [mapEach_eq_ok, List.forall₂_map_right_iff, List.forall₂_same]
  exact h

/-- The body of a loop that succeeds has succeeded on every item. -/
lemma enumerateM_mem {body : ℕ → σ → α → Result σ} {xs : List α} {i : ℕ} {s s' : σ}
    (h : enumerateM body i s xs = .ok s') : ∀ x ∈ xs, ∃ j t t', body j t x = .ok t' := by
  induction xs generalizing i s with
  | nil => simp
  | cons x xs ih =>
      simp only [enumerateM, bind_eq_ok] at h
      obtain ⟨s₁, hx, hxs⟩ := h
      exact List.forall_mem_cons.mpr ⟨⟨i, s, s₁, hx⟩, ih hxs⟩

/-- An enumeration whose body does not look at the index and carries nothing. -/
lemma enumerateM_unit {body : ℕ → Unit → α → Result Unit} {xs : List α} {i : ℕ} {u : Unit}
    (h : enumerateM body i () xs = .ok u) : ∀ x ∈ xs, ∃ j, body j () x = .ok () := by
  intro x hx
  obtain ⟨j, _, _, hbody⟩ := enumerateM_mem h x hx
  exact ⟨j, hbody⟩

/-- An enumeration that carries nothing, where success does not depend on the index. -/
lemma enumerateM_unit_iff {body : ℕ → Unit → α → Result Unit} {P : α → Prop} {xs : List α}
    {i : ℕ} (hbody : ∀ j x, body j () x = .ok () ↔ P x) :
    enumerateM body i () xs = .ok () ↔ ∀ x ∈ xs, P x := by
  induction xs generalizing i with
  | nil => simp [enumerateM]
  | cons x xs ih => simp [enumerateM, hbody, ih]

/-- A loop that collects a value of each row, in front of those before it. -/
lemma enumerateM_collect {body : ℕ → List κ → α → Result (List κ)} (f : α → κ) (P : α → Prop)
    (hstep : ∀ i s x s', body i s x = .ok s' → P x ∧ s' = f x :: s)
    {xs : List α} {i : ℕ} {s s' : List κ} (h : enumerateM body i s xs = .ok s') :
    (∀ x ∈ xs, P x) ∧ s' = (xs.map f).reverse ++ s := by
  induction xs generalizing i s with
  | nil =>
      obtain rfl := Except.ok.inj h
      simp
  | cons x xs ih =>
      simp only [enumerateM, bind_eq_ok] at h
      obtain ⟨s₁, hx, hxs⟩ := h
      obtain ⟨hP, rfl⟩ := hstep i s x s₁ hx
      obtain ⟨hall, hs⟩ := ih hxs
      exact ⟨List.forall_mem_cons.mpr ⟨hP, hall⟩, by simp [hs]⟩

/-- **An invariant of a loop**, which each pass keeps. -/
theorem enumerateM_invariant {body : ℕ → σ → α → Result σ} {P : ℕ → σ → Prop} {xs : List α}
    {i : ℕ} {s s' : σ} (h0 : P i s)
    (hstep : ∀ j s x s', xs[j]? = some x → P (i + j) s → body (i + j) s x = .ok s' →
      P (i + j + 1) s')
    (h : enumerateM body i s xs = .ok s') : P (i + xs.length) s' := by
  induction xs generalizing i s with
  | nil =>
      obtain rfl := Except.ok.inj h
      exact h0
  | cons x xs ih =>
      simp only [enumerateM, bind_eq_ok] at h
      obtain ⟨s₁, hx, hxs⟩ := h
      have hshift : ∀ j, i + 1 + j = i + (j + 1) := fun j => by omega
      have hrest := ih (hstep 0 s x s₁ rfl h0 hx) (fun j t y t' hy ht hbody => ?_) hxs
      · rwa [hshift, ← List.length_cons] at hrest
      · rw [hshift] at ht hbody ⊢
        exact hstep (j + 1) t y t' hy ht hbody

/-- A loop that succeeds has succeeded up to every pass. -/
lemma enumerateM_take {body : ℕ → σ → α → Result σ} {xs : List α} {i : ℕ} {s s' : σ}
    (h : enumerateM body i s xs = .ok s') (n : ℕ) :
    ∃ t, enumerateM body i s (xs.take n) = .ok t := by
  induction xs generalizing i s n with
  | nil => exact ⟨s, by rw [List.take_nil]; rfl⟩
  | cons x xs ih =>
      cases n with
      | zero => exact ⟨s, rfl⟩
      | succ n =>
          simp only [enumerateM, bind_eq_ok] at h
          obtain ⟨s₁, hx, hxs⟩ := h
          obtain ⟨t, ht⟩ := ih hxs n
          refine ⟨t, ?_⟩
          simp only [List.take_succ_cons, enumerateM, bind_eq_ok]
          exact ⟨s₁, hx, ht⟩

/-- **The duplicate check of a loop.**  Suppose one pass of the body, when it succeeds, adds the
row's key (if it has one) to the keys met, the key being new, and leaves `P` of the row.  Then the
loop succeeds only when all rows satisfy `P`, their keys are distinct, and none was met before. -/
theorem enumerateM_distinct {body : ℕ → σ → α → Result σ} (met : σ → List κ)
    (key : α → Option κ) (P : α → Prop)
    (hstep : ∀ i s x s', body i s x = .ok s' →
      P x ∧ met s' = (key x).toList ++ met s ∧ ∀ k ∈ key x, k ∉ met s)
    {xs : List α} {i : ℕ} {s s' : σ} (h : enumerateM body i s xs = .ok s') :
    (∀ x ∈ xs, P x) ∧ (xs.filterMap key).Nodup ∧ ∀ k ∈ xs.filterMap key, k ∉ met s := by
  induction xs generalizing i s with
  | nil => simp
  | cons x xs ih =>
      simp only [enumerateM, bind_eq_ok] at h
      obtain ⟨s₁, hx, hxs⟩ := h
      obtain ⟨hP, hmet, hnew⟩ := hstep i s x s₁ hx
      obtain ⟨hall, hnodup, hfresh⟩ := ih hxs
      rw [hmet] at hfresh
      refine ⟨List.forall_mem_cons.mpr ⟨hP, hall⟩, ?_, ?_⟩
      · cases hk : key x with
        | none => simpa [List.filterMap_cons, hk] using hnodup
        | some k =>
            rw [List.filterMap_cons_some hk, List.nodup_cons]
            refine ⟨fun hmem => ?_, hnodup⟩
            exact hfresh k hmem (by simp [hk])
      · intro k hk
        rw [List.mem_filterMap] at hk
        obtain ⟨y, hy, hyk⟩ := hk
        rcases List.mem_cons.mp hy with rfl | hin
        · exact hnew k hyk
        · intro hmem
          exact hfresh k (List.mem_filterMap.mpr ⟨y, hin, hyk⟩) (by simp [hmem])

/-- The duplicate check of a loop in which every row has a key. -/
theorem enumerateM_distinct_keys {body : ℕ → List κ → α → Result (List κ)} (key : α → κ)
    (P : α → Prop)
    (hstep : ∀ i s x s', body i s x = .ok s' → P x ∧ s' = key x :: s ∧ key x ∉ s)
    {xs : List α} {i : ℕ} {s s' : List κ} (h : enumerateM body i s xs = .ok s') :
    (∀ x ∈ xs, P x) ∧ (xs.map key).Nodup := by
  obtain ⟨hall, hnodup, -⟩ := enumerateM_distinct (fun met => met) (fun x => some (key x)) P
    (fun i s x s' hx => by
      obtain ⟨hP, rfl, hnew⟩ := hstep i s x s' hx
      exact ⟨hP, rfl, by simpa using hnew⟩) h
  exact ⟨hall, by simpa using hnodup⟩

end Success

end Py

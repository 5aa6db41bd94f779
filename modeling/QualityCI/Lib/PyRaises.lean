import QualityCI.Lib.PyExcept

/-!
# What a call can raise

A function has an error contract when every exception it raises is of the class it documents.  The
contract of a block is read off its statements: a statement is only reached when the ones before it
have returned, so what they have established may be used for it.

* `RaisesOnly` — the contract.
* `raisesOnly_bind` — a block, statement by statement.
* `raisesOnly_forEach`, `raisesOnly_anyEach` — the loops, item by item, each item under what the
  ones before it have done.
* `RaisesOnly.forEach`, `RaisesOnly.mapEach`, `RaisesOnly.enumerateM` — loops whose body keeps the
  contract whatever it is given.
-/

namespace Py

/-- Whatever the call raises is of the class. -/
def RaisesOnly {α : Type} (cls : ErrorClass) (x : Result α) : Prop :=
  ∀ e, x = .error e → e.cls = cls

section Contract

variable {α β σ : Type} {cls : ErrorClass}

/-- The rest of a block after a call that returns. -/
lemma ok_bind (a : α) (f : α → Result β) : ((Except.ok a : Result α) >>= f) = f a := rfl

@[simp] lemma raisesOnly_ok {a : α} : RaisesOnly cls (.ok a) := by
  intro e h
  simp at h

@[simp] lemma raisesOnly_error {e : PyError} :
    RaisesOnly cls (.error e : Result α) ↔ e.cls = cls := by
  simp [RaisesOnly]

@[simp] lemma raisesOnly_valueError {m : String} :
    RaisesOnly .valueError (valueError m : Result α) := by
  simp [valueError]

@[simp] lemma raisesOnly_require {c : Prop} [Decidable c] {m : String} :
    RaisesOnly .valueError (require c m) := by
  unfold require
  split_ifs <;> simp

@[simp] lemma raisesOnly_bind {x : Result α} {f : α → Result β} :
    RaisesOnly cls (x >>= f) ↔ RaisesOnly cls x ∧ ∀ a, x = .ok a → RaisesOnly cls (f a) := by
  cases x with
  | ok a => simp [bind, Except.bind]
  | error e => simp [bind, Except.bind]

/-- A loop reaches an item when its body has returned on those before it. -/
lemma raisesOnly_forEach {body : α → Result Unit} {xs : List α} :
    RaisesOnly cls (forEach body xs) ↔
      ∀ before x after, xs = before ++ x :: after → (∀ y ∈ before, body y = .ok ()) →
        RaisesOnly cls (body x) := by
  induction xs with
  | nil => simp [forEach]
  | cons x xs ih =>
      simp only [forEach, raisesOnly_bind, ih]
      constructor
      · rintro ⟨hx, hxs⟩ before y after heq hbefore
        cases before with
        | nil =>
            obtain ⟨rfl, rfl⟩ := List.cons.inj heq
            exact hx
        | cons z before =>
            obtain ⟨rfl, rfl⟩ := List.cons.inj heq
            obtain ⟨hz, hbefore⟩ := List.forall_mem_cons.mp hbefore
            exact hxs () hz before y after rfl hbefore
      · intro h
        refine ⟨h [] x xs rfl (by simp), fun _ hx before y after heq hbefore => ?_⟩
        exact h (x :: before) y after (by rw [heq]; rfl) (List.forall_mem_cons.mpr ⟨hx, hbefore⟩)

/-- A search reaches an item when it has found nothing before it. -/
lemma raisesOnly_anyEach {p : α → Result Bool} {xs : List α} :
    RaisesOnly cls (anyEach p xs) ↔
      ∀ before x after, xs = before ++ x :: after → (∀ y ∈ before, p y = .ok false) →
        RaisesOnly cls (p x) := by
  induction xs with
  | nil => simp [anyEach]
  | cons x xs ih =>
      simp only [anyEach, raisesOnly_bind]
      constructor
      · rintro ⟨hx, hxs⟩ before y after heq hbefore
        cases before with
        | nil =>
            obtain ⟨rfl, rfl⟩ := List.cons.inj heq
            exact hx
        | cons z before =>
            obtain ⟨rfl, rfl⟩ := List.cons.inj heq
            obtain ⟨hz, hbefore⟩ := List.forall_mem_cons.mp hbefore
            have hrest := hxs false hz
            rw [if_neg (by decide), ih] at hrest
            exact hrest before y after rfl hbefore
      · intro h
        refine ⟨h [] x xs rfl (by simp), fun found hx => ?_⟩
        cases found with
        | true => simp
        | false =>
            rw [if_neg (by decide), ih]
            intro before y after heq hbefore
            exact h (x :: before) y after (by rw [heq]; rfl)
              (List.forall_mem_cons.mpr ⟨hx, hbefore⟩)

lemma RaisesOnly.forEach {body : α → Result Unit} {xs : List α}
    (h : ∀ x ∈ xs, RaisesOnly cls (body x)) : RaisesOnly cls (forEach body xs) := by
  rw [raisesOnly_forEach]
  intro before x after heq _
  exact h x (by simp [heq])

lemma RaisesOnly.mapEach {f : α → Result β} {xs : List α}
    (h : ∀ x ∈ xs, RaisesOnly cls (f x)) : RaisesOnly cls (mapEach f xs) := by
  induction xs with
  | nil => simp [Py.mapEach]
  | cons x xs ih =>
      obtain ⟨hx, hxs⟩ := List.forall_mem_cons.mp h
      simp only [Py.mapEach, raisesOnly_bind, raisesOnly_ok, implies_true, and_true]
      exact ⟨hx, fun _ _ => ih hxs⟩

lemma RaisesOnly.enumerateM {body : ℕ → σ → α → Result σ} {xs : List α} {i : ℕ} {s : σ}
    (h : ∀ i s, ∀ x ∈ xs, RaisesOnly cls (body i s x)) :
    RaisesOnly cls (enumerateM body i s xs) := by
  induction xs generalizing i s with
  | nil => simp [Py.enumerateM]
  | cons x xs ih =>
      simp only [Py.enumerateM, raisesOnly_bind]
      exact ⟨h i s x List.mem_cons_self, fun s' _ =>
        ih fun i s y hy => h i s y (List.mem_cons_of_mem _ hy)⟩

end Contract

end Py

import QualityCI.Lib.PyExcept

/-!
# Objects in memory

Python values are shared by reference: a callee that writes into its argument changes it for the
caller.  Where that matters, the objects are the cells of a list, `copy.deepcopy` makes a new cell,
and a statement writes into the cell it names.

* `Action` — a call that reads and writes cells, and returns or raises.
* `Action.Spares` — the cells below a bound are as they were afterwards, whatever the outcome.
* `spares_bind`, `spares_deepcopy`, `spares_writeCell` — its rules: a copy is above every cell
  there was, and writing above the bound spares what is below.
* `Action.Computes` — the outcome of a call, as a value.
-/

namespace Py

/-- A call that reads and writes cells, and returns or raises. -/
def Action (V α : Type) := List V → Result α × List V

namespace Action

variable {V α β : Type}

instance : Monad (Action V) where
  pure a := fun cells => (.ok a, cells)
  bind x f := fun cells =>
    match x cells with
    | (.ok a, cells') => f a cells'
    | (.error e, cells') => (.error e, cells')

/-- A call that neither reads nor writes cells. -/
def lift (x : Result α) : Action V α := fun cells => (x, cells)

/-- `copy.deepcopy` of the object in a cell: a new cell. -/
def deepcopy (a : ℕ) : Action V ℕ := fun cells =>
  match cells[a]? with
  | some v => (.ok cells.length, cells ++ [v])
  | none => (keyError "no such cell", cells)

/-- The object in a cell. -/
def readCell (a : ℕ) : Action V V := fun cells =>
  match cells[a]? with
  | some v => (.ok v, cells)
  | none => (keyError "no such cell", cells)

/-- Writing the object in a cell. -/
def writeCell (a : ℕ) (v : V) : Action V Unit := fun cells => (.ok (), cells.set a v)

lemma bind_apply (x : Action V α) (f : α → Action V β) (cells : List V) :
    (x >>= f) cells =
      match x cells with
      | (.ok a, cells') => f a cells'
      | (.error e, cells') => (.error e, cells') := rfl

lemma lift_ok_bind (a : α) (f : α → Action V β) : lift (.ok a) >>= f = f a := rfl

lemma bind_bind {γ : Type} (x : Action V α) (f : α → Action V β) (g : β → Action V γ) :
    (x >>= f) >>= g = x >>= fun a => f a >>= g := by
  funext cells
  simp only [bind_apply]
  cases x cells with
  | mk outcome cells' => cases outcome <;> rfl

/-! ## Frames -/

/-- The cells below `n` are as they were afterwards, whatever the outcome, and what the call
returns satisfies `P`. -/
def Spares (n : ℕ) (act : Action V α) (P : α → Prop) : Prop :=
  ∀ cells : List V, n ≤ cells.length →
    (act cells).2.take n = cells.take n ∧ n ≤ (act cells).2.length ∧
      ∀ a, (act cells).1 = .ok a → P a

lemma spares_pure {n : ℕ} {a : α} {P : α → Prop} (h : P a) :
    Spares n (pure a : Action V α) P := by
  intro cells hn
  refine ⟨rfl, hn, fun b hb => ?_⟩
  exact Except.ok.inj hb ▸ h

lemma spares_lift {n : ℕ} {x : Result α} : Spares n (lift x : Action V α) fun _ => True :=
  fun _ hn => ⟨rfl, hn, fun _ _ => trivial⟩

/-- A call that raises. -/
lemma spares_raise {n : ℕ} {e : PyError} {P : α → Prop} :
    Spares n (lift (.error e) : Action V α) P :=
  fun _ hn => ⟨rfl, hn, fun _ h => by simp [lift] at h⟩

lemma spares_bind {n : ℕ} {x : Action V α} {f : α → Action V β} {P : α → Prop} {Q : β → Prop}
    (hx : Spares n x P) (hf : ∀ a, P a → Spares n (f a) Q) : Spares n (x >>= f) Q := by
  intro cells hn
  obtain ⟨htake, hlen, hpost⟩ := hx cells hn
  rw [bind_apply]
  cases hrun : x cells with
  | mk outcome cells' =>
      rw [hrun] at htake hlen hpost
      cases outcome with
      | error e =>
          refine ⟨htake, hlen, fun a h => ?_⟩
          simp at h
      | ok a =>
          obtain ⟨htake', hlen', hpost'⟩ := hf a (hpost a rfl) cells' hlen
          exact ⟨htake'.trans htake, hlen', hpost'⟩

lemma spares_deepcopy {n a : ℕ} : Spares n (deepcopy a : Action V ℕ) fun b => n ≤ b := by
  intro cells hn
  unfold deepcopy
  cases cells[a]? with
  | none => exact ⟨rfl, hn, fun b h => by simp at h⟩
  | some v =>
      refine ⟨List.take_append_of_le_length hn, ?_, fun b h => ?_⟩
      · rw [List.length_append]
        omega
      · exact Except.ok.inj h ▸ hn

lemma spares_readCell {n a : ℕ} : Spares n (readCell a : Action V V) fun _ => True := by
  intro cells hn
  unfold readCell
  cases cells[a]? with
  | none => exact ⟨rfl, hn, fun _ _ => trivial⟩
  | some v => exact ⟨rfl, hn, fun _ _ => trivial⟩

/-- Writing above the bound. -/
lemma spares_writeCell {n b : ℕ} {v : V} (h : n ≤ b) :
    Spares n (writeCell b v) fun _ => True := by
  intro cells hn
  refine ⟨List.take_set_of_le h, ?_, fun _ _ => trivial⟩
  rw [writeCell, List.length_set]
  exact hn

/-- **Frame.**  A call that spares every bound leaves the objects there were as they were. -/
theorem Spares.unchanged {act : Action V α} {cells : List V} {P : α → Prop}
    (h : Spares cells.length act P) : (act cells).2.take cells.length = cells := by
  rw [(h cells (Nat.le_refl _)).1, List.take_length]

/-! ## Outcomes -/

section Outcome

variable {content : β → V}

/-- The call raises what the computation raises, and otherwise returns a cell with its value. -/
def Computes (content : β → V) (act : Action V ℕ) (cells : List V) (x : Result β) : Prop :=
  match act cells, x with
  | (.error e, _), .error e' => e = e'
  | (.ok a, cells'), .ok d => cells'[a]? = some (content d)
  | _, _ => False

/-- The second half of a block goes on with the object the first half returns. -/
lemma computes_bind {x : Action V ℕ} {f : ℕ → Action V ℕ} {cells : List V} {y : Result β}
    {g : β → Result β} (hx : Computes content x cells y)
    (hf : ∀ b cells' d, y = .ok d → cells'[b]? = some (content d) →
      Computes content (f b) cells' (g d)) :
    Computes content (x >>= f) cells (y >>= g) := by
  unfold Computes at hx ⊢
  rw [bind_apply]
  cases hrun : x cells with
  | mk outcome cells' =>
      rw [hrun] at hx
      cases outcome with
      | error e =>
          cases y with
          | error e' => exact hx
          | ok d => exact hx.elim
      | ok b =>
          cases y with
          | error e' => exact hx.elim
          | ok d => exact hf b cells' d rfl hx

/-- The same, where what the first half spares is known of the cells it leaves. -/
lemma computes_bind_spared {n : ℕ} {P : ℕ → Prop} {x : Action V ℕ} {f : ℕ → Action V ℕ}
    {cells : List V} {y : Result β} {g : β → Result β} (hx : Computes content x cells y)
    (hspares : Spares n x P) (hn : n ≤ cells.length)
    (hf : ∀ b cells' d, cells'.take n = cells.take n → P b → cells'[b]? = some (content d) →
      Computes content (f b) cells' (g d)) :
    Computes content (x >>= f) cells (y >>= g) := by
  obtain ⟨htake, -, hpost⟩ := hspares cells hn
  unfold Computes at hx ⊢
  rw [bind_apply]
  cases hrun : x cells with
  | mk outcome cells' =>
      rw [hrun] at hx htake hpost
      cases outcome with
      | error e =>
          cases y with
          | error e' => exact hx
          | ok d => exact hx.elim
      | ok b =>
          cases y with
          | error e' => exact hx.elim
          | ok d => exact hf b cells' d htake (hpost b rfl) hx

/-- A block that starts by copying an object. -/
lemma computes_deepcopy_bind {cells : List V} {a : ℕ} {v : V} {f : ℕ → Action V ℕ} {y : Result β}
    (h : cells[a]? = some v)
    (hf : ∀ b cells', cells'[b]? = some v → Computes content (f b) cells' y) :
    Computes content (deepcopy a >>= f) cells y := by
  have hcopy := hf cells.length (cells ++ [v]) (by simp)
  unfold Computes at hcopy ⊢
  rw [bind_apply, deepcopy, h]
  exact hcopy

lemma computes_pure {cells : List V} {a : ℕ} {d : β} (h : cells[a]? = some (content d)) :
    Computes content (pure a) cells (.ok d) := h

/-- A block that starts by reading an object. -/
lemma computes_read {cells : List V} {a : ℕ} {v : V} {f : V → Action V ℕ} {y : Result β}
    (h : cells[a]? = some v) (hf : Computes content (f v) cells y) :
    Computes content (readCell a >>= f) cells y := by
  unfold Computes at hf ⊢
  rw [bind_apply, readCell, h]
  exact hf

/-- A block that starts by writing an object. -/
lemma computes_write {cells : List V} {a : ℕ} {v : V} {f : Unit → Action V ℕ} {y : Result β}
    (hf : Computes content (f ()) (cells.set a v) y) :
    Computes content (writeCell a v >>= f) cells y := hf

/-- A block that starts by a call without effects. -/
lemma computes_lift {cells : List V} {x : Result α} {f : α → Action V ℕ} {g : α → Result β}
    (hf : ∀ a, x = .ok a → Computes content (f a) cells (g a)) :
    Computes content (lift x >>= f) cells (x >>= g) := by
  unfold Computes
  rw [bind_apply, lift]
  cases x with
  | error e => rfl
  | ok a => exact hf a rfl

lemma computes_raise {cells : List V} {e : PyError} :
    Computes content (lift (.error e)) cells (.error e) := rfl

/-- What a call can raise is what the computation can raise. -/
lemma Computes.raises_iff {act : Action V ℕ} {cells : List V} {x : Result β}
    (h : Computes content act cells x) (e : PyError) :
    (act cells).1 = .error e ↔ x = .error e := by
  unfold Computes at h
  cases hrun : act cells with
  | mk outcome cells' =>
      rw [hrun] at h
      cases outcome with
      | error e' =>
          cases x with
          | error e'' => simp [h]
          | ok d => exact h.elim
      | ok a =>
          cases x with
          | error e' => exact h.elim
          | ok d => simp

/-- What a call returns is a cell with the value of the computation. -/
lemma Computes.returns {act : Action V ℕ} {cells : List V} {x : Result β}
    (h : Computes content act cells x) {a : ℕ} (ha : (act cells).1 = .ok a) :
    ∃ d, x = .ok d ∧ (act cells).2[a]? = some (content d) := by
  unfold Computes at h
  cases hrun : act cells with
  | mk outcome cells' =>
      rw [hrun] at h ha
      obtain rfl : outcome = .ok a := ha
      cases x with
      | error e => exact h.elim
      | ok d => exact ⟨d, rfl, h⟩

end Outcome

end Action

end Py

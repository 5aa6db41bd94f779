import Mathlib.Data.List.Induction
import Mathlib.Order.Basic
import Mathlib.Data.Nat.Init

/-!
# Bijective numerals

Positional numerals without a zero: in base `b` the digits stand for `1` to `b`, so every number
has one numeral, and every sequence of digits is one.  A digit is written here as the number before
the one it stands for.

* `bijDigits`, `bijValue` — the numeral of a number, and the number of a numeral.
* **`bijValue_bijDigits`**, **`bijDigits_bijValue`** — each undoes the other.
-/

/-- The numeral of a number, the highest digit first; zero has the empty one. -/
def bijDigits (b : ℕ) : ℕ → List ℕ
  | 0 => []
  | n + 1 => bijDigits b (n / b) ++ [n % b]
  termination_by n => n
  decreasing_by exact Nat.lt_succ_of_le (Nat.div_le_self n b)

/-- The number of a numeral. -/
def bijValue (b : ℕ) (ds : List ℕ) : ℕ := ds.foldl (fun value d => value * b + (d + 1)) 0

section Numeral

variable {b : ℕ}

lemma bijDigits_zero : bijDigits b 0 = [] := by
  rw [bijDigits]

lemma bijDigits_succ (n : ℕ) : bijDigits b (n + 1) = bijDigits b (n / b) ++ [n % b] := by
  rw [bijDigits]

lemma bijValue_append (ds : List ℕ) (d : ℕ) :
    bijValue b (ds ++ [d]) = bijValue b ds * b + (d + 1) := by
  rw [bijValue, List.foldl_append, List.foldl_cons, List.foldl_nil, bijValue]

lemma bijDigits_lt (hb : 0 < b) (n : ℕ) : ∀ d ∈ bijDigits b n, d < b := by
  induction n using Nat.strongRecOn with
  | _ n ih =>
      cases n with
      | zero => simp [bijDigits_zero]
      | succ n =>
          intro d hd
          rw [bijDigits_succ, List.mem_append, List.mem_singleton] at hd
          rcases hd with hd | rfl
          · exact ih (n / b) (Nat.lt_succ_of_le (Nat.div_le_self n b)) d hd
          · exact Nat.mod_lt n hb

lemma bijDigits_ne_nil {n : ℕ} (hn : 0 < n) : bijDigits b n ≠ [] := by
  obtain ⟨n, rfl⟩ := Nat.exists_eq_succ_of_ne_zero (Nat.pos_iff_ne_zero.mp hn)
  rw [Nat.succ_eq_add_one, bijDigits_succ]
  exact List.append_ne_nil_of_right_ne_nil _ (List.cons_ne_nil _ _)

/-- **A numeral has the value of its number.** -/
theorem bijValue_bijDigits (n : ℕ) : bijValue b (bijDigits b n) = n := by
  induction n using Nat.strongRecOn with
  | _ n ih =>
      cases n with
      | zero =>
          rw [bijDigits_zero]
          rfl
      | succ n =>
          rw [bijDigits_succ, bijValue_append, ih _ (Nat.lt_succ_of_le (Nat.div_le_self n b)),
            ← Nat.add_assoc, Nat.div_add_mod']

/-- **Every sequence of digits is the numeral of its value.** -/
theorem bijDigits_bijValue (hb : 0 < b) {ds : List ℕ} (h : ∀ d ∈ ds, d < b) :
    bijDigits b (bijValue b ds) = ds := by
  induction ds using List.reverseRecOn with
  | nil => exact bijDigits_zero
  | append_singleton ds d ih =>
      have hd : d < b := h d (List.mem_append_right _ List.mem_cons_self)
      have hds : ∀ e ∈ ds, e < b := fun e he => h e (List.mem_append_left _ he)
      have hdiv : (bijValue b ds * b + d) / b = bijValue b ds := by
        rw [Nat.mul_comm, Nat.mul_add_div hb, Nat.div_eq_of_lt hd, Nat.add_zero]
      have hmod : (bijValue b ds * b + d) % b = d := by
        rw [Nat.mul_comm, Nat.mul_add_mod, Nat.mod_eq_of_lt hd]
      rw [bijValue_append, ← Nat.add_assoc, bijDigits_succ, hdiv, hmod, ih hds]

lemma bijValue_pos {ds : List ℕ} (h : ds ≠ []) : 0 < bijValue b ds := by
  induction ds using List.reverseRecOn with
  | nil => exact absurd rfl h
  | append_singleton ds d _ =>
      rw [bijValue_append]
      exact Nat.lt_of_lt_of_le (Nat.succ_pos d) (Nat.le_add_left _ _)

end Numeral

import Mathlib

/-!
# Slices of a sequence

* `slice` — `items[start:stop]`.
* `rfind` — `items.rfind(needle, start)`.
* `littleEndian` — `int.from_bytes(items, "little")`.
* `slice_slice`, `slice_append_left`, `slice_append_right` — slices of slices and of joined
  sequences.
* **`rfind_eq_some`** — what is found is the last place where the needle stands.
-/

namespace Py

variable {α : Type}

/-- `items[start:stop]`. -/
def slice (items : List α) (start stop : ℕ) : List α := (items.drop start).take (stop - start)

/-- `items.rfind(needle, start)`, `none` for `-1`. -/
def rfind [DecidableEq α] (items needle : List α) (start : ℕ) : Option ℕ :=
  (List.range (items.length + 1)).reverse.find? fun i =>
    start ≤ i ∧ slice items i (i + needle.length) = needle

/-- `int.from_bytes(items, "little")`. -/
def littleEndian : List UInt8 → ℕ
  | [] => 0
  | b :: rest => b.toNat + 256 * littleEndian rest

lemma littleEndian_lt (bytes : List UInt8) : littleEndian bytes < 256 ^ bytes.length := by
  induction bytes with
  | nil => decide
  | cons b rest ih =>
      have hb := b.toNat_lt
      rw [littleEndian, List.length_cons, Nat.pow_succ]
      omega

lemma length_slice {items : List α} {start stop : ℕ} (h : stop ≤ items.length) :
    (slice items start stop).length = stop - start := by
  rw [slice, List.length_take, List.length_drop]
  omega

lemma slice_all (items : List α) : slice items 0 items.length = items := by
  simp [slice]

lemma slice_slice (items : List α) (start stop i j : ℕ) (h : start + j ≤ stop) :
    slice (slice items start stop) i j = slice items (start + i) (start + j) := by
  simp only [slice, List.drop_take, List.drop_drop, List.take_take]
  congr 1
  omega

/-- Two neighbouring slices make one. -/
lemma slice_append_slice (items : List α) {start middle stop : ℕ} (h : start ≤ middle)
    (h' : middle ≤ stop) : slice items start middle ++ slice items middle stop =
      slice items start stop := by
  simp only [slice]
  have hlen : stop - start = (middle - start) + (stop - middle) := by omega
  rw [hlen, List.take_add, List.drop_drop, Nat.add_sub_cancel' h]

lemma slice_append_left (front back : List α) {start stop : ℕ} (h : stop ≤ front.length) :
    slice (front ++ back) start stop = slice front start stop := by
  simp only [slice]
  rcases Nat.lt_or_ge stop start with hempty | hle
  · rw [Nat.sub_eq_zero_of_le (Nat.le_of_lt hempty), List.take_zero, List.take_zero]
  · rw [List.drop_append_of_le_length (Nat.le_trans hle h), List.take_append_of_le_length]
    rw [List.length_drop]
    omega

lemma slice_append_right (front back : List α) (start stop : ℕ) :
    slice (front ++ back) (front.length + start) (front.length + stop) = slice back start stop := by
  have hnil : List.drop (front.length + start) front = [] :=
    List.drop_eq_nil_of_le (Nat.le_add_right _ _)
  simp only [slice, List.drop_append, Nat.add_sub_add_left, Nat.add_sub_cancel_left, hnil,
    List.nil_append]

/-- **The place found is the last one** from `start` on. -/
theorem rfind_eq_some [DecidableEq α] {items needle : List α} {start i : ℕ} (hne : needle ≠ []) :
    rfind items needle start = some i ↔
      start ≤ i ∧ slice items i (i + needle.length) = needle ∧
        ∀ j, i < j → slice items j (j + needle.length) ≠ needle := by
  -- a place where the needle stands lies within the sequence
  have hwithin : ∀ j, slice items j (j + needle.length) = needle → j < items.length + 1 := by
    intro j hj
    by_contra hout
    rw [slice, List.drop_eq_nil_of_le (by omega), List.take_nil] at hj
    exact hne hj.symm
  rw [rfind, List.find?_eq_some_iff_append]
  constructor
  · rintro ⟨hmatch, before, after, hsplit, hbefore⟩
    simp only [decide_eq_true_eq] at hmatch
    refine ⟨hmatch.1, hmatch.2, fun j hij hj => ?_⟩
    have hrange : j ∈ (List.range (items.length + 1)).reverse := by
      simpa using hwithin j hj
    have hsorted : ((List.range (items.length + 1)).reverse).Pairwise (· > ·) := by
      rw [List.pairwise_reverse]
      exact List.pairwise_lt_range
    rw [hsplit] at hrange hsorted
    rcases List.mem_append.mp hrange with hin | hin
    · have := hbefore j hin
      simp only [Bool.not_eq_eq_eq_not, Bool.not_true, decide_eq_false_iff_not, not_and] at this
      exact this (Nat.le_trans hmatch.1 (Nat.le_of_lt hij)) hj
    · rcases List.mem_cons.mp hin with rfl | hlater
      · exact Nat.lt_irrefl _ hij
      · have hgt := (List.pairwise_cons.mp (List.pairwise_append.mp hsorted).2.1).1 j hlater
        omega
  · rintro ⟨hstart, hmatch, hlast⟩
    refine ⟨by simpa using ⟨hstart, hmatch⟩, ?_⟩
    have hi := hwithin i hmatch
    obtain ⟨later, earlier, hsplit⟩ := List.append_of_mem
      (show i ∈ (List.range (items.length + 1)).reverse by simpa using hi)
    refine ⟨later, earlier, hsplit, fun j hj => ?_⟩
    have hsorted : ((List.range (items.length + 1)).reverse).Pairwise (· > ·) := by
      rw [List.pairwise_reverse]
      exact List.pairwise_lt_range
    rw [hsplit] at hsorted
    have hij : i < j := (List.pairwise_append.mp hsorted).2.2 j hj i List.mem_cons_self
    simp [hlast j hij]

end Py

import Mathlib.Data.List.Sort

/-!
# Sorting by a key

A stable sort of rows under a key that need not tell them apart, as `list.sort(key=…)` does it.
Such a sort forgets the order of its input only as far as the keys do: rows with one key keep
their relative order, and that is all that is kept.

* `sortBy` — the stable sort.
* `filter_sortBy` — rows of one key come out in the order they went in.
* **`sortBy_eq_iff`** — two lists sort alike exactly when each key's rows agree as lists.
* `sortBy_eq_of_perm` — with distinct keys, sorting forgets the order altogether.
-/

namespace KeySort

variable {α κ : Type*} [LinearOrder κ]

/-- Rows in the order of their keys; rows with one key stay as they came. -/
def sortBy (key : α → κ) (rows : List α) : List α :=
  rows.insertionSort fun a b => key a ≤ key b

/-- The order a sorted list is in. -/
def Sorted (key : α → κ) (rows : List α) : Prop := rows.Pairwise fun a b => key a ≤ key b

variable {key : α → κ}

lemma sortBy_perm (rows : List α) : (sortBy key rows).Perm rows :=
  List.perm_insertionSort _ rows

@[simp] lemma mem_sortBy {rows : List α} {a : α} : a ∈ sortBy key rows ↔ a ∈ rows :=
  (sortBy_perm rows).mem_iff

lemma sortBy_sorted (rows : List α) : Sorted key (sortBy key rows) := by
  have htotal : Std.Total fun a b : α => key a ≤ key b := ⟨fun a b => le_total (key a) (key b)⟩
  have htrans : IsTrans α fun a b => key a ≤ key b := ⟨fun _ _ _ => le_trans⟩
  exact List.pairwise_insertionSort _ rows

/-- **Stability**: the rows of one key come out as they went in. -/
theorem filter_sortBy (rows : List α) (k : κ) :
    (sortBy key rows).filter (fun a => key a = k) = rows.filter fun a => key a = k := by
  have htotal : Std.Total fun a b : α => key a ≤ key b := ⟨fun a b => le_total (key a) (key b)⟩
  have htrans : IsTrans α fun a b => key a ≤ key b := ⟨fun _ _ _ => le_trans⟩
  -- one key's rows are sorted as they stand, so they survive as a sublist
  have hsorted : (rows.filter fun a => key a = k).Pairwise fun a b => key a ≤ key b := by
    refine List.Pairwise.imp_of_mem (R := fun _ _ => True) ?_ (by simp [List.pairwise_iff_forall_sublist])
    intro a b ha hb _
    simp only [List.mem_filter, decide_eq_true_eq] at ha hb
    exact le_of_eq (ha.2.trans hb.2.symm)
  have hsub : (rows.filter fun a => key a = k).Sublist (sortBy key rows) :=
    List.sublist_insertionSort hsorted List.filter_sublist
  have hsub' : (rows.filter fun a => key a = k).Sublist
      ((sortBy key rows).filter fun a => key a = k) := by
    have h := hsub.filter fun a => decide (key a = k)
    rwa [List.filter_filter, show (fun a => decide (key a = k) && decide (key a = k))
      = fun a => decide (key a = k) from funext fun a => Bool.and_self _] at h
  have hperm : (sortBy key rows).Perm rows := sortBy_perm rows
  have hlen := (hperm.filter fun a => decide (key a = k)).length_eq
  exact (hsub'.eq_of_length hlen.symm).symm

/-- Two sorted lists that agree key by key are the same list. -/
lemma Sorted.eq_of_filter_eq {l₁ l₂ : List α} (h₁ : Sorted key l₁) (h₂ : Sorted key l₂)
    (h : ∀ k, (l₁.filter fun a => key a = k) = l₂.filter fun a => key a = k) : l₁ = l₂ := by
  induction l₁ generalizing l₂ with
  | nil =>
      cases l₂ with
      | nil => rfl
      | cons b t => simpa using h (key b)
  | cons a t ih =>
      cases l₂ with
      | nil => simpa using (h (key a)).symm
      | cons b t' =>
          have hab : key a ≤ key b := by
            have hb : b ∈ (a :: t).filter fun c => key c = key b := by
              rw [h]
              simp
            have hmem : b ∈ a :: t := List.mem_of_mem_filter hb
            rcases List.mem_cons.mp hmem with rfl | hin
            · exact le_rfl
            · exact List.rel_of_pairwise_cons h₁ hin
          have hba : key b ≤ key a := by
            have ha : a ∈ (b :: t').filter fun c => key c = key a := by
              rw [← h]
              simp
            have hmem : a ∈ b :: t' := List.mem_of_mem_filter ha
            rcases List.mem_cons.mp hmem with rfl | hin
            · exact le_rfl
            · exact List.rel_of_pairwise_cons h₂ hin
          have hkey : key a = key b := le_antisymm hab hba
          -- the first rows lead the same key's rows, so they are the same row
          have hhead := h (key a)
          simp only [List.filter_cons, hkey, decide_true, ↓reduceIte, List.cons.injEq] at hhead
          obtain ⟨rfl, -⟩ := hhead
          have htail : t = t' := by
            refine ih (List.Pairwise.of_cons h₁) (List.Pairwise.of_cons h₂) fun k => ?_
            have hk := h k
            simp only [List.filter_cons] at hk
            split_ifs at hk with hc
            · exact List.tail_eq_of_cons_eq hk
            · exact hk
          rw [htail]

/-- **Sorting forgets the order exactly up to ties.** -/
theorem sortBy_eq_iff {l₁ l₂ : List α} :
    sortBy key l₁ = sortBy key l₂ ↔
      ∀ k, (l₁.filter fun a => key a = k) = l₂.filter fun a => key a = k := by
  constructor
  · intro h k
    rw [← filter_sortBy l₁ k, h, filter_sortBy]
  · intro h
    refine (sortBy_sorted l₁).eq_of_filter_eq (sortBy_sorted l₂) fun k => ?_
    rw [filter_sortBy, filter_sortBy, h k]

lemma perm_of_sortBy_eq {l₁ l₂ : List α} (h : sortBy key l₁ = sortBy key l₂) : l₁.Perm l₂ :=
  (sortBy_perm l₁).symm.trans (h ▸ sortBy_perm l₂)

/-- With distinct keys nothing is tied: permuted lists sort alike. -/
theorem sortBy_eq_of_perm {l₁ l₂ : List α} (hkeys : (l₁.map key).Nodup) (h : l₁.Perm l₂) :
    sortBy key l₁ = sortBy key l₂ := by
  refine List.Perm.eq_of_pairwise ?_ (sortBy_sorted l₁) (sortBy_sorted l₂)
    ((sortBy_perm l₁).trans (h.trans (sortBy_perm l₂).symm))
  intro a b ha hb hab hba
  rw [mem_sortBy] at ha hb
  exact List.inj_on_of_nodup_map hkeys ha (h.mem_iff.mpr hb) (le_antisymm hab hba)

/-- Sorting commutes with a map that keeps the keys. -/
lemma sortBy_map {β : Type*} {key' : β → κ} (f : α → β) (hf : ∀ a, key' (f a) = key a)
    (rows : List α) : sortBy key' (rows.map f) = (sortBy key rows).map f := by
  have hle : ∀ a ∈ rows, ∀ b ∈ rows, key a ≤ key b ↔ key' (f a) ≤ key' (f b) := by
    intro a _ b _
    rw [hf, hf]
  exact (List.map_insertionSort _ _ f rows hle).symm

/-- Only the keys of the rows count. -/
lemma sortBy_congr {key' : α → κ} {rows : List α} (h : ∀ a ∈ rows, key a = key' a) :
    sortBy key rows = sortBy key' rows := by
  have hle : ∀ a ∈ rows, ∀ b ∈ rows, key a ≤ key b ↔ key' (id a) ≤ key' (id b) := by
    intro a ha b hb
    rw [h a ha, h b hb, id, id]
  have hsort := List.map_insertionSort (fun a b => key a ≤ key b) (fun a b => key' a ≤ key' b) id
    rows hle
  rwa [List.map_id, List.map_id] at hsort

/-- Related rows with one key are inserted at one place. -/
lemma forall₂_orderedInsert {β : Type*} {key' : β → κ} {R : α → β → Prop}
    (hR : ∀ a b, R a b → key a = key' b) {a : α} {b : β} (hab : R a b) {l₁ : List α} {l₂ : List β}
    (h : List.Forall₂ R l₁ l₂) :
    List.Forall₂ R (l₁.orderedInsert (fun x y => key x ≤ key y) a)
      (l₂.orderedInsert (fun x y => key' x ≤ key' y) b) := by
  induction h with
  | nil => exact List.Forall₂.cons hab List.Forall₂.nil
  | @cons x y t₁ t₂ hxy ht ih =>
      rw [List.orderedInsert_cons, List.orderedInsert_cons, hR a b hab, hR x y hxy]
      split_ifs
      · exact List.Forall₂.cons hab (List.Forall₂.cons hxy ht)
      · exact List.Forall₂.cons hxy ih

/-- Lists related row by row, under equal keys, are related row by row once sorted. -/
theorem forall₂_sortBy {β : Type*} {key' : β → κ} {R : α → β → Prop}
    (hR : ∀ a b, R a b → key a = key' b) {l₁ : List α} {l₂ : List β} (h : List.Forall₂ R l₁ l₂) :
    List.Forall₂ R (sortBy key l₁) (sortBy key' l₂) := by
  induction h with
  | nil => exact List.Forall₂.nil
  | cons hab _ ih => exact forall₂_orderedInsert hR hab ih

end KeySort

import Mathlib.Data.List.Nodup
import Mathlib.Data.List.Perm.Basic

/-!
# Lists with a key

A list whose items have distinct keys is a table: a lookup finds the one item with a key, and the
items found for all the keys of the table, in any order, are the items of the table.

* `lookup`, `lookup_eq_some_iff` — the lookup.
* **`perm_of_lookup`** — the items found are those of the table.
-/

namespace Keyed

variable {α κ : Type} [DecidableEq κ] {key : α → κ}

/-- The first item with a key. -/
def lookup (key : α → κ) (table : List α) (k : κ) : Option α := table.find? fun x => key x = k

lemma lookup_isSome_iff {table : List α} {k : κ} :
    (lookup key table k).isSome = true ↔ k ∈ table.map key := by
  rw [lookup, List.find?_isSome, List.mem_map]
  simp only [decide_eq_true_eq]

lemma mem_of_lookup {table : List α} {k : κ} {x : α} (h : lookup key table k = some x) :
    x ∈ table ∧ key x = k :=
  ⟨List.mem_of_find?_eq_some h, by simpa using List.find?_some h⟩

omit [DecidableEq κ] in
lemma eq_of_key {table : List α} (hkeys : (table.map key).Nodup) {x y : α} (hx : x ∈ table)
    (hy : y ∈ table) (h : key x = key y) : x = y :=
  List.inj_on_of_nodup_map hkeys hx hy h

lemma lookup_eq_some_iff {table : List α} (hkeys : (table.map key).Nodup) {k : κ} {x : α} :
    lookup key table k = some x ↔ x ∈ table ∧ key x = k := by
  refine ⟨mem_of_lookup, fun h => ?_⟩
  obtain ⟨y, hy⟩ := Option.isSome_iff_exists.mp
    (lookup_isSome_iff.mpr (List.mem_map.mpr ⟨x, h.1, h.2⟩))
  obtain ⟨hin, hk⟩ := mem_of_lookup hy
  rw [hy, eq_of_key hkeys hin h.1 (hk.trans h.2.symm)]

lemma found_of_lookup {table found : List α} {keys : List κ}
    (h : List.Forall₂ (fun k x => lookup key table k = some x) keys found) :
    found.map key = keys ∧ ∀ x ∈ found, x ∈ table := by
  induction h with
  | nil => exact ⟨rfl, by simp⟩
  | cons hfind _ ih =>
      obtain ⟨hin, hkey⟩ := mem_of_lookup hfind
      refine ⟨by rw [List.map_cons, ih.1, hkey], fun x hx => ?_⟩
      rcases List.mem_cons.mp hx with rfl | hx
      · exact hin
      · exact ih.2 x hx

/-- **The items found** for all the keys of a table are the items of the table. -/
theorem perm_of_lookup {table found : List α} {keys : List κ} (htable : (table.map key).Nodup)
    (hkeys : keys.Nodup) (hsame : ∀ k, k ∈ keys ↔ k ∈ table.map key)
    (hfound : List.Forall₂ (fun k x => lookup key table k = some x) keys found) :
    found.Perm table := by
  obtain ⟨hmap, hin⟩ := found_of_lookup hfound
  have hnodup : (found.map key).Nodup := hmap ▸ hkeys
  refine (List.perm_ext_iff_of_nodup (hnodup.of_map key) (htable.of_map key)).mpr fun x => ?_
  refine ⟨hin x, fun hx => ?_⟩
  have hk : key x ∈ found.map key := hmap ▸ (hsame _).mpr (List.mem_map_of_mem hx)
  obtain ⟨y, hy, hyx⟩ := List.mem_map.mp hk
  rwa [← eq_of_key htable (hin y hy) hx hyx]

end Keyed

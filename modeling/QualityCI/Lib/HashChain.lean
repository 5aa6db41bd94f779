import Mathlib.Data.List.Induction

/-!
# Chains by name

Each link of a chain has a name and gives the name of the link before it, the first one none.  Where
a name stands for one link only, as that of a collision-free hash does, the last name determines
the chain.

* `Naming`, `tip` — the names, and the one that the next link has to give.
* `Chain` — chains, built from the first link on; `Chain.parent_of_get`: what each link gives.
* **`Chain.unique`** — two chains with one last name are the same.
-/

namespace HashChain

variable {ρ κ : Type}

/-- The name of a link, and the one it gives. -/
structure Naming (ρ κ : Type) where
  name : ρ → κ
  parent : ρ → Option κ

variable {n : Naming ρ κ}

/-- The name of the last link. -/
def tip (n : Naming ρ κ) (chain : List ρ) : Option κ := chain.getLast?.map n.name

@[simp] lemma tip_nil : tip n [] = none := rfl

@[simp] lemma tip_concat (chain : List ρ) (link : ρ) : tip n (chain ++ [link]) = some (n.name link) := by
  rw [tip, List.getLast?_concat, Option.map_some]

/-- Each link gives the name of the one before it, and the first gives none. -/
inductive Chain (n : Naming ρ κ) : List ρ → Prop
  | nil : Chain n []
  | snoc {chain : List ρ} {link : ρ} (h : Chain n chain) (hparent : n.parent link = tip n chain) :
      Chain n (chain ++ [link])

lemma Chain.concat_iff {chain : List ρ} {link : ρ} :
    Chain n (chain ++ [link]) ↔ Chain n chain ∧ n.parent link = tip n chain := by
  refine ⟨fun h => ?_, fun h => .snoc h.1 h.2⟩
  generalize hwhole : chain ++ [link] = whole at h
  cases h with
  | nil => simp at hwhole
  | snoc h hparent =>
      obtain ⟨rfl, hlink⟩ := List.append_inj' hwhole rfl
      obtain rfl : link = _ := by simpa using hlink
      exact ⟨h, hparent⟩

/-- A front of a chain is a chain. -/
lemma Chain.front {front back : List ρ} (h : Chain n (front ++ back)) : Chain n front := by
  induction back using List.reverseRecOn with
  | nil => rwa [List.append_nil] at h
  | append_singleton back link ih =>
      rw [← List.append_assoc] at h
      exact ih (Chain.concat_iff.mp h).1

/-- What each link gives. -/
theorem Chain.parent_of_get {chain : List ρ} (h : Chain n chain) {i : ℕ} {link : ρ}
    (hlink : chain[i]? = some link) : n.parent link = tip n (chain.take i) := by
  have hlt : i < chain.length := (List.getElem?_eq_some_iff.mp hlink).1
  have hsplit : chain = (chain.take i ++ [link]) ++ chain.drop (i + 1) := by
    rw [(List.getElem?_eq_some_iff.mp hlink).2.symm, ← List.take_succ_eq_append_getElem hlt,
      List.take_append_drop]
  rw [hsplit] at h
  exact (Chain.concat_iff.mp h.front).2

/-- **The last name determines the chain**, where the names of the two chains stand for one link
each. -/
theorem Chain.unique {chain chain' : List ρ} (h : Chain n chain) (h' : Chain n chain')
    (hname : ∀ link ∈ chain, ∀ link' ∈ chain', n.name link = n.name link' → link = link')
    (htip : tip n chain = tip n chain') : chain = chain' := by
  induction h generalizing chain' with
  | nil =>
      cases h' with
      | nil => rfl
      | snoc => simp at htip
  | @snoc front link hfront hparent ih =>
      cases h' with
      | nil => simp at htip
      | @snoc front' link' hfront' hparent' =>
          simp only [tip_concat, Option.some.injEq] at htip
          obtain rfl := hname link (by simp) link' (by simp) htip
          have hfronts : front = front' := by
            refine ih hfront' (fun l hl l' hl' => ?_) (hparent.symm.trans hparent')
            exact hname l (List.mem_append_left _ hl) l' (List.mem_append_left _ hl')
          rw [hfronts]

end HashChain

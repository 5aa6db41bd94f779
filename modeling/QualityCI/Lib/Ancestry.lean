import Mathlib.Data.List.Basic

/-!
# Walking up to an ancestor without parent

A table gives a row for some keys, and each row names a parent or none.  A loop follows the parents
from a key, keeping the keys it has seen, until there is no parent; it stops early at a key it has
seen, at one that has no row and at a row it does not accept.

* `Pedigree` — the table, the parents, and what the loop fails with.
* `ancestors` — the loop, for a number of steps.
* **`ancestors_isSome`** — on a finite table the loop ends, whatever the parents are.
* `Linked` — the line of ancestors of a key; **`Linked.unique`**: it has one at most.
* **`ancestors_eq_ok_iff`** — the loop collects that line, when all its rows are accepted.
-/

namespace Ancestry

variable {κ ρ ε : Type} [DecidableEq κ]

/-- What the loop reads, and what it fails with. -/
structure Pedigree (κ ρ ε : Type) where
  fetch : κ → Option ρ
  parent : ρ → Option κ
  accept : ρ → Except ε Unit
  cycle : ε
  missing : ε

/-- The loop, from a key upwards; the rows it has collected come with the eldest first.  It is
`none` while it has not ended. -/
def ancestors (p : Pedigree κ ρ ε) :
    ℕ → List κ → List ρ → Option κ → Option (Except ε (List ρ))
  | 0, _, _, _ => none
  | _ + 1, _, chain, none => some (.ok chain)
  | steps + 1, seen, chain, some key =>
      if key ∈ seen then some (.error p.cycle)
      else match p.fetch key with
        | none => some (.error p.missing)
        | some row =>
            match p.accept row with
            | .error e => some (.error e)
            | .ok () => ancestors p steps (key :: seen) (row :: chain) (p.parent row)

/-- The rows descend, one from the other, from one without parent down to that of the key. -/
inductive Linked (p : Pedigree κ ρ ε) : κ → List ρ → Prop
  | root {key : κ} {row : ρ} (hrow : p.fetch key = some row) (hparent : p.parent row = none) :
      Linked p key [row]
  | child {key above : κ} {row : ρ} {chain : List ρ} (hrow : p.fetch key = some row)
      (hparent : p.parent row = some above) (h : Linked p above chain) :
      Linked p key (chain ++ [row])

variable {p : Pedigree κ ρ ε}

/-- **The loop ends**: each step that goes on has seen one more of the keys that have a row. -/
theorem ancestors_isSome {keys : List κ} (hkeys : ∀ key row, p.fetch key = some row → key ∈ keys)
    {steps : ℕ} {seen : List κ} {chain : List ρ} {key : Option κ}
    (hsteps : (keys.filter fun k => decide (k ∉ seen)).length < steps) :
    (ancestors p steps seen chain key).isSome = true := by
  induction steps generalizing seen chain key with
  | zero => exact absurd hsteps (Nat.not_lt_zero _)
  | succ steps ih =>
      cases key with
      | none => rfl
      | some key =>
          simp only [ancestors]
          split_ifs with hseen
          · rfl
          · cases hrow : p.fetch key with
            | none => rfl
            | some row =>
                cases haccept : p.accept row with
                | error e => simp [haccept]
                | ok u =>
                    simp only [haccept]
                    refine ih ?_
                    have hmem : key ∈ keys.filter fun k => decide (k ∉ seen) :=
                      List.mem_filter.mpr ⟨hkeys key row hrow, by simpa using hseen⟩
                    -- the key is filtered out from now on
                    have hfewer : (keys.filter fun k => decide (k ∉ key :: seen)) =
                        (keys.filter fun k => decide (k ∉ seen)).filter fun k => decide (k ≠ key) := by
                      rw [List.filter_filter]
                      refine List.filter_congr fun k _ => ?_
                      simp [not_or]
                    have hlt : ((keys.filter fun k => decide (k ∉ seen)).filter
                        fun k => decide (k ≠ key)).length <
                          (keys.filter fun k => decide (k ∉ seen)).length :=
                      List.length_filter_lt_length_iff_exists.mpr ⟨key, hmem, by simp⟩
                    rw [hfewer]
                    omega

/-- What the loop adds to the rows it has collected. -/
lemma ancestors_eq_ok {steps : ℕ} {seen : List κ} {chain out : List ρ} {key : Option κ}
    (h : ancestors p steps seen chain key = some (.ok out)) :
    (key = none ∧ out = chain) ∨ ∃ k front, key = some k ∧ out = front ++ chain ∧
      Linked p k front ∧ ∀ row ∈ front, p.accept row = .ok () := by
  induction steps generalizing seen chain key with
  | zero => cases h
  | succ steps ih =>
      cases key with
      | none =>
          simp only [ancestors, Option.some.injEq, Except.ok.injEq] at h
          exact Or.inl ⟨rfl, h.symm⟩
      | some key =>
          simp only [ancestors] at h
          split_ifs at h with hseen
          · cases h
          · cases hrow : p.fetch key with
            | none =>
                rw [hrow] at h
                cases h
            | some row =>
                rw [hrow] at h
                cases haccept : p.accept row with
                | error e =>
                    simp only [haccept] at h
                    cases h
                | ok u =>
                    simp only [haccept] at h
                    rcases ih h with ⟨hnone, rfl⟩ | ⟨k, front, hk, rfl, hlinked, hall⟩
                    · exact Or.inr ⟨key, [row], rfl, rfl, .root hrow hnone, by simp [haccept]⟩
                    · refine Or.inr ⟨key, front ++ [row], rfl, by simp, .child hrow hk hlinked, ?_⟩
                      intro r hr
                      rcases List.mem_append.mp hr with hr | hr
                      · exact hall r hr
                      · rw [List.mem_singleton.mp hr]
                        exact haccept

/-- **What the loop collects** from a key: accepted rows, linked from the eldest to that of the
key. -/
theorem linked_of_ancestors {steps : ℕ} {key : κ} {out : List ρ}
    (h : ancestors p steps [] [] (some key) = some (.ok out)) :
    Linked p key out ∧ ∀ row ∈ out, p.accept row = .ok () := by
  rcases ancestors_eq_ok h with ⟨hnone, -⟩ | ⟨k, front, hk, rfl, hlinked, hall⟩
  · cases hnone
  · obtain rfl := Option.some.inj hk
    rw [List.append_nil]
    exact ⟨hlinked, hall⟩

omit [DecidableEq κ] in
/-- A key has one line of ancestors. -/
theorem Linked.unique {key : κ} {chain chain' : List ρ} (h : Linked p key chain)
    (h' : Linked p key chain') : chain = chain' := by
  induction h generalizing chain' with
  | root hrow hparent =>
      cases h' with
      | root hrow' hparent' => rw [Option.some.inj (hrow.symm.trans hrow')]
      | child hrow' hparent' _ =>
          obtain rfl := Option.some.inj (hrow.symm.trans hrow')
          rw [hparent] at hparent'
          cases hparent'
  | child hrow hparent _ ih =>
      cases h' with
      | root hrow' hparent' =>
          obtain rfl := Option.some.inj (hrow.symm.trans hrow')
          rw [hparent] at hparent'
          cases hparent'
      | child hrow' hparent' hchain' =>
          obtain rfl := Option.some.inj (hrow.symm.trans hrow')
          obtain rfl := Option.some.inj (hparent.symm.trans hparent')
          rw [ih hchain']

/-- With more steps the loop ends as it did. -/
lemma ancestors_mono {steps more : ℕ} {seen : List κ} {chain : List ρ} {key : Option κ}
    {r : Except ε (List ρ)} (h : ancestors p steps seen chain key = some r)
    (hmore : steps ≤ more) : ancestors p more seen chain key = some r := by
  induction steps generalizing more seen chain key with
  | zero => cases h
  | succ steps ih =>
      obtain ⟨more, rfl⟩ : ∃ n, more = n + 1 := ⟨more - 1, by omega⟩
      have hle : steps ≤ more := by omega
      cases key with
      | none => exact h
      | some key =>
          simp only [ancestors] at h ⊢
          split_ifs at h ⊢ with hseen
          · exact h
          · cases hrow : p.fetch key with
            | none => rwa [hrow] at h
            | some row =>
                rw [hrow] at h
                cases haccept : p.accept row with
                | error e => simpa only [haccept] using h
                | ok u =>
                    simp only [haccept] at h ⊢
                    exact ih h hle

/-- The loop comes to the end of a line of accepted rows whose keys it has not seen: those of the
keys it has seen have longer lines. -/
lemma ancestors_of_linked {key : κ} {line : List ρ} (h : Linked p key line)
    (haccept : ∀ row ∈ line, p.accept row = .ok ()) {seen : List κ} {chain : List ρ}
    (hseen : ∀ k ∈ seen, ∀ longer, Linked p k longer → line.length < longer.length) :
    ancestors p (line.length + 1) seen chain (some key) = some (.ok (line ++ chain)) := by
  have hfresh : ∀ {k : κ} {line : List ρ} {seen : List κ}, Linked p k line →
      (∀ k ∈ seen, ∀ longer, Linked p k longer → line.length < longer.length) → k ∉ seen :=
    fun hk hs hmem => absurd (hs _ hmem _ hk) (Nat.lt_irrefl _)
  induction h generalizing seen chain with
  | @root key row hrow hparent =>
      have hnot := hfresh (.root hrow hparent) hseen
      simp only [ancestors, List.length_singleton, if_neg hnot, hrow,
        haccept row List.mem_cons_self, hparent, List.singleton_append]
  | @child key above row line hrow hparent hline ih =>
      have hnot := hfresh (.child hrow hparent hline) hseen
      have hrest : ∀ k ∈ key :: seen, ∀ longer, Linked p k longer →
          line.length < longer.length := by
        intro k hk longer hlonger
        rcases List.mem_cons.mp hk with rfl | hk
        · rw [hlonger.unique (.child hrow hparent hline)]
          simp
        · have hlt := hseen k hk longer hlonger
          simp only [List.length_append, List.length_singleton] at hlt
          omega
      have hup : ancestors p (line.length + 1) (key :: seen) (row :: chain) (some above) =
          some (.ok (line ++ row :: chain)) :=
        ih (fun r hr => haccept r (List.mem_append_left _ hr)) hrest
      simp only [List.length_append, List.length_singleton]
      rw [ancestors]
      simp only [if_neg hnot, hrow, haccept row (by simp), hparent, hup, List.append_assoc,
        List.singleton_append]

/-- **The loop and the line of ancestors**: on a finite table it ends with the rows exactly when
they are the line of the key, and accepted. -/
theorem ancestors_eq_ok_iff {keys : List κ}
    (hkeys : ∀ key row, p.fetch key = some row → key ∈ keys) {steps : ℕ}
    (hsteps : keys.length < steps) {key : κ} {out : List ρ} :
    ancestors p steps [] [] (some key) = some (.ok out) ↔
      Linked p key out ∧ ∀ row ∈ out, p.accept row = .ok () := by
  refine ⟨linked_of_ancestors, fun ⟨hlinked, haccept⟩ => ?_⟩
  have hends : (ancestors p steps [] [] (some key)).isSome = true :=
    ancestors_isSome hkeys (Nat.lt_of_le_of_lt (List.length_filter_le _ _) hsteps)
  obtain ⟨r, hr⟩ := Option.isSome_iff_exists.mp hends
  have hline : ancestors p (out.length + 1) [] [] (some key) = some (.ok out) := by
    simpa using @ancestors_of_linked _ _ _ _ _ _ _ hlinked haccept [] [] (by simp)
  have hmax := ancestors_mono hr (Nat.le_max_left steps (out.length + 1))
  rw [ancestors_mono hline (Nat.le_max_right steps (out.length + 1))] at hmax
  rw [hr, hmax]

end Ancestry

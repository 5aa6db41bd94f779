import Mathlib.Data.List.Basic

/-!
# Scanning a sequence for a pattern

`re.finditer`: a pattern is tried at each position in turn; where it matches, the scan goes on
behind the match, and elsewhere one position further.

* `Pattern` — what matches at a position, and what is left; a match takes something.
* `Pattern.finditer` — the matches, from left to right.
* **`Pattern.mem_finditer`** — no match hides another from the scan, where what a match begins with
  can stand nowhere else in a match.
-/

namespace Py

/-- A pattern, tried at the front of a sequence. -/
structure Pattern (α : Type) where
  /-- The match and what stands behind it. -/
  tryAt : List α → Option (List α × List α)
  takes : ∀ {input token rest}, tryAt input = some (token, rest) →
    input = token ++ rest ∧ token ≠ []

namespace Pattern

variable {α : Type} (p : Pattern α)

lemma rest_length_lt {input token rest : List α} (h : p.tryAt input = some (token, rest)) :
    rest.length < input.length := by
  obtain ⟨rfl, hne⟩ := p.takes h
  have hpos : 0 < token.length := List.length_pos_of_ne_nil hne
  rw [List.length_append]
  omega

/-- `[match.group() for match in pattern.finditer(input)]`. -/
def finditer : List α → List (List α)
  | [] => []
  | c :: cs =>
      match _h : p.tryAt (c :: cs) with
      | some (token, rest) => token :: finditer rest
      | none => finditer cs
  termination_by input => input.length
  decreasing_by
    · exact p.rest_length_lt _h
    · exact Nat.lt_succ_self _

lemma finditer_match {c : α} {cs token rest : List α} (h : p.tryAt (c :: cs) = some (token, rest)) :
    p.finditer (c :: cs) = token :: p.finditer rest := by
  rw [finditer]
  split
  · rename_i token' rest' h'
    obtain ⟨rfl, rfl⟩ : token' = token ∧ rest' = rest := by simpa [h] using h'.symm
    rfl
  · rename_i h'
    simp [h] at h'

lemma finditer_skip {c : α} {cs : List α} (h : p.tryAt (c :: cs) = none) :
    p.finditer (c :: cs) = p.finditer cs := by
  rw [finditer]
  split
  · rename_i token' rest' h'
    simp [h] at h'
  · rfl

/-- A sequence's beginning that lacks `c` ends before the first `c`. -/
lemma prefix_before {front before rest cs : List α} {c : α}
    (h : front ++ c :: cs = before ++ rest) (hc : c ∉ before) :
    ∃ between, front = before ++ between ∧ rest = between ++ c :: cs := by
  rcases List.append_eq_append_iff.mp h with ⟨extra, hbefore, hrest⟩ | ⟨between, hfront, hrest⟩
  · cases extra with
    | nil => exact ⟨[], by simpa using hbefore.symm, by simpa using hrest.symm⟩
    | cons d extra =>
        have hcd : c = d := (List.cons.inj hrest).1
        refine absurd ?_ hc
        rw [hbefore, hcd]
        simp
  · exact ⟨between, hfront, hrest⟩

/-- **No match is hidden.**  Suppose that behind the first place of a match nothing stands that
opens one.  Then whatever precedes a place that opens a match, the scan finds the match there. -/
theorem mem_finditer (opens : α → Prop)
    (hopens : ∀ {input token rest}, p.tryAt input = some (token, rest) →
      ∀ c ∈ token.tail, ¬opens c)
    {c : α} {cs token rest : List α} (hc : opens c)
    (h : p.tryAt (c :: cs) = some (token, rest)) (front : List α) :
    token ∈ p.finditer (front ++ c :: cs) := by
  induction hn : front.length using Nat.strongRecOn generalizing front with
  | ind n ih =>
      cases front with
      | nil =>
          rw [List.nil_append, p.finditer_match h]
          exact List.mem_cons_self
      | cons d front =>
          have hlen : front.length + 1 = n := by simpa using hn
          rw [List.cons_append]
          cases htry : p.tryAt (d :: (front ++ c :: cs)) with
          | none =>
              rw [p.finditer_skip htry]
              exact ih front.length (by omega) front rfl
          | some found =>
              obtain ⟨token', rest'⟩ := found
              rw [p.finditer_match htry]
              obtain ⟨hinput, hne⟩ := p.takes htry
              obtain ⟨e, tail, rfl⟩ := List.exists_cons_of_ne_nil hne
              have hsplit : front ++ c :: cs = tail ++ rest' := (List.cons.inj hinput).2
              have hlacks : c ∉ tail := fun hin => hopens htry c hin hc
              -- the match ends before `c`, so the scan goes on with `c` still in front of it
              obtain ⟨between, rfl, rfl⟩ := prefix_before hsplit hlacks
              refine List.mem_cons_of_mem _ (ih between.length ?_ between rfl)
              rw [List.length_append] at hlen
              omega

end Pattern

end Py

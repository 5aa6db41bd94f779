import QualityCI.Lib.Json
import QualityCI.Lib.PyCells
import QualityCI.Lib.PyRaises

/-!
# The stack that a copy needs

`copy.deepcopy` calls itself for every member of a container, through the function that copies
containers of its kind: two frames of the interpreter's stack for each level of a value.  A value
that nests deeper than the frames that are left raises `RecursionError`, which is no `ValueError`.
The frames of calls of bounded depth are not counted.

* `Json.nesting`, `copyFrames` — the levels of a value, and the frames of its copy.
* `copyWithin` — whether a value can be copied where so many frames are left.
* `Action.deepcopyWithin` — the copy of the object in a cell.
-/

namespace Py

/-! ## Levels -/

mutual

/-- The levels of a value: one, and those of its deepest member. -/
def Json.nesting : Json → ℕ
  | .arr items => nestingItems items + 1
  | .obj entries => nestingEntries entries + 1
  | .null | .bool _ | .int _ | .float _ | .str _ => 1

/-- The levels of the deepest item of a list. -/
def Json.nestingItems : List Json → ℕ
  | [] => 0
  | x :: xs => max x.nesting (nestingItems xs)

/-- The levels of the deepest value of a dictionary: its keys are texts. -/
def Json.nestingEntries : List (String × Json) → ℕ
  | [] => 0
  | (_, x) :: xs => max x.nesting (nestingEntries xs)

end

/-- A value inside so many lists. -/
def Json.inLists (v : Json) : ℕ → Json
  | 0 => v
  | n + 1 => .arr [v.inLists n]

lemma Json.nesting_inLists (v : Json) (n : ℕ) : (v.inLists n).nesting = n + v.nesting := by
  induction n with
  | zero => simp [inLists]
  | succ n ih =>
      simp only [inLists, nesting, nestingItems, ih]
      omega

/-! ## Copies of values -/

/-- `RecursionError`. -/
def recursionError {α : Type} : Result α :=
  .error ⟨.derived .runtimeError "RecursionError", "maximum recursion depth exceeded"⟩

/-- The frames that `copy.deepcopy(value)` needs: its own and the copier's, on every level. -/
def copyFrames (v : Json) : ℕ := 2 * v.nesting

/-- `copy.deepcopy(value)`, where so many frames are left. -/
def copyWithin (frames : ℕ) (v : Json) : Result Unit :=
  if copyFrames v ≤ frames then .ok () else recursionError

@[simp] lemma copyWithin_eq_ok {frames : ℕ} {v : Json} :
    copyWithin frames v = .ok () ↔ copyFrames v ≤ frames := by
  unfold copyWithin
  split_ifs with h <;> simp [h, recursionError]

@[simp] lemma raisesOnly_copyWithin {frames : ℕ} {v : Json} :
    RaisesOnly .valueError (copyWithin frames v) ↔ copyFrames v ≤ frames := by
  unfold copyWithin
  split_ifs with h <;> simp [h, recursionError]

/-- A block that starts by copying a value. -/
lemma raisesOnly_copyWithin_bind {α : Type} {frames : ℕ} {v : Json} {f : Unit → Result α} :
    RaisesOnly .valueError (copyWithin frames v >>= f) ↔
      copyFrames v ≤ frames ∧ RaisesOnly .valueError (f ()) := by
  rw [raisesOnly_bind, raisesOnly_copyWithin]
  exact and_congr_right fun h => ⟨fun hf => hf () (copyWithin_eq_ok.mpr h), fun hf _ _ => hf⟩

/-! ## Copies of objects -/

namespace Action

variable {α β : Type}

/-- `copy.deepcopy` of the object in a cell, where so many frames are left. -/
def deepcopyWithin (frames a : ℕ) : Action Json ℕ := do
  let v ← readCell a
  lift (copyWithin frames v)
  deepcopy a

lemma spares_deepcopyWithin {n frames a : ℕ} :
    Spares n (deepcopyWithin frames a) fun b => n ≤ b :=
  spares_bind spares_readCell fun _ _ => spares_bind spares_lift fun _ _ => spares_deepcopy

/-- A block that starts by copying an object. -/
lemma computes_deepcopyWithin_bind {content : β → Json} {cells : List Json} {frames a : ℕ}
    {v : Json} {f : ℕ → Action Json ℕ} {y : Result β} (h : cells[a]? = some v)
    (hf : ∀ b cells', cells'[b]? = some v → Computes content (f b) cells' y) :
    Computes content (deepcopyWithin frames a >>= f) cells
      (copyWithin frames v >>= fun _ => y) := by
  rw [deepcopyWithin, bind_bind]
  refine computes_read h ?_
  rw [bind_bind]
  exact computes_lift fun _ _ => computes_deepcopy_bind h hf

end Action

end Py

import QualityCI.Lib.Bytes
import QualityCI.Lib.JsonRoundTrip

/-!
# Dotted paths into a value

A position in a value is the list of the keys and indices that lead to it.  It is written
`.key` and `[index]`, one step after the other, and read back by a pattern that looks for such
steps wherever they stand, and passes over what it does not know.

* `PathStep`, `Json.at?` — positions, and the value at a position.
* `renderSteps` — the text of a position.
* `findSteps` — the steps that the pattern finds in a text.
* **`findSteps_render`** — it finds the steps that were written, when no key holds a stop or an
  opening bracket.
-/

namespace Py

/-! ## Positions -/

/-- A key of a dictionary or an index of a list. -/
inductive PathStep
  | key (name : String)
  | index (n : ℕ)
  deriving DecidableEq

/-- The value that a step leads to. -/
def Json.child? : Json → PathStep → Option Json
  | .obj d, .key name => Dict.get? d name
  | .arr items, .index n => items[n]?
  | _, _ => none

/-- The value at a position. -/
def Json.at? : Json → List PathStep → Option Json
  | v, [] => some v
  | v, step :: rest => (v.child? step).bind fun inner => inner.at? rest

/-! ## Writing -/

/-- `.name` or `[n]`. -/
def renderStep : PathStep → List Char
  | .key name => '.' :: name.toList
  | .index n => '[' :: (Nat.toDigits 10 n ++ [']'])

/-- The steps of a position, one after the other. -/
def renderSteps (steps : List PathStep) : List Char := steps.flatMap renderStep

/-! ## Reading -/

/-- `[^.\[]`. -/
def isNameChar (c : Char) : Bool := c ≠ '.' && c ≠ '['

/-- `\d`: a decimal digit of any script. -/
def isDecimal (c : Char) : Bool := (asciiOf c).isDigit

/-- `[^.\[]+`, and what stands behind it. -/
def takeName (cs : List Char) : Option (String × List Char) :=
  match cs.span isNameChar with
  | ([], _) => none
  | (c :: name, rest) => some (String.ofList (c :: name), rest)

/-- `(?:^|\.)([^.\[]+)`. -/
def matchName (atStart : Bool) (cs : List Char) : Option (String × List Char) :=
  match if atStart = true then takeName cs else none with
  | some found => some found
  | none =>
      match cs with
      | '.' :: rest => takeName rest
      | _ => none

/-- `\[(\d+)\]`, with `int` of its digits. -/
def matchIndex : List Char → Option (ℕ × List Char)
  | '[' :: rest =>
      match rest.span isDecimal with
      | (d :: digits, ']' :: tail) => some (Nat.ofDigitChars 10 ((d :: digits).map asciiOf) 0, tail)
      | _ => none
  | _ => none

/-- The steps that `re.findall` finds in a text, given more fuel than the text is long. -/
def findSteps : ℕ → Bool → List Char → List PathStep
  | 0, _, _ => []
  | _ + 1, _, [] => []
  | fuel + 1, atStart, c :: cs =>
      match matchName atStart (c :: cs) with
      | some (name, rest) => .key name :: findSteps fuel false rest
      | none =>
          match matchIndex (c :: cs) with
          | some (n, rest) => .index n :: findSteps fuel false rest
          | none => findSteps fuel false cs

/-! ## What is written is read back -/

/-- A key that the pattern takes for one name. -/
def PlainKey (name : String) : Prop := name ≠ "" ∧ ∀ c ∈ name.toList, isNameChar c = true

instance (name : String) : Decidable (PlainKey name) := inferInstanceAs (Decidable (_ ∧ _))

/-- A position without stops and opening brackets in its keys. -/
def PlainSteps (steps : List PathStep) : Prop := ∀ name, .key name ∈ steps → PlainKey name

/-- What stands behind a step: nothing, or another one. -/
def StartsStep (cs : List Char) : Prop := ∀ c, cs.head? = some c → isNameChar c = false

lemma startsStep_renderSteps (steps : List PathStep) : StartsStep (renderSteps steps) := by
  intro c hc
  cases steps with
  | nil => simp [renderSteps] at hc
  | cons step rest =>
      cases step with
      | key name =>
          obtain rfl : '.' = c := by simpa [renderSteps, renderStep] using hc
          rfl
      | index n =>
          obtain rfl : '[' = c := by simpa [renderSteps, renderStep] using hc
          rfl

/-- A run of characters of a kind ends where one of another kind stands. -/
lemma span_append {p : Char → Bool} {run rest : List Char} (hrun : ∀ c ∈ run, p c = true)
    (hrest : ∀ c, rest.head? = some c → p c = false) : (run ++ rest).span p = (run, rest) := by
  have hdrop : rest.dropWhile p = rest := by
    cases rest with
    | nil => rfl
    | cons c cs => exact List.dropWhile_cons_of_neg (by simp [hrest c rfl])
  have htake : rest.takeWhile p = [] := by
    cases rest with
    | nil => rfl
    | cons c cs => exact List.takeWhile_cons_of_neg (by simp [hrest c rfl])
  rw [List.span_eq_takeWhile_dropWhile, List.takeWhile_append_of_pos hrun,
    List.dropWhile_append_of_pos hrun, hdrop, htake, List.append_nil]

lemma takeName_plain {name : String} (h : PlainKey name) {rest : List Char}
    (hrest : StartsStep rest) : takeName (name.toList ++ rest) = some (name, rest) := by
  obtain ⟨hne, hplain⟩ := h
  rw [takeName, span_append hplain hrest]
  cases hchars : name.toList with
  | nil => exact absurd (String.toList_eq_nil_iff.mp hchars) hne
  | cons c cs =>
      simp only
      rw [← hchars, String.ofList_toList]

lemma isDigit_toDigits {n : ℕ} {c : Char} (hc : c ∈ Nat.toDigits 10 n) : c.isDigit = true :=
  Nat.isDigit_of_mem_toDigits (by decide) (by decide) hc

/-- A digit is its own ASCII form. -/
lemma asciiOf_digit {c : Char} (hc : c.isDigit = true) : asciiOf c = c := by
  have hlt : c.toNat < 127 := by
    simp only [Char.isDigit, Bool.and_eq_true, decide_eq_true_eq] at hc
    have hle : c.toNat ≤ '9'.toNat := hc.2
    exact lt_of_le_of_lt hle (by decide)
  rw [asciiOf, if_pos hlt]

lemma matchIndex_render (n : ℕ) (rest : List Char) :
    matchIndex (renderStep (.index n) ++ rest) = some (n, rest) := by
  have hspan : (Nat.toDigits 10 n ++ ']' :: rest).span isDecimal =
      (Nat.toDigits 10 n, ']' :: rest) := by
    refine span_append (fun c hc => ?_) fun c hc => ?_
    · rw [isDecimal, asciiOf_digit (isDigit_toDigits hc)]
      exact isDigit_toDigits hc
    · obtain rfl : ']' = c := by simpa using hc
      decide
  have hascii : (Nat.toDigits 10 n).map asciiOf = Nat.toDigits 10 n :=
    (List.map_congr_left fun c hc => asciiOf_digit (isDigit_toDigits hc)).trans (List.map_id _)
  have hvalue : Nat.ofDigitChars 10 ((Nat.toDigits 10 n).map asciiOf) 0 = n := by
    rw [hascii]
    exact Nat.ofDigitChars_ten_toDigits
  simp only [renderStep, List.cons_append, List.append_assoc, List.nil_append, matchIndex, hspan]
  cases hdigits : Nat.toDigits 10 n with
  | nil => exact absurd hdigits Nat.toDigits_ne_nil
  | cons d digits =>
      simp only
      rw [← hdigits, hvalue]

/-- One step that was written is the one that is found. -/
lemma findSteps_cons {step : PathStep} (hstep : ∀ name, step = .key name → PlainKey name)
    {rest : List Char} (hrest : StartsStep rest) (fuel : ℕ) :
    findSteps (fuel + 1) false (renderStep step ++ rest) = step :: findSteps fuel false rest := by
  cases step with
  | key name =>
      have hmatch : matchName false ('.' :: (name.toList ++ rest)) = some (name, rest) := by
        rw [matchName]
        exact takeName_plain (hstep name rfl) hrest
      simp only [renderStep, List.cons_append, findSteps, hmatch]
  | index n =>
      have hname : ∀ cs, matchName false ('[' :: cs) = none := fun cs => rfl
      have hindex := matchIndex_render n rest
      simp only [renderStep, List.cons_append] at hindex ⊢
      simp only [findSteps, hname, hindex]

/-- The steps behind the first. -/
lemma findSteps_renderSteps {steps : List PathStep} (h : PlainSteps steps) {fuel : ℕ}
    (hfuel : steps.length < fuel) : findSteps fuel false (renderSteps steps) = steps := by
  induction steps generalizing fuel with
  | nil =>
      obtain ⟨fuel, rfl⟩ : ∃ n, fuel = n + 1 := ⟨fuel - 1, by simp at hfuel; omega⟩
      rfl
  | cons step rest ih =>
      obtain ⟨fuel, rfl⟩ : ∃ n, fuel = n + 1 := ⟨fuel - 1, by simp at hfuel; omega⟩
      have hrest : PlainSteps rest := fun name hname => h name (List.mem_cons_of_mem _ hname)
      have hstep : ∀ name, step = .key name → PlainKey name :=
        fun name hname => h name (hname ▸ List.mem_cons_self)
      have hsplit : renderSteps (step :: rest) = renderStep step ++ renderSteps rest :=
        List.flatMap_cons
      rw [hsplit, findSteps_cons hstep (startsStep_renderSteps rest)]
      rw [ih hrest (by simp at hfuel; omega)]

/-- The text has at least one character for each step. -/
lemma length_le_renderSteps (steps : List PathStep) :
    steps.length ≤ (renderSteps steps).length := by
  induction steps with
  | nil => exact Nat.le_refl _
  | cons step rest ih =>
      have hpos : 1 ≤ (renderStep step).length := by cases step <;> simp [renderStep]
      rw [renderSteps, List.flatMap_cons, List.length_append, List.length_cons]
      rw [renderSteps] at ih
      omega

/-- **What is written is found**: a root name, and the steps behind it. -/
theorem findSteps_render {root : String} (hroot : PlainKey root) {steps : List PathStep}
    (h : PlainSteps steps) :
    findSteps ((root.toList ++ renderSteps steps).length + 1) true
        (root.toList ++ renderSteps steps) = .key root :: steps := by
  have hname := takeName_plain hroot (startsStep_renderSteps steps)
  have hmatch : matchName true (root.toList ++ renderSteps steps) =
      some (root, renderSteps steps) := by
    unfold matchName
    rw [if_pos rfl, hname]
  have hlength := length_le_renderSteps steps
  have hfuel : steps.length < (root.toList ++ renderSteps steps).length := by
    have hpos : 0 < root.toList.length :=
      List.length_pos_of_ne_nil fun hnil => hroot.1 (String.toList_eq_nil_iff.mp hnil)
    rw [List.length_append]
    omega
  cases hchars : root.toList ++ renderSteps steps with
  | nil =>
      rw [hchars] at hfuel
      exact absurd hfuel (Nat.not_lt_zero _)
  | cons c cs =>
      rw [hchars] at hmatch hfuel
      simp only [findSteps, hmatch]
      rw [findSteps_renderSteps h hfuel]

/-- Positions with one text are the same. -/
theorem renderSteps_injective {steps steps' : List PathStep} (h : PlainSteps steps)
    (h' : PlainSteps steps') (heq : renderSteps steps = renderSteps steps') : steps = steps' := by
  have hread := @findSteps_render "x" (by decide) _ h
  have hread' := @findSteps_render "x" (by decide) _ h'
  rw [heq, hread'] at hread
  exact (List.cons.inj hread).2.symm

end Py

import Mathlib.Data.List.Basic

/-!
# Self-delimiting codes

A code whose words can be told from whatever follows them.  Words of one length are such a code,
and so is a payload after its length; pairs of words are one, and a run of words determines the
values it was written from.

* `SelfDelimiting` — no word is read in two ways, whatever follows it.
* `SelfDelimiting.of_length`, `SelfDelimiting.prod`, `SelfDelimiting.payload` — how such codes are
  built.
* **`SelfDelimiting.flatMap_inj`** — a run of words determines its values.
* `before_separator`, `after_separator` — a word without the separator is found before the first
  and after the last one.
-/

variable {α β γ : Type*}

/-- A word of the code and what follows it determine the value and what follows, on the values
with `P`. -/
def SelfDelimiting (P : α → Prop) (enc : α → List γ) : Prop :=
  ∀ a b, P a → P b → ∀ x y, enc a ++ x = enc b ++ y → a = b ∧ x = y

namespace SelfDelimiting

variable {P : α → Prop} {Q : β → Prop} {enc : α → List γ} {enc' : β → List γ}

/-- Distinct words of one length. -/
lemma of_length (n : ℕ) (hlen : ∀ a, P a → (enc a).length = n)
    (hinj : ∀ a b, P a → P b → enc a = enc b → a = b) : SelfDelimiting P enc := by
  intro a b ha hb x y h
  obtain ⟨hword, hrest⟩ := List.append_inj h (by rw [hlen a ha, hlen b hb])
  exact ⟨hinj a b ha hb hword, hrest⟩

/-- One word after another. -/
lemma prod (h : SelfDelimiting P enc) (h' : SelfDelimiting Q enc') :
    SelfDelimiting (fun p : α × β => P p.1 ∧ Q p.2) (fun p => enc p.1 ++ enc' p.2) := by
  rintro ⟨a, b⟩ ⟨a', b'⟩ ⟨ha, hb⟩ ⟨ha', hb'⟩ x y heq
  rw [List.append_assoc, List.append_assoc] at heq
  obtain ⟨hfst, hrest⟩ := h a a' ha ha' _ _ heq
  obtain ⟨hsnd, hend⟩ := h' b b' hb hb' _ _ hrest
  exact ⟨Prod.ext hfst hsnd, hend⟩

/-- A payload after the word of its length. -/
lemma payload {N : ℕ → Prop} {len : ℕ → List γ} (h : SelfDelimiting N len) :
    SelfDelimiting (fun xs : List γ => N xs.length) (fun xs => len xs.length ++ xs) := by
  intro xs ys hxs hys x y heq
  rw [List.append_assoc, List.append_assoc] at heq
  obtain ⟨hlen, hrest⟩ := h _ _ hxs hys _ _ heq
  exact List.append_inj hrest hlen

/-- The words of values that another value determines. -/
lemma comap (h : SelfDelimiting P enc) (f : β → α) (hf : Function.Injective f) :
    SelfDelimiting (fun b => P (f b)) (fun b => enc (f b)) := by
  intro b b' hb hb' x y heq
  obtain ⟨hval, hrest⟩ := h _ _ hb hb' x y heq
  exact ⟨hf hval, hrest⟩

/-- **A run of words determines its values**, where no word is empty. -/
theorem flatMap_inj (h : SelfDelimiting P enc) (hne : ∀ a, P a → enc a ≠ []) {as bs : List α}
    (has : ∀ a ∈ as, P a) (hbs : ∀ b ∈ bs, P b) : as.flatMap enc = bs.flatMap enc ↔ as = bs := by
  refine ⟨fun heq => ?_, fun heq => by rw [heq]⟩
  induction as generalizing bs with
  | nil =>
      cases bs with
      | nil => rfl
      | cons b bs =>
          rw [List.flatMap_nil, List.flatMap_cons] at heq
          have := (List.append_eq_nil_iff.mp heq.symm).1
          exact absurd this (hne b (hbs b List.mem_cons_self))
  | cons a as ih =>
      obtain ⟨ha, has⟩ := List.forall_mem_cons.mp has
      cases bs with
      | nil =>
          rw [List.flatMap_nil, List.flatMap_cons] at heq
          exact absurd (List.append_eq_nil_iff.mp heq).1 (hne a ha)
      | cons b bs =>
          obtain ⟨hb, hbs⟩ := List.forall_mem_cons.mp hbs
          rw [List.flatMap_cons, List.flatMap_cons] at heq
          obtain ⟨hfirst, hrest⟩ := h a b ha hb _ _ heq
          rw [hfirst, ih has hbs hrest]

end SelfDelimiting

/-! ## Separators -/

section Separator

variable {sep : γ} {x y xs ys : List γ}

/-- What stands before the first separator. -/
lemma before_separator (hx : sep ∉ x) (hy : sep ∉ y) (h : x ++ sep :: xs = y ++ sep :: ys) :
    x = y ∧ xs = ys := by
  induction x generalizing y with
  | nil =>
      cases y with
      | nil => exact ⟨rfl, (List.cons.inj h).2⟩
      | cons b y => exact absurd (List.mem_cons.mpr (Or.inl (List.cons.inj h).1)) hy
  | cons a x ih =>
      rw [List.mem_cons, not_or] at hx
      cases y with
      | nil => exact absurd (List.cons.inj h).1.symm hx.1
      | cons b y =>
          rw [List.mem_cons, not_or] at hy
          obtain ⟨rfl, hrest⟩ := List.cons.inj h
          obtain ⟨rfl, rfl⟩ := ih hx.2 hy.2 hrest
          exact ⟨rfl, rfl⟩

/-- What stands after the last separator. -/
lemma after_separator (hx : sep ∉ x) (hy : sep ∉ y) (h : xs ++ sep :: x = ys ++ sep :: y) :
    xs = ys ∧ x = y := by
  have hreverse := congrArg List.reverse h
  simp only [List.reverse_append, List.reverse_cons, List.append_assoc,
    List.singleton_append] at hreverse
  obtain ⟨hlast, hrest⟩ := before_separator (by simpa using hx) (by simpa using hy) hreverse
  exact ⟨List.reverse_injective hrest, List.reverse_injective hlast⟩

end Separator

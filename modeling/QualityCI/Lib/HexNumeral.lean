import QualityCI.Lib.Bytes

/-!
# The numerals of base sixteen

`int(text, 16)` reads more than hexadecimal digits.  This file says what it reads as a grammar, and
proves that the scanner of `intBase16` accepts exactly the sentences of the grammar.

* `HexTail`, `HexDigits` — digits with single underscores between them.
* `HexBody`, `HexSigned` — `0x` may stand before the digits, and a sign before that.
* `IsHexNumeral` — blanks around all of it.
* `asciiForm` — the text after its digits and spaces outside ASCII are rewritten.
* **`isSome_intBase16_iff`** — `int(text, 16)` returns exactly on the numerals.
-/

namespace Py

/-! ## The grammar -/

/-- A digit of base sixteen, in either case. -/
def IsHexValue (c : Char) : Prop := (hexValue c).isSome = true

/-- What may follow a digit: more digits, single underscores between them. -/
inductive HexTail : List Char → Prop
  | done : HexTail []
  | digit {c : Char} {cs : List Char} (hc : IsHexValue c) (hcs : HexTail cs) : HexTail (c :: cs)
  | under {c : Char} {cs : List Char} (hc : IsHexValue c) (hcs : HexTail cs) :
      HexTail ('_' :: c :: cs)

/-- At least one digit, and what may follow it. -/
inductive HexDigits : List Char → Prop
  | mk {c : Char} {cs : List Char} (hc : IsHexValue c) (hcs : HexTail cs) : HexDigits (c :: cs)

/-- Digits, `0x` and digits, or `0x_` and digits. -/
inductive HexBody : List Char → Prop
  | plain {cs : List Char} (hcs : HexDigits cs) : HexBody cs
  | marked {x : Char} {cs : List Char} (hx : x = 'x' ∨ x = 'X') (hcs : HexDigits cs) :
      HexBody ('0' :: x :: cs)
  | under {x : Char} {cs : List Char} (hx : x = 'x' ∨ x = 'X') (hcs : HexDigits cs) :
      HexBody ('0' :: x :: '_' :: cs)

/-- A sign may stand before the digits. -/
inductive HexSigned : List Char → Prop
  | bare {cs : List Char} (hcs : HexBody cs) : HexSigned cs
  | minus {cs : List Char} (hcs : HexBody cs) : HexSigned ('-' :: cs)
  | plus {cs : List Char} (hcs : HexBody cs) : HexSigned ('+' :: cs)

/-- Only the spaces that `int` skips. -/
def AllBlank (cs : List Char) : Prop := ∀ c ∈ cs, isAsciiSpace c = true

/-- **A numeral of base sixteen**: blanks, a signed number, blanks. -/
def IsHexNumeral (cs : List Char) : Prop :=
  ∃ front body back, AllBlank front ∧ HexSigned body ∧ AllBlank back ∧ cs = front ++ body ++ back

/-- The text as the scanner sees it: digits and spaces outside ASCII are rewritten, in a text that
has some character outside ASCII. -/
def asciiForm (cs : List Char) : List Char :=
  if cs.all (fun c => c.toNat < 128) then cs else cs.map asciiOf

/-! ## Characters -/

lemma hexValue_range {c : Char} (h : IsHexValue c) :
    48 ≤ c.toNat ∧ c.toNat ≤ 57 ∨ 97 ≤ c.toNat ∧ c.toNat ≤ 102 ∨ 65 ≤ c.toNat ∧ c.toNat ≤ 70 := by
  unfold IsHexValue hexValue at h
  split_ifs at h with h1 h2 h3
  · exact Or.inl h1
  · exact Or.inr (Or.inl h2)
  · exact Or.inr (Or.inr h3)
  · exact absurd h (by simp)

lemma isAsciiSpace_range {c : Char} (h : isAsciiSpace c = true) :
    c.toNat = 32 ∨ 9 ≤ c.toNat ∧ c.toNat ≤ 13 := by
  simp only [isAsciiSpace, Bool.or_eq_true, Bool.and_eq_true, decide_eq_true_eq] at h
  rcases h with rfl | h
  · exact Or.inl rfl
  · exact Or.inr h

lemma IsHexValue.ne {c d : Char} (hc : IsHexValue c) (hd : hexValue d = none) : c ≠ d := by
  rintro rfl
  rw [IsHexValue, hd] at hc
  exact absurd hc (by simp)

lemma IsHexValue.not_space {c : Char} (hc : IsHexValue c) : isAsciiSpace c = false := by
  rw [← Bool.not_eq_true]
  intro h
  have h1 := hexValue_range hc
  have h2 := isAsciiSpace_range h
  omega

/-- The blanks at the end stop the scanner. -/
lemma isAsciiSpace_stops {c : Char} (h : isAsciiSpace c = true) : c ≠ '_' ∧ hexValue c = none := by
  constructor
  · rintro rfl
    exact absurd h (by decide)
  · rw [← Option.not_isSome_iff_eq_none]
    intro hc
    have := IsHexValue.not_space hc
    rw [h] at this
    exact absurd this (by simp)

/-! ## The digits -/

/-- After a digit, and right after an underscore, the scanner reads along the grammar. -/
lemma scanBase16_sound (cs : List Char) :
    (∀ n m rest, scanBase16 true false n cs = some (m, rest) →
      ∃ ds, HexTail ds ∧ cs = ds ++ rest) ∧
    (∀ begun under n m rest, ¬(begun = true ∧ under = false) →
      scanBase16 begun under n cs = some (m, rest) → ∃ ds, HexDigits ds ∧ cs = ds ++ rest) := by
  induction cs with
  | nil =>
      constructor
      · intro n m rest h
        simp only [scanBase16, and_self, if_true, Option.some.injEq, Prod.mk.injEq] at h
        exact ⟨[], HexTail.done, by simp [h.2]⟩
      · intro begun under n m rest hstate h
        rw [scanBase16, if_neg hstate] at h
        exact absurd h (by simp)
  | cons c cs ih =>
      obtain ⟨ihafter, ihbefore⟩ := ih
      constructor
      · intro n m rest h
        rw [scanBase16] at h
        by_cases hc : c = '_'
        · rw [if_pos hc, if_pos ⟨rfl, rfl⟩] at h
          obtain ⟨ds, hds, rfl⟩ := ihbefore true true n m rest (by simp) h
          cases hds with
          | mk hd htail => exact ⟨_, hc ▸ HexTail.under hd htail, by simp⟩
        · rw [if_neg hc] at h
          cases hv : hexValue c with
          | some d =>
              rw [hv] at h
              obtain ⟨ds, hds, rfl⟩ := ihafter _ m rest h
              exact ⟨c :: ds, HexTail.digit (by simp [IsHexValue, hv]) hds, by simp⟩
          | none =>
              rw [hv] at h
              simp only [and_self, if_true, Option.some.injEq, Prod.mk.injEq] at h
              exact ⟨[], HexTail.done, by simp [h.2]⟩
      · intro begun under n m rest hstate h
        rw [scanBase16] at h
        by_cases hc : c = '_'
        · rw [if_pos hc, if_neg hstate] at h
          exact absurd h (by simp)
        · rw [if_neg hc] at h
          cases hv : hexValue c with
          | some d =>
              rw [hv] at h
              obtain ⟨ds, hds, rfl⟩ := ihafter _ m rest h
              exact ⟨c :: ds, HexDigits.mk (by simp [IsHexValue, hv]) hds, by simp⟩
          | none =>
              rw [hv] at h
              simp only [if_neg hstate] at h
              exact absurd h (by simp)

/-- One digit is read, whatever was read before it. -/
lemma scanBase16_digit {c : Char} (hc : IsHexValue c) (begun under : Bool) (n : ℕ)
    (cs : List Char) :
    ∃ d, scanBase16 begun under n (c :: cs) = scanBase16 true false (16 * n + d) cs := by
  obtain ⟨d, hd⟩ := Option.isSome_iff_exists.mp hc
  refine ⟨d, ?_⟩
  rw [scanBase16, if_neg (hc.ne (by decide)), hd]

/-- What may follow a digit is read up to the blanks. -/
lemma HexTail.scan {ds : List Char} (h : HexTail ds) {back : List Char} (hback : AllBlank back)
    (n : ℕ) : ∃ m, scanBase16 true false n (ds ++ back) = some (m, back) := by
  induction h generalizing n with
  | done =>
      cases back with
      | nil => exact ⟨n, by simp [scanBase16]⟩
      | cons c cs =>
          obtain ⟨hne, hv⟩ := isAsciiSpace_stops (hback c List.mem_cons_self)
          exact ⟨n, by simp [scanBase16, hne, hv]⟩
  | digit hc _ ih =>
      obtain ⟨d, hd⟩ := scanBase16_digit hc true false n (_ ++ back)
      rw [List.cons_append, hd]
      exact ih _
  | under hc _ ih =>
      obtain ⟨d, hd⟩ := scanBase16_digit hc true true n (_ ++ back)
      rw [List.cons_append, List.cons_append, scanBase16, if_pos rfl, if_pos ⟨rfl, rfl⟩, hd]
      exact ih _

lemma HexDigits.scan {ds : List Char} (h : HexDigits ds) {back : List Char}
    (hback : AllBlank back) (n : ℕ) :
    ∃ m, scanBase16 false false n (ds ++ back) = some (m, back) := by
  cases h with
  | mk hc hcs =>
      obtain ⟨d, hd⟩ := scanBase16_digit hc false false n (_ ++ back)
      rw [List.cons_append, hd]
      exact hcs.scan hback _

/-! ## What stands before the digits -/

lemma scanPrefixed_sound {cs rest : List Char} {m : ℕ} (h : scanPrefixed cs = some (m, rest)) :
    ∃ ds, HexBody ds ∧ cs = ds ++ rest := by
  have hdigits : ∀ cs, scanBase16 false false 0 cs = some (m, rest) →
      ∃ ds, HexDigits ds ∧ cs = ds ++ rest :=
    fun cs => (scanBase16_sound cs).2 false false 0 m rest (by simp)
  unfold scanPrefixed at h
  split at h
  · rename_i x tail
    split_ifs at h with hx
    · split at h
      · obtain ⟨ds, hds, rfl⟩ := hdigits _ h
        exact ⟨_, HexBody.under hx hds, by simp⟩
      · obtain ⟨ds, hds, rfl⟩ := hdigits _ h
        exact ⟨_, HexBody.marked hx hds, by simp⟩
    · obtain ⟨ds, hds, hcs⟩ := hdigits _ h
      exact ⟨ds, HexBody.plain hds, hcs⟩
  · obtain ⟨ds, hds, hcs⟩ := hdigits _ h
    exact ⟨ds, HexBody.plain hds, hcs⟩

lemma HexDigits.ne_marked {ds : List Char} (h : HexDigits ds) {back : List Char}
    (hback : AllBlank back) {x : Char} {rest : List Char} (heq : ds ++ back = '0' :: x :: rest) :
    ¬(x = 'x' ∨ x = 'X') := by
  have hx : hexValue 'x' = none ∧ hexValue 'X' = none := by decide
  have hno : ∀ {c : Char}, IsHexValue c → ¬(c = 'x' ∨ c = 'X') := by
    intro c hc h
    exact h.elim (hc.ne hx.1) (hc.ne hx.2)
  cases h with
  | mk hc hcs =>
      obtain ⟨-, htail⟩ := List.cons.inj heq
      cases hcs with
      | done =>
          have hback' : back = x :: rest := htail
          have hblank := hback x (hback' ▸ List.mem_cons_self)
          rintro (rfl | rfl)
          · exact absurd hblank (by decide)
          · exact absurd hblank (by decide)
      | digit hd _ =>
          rw [← (List.cons.inj htail).1]
          exact hno hd
      | under hd _ =>
          rw [← (List.cons.inj htail).1]
          decide

lemma HexBody.scan {ds : List Char} (h : HexBody ds) {back : List Char} (hback : AllBlank back) :
    ∃ m, scanPrefixed (ds ++ back) = some (m, back) := by
  cases h with
  | plain hds =>
      obtain ⟨m, hm⟩ := hds.scan hback 0
      refine ⟨m, ?_⟩
      unfold scanPrefixed
      split
      · rename_i x rest heq
        rw [if_neg (hds.ne_marked hback heq), ← heq, hm]
      · exact hm
  | marked hx hds =>
      obtain ⟨m, hm⟩ := hds.scan hback 0
      refine ⟨m, ?_⟩
      cases hds with
      | mk hc hcs =>
          rw [List.cons_append, List.cons_append, List.cons_append, scanPrefixed, if_pos hx]
          · exact hm
          · intro rest heq
            exact absurd (List.cons.inj heq).1 (hc.ne (by decide))
  | under hx hds =>
      obtain ⟨m, hm⟩ := hds.scan hback 0
      refine ⟨m, ?_⟩
      rw [List.cons_append, List.cons_append, List.cons_append, scanPrefixed, if_pos hx]
      exact hm

/-- The first character of a number is a digit. -/
lemma HexBody.head {ds : List Char} (h : HexBody ds) :
    ∃ c rest, ds = c :: rest ∧ IsHexValue c := by
  cases h with
  | plain hds =>
      cases hds with
      | mk hc _ => exact ⟨_, _, rfl, hc⟩
  | marked => exact ⟨_, _, rfl, rfl⟩
  | under => exact ⟨_, _, rfl, rfl⟩

lemma scanSigned_sound {cs rest : List Char} {m : ℤ} (h : scanSigned cs = some (m, rest)) :
    ∃ ds, HexSigned ds ∧ cs = ds ++ rest := by
  unfold scanSigned at h
  split at h
  all_goals
    obtain ⟨⟨n, tail⟩, hscan, heq⟩ := Option.map_eq_some_iff.mp h
    obtain ⟨-, rfl⟩ := Prod.mk.inj heq
    obtain ⟨ds, hds, rfl⟩ := scanPrefixed_sound hscan
  · exact ⟨_, HexSigned.minus hds, by simp⟩
  · exact ⟨_, HexSigned.plus hds, by simp⟩
  · exact ⟨_, HexSigned.bare hds, rfl⟩

lemma HexSigned.scan {ds : List Char} (h : HexSigned ds) {back : List Char}
    (hback : AllBlank back) : ∃ m, scanSigned (ds ++ back) = some (m, back) := by
  cases h with
  | bare hds =>
      obtain ⟨m, hm⟩ := hds.scan hback
      obtain ⟨c, rest, rfl, hc⟩ := hds.head
      refine ⟨m, ?_⟩
      unfold scanSigned
      split
      · rename_i heq
        exact absurd (List.cons.inj heq).1 (hc.ne (by decide))
      · rename_i heq
        exact absurd (List.cons.inj heq).1 (hc.ne (by decide))
      · rw [hm, Option.map_some]
  | minus hds =>
      obtain ⟨m, hm⟩ := hds.scan hback
      exact ⟨-m, by rw [List.cons_append, scanSigned, hm, Option.map_some]⟩
  | plus hds =>
      obtain ⟨m, hm⟩ := hds.scan hback
      exact ⟨m, by rw [List.cons_append, scanSigned, hm, Option.map_some]⟩

lemma HexSigned.head {ds : List Char} (h : HexSigned ds) :
    ∃ c rest, ds = c :: rest ∧ isAsciiSpace c = false := by
  cases h with
  | bare hds =>
      obtain ⟨c, rest, rfl, hc⟩ := hds.head
      exact ⟨c, rest, rfl, hc.not_space⟩
  | minus => exact ⟨_, _, rfl, by decide⟩
  | plus => exact ⟨_, _, rfl, by decide⟩

lemma HexSigned.has_digit {ds : List Char} (h : HexSigned ds) : ∃ c ∈ ds, IsHexValue c := by
  cases h
  all_goals
    rename_i hds
    obtain ⟨c, rest, rfl, hc⟩ := hds.head
    exact ⟨c, by simp, hc⟩

/-! ## The whole text -/

/-- **`int(text, 16)` returns exactly on the numerals of base sixteen.** -/
theorem isSome_intBase16_iff (text : String) :
    (intBase16 text).isSome = true ↔ IsHexNumeral (asciiForm text.toList) := by
  have hform : intBase16 text =
      (scanSigned ((asciiForm text.toList).dropWhile isAsciiSpace)).bind fun p =>
        if p.2.all isAsciiSpace then some p.1 else none := by
    rw [intBase16, asciiForm]
    cases scanSigned _ <;> rfl
  rw [hform]
  generalize asciiForm text.toList = cs
  constructor
  · intro h
    cases hscan : scanSigned (cs.dropWhile isAsciiSpace) with
    | none =>
        rw [hscan] at h
        exact absurd h (by simp)
    | some p =>
        obtain ⟨n, rest⟩ := p
        rw [hscan] at h
        obtain ⟨body, hbody, hcs⟩ := scanSigned_sound hscan
        have hrest : rest.all isAsciiSpace = true := by
          by_contra hrest
          simp only [Option.bind_some, if_neg hrest] at h
          exact absurd h (by simp)
        refine ⟨cs.takeWhile isAsciiSpace, body, rest, List.all_eq_true.mp List.all_takeWhile,
          hbody, List.all_eq_true.mp hrest, ?_⟩
        rw [List.append_assoc, ← hcs, List.takeWhile_append_dropWhile]
  · rintro ⟨front, body, back, hfront, hbody, hback, rfl⟩
    obtain ⟨m, hm⟩ := hbody.scan hback
    obtain ⟨c, rest, rfl, hc⟩ := hbody.head
    have hdrop : (front ++ (c :: rest) ++ back).dropWhile isAsciiSpace = c :: rest ++ back := by
      rw [List.append_assoc, List.dropWhile_append_of_pos hfront, List.cons_append,
        List.dropWhile_cons_of_neg (by simp [hc])]
    rw [hdrop, hm, Option.bind_some, if_pos (List.all_eq_true.mpr hback)]
    rfl

end Py

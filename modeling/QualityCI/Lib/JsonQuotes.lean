import Mathlib.Data.List.TakeWhile
import QualityCI.Lib.JsonRoundTrip

/-!
# Quotes in JSON texts

Outside its string literals a JSON text has a few characters only, and no backslash.  So the quotes
tell where the literals are, and a text that is read from inside a literal ends inside one: what
follows a separator in a JSON text is no JSON text.

* `readQuotes` — where a text ends, in a literal or outside.
* `parseText_closes` — a text that is read ends outside.
* `readQuotes_opposite` — from inside a literal it would end inside one.
* **`suffix_unique`** — a JSON text after a separator is found again, whatever stands before.
* `loadsAny` — the lenient reading, of texts with lone surrogates too; `loadsAny_dumps`, it reads
  what was written.
-/

namespace Py

/-! ## The automaton -/

/-- Outside a string literal, in one, or after a backslash in one. -/
inductive QuoteState where
  | outside
  | inside
  | escaped
  deriving DecidableEq

/-- The characters of JSON texts outside string literals. -/
def isBareChar (c : Char) : Bool :=
  isJsonSpace c || c.isDigit || c ∈ "[]\x7b\x7d:,+-.aefilnrstuyENI".toList

namespace QuoteState

/-- One character. -/
def step : QuoteState → Char → Option QuoteState
  | outside, c => if c = '\"' then some inside else if isBareChar c = true then some outside else none
  | inside, c => some <| if c = '\"' then outside else if c = '\\' then escaped else inside
  | escaped, _ => some inside

end QuoteState

open QuoteState

/-- A text. -/
def readQuotes : QuoteState → List Char → Option QuoteState
  | q, [] => some q
  | q, c :: cs => (q.step c).bind fun q => readQuotes q cs

lemma readQuotes_append {q : QuoteState} {xs ys : List Char} :
    readQuotes q (xs ++ ys) = (readQuotes q xs).bind fun q => readQuotes q ys := by
  induction xs generalizing q with
  | nil => rfl
  | cons x xs ih =>
      rw [List.cons_append, readQuotes, readQuotes]
      cases q.step x with
      | none => rfl
      | some q' => exact ih

lemma readQuotes_append_some {q q' q'' : QuoteState} {xs ys : List Char}
    (hxs : readQuotes q xs = some q') (hys : readQuotes q' ys = some q'') :
    readQuotes q (xs ++ ys) = some q'' := by
  rw [readQuotes_append, hxs, Option.bind_some, hys]

lemma readQuotes_bare {cs : List Char} (h : ∀ c ∈ cs, isBareChar c = true) :
    readQuotes outside cs = some outside := by
  induction cs with
  | nil => rfl
  | cons c cs ih =>
      obtain ⟨hc, hcs⟩ := List.forall_mem_cons.mp h
      have hquote : c ≠ '\"' := by
        rintro rfl
        exact absurd hc (by decide)
      rw [readQuotes, QuoteState.step, if_neg hquote, if_pos hc]
      exact ih hcs

lemma readQuotes_plain {c : Char} (hquote : c ≠ '\"') (hslash : c ≠ '\\') (cs : List Char) :
    readQuotes inside (c :: cs) = readQuotes inside cs := by
  rw [readQuotes, QuoteState.step, if_neg hquote, if_neg hslash]
  rfl

/-! ## What is read -/

/-- What was read of a text, from a place where the automaton is in one state to a place where it
is outside. -/
def Closes (q : QuoteState) (cs rest : List Char) : Prop :=
  ∃ pre, cs = pre ++ rest ∧ readQuotes q pre = some outside

namespace Closes

variable {cs rest tail : List Char}

lemma refl (cs : List Char) : Closes outside cs cs := ⟨[], rfl, rfl⟩

lemma trans {q : QuoteState} (h : Closes q cs rest) (h' : Closes outside rest tail) :
    Closes q cs tail := by
  obtain ⟨pre, rfl, hpre⟩ := h
  obtain ⟨pre', rfl, hpre'⟩ := h'
  exact ⟨pre ++ pre', by rw [List.append_assoc], readQuotes_append_some hpre hpre'⟩

lemma bare (word : List Char) (hword : ∀ c ∈ word, isBareChar c = true)
    (h : Closes outside cs rest) : Closes outside (word ++ cs) rest := by
  obtain ⟨pre, rfl, hpre⟩ := h
  exact ⟨word ++ pre, by rw [List.append_assoc], readQuotes_append_some (readQuotes_bare hword) hpre⟩

lemma cons {c : Char} (hc : isBareChar c = true) (h : Closes outside cs rest) :
    Closes outside (c :: cs) rest :=
  bare [c] (by simpa using hc) h

lemma quote (h : Closes inside cs rest) : Closes outside ('\"' :: cs) rest := by
  obtain ⟨pre, rfl, hpre⟩ := h
  exact ⟨'\"' :: pre, rfl, hpre⟩

lemma plain {c : Char} (hquote : c ≠ '\"') (hslash : c ≠ '\\') (h : Closes inside cs rest) :
    Closes inside (c :: cs) rest := by
  obtain ⟨pre, rfl, hpre⟩ := h
  exact ⟨c :: pre, rfl, by rw [readQuotes_plain hquote hslash, hpre]⟩

lemma escape (c : Char) (h : Closes inside cs rest) : Closes inside ('\\' :: c :: cs) rest := by
  obtain ⟨pre, rfl, hpre⟩ := h
  exact ⟨'\\' :: c :: pre, rfl, hpre⟩

lemma space (h : Closes outside (skipSpace cs) rest) : Closes outside cs rest := by
  rw [← List.takeWhile_append_dropWhile (p := isJsonSpace) (l := cs)]
  refine bare _ (fun c hc => ?_) h
  have hspace := List.mem_takeWhile_imp hc
  simp [isBareChar, hspace]

end Closes

/-! ## String literals -/

lemma hexValue_plain {c : Char} {n : ℕ} (h : hexValue c = some n) : c ≠ '\"' ∧ c ≠ '\\' := by
  constructor
  · rintro rfl
    exact absurd h (by decide +revert)
  · rintro rfl
    exact absurd h (by decide +revert)

/-- Four hexadecimal digits in a literal. -/
lemma Closes.hex {a b c d : Char} {code : ℕ} {cs rest : List Char}
    (hcode : hexFour a b c d = some code) (h : Closes inside cs rest) :
    Closes inside (a :: b :: c :: d :: cs) rest := by
  simp only [hexFour, Option.bind_eq_bind, Option.bind_eq_some_iff] at hcode
  obtain ⟨_, ha, _, hb, _, hc, _, hd, -⟩ := hcode
  have hplain := fun {e : Char} {n : ℕ} (he : hexValue e = some n) => hexValue_plain he
  exact .plain (hplain ha).1 (hplain ha).2 <| .plain (hplain hb).1 (hplain hb).2 <|
    .plain (hplain hc).1 (hplain hc).2 <| .plain (hplain hd).1 (hplain hd).2 h

/-- **The rest of a literal** ends with its closing quote. -/
lemma scanString_closes {cs s rest : List Char} (h : scanString cs = some (s, rest)) :
    Closes inside cs rest := by
  fun_induction scanString cs generalizing s rest with
  | case1 => simp at h
  | case2 tail =>
      obtain ⟨-, rfl⟩ := Prod.mk.inj (Option.some.inj h)
      exact ⟨['\"'], rfl, rfl⟩
  | case3 a b c d tail ihpair ih =>
      simp only [Option.bind_eq_bind, Option.bind_eq_some_iff] at h
      obtain ⟨code, hcode, h⟩ := h
      refine .escape 'u' (.hex hcode ?_)
      split_ifs at h with hhigh hlow
      · split at h
        · -- the second half of a surrogate pair
          simp only [Option.bind_eq_some_iff] at h
          obtain ⟨low, hfour, h⟩ := h
          split_ifs at h with hrange
          simp only [Option.bind_eq_some_iff, Option.pure_def, Option.some.injEq,
            Prod.mk.injEq] at h
          obtain ⟨⟨cs, tail⟩, hscan, -, rfl⟩ := h
          exact .escape 'u' (.hex hfour (ihpair hscan))
        · simp at h
      · simp only [Option.bind_eq_some_iff, Option.pure_def, Option.some.injEq,
          Prod.mk.injEq] at h
        obtain ⟨⟨cs, tail⟩, hscan, -, rfl⟩ := h
        exact ih hscan
  | case4 c tail _ ih =>
      simp only [Option.bind_eq_bind, Option.bind_eq_some_iff, Option.pure_def, Option.some.injEq,
        Prod.mk.injEq] at h
      obtain ⟨_, -, ⟨cs, tail⟩, hscan, -, rfl⟩ := h
      exact .escape c (ih hscan)
  | case5 => simp at h
  | case6 c tail hquote _ _ hplain ih =>
      simp only [Option.bind_eq_bind, Option.bind_eq_some_iff, Option.pure_def, Option.some.injEq,
        Prod.mk.injEq] at h
      obtain ⟨⟨cs, tail⟩, hscan, -, rfl⟩ := h
      exact .plain hquote (fun hslash => hplain (Or.inr hslash)) (ih hscan)

/-! ## Numbers -/

lemma isBareChar_digit {c : Char} (h : c.isDigit = true) : isBareChar c = true := by
  simp [isBareChar, h]

lemma scanDigits_closes {cs ds rest : List Char} (h : scanDigits cs = (ds, rest)) :
    Closes outside cs rest := by
  rw [scanDigits, List.span_eq_takeWhile_dropWhile, Prod.mk.injEq] at h
  obtain ⟨-, rfl⟩ := h
  refine ⟨cs.takeWhile Char.isDigit, (List.takeWhile_append_dropWhile).symm, ?_⟩
  exact readQuotes_bare fun c hc => isBareChar_digit (List.mem_takeWhile_imp hc)

lemma scanFraction_closes {cs rest : List Char} {fraction : Option (List Char)}
    (h : scanFraction cs = (fraction, rest)) : Closes outside cs rest := by
  unfold scanFraction at h
  split at h
  · split at h
    · obtain ⟨-, rfl⟩ := Prod.mk.inj h
      exact .refl _
    · rename_i hdigits
      obtain ⟨-, rfl⟩ := Prod.mk.inj h
      exact .cons (by decide) (scanDigits_closes hdigits)
  · obtain ⟨-, rfl⟩ := Prod.mk.inj h
    exact .refl _

lemma scanExponentDigits_closes {neg : Bool} {cs rest : List Char} {e : ℤ}
    (h : scanExponentDigits neg cs = some (e, rest)) : Closes outside cs rest := by
  unfold scanExponentDigits at h
  split at h
  · simp at h
  · rename_i hdigits
    obtain ⟨-, rfl⟩ := Prod.mk.inj (Option.some.inj h)
    exact scanDigits_closes hdigits

lemma scanExponent_closes {cs rest : List Char} {exponent : Option ℤ}
    (h : scanExponent cs = (exponent, rest)) : Closes outside cs rest := by
  unfold scanExponent at h
  split at h
  · rename_i c cs
    split_ifs at h with he
    · have hbare : isBareChar c = true := by
        rcases he with rfl | rfl <;> decide
      dsimp only at h
      split at h
      · rename_i hscan
        obtain ⟨-, rfl⟩ := Prod.mk.inj h
        refine .cons hbare ?_
        split at hscan
        · exact .cons (by decide) (scanExponentDigits_closes hscan)
        · exact .cons (by decide) (scanExponentDigits_closes hscan)
        · exact scanExponentDigits_closes hscan
      · obtain ⟨-, rfl⟩ := Prod.mk.inj h
        exact .refl _
    · obtain ⟨-, rfl⟩ := Prod.mk.inj h
      exact .refl _
  · obtain ⟨-, rfl⟩ := Prod.mk.inj h
    exact .refl _

lemma scanInteger_closes {cs ds rest : List Char} (h : scanInteger cs = some (ds, rest)) :
    Closes outside cs rest := by
  unfold scanInteger at h
  split at h
  · obtain ⟨-, rfl⟩ := Prod.mk.inj (Option.some.inj h)
    exact .cons (by decide) (.refl _)
  · split at h
    · simp at h
    · rename_i hdigits
      obtain ⟨-, rfl⟩ := Prod.mk.inj (Option.some.inj h)
      exact scanDigits_closes hdigits

lemma scanNumber_closes {mode : LoadMode} {neg : Bool} {cs rest : List Char} {v : Json}
    (h : scanNumber mode neg cs = some (v, rest)) : Closes outside cs rest := by
  simp only [scanNumber, Option.bind_eq_bind, Option.bind_eq_some_iff] at h
  obtain ⟨⟨integer, cs₁⟩, hinteger, h⟩ := h
  have hparts : Closes outside cs (scanExponent (scanFraction cs₁).2).2 :=
    (scanInteger_closes hinteger).trans ((scanFraction_closes rfl).trans (scanExponent_closes rfl))
  suffices hrest : rest = (scanExponent (scanFraction cs₁).2).2 by rw [hrest]; exact hparts
  dsimp only at h
  split at h
  · exact (Prod.mk.inj (Option.some.inj h)).2.symm
  · split_ifs at h
    exact (Prod.mk.inj (Option.some.inj h)).2.symm

/-! ## Values -/

/-- What is read with some fuel ends outside the literals. -/
structure ScanCloses (mode : LoadMode) (fuel : ℕ) : Prop where
  value : ∀ cs v rest, scanValue mode fuel cs = some (v, rest) → Closes outside cs rest
  items : ∀ cs xs rest, scanItems mode fuel cs = some (xs, rest) → Closes outside cs rest
  pairs : ∀ cs ps rest, scanPairs mode fuel cs = some (ps, rest) → Closes outside cs rest

lemma closes_skipped {c : Char} {cs rest tail : List Char} (hskip : skipSpace cs = c :: rest)
    (hc : isBareChar c = true) (h : Closes outside rest tail) : Closes outside cs tail := by
  refine .space ?_
  rw [hskip]
  exact .cons hc h

lemma scanValue_closes {mode : LoadMode} {fuel : ℕ} (ih : ScanCloses mode fuel)
    {cs rest : List Char} {v : Json} (h : scanValue mode (fuel + 1) cs = some (v, rest)) :
    Closes outside cs rest := by
  unfold scanValue at h
  split at h
  · simp only [Option.bind_eq_bind, Option.bind_eq_some_iff, Option.pure_def, Option.some.injEq,
      Prod.mk.injEq] at h
    obtain ⟨⟨s, tail⟩, hscan, -, rfl⟩ := h
    exact .quote (scanString_closes hscan)
  · refine .cons (by decide) ?_
    split at h
    · rename_i hskip
      obtain ⟨-, rfl⟩ := Prod.mk.inj (Option.some.inj h)
      exact closes_skipped hskip (by decide) (.refl _)
    · simp only [Option.bind_eq_bind, Option.bind_eq_some_iff, Option.pure_def, Option.some.injEq,
        Prod.mk.injEq] at h
      obtain ⟨⟨items, tail⟩, hscan, -, rfl⟩ := h
      exact .space (ih.items _ _ _ hscan)
  · refine .cons (by decide) ?_
    split at h
    · rename_i hskip
      obtain ⟨-, rfl⟩ := Prod.mk.inj (Option.some.inj h)
      exact closes_skipped hskip (by decide) (.refl _)
    · simp only [Option.bind_eq_bind, Option.bind_eq_some_iff, Option.pure_def, Option.some.injEq,
        Prod.mk.injEq] at h
      obtain ⟨⟨pairs, tail⟩, hscan, d, -, -, rfl⟩ := h
      exact .space (ih.pairs _ _ _ hscan)
  · obtain ⟨-, rfl⟩ := Prod.mk.inj (Option.some.inj h)
    exact .bare ['n', 'u', 'l', 'l'] (by decide) (.refl _)
  · obtain ⟨-, rfl⟩ := Prod.mk.inj (Option.some.inj h)
    exact .bare ['t', 'r', 'u', 'e'] (by decide) (.refl _)
  · obtain ⟨-, rfl⟩ := Prod.mk.inj (Option.some.inj h)
    exact .bare ['f', 'a', 'l', 's', 'e'] (by decide) (.refl _)
  · split_ifs at h
    obtain ⟨-, rfl⟩ := Prod.mk.inj (Option.some.inj h)
    exact .bare ['N', 'a', 'N'] (by decide) (.refl _)
  · split_ifs at h
    obtain ⟨-, rfl⟩ := Prod.mk.inj (Option.some.inj h)
    exact .bare "Infinity".toList (by decide) (.refl _)
  · split_ifs at h
    obtain ⟨-, rfl⟩ := Prod.mk.inj (Option.some.inj h)
    exact .bare "-Infinity".toList (by decide) (.refl _)
  · exact .cons (by decide) (scanNumber_closes h)
  · exact scanNumber_closes h

lemma scanItems_closes {mode : LoadMode} {fuel : ℕ} (ih : ScanCloses mode fuel)
    {cs rest : List Char} {xs : List Json} (h : scanItems mode (fuel + 1) cs = some (xs, rest)) :
    Closes outside cs rest := by
  unfold scanItems at h
  simp only [Option.bind_eq_bind, Option.bind_eq_some_iff] at h
  obtain ⟨⟨x, tail⟩, hvalue, h⟩ := h
  refine (ih.value _ _ _ hvalue).trans ?_
  split at h
  · rename_i hskip
    obtain ⟨-, rfl⟩ := Prod.mk.inj (Option.some.inj h)
    exact closes_skipped hskip (by decide) (.refl _)
  · rename_i hskip
    simp only [Option.bind_eq_some_iff, Option.pure_def, Option.some.injEq, Prod.mk.injEq] at h
    obtain ⟨⟨xs, tail⟩, hscan, -, rfl⟩ := h
    exact closes_skipped hskip (by decide) (.space (ih.items _ _ _ hscan))
  · simp at h

lemma scanPairs_closes {mode : LoadMode} {fuel : ℕ} (ih : ScanCloses mode fuel)
    {cs rest : List Char} {ps : List (String × Json)}
    (h : scanPairs mode (fuel + 1) cs = some (ps, rest)) : Closes outside cs rest := by
  unfold scanPairs at h
  split at h
  · simp only [Option.bind_eq_bind, Option.bind_eq_some_iff] at h
    obtain ⟨⟨k, tail⟩, hkey, h⟩ := h
    refine (Closes.quote (scanString_closes hkey)).trans ?_
    split at h
    · rename_i hcolon
      simp only [Option.bind_eq_some_iff] at h
      obtain ⟨⟨x, tail'⟩, hvalue, h⟩ := h
      refine closes_skipped hcolon (by decide) (.space ((ih.value _ _ _ hvalue).trans ?_))
      split at h
      · rename_i hskip
        obtain ⟨-, rfl⟩ := Prod.mk.inj (Option.some.inj h)
        exact closes_skipped hskip (by decide) (.refl _)
      · rename_i hskip
        simp only [Option.bind_eq_some_iff, Option.pure_def, Option.some.injEq,
          Prod.mk.injEq] at h
        obtain ⟨⟨xs, tail⟩, hscan, -, rfl⟩ := h
        exact closes_skipped hskip (by decide) (.space (ih.pairs _ _ _ hscan))
      · simp at h
    · simp at h
  · simp at h

lemma scan_closes (mode : LoadMode) (fuel : ℕ) : ScanCloses mode fuel := by
  induction fuel with
  | zero =>
      exact ⟨fun _ _ _ h => by simp [scanValue] at h, fun _ _ _ h => by simp [scanItems] at h,
        fun _ _ _ h => by simp [scanPairs] at h⟩
  | succ fuel ih =>
      exact ⟨fun _ _ _ h => scanValue_closes ih h, fun _ _ _ h => scanItems_closes ih h,
        fun _ _ _ h => scanPairs_closes ih h⟩

/-- **A text that is read** ends outside its literals. -/
theorem parseText_closes {mode : LoadMode} {cs : List Char} {v : Json}
    (h : parseText mode cs = some v) : readQuotes outside cs = some outside := by
  unfold parseText at h
  split at h
  · rename_i w rest hscan
    split_ifs at h with hend
    have hrest : Closes outside rest [] := .space (by rw [hend]; exact .refl [])
    obtain ⟨pre, hpre, hread⟩ := (Closes.space ((scan_closes mode _).value _ _ _ hscan)).trans hrest
    rw [hpre, List.append_nil]
    exact hread
  · simp at h

/-! ## After a separator -/

/-- **Inside and outside are opposite**: a text that can be read from both leads from either to
the other, or back. -/
theorem readQuotes_opposite {cs : List Char} {q q' : QuoteState}
    (h : readQuotes outside cs = some q) (h' : readQuotes inside cs = some q') :
    (q = outside ∧ q' = inside) ∨ (q = inside ∧ q' = outside) := by
  induction cs generalizing q q' with
  | nil =>
      obtain rfl := Option.some.inj h
      obtain rfl := Option.some.inj h'
      exact Or.inl ⟨rfl, rfl⟩
  | cons c cs ih =>
      simp only [readQuotes, QuoteState.step] at h h'
      split_ifs at h with hquote hbare
      · -- the quote opens a literal on one side and closes it on the other
        rw [if_pos hquote] at h'
        exact (ih h' h).symm.imp (fun h => ⟨h.2, h.1⟩) fun h => ⟨h.2, h.1⟩
      · have hslash : c ≠ '\\' := by
          rintro rfl
          exact absurd hbare (by decide)
        rw [if_neg hquote, if_neg hslash] at h'
        exact ih h h'
      · simp at h

/-- A separator of a text that is read stands in a literal. -/
lemma readQuotes_separator {sep : Char} (hquote : sep ≠ '\"') (hslash : sep ≠ '\\')
    (hbare : isBareChar sep = false) {xs ys : List Char}
    (h : readQuotes outside (xs ++ sep :: ys) = some outside) :
    readQuotes inside ys = some outside := by
  rw [readQuotes_append, Option.bind_eq_some_iff] at h
  obtain ⟨q, -, h⟩ := h
  cases q with
  | outside => simp [readQuotes, QuoteState.step, hquote, hbare] at h
  | inside => simpa [readQuotes, QuoteState.step, hquote, hslash] using h
  | escaped => exact h

/-- **A text after a separator is found again**, whatever stands before it, where the text ends
outside its literals. -/
theorem suffix_unique {sep : Char} (hquote : sep ≠ '\"') (hslash : sep ≠ '\\')
    (hbare : isBareChar sep = false) {before before' text text' : List Char}
    (htext : readQuotes outside text = some outside)
    (htext' : readQuotes outside text' = some outside)
    (h : before ++ sep :: text = before' ++ sep :: text') : before = before' ∧ text = text' := by
  have hnot : ∀ {xs ys zs : List Char}, readQuotes outside xs = some outside →
      readQuotes outside zs = some outside → xs ≠ ys ++ sep :: zs := by
    rintro xs ys zs hxs hzs rfl
    have hinside := readQuotes_separator hquote hslash hbare hxs
    rcases readQuotes_opposite hzs hinside with ⟨-, h⟩ | ⟨h, -⟩ <;> cases h
  rcases List.append_eq_append_iff.mp h with ⟨mid, hbefore, hrest⟩ | ⟨mid, hbefore, hrest⟩
  · cases mid with
    | nil =>
        rw [List.append_nil] at hbefore
        exact ⟨hbefore.symm, (List.cons.inj hrest).2⟩
    | cons c mid => exact absurd (List.cons.inj hrest).2 (hnot htext htext')
  · cases mid with
    | nil =>
        rw [List.append_nil] at hbefore
        exact ⟨hbefore, (List.cons.inj hrest).2.symm⟩
    | cons c mid => exact absurd (List.cons.inj hrest).2 (hnot htext' htext)

/-! ## Lone surrogates -/

/-- The escape of half a surrogate pair, at the head of a text. -/
def isSurrogate (low high : ℕ) : List Char → Bool
  | '\\' :: 'u' :: a :: b :: c :: d :: _ =>
      match hexFour a b c d with
      | some code => decide (low ≤ code ∧ code < high)
      | none => false
  | _ => false

/-- A text with the escape of U+FFFD for every escape of half a surrogate pair that has no other
half.  Python's strings may hold such a half, these texts do not. -/
def repairSurrogates : List Char → List Char
  | '\\' :: 'u' :: a :: b :: c :: d :: rest =>
      if isSurrogate 0xD800 0xDC00 ['\\', 'u', a, b, c, d] = true ∧
          isSurrogate 0xDC00 0xE000 rest = true then
        match rest with
        | x :: y :: e :: f :: g :: h :: rest =>
            '\\' :: 'u' :: a :: b :: c :: d :: x :: y :: e :: f :: g :: h :: repairSurrogates rest
        | rest => '\\' :: 'u' :: a :: b :: c :: d :: rest
      else if isSurrogate 0xD800 0xE000 ['\\', 'u', a, b, c, d] = true then
        '\\' :: 'u' :: 'f' :: 'f' :: 'f' :: 'd' :: repairSurrogates rest
      else '\\' :: 'u' :: a :: b :: c :: d :: repairSurrogates rest
  | '\\' :: c :: rest => '\\' :: c :: repairSurrogates rest
  | c :: rest => c :: repairSurrogates rest
  | [] => []

lemma readQuotes_congr {xs xs' ys ys' : List Char} (hxs : ∀ q, readQuotes q xs = readQuotes q xs')
    (hys : ∀ q, readQuotes q ys = readQuotes q ys') (q : QuoteState) :
    readQuotes q (xs ++ ys) = readQuotes q (xs' ++ ys') := by
  rw [readQuotes_append, readQuotes_append, hxs]
  exact Option.bind_congr fun q' _ => hys q'

/-- Both escapes leave every state as the other does. -/
lemma readQuotes_escape {a b c d : Char} {low high : ℕ}
    (h : isSurrogate low high ['\\', 'u', a, b, c, d] = true) (q : QuoteState) :
    readQuotes q ['\\', 'u', 'f', 'f', 'f', 'd'] = readQuotes q ['\\', 'u', a, b, c, d] := by
  have hplain : ∀ e ∈ [a, b, c, d], e ≠ '\"' ∧ e ≠ '\\' := by
    simp only [isSurrogate] at h
    cases hcode : hexFour a b c d with
    | none => simp [hcode] at h
    | some code =>
        simp only [hexFour, Option.bind_eq_bind, Option.bind_eq_some_iff] at hcode
        obtain ⟨_, ha, _, hb, _, hc, _, hd, -⟩ := hcode
        simp only [List.mem_cons, List.not_mem_nil, or_false, forall_eq_or_imp, forall_eq]
        exact ⟨hexValue_plain ha, hexValue_plain hb, hexValue_plain hc, hexValue_plain hd⟩
  simp only [List.mem_cons, List.not_mem_nil, or_false, forall_eq_or_imp, forall_eq] at hplain
  obtain ⟨ha, hb, hc, hd⟩ := hplain
  cases q with
  | outside => rfl
  | inside =>
      simp [readQuotes, QuoteState.step, ha.1, ha.2, hb.1, hb.2, hc.1, hc.2, hd.1, hd.2]
  | escaped =>
      simp [readQuotes, QuoteState.step, ha.1, ha.2, hb.1, hb.2, hc.1, hc.2, hd.1, hd.2]

/-- **The repair** leaves the quotes where they are. -/
lemma readQuotes_repair (cs : List Char) (q : QuoteState) :
    readQuotes q (repairSurrogates cs) = readQuotes q cs := by
  have hsame : ∀ (xs : List Char) {ys ys' : List Char}, (∀ q, readQuotes q ys = readQuotes q ys') → ∀ q,
      readQuotes q (xs ++ ys) = readQuotes q (xs ++ ys') :=
    fun _ _ _ hys => readQuotes_congr (fun _ => rfl) hys
  fun_induction repairSurrogates cs generalizing q with
  | case1 a b c d x y e f g h rest _ ih =>
      exact hsame ['\\', 'u', a, b, c, d, x, y, e, f, g, h] ih q
  | case2 => rfl
  | case3 a b c d rest _ hlone ih => exact readQuotes_congr (readQuotes_escape hlone) ih q
  | case4 a b c d rest _ _ ih => exact hsame ['\\', 'u', a, b, c, d] ih q
  | case5 c rest _ ih => exact hsame ['\\', c] ih q
  | case6 c rest _ _ ih => exact hsame [c] ih q
  | case7 => rfl

/-- `json.loads(text)` of any text, repeated keys and numbers that are not finite included. -/
def loadsAny (text : String) : Result Json :=
  loads ⟨false⟩ (String.ofList (repairSurrogates text.toList))

/-- **A text that is read** ends outside its literals. -/
lemma loadsAny_closes {text : String} {v : Json} (h : loadsAny text = .ok v) :
    readQuotes outside text.toList = some outside := by
  unfold loadsAny loads at h
  split at h
  · rename_i w hparse
    rw [String.toList_ofList] at hparse
    rw [← readQuotes_repair]
    exact parseText_closes hparse
  · exact absurd h valueError_ne_ok

/-! ## Texts that were written -/

/-- The repair leaves a text alone, whatever stands behind it. -/
def Repaired (text : List Char) : Prop :=
  ∀ rest, repairSurrogates (text ++ rest) = text ++ repairSurrogates rest

lemma repaired_nil : Repaired [] := fun _ => rfl

lemma Repaired.append {xs ys : List Char} (hxs : Repaired xs) (hys : Repaired ys) :
    Repaired (xs ++ ys) := by
  intro rest
  rw [List.append_assoc, hxs, hys, List.append_assoc]

lemma repaired_plain {c : Char} (h : c ≠ '\\') : Repaired [c] := by
  intro rest
  rw [List.singleton_append, List.singleton_append, repairSurrogates]
  · intro a b d e f hc _
    exact h hc
  · intro d f hc _
    exact h hc

lemma Repaired.cons {c : Char} {text : List Char} (h : c ≠ '\\') (htext : Repaired text) :
    Repaired (c :: text) := (repaired_plain h).append htext

lemma repaired_short {c : Char} (h : c ≠ 'u') : Repaired ['\\', c] := by
  intro rest
  rw [List.cons_append, List.singleton_append, repairSurrogates]
  · rfl
  · intro a b d e f hc _
    exact h hc

/-- An escape that is no half of a pair stays. -/
lemma repairSurrogates_kept {a b c d : Char} {rest : List Char}
    (h : isSurrogate 0xD800 0xE000 ['\\', 'u', a, b, c, d] ≠ true)
    (hfirst : isSurrogate 0xD800 0xDC00 ['\\', 'u', a, b, c, d] ≠ true) :
    repairSurrogates ('\\' :: 'u' :: a :: b :: c :: d :: rest) =
      '\\' :: 'u' :: a :: b :: c :: d :: repairSurrogates rest := by
  rw [repairSurrogates.eq_def]
  simp only [h, hfirst, false_and, if_false, Bool.false_eq_true]

lemma repaired_escapeChar (c : Char) : Repaired (escapeChar c) := by
  unfold escapeChar
  split_ifs with _ hback _ _ _ _ _ hlow
  · exact repaired_short (by decide)
  · exact repaired_short (by decide)
  · exact repaired_short (by decide)
  · exact repaired_short (by decide)
  · exact repaired_short (by decide)
  · exact repaired_short (by decide)
  · exact repaired_short (by decide)
  · intro rest
    -- a control character is no half of a pair
    have hcode := hexFour_hexText (show c.toNat < 65536 by omega)
    have hlone : ∀ low high, 0xD800 ≤ low → isSurrogate low high ['\\', 'u',
        hexDigit (c.toNat / 16 / 16 / 16), hexDigit (c.toNat / 16 / 16), hexDigit (c.toNat / 16),
        hexDigit c.toNat] ≠ true := by
      intro low high hlow'
      simp only [isSurrogate, hcode, ne_eq, decide_eq_true_eq, not_and]
      omega
    rw [hexText_four]
    simp only [List.cons_append, List.nil_append]
    exact repairSurrogates_kept (hlone _ _ (by omega)) (hlone _ _ (by omega))
  · exact repaired_plain hback

lemma repaired_stringText (s : String) : Repaired (stringText s) := by
  have hchars : ∀ chars : List Char, Repaired (chars.flatMap escapeChar) := by
    intro chars
    induction chars with
    | nil => exact repaired_nil
    | cons c chars ih => exact (repaired_escapeChar c).append ih
  exact .cons (by decide) ((hchars _).append (repaired_plain (by decide)))

lemma repaired_commaJoin {texts : List (List Char)} (h : ∀ text ∈ texts, Repaired text) :
    Repaired (commaJoin texts) := by
  induction texts with
  | nil => exact repaired_nil
  | cons text texts ih =>
      obtain ⟨htext, htexts⟩ := List.forall_mem_cons.mp h
      cases texts with
      | nil => exact htext
      | cons next texts => exact htext.append (.cons (by decide) (ih htexts))

lemma repaired_obj {d : Dict} (h : ∀ e ∈ d, Repaired (jsonText e.2)) :
    Repaired (jsonText (.obj d)) := by
  have htexts : ∀ entries : List (String × Json), (∀ e ∈ entries, Repaired (jsonText e.2)) →
      ∀ text ∈ entryTexts entries, Repaired text := by
    intro entries
    induction entries with
    | nil => simp [entryTexts]
    | cons e entries ih =>
        intro hentries
        obtain ⟨he, hrest⟩ := List.forall_mem_cons.mp hentries
        exact List.forall_mem_cons.mpr
          ⟨(repaired_stringText e.1).append (.cons (by decide) he), ih hrest⟩
  rw [jsonText]
  exact .cons (by decide) ((repaired_commaJoin (htexts d h)).append (repaired_plain (by decide)))

/-- **A value that was written**, without numbers, is read back. -/
lemma loadsAny_dumps {v : Json} {text : String} (hwf : v.WF) (htext : Repaired (jsonText v))
    (h : dumps v = .ok text) : loadsAny text = .ok v := by
  have hsame : repairSurrogates text.toList = text.toList := by
    obtain ⟨-, rfl⟩ := dumps_eq_ok.mp h
    have hrest := htext []
    rw [List.append_nil, repairSurrogates, List.append_nil] at hrest
    rw [String.toList_ofList, hrest]
  rw [loadsAny, hsame, String.ofList_toList]
  exact loads_dumps ⟨false⟩ hwf h

end Py

import QualityCI.Lib.JsonText

/-!
# Reading back what was written

Reading the text of a well-formed value without infinities gives back the value, in either mode,
so the text determines the value.

* `scanString_stringText`, `scanNumber_int`, `scanNumber_double` — the atoms.
* `scanValue_jsonText` — one value at the head of a text.
* **`loads_dumps`** — a value is read back from its text.
* **`dumps_injective`** — two values with one text are equal.
-/

namespace Py

/-! ## Strings -/

lemma hexValue_hexDigit (n : ℕ) : hexValue (hexDigit n) = some (n % 16) := by
  have h : ∀ d : Fin 16, hexValue (Nat.digitChar d) = some d.val := by decide
  exact h ⟨n % 16, Nat.mod_lt n (by decide)⟩

lemma hexText_four (n : ℕ) :
    hexText 4 n = [hexDigit (n / 16 / 16 / 16), hexDigit (n / 16 / 16), hexDigit (n / 16),
      hexDigit n] := by
  simp [hexText]

lemma hexFour_hexText {n : ℕ} (h : n < 65536) :
    hexFour (hexDigit (n / 16 / 16 / 16)) (hexDigit (n / 16 / 16)) (hexDigit (n / 16))
      (hexDigit n) = some n := by
  simp only [hexFour, hexValue_hexDigit, bind, Option.bind, pure, Option.some.injEq]
  omega

/-- One escaped character is read as itself. -/
lemma scanString_escapeChar (c : Char) (rest : List Char) :
    scanString (escapeChar c ++ rest) = (scanString rest).map fun p => (c :: p.1, p.2) := by
  have hbind : ∀ (o : Option (List Char × List Char)) (c : Char),
      (o.bind fun p => some (c :: p.1, p.2)) = o.map fun p => (c :: p.1, p.2) := by
    intro o c
    cases o <;> rfl
  unfold escapeChar
  split_ifs with h1 h2 h3 h4 h5 h6 h7 h8
  · subst h1
    simp [scanString, simpleEscape, hbind]
  · subst h2
    simp [scanString, simpleEscape, hbind]
  · subst h3
    simp [scanString, simpleEscape, hbind]
  · subst h4
    simp [scanString, simpleEscape, hbind]
  · subst h5
    simp [scanString, simpleEscape, hbind]
  · obtain rfl : c = Char.ofNat 12 := by rw [← h6, Char.ofNat_toNat]
    simp [scanString, simpleEscape, hbind]
  · obtain rfl : c = Char.ofNat 8 := by rw [← h7, Char.ofNat_toNat]
    simp [scanString, simpleEscape, hbind]
  · have hhex := @hexFour_hexText c.toNat (by omega)
    have hs : ¬(0xD800 ≤ c.toNat ∧ c.toNat < 0xDC00) := by omega
    have hs' : ¬(0xDC00 ≤ c.toNat ∧ c.toNat < 0xE000) := by omega
    rw [hexText_four]
    simp only [List.cons_append, List.nil_append]
    rw [scanString]
    simp only [hhex, Option.bind_eq_bind, Option.bind_some, hs, hs', ↓reduceIte,
      Char.ofNat_toNat, Option.pure_def]
    exact hbind _ c
  · simp only [List.cons_append, List.nil_append]
    rw [scanString.eq_def]
    split
    · simp_all
    · simp_all
    · simp_all
    · simp_all
    · rename_i heq
      obtain ⟨rfl, rfl⟩ := List.cons.inj heq
      have hno : ¬(c.toNat < 0x20 ∨ c = '\\') := by
        rintro (h | h)
        · exact h8 h
        · exact h2 h
      rw [if_neg hno]
      exact hbind _ c

lemma scanString_escaped (cs rest : List Char) :
    scanString (cs.flatMap escapeChar ++ '\"' :: rest) = some (cs, rest) := by
  induction cs with
  | nil => rfl
  | cons c cs ih =>
      rw [List.flatMap_cons, List.append_assoc, scanString_escapeChar, ih]
      rfl

/-- A string literal is read back. -/
lemma scanString_stringText (s : String) (rest : List Char) :
    scanString ((s.toList.flatMap escapeChar ++ ['\"']) ++ rest) = some (s.toList, rest) := by
  rw [List.append_assoc]
  exact scanString_escaped s.toList rest

/-! ## Numbers -/

/-- A text that does not go on with a digit. -/
def NoDigit (cs : List Char) : Prop := ∀ c ∈ cs.head?, c.isDigit = false

/-- A text that does not go on with a part of a number. -/
def NumberStop (cs : List Char) : Prop :=
  ∀ c ∈ cs.head?, c.isDigit = false ∧ c ≠ '.' ∧ c ≠ 'e' ∧ c ≠ 'E'

lemma NumberStop.noDigit {cs : List Char} (h : NumberStop cs) : NoDigit cs := fun c hc => (h c hc).1

lemma noDigit_cons {c : Char} {cs : List Char} (h : c.isDigit = false) : NoDigit (c :: cs) := by
  intro d hd
  rw [List.head?_cons, Option.mem_some_iff] at hd
  exact hd ▸ h

lemma scanDigits_append {ds rest : List Char} (hds : ∀ c ∈ ds, c.isDigit = true)
    (hrest : NoDigit rest) : scanDigits (ds ++ rest) = (ds, rest) := by
  unfold scanDigits
  rw [List.span_eq_takeWhile_dropWhile, List.takeWhile_append_of_pos hds,
    List.dropWhile_append_of_pos hds]
  cases rest with
  | nil => simp
  | cons c cs =>
      have hc := hrest c rfl
      simp [hc]

lemma isDigit_digitsOf {n : ℕ} : ∀ c ∈ digitsOf n, c.isDigit = true := fun _ hc =>
  Nat.isDigit_of_mem_toDigits (by decide) (by decide) hc

lemma ofDigitChars_digitsOf (n : ℕ) : Nat.ofDigitChars 10 (digitsOf n) 0 = n :=
  Nat.ofDigitChars_ten_toDigits

/-- The integer part of a numeral: `0`, or digits that do not begin with it. -/
def IntegerPart (ds : List Char) : Prop :=
  ds = ['0'] ∨ ((∀ c ∈ ds, c.isDigit = true) ∧ ∃ d t, ds = d :: t ∧ d ≠ '0')

lemma digitChar_ne_zero {d : ℕ} (h : 0 < d) (hlt : d < 10) : Nat.digitChar d ≠ '0' := by
  have : ∀ d : Fin 10, 0 < d.val → Nat.digitChar d ≠ '0' := by decide
  exact this ⟨d, hlt⟩ h

/-- A positive number's digits do not begin with zero. -/
lemma digitsOf_head {n : ℕ} (h : 0 < n) : ∃ d t, digitsOf n = d :: t ∧ d ≠ '0' := by
  induction n using Nat.strong_induction_on with
  | _ n ih =>
    unfold digitsOf at ih ⊢
    by_cases hlt : n < 10
    · rw [Nat.toDigits_of_lt_base hlt]
      exact ⟨_, [], rfl, digitChar_ne_zero h hlt⟩
    · rw [Nat.toDigits_of_base_le (by decide) (by omega)]
      obtain ⟨d, t, heq, hd⟩ := ih (n / 10) (by omega) (by omega)
      exact ⟨d, t ++ [Nat.digitChar (n % 10)], by rw [heq]; rfl, hd⟩

lemma integerPart_digitsOf (n : ℕ) : IntegerPart (digitsOf n) := by
  rcases Nat.eq_zero_or_pos n with rfl | h
  · exact Or.inl rfl
  · exact Or.inr ⟨isDigit_digitsOf, digitsOf_head h⟩

lemma IntegerPart.append {ds es : List Char} (h : IntegerPart ds) (h0 : ds ≠ ['0'])
    (hes : ∀ c ∈ es, c.isDigit = true) : IntegerPart (ds ++ es) := by
  rcases h with h | ⟨hall, d, t, rfl, hd⟩
  · exact absurd h h0
  · refine Or.inr ⟨fun c hc => ?_, d, t ++ es, rfl, hd⟩
    rcases List.mem_append.mp hc with h | h
    · exact hall c h
    · exact hes c h

lemma scanInteger_append {ds rest : List Char} (h : IntegerPart ds) (hrest : NoDigit rest) :
    scanInteger (ds ++ rest) = some (ds, rest) := by
  rcases h with rfl | ⟨hall, d, t, rfl, hd⟩
  · rfl
  · have hscan := scanDigits_append hall hrest
    unfold scanInteger
    split
    · rename_i heq
      rw [List.cons_append, List.cons.injEq] at heq
      exact absurd heq.1 hd
    · rw [hscan]

lemma scanFraction_none {rest : List Char} (h : NumberStop rest) :
    scanFraction rest = (none, rest) := by
  cases rest with
  | nil => rfl
  | cons c cs =>
      have hc := (h c rfl).2.1
      unfold scanFraction
      split
      · rename_i heq
        rw [List.cons.injEq] at heq
        exact absurd heq.1 hc
      · rfl

lemma scanExponent_none {rest : List Char} (h : NumberStop rest) :
    scanExponent rest = (none, rest) := by
  cases rest with
  | nil => rfl
  | cons c cs =>
      have hc := (h c rfl).2.2
      simp [scanExponent, hc.1, hc.2]

lemma scanFraction_some {ds rest : List Char} (hne : ds ≠ []) (hall : ∀ c ∈ ds, c.isDigit = true)
    (hrest : NoDigit rest) : scanFraction ('.' :: (ds ++ rest)) = (some ds, rest) := by
  unfold scanFraction
  simp only [scanDigits_append hall hrest]
  cases ds with
  | nil => exact absurd rfl hne
  | cons d t => rfl

lemma scanExponentDigits_some {neg : Bool} {ds rest : List Char} (hne : ds ≠ [])
    (hall : ∀ c ∈ ds, c.isDigit = true) (hrest : NoDigit rest) :
    scanExponentDigits neg (ds ++ rest) =
      some (if neg then -(Nat.ofDigitChars 10 ds 0 : ℤ) else Nat.ofDigitChars 10 ds 0, rest) := by
  unfold scanExponentDigits
  simp only [scanDigits_append hall hrest]
  cases ds with
  | nil => exact absurd rfl hne
  | cons d t => rfl

/-- An exponent with its sign. -/
lemma scanExponent_some (neg : Bool) {ds rest : List Char} (hne : ds ≠ [])
    (hall : ∀ c ∈ ds, c.isDigit = true) (hrest : NoDigit rest) :
    scanExponent ('e' :: (if neg then '-' else '+') :: (ds ++ rest)) =
      (some (if neg then -(Nat.ofDigitChars 10 ds 0 : ℤ) else Nat.ofDigitChars 10 ds 0), rest) := by
  cases neg with
  | false =>
      simp only [scanExponent, Bool.false_eq_true, ↓reduceIte, true_or]
      rw [scanExponentDigits_some hne hall hrest]
      rfl
  | true =>
      simp only [scanExponent, ↓reduceIte, true_or]
      rw [scanExponentDigits_some hne hall hrest]
      rfl

/-- An integer literal is read back. -/
lemma scanNumber_int (mode : LoadMode) (neg : Bool) (n : ℕ) {rest : List Char}
    (h : NumberStop rest) : scanNumber mode neg (digitsOf n ++ rest) =
      some (.int (if neg then -(n : ℤ) else n), rest) := by
  unfold scanNumber
  rw [scanInteger_append (integerPart_digitsOf n) h.noDigit]
  simp only [Option.bind_eq_bind, Option.bind_some, scanFraction_none h, scanExponent_none h,
    ofDigitChars_digitsOf]
  rfl

/-- A numeral in its parts: integer digits, and a fraction or an exponent or both. -/
lemma scanNumber_parts (mode : LoadMode) (neg : Bool) {integer rest : List Char}
    {fraction : Option (List Char)} {exponent : Option ℤ} {middle tail : List Char}
    (hi : IntegerPart integer) (hnd : NoDigit middle)
    (hf : scanFraction middle = (fraction, tail)) (he : scanExponent tail = (exponent, rest))
    (hsome : fraction ≠ none ∨ exponent ≠ none) :
    ∃ d : Decimal, d.value = Nat.ofDigitChars 10 (integer ++ fraction.getD []) 0 *
        (10 : ℚ) ^ (exponent.getD 0 - (fraction.getD []).length) ∧
      (mode.strict = true → (floatOf neg d).isFinite = true →
        scanNumber mode neg (integer ++ middle) = some (.float (floatOf neg d), rest)) ∧
      (mode.strict = false →
        scanNumber mode neg (integer ++ middle) = some (.float (floatOf neg d), rest)) := by
  refine ⟨⟨Nat.ofDigitChars 10 (integer ++ fraction.getD []) 0,
    exponent.getD 0 - (fraction.getD []).length⟩, rfl, ?_, ?_⟩
  all_goals
    intro hmode
    unfold scanNumber
    rw [scanInteger_append hi hnd]
    simp only [Option.bind_eq_bind, Option.bind_some, hf, he]
  · intro hfinite
    rcases hsome with h | h
    · obtain ⟨f, rfl⟩ := Option.ne_none_iff_exists'.mp h
      simp only [hfinite]
      simp
    · obtain ⟨e, rfl⟩ := Option.ne_none_iff_exists'.mp h
      cases fraction <;> simp only [hfinite] <;> simp
  · rcases hsome with h | h
    · obtain ⟨f, rfl⟩ := Option.ne_none_iff_exists'.mp h
      simp [hmode]
    · obtain ⟨e, rfl⟩ := Option.ne_none_iff_exists'.mp h
      cases fraction <;> simp [hmode]

/-- The parts that the text of a decimal has, and its value from them. -/
structure DecimalParts (d : Decimal) (integer : List Char) (middle : List Char) : Prop where
  text : decimalText d = integer ++ middle
  integerPart : IntegerPart integer
  scans : ∀ rest, NumberStop rest → ∃ (fraction : Option (List Char)) (exponent : Option ℤ)
    (tail : List Char), scanFraction (middle ++ rest) = (fraction, tail) ∧
      scanExponent tail = (exponent, rest) ∧ (fraction ≠ none ∨ exponent ≠ none) ∧
      NoDigit (middle ++ rest) ∧
      (Nat.ofDigitChars 10 (integer ++ fraction.getD []) 0 : ℚ) *
        (10 : ℚ) ^ (exponent.getD 0 - (fraction.getD []).length) = d.value

lemma ofDigitChars_zeros_append (k : ℕ) (ds : List Char) :
    Nat.ofDigitChars 10 ('0' :: (List.replicate k '0' ++ ds)) 0 = Nat.ofDigitChars 10 ds 0 := by
  rw [Nat.ofDigitChars_cons, Nat.ofDigitChars_append, Nat.ofDigitChars_replicate_zero]
  simp

lemma ofDigitChars_append_zeros (ds : List Char) (k : ℕ) :
    Nat.ofDigitChars 10 (ds ++ List.replicate k '0') 0 = 10 ^ k * Nat.ofDigitChars 10 ds 0 := by
  rw [Nat.ofDigitChars_append, Nat.ofDigitChars_replicate_zero]

lemma length_digitsOf_pos (n : ℕ) : 0 < (digitsOf n).length := Nat.length_toDigits_pos

lemma noDigit_dot (cs : List Char) : NoDigit ('.' :: cs) := noDigit_cons (by decide)
lemma noDigit_e (cs : List Char) : NoDigit ('e' :: cs) := noDigit_cons (by decide)

/-- The text of every decimal has such parts. -/
lemma decimalParts (d : Decimal) : ∃ integer middle, DecimalParts d integer middle := by
  set ds := digitsOf d.digits with hds
  have hall : ∀ c ∈ ds, c.isDigit = true := isDigit_digitsOf
  have hzeros : ∀ k, ∀ c ∈ List.replicate k '0', c.isDigit = true := by
    intro k c hc
    rw [List.eq_of_mem_replicate hc]
    decide
  have hlen : 0 < ds.length := length_digitsOf_pos _
  have hval : Nat.ofDigitChars 10 ds 0 = d.digits := ofDigitChars_digitsOf _
  by_cases h0 : d.digits = 0
  · -- zero is written `0.0`
    refine ⟨['0'], ['.', '0'], ?_, Or.inl rfl, fun rest hrest => ?_⟩
    · simp [decimalText, h0]
    · refine ⟨some ['0'], none, rest, ?_, scanExponent_none hrest, Or.inl (by simp),
        noDigit_dot _, ?_⟩
      · exact scanFraction_some (by simp) (by simp) hrest.noDigit
      · simp [Decimal.value, h0, Nat.ofDigitChars_cons, Nat.ofDigitChars_nil]
  have hpart : IntegerPart ds := integerPart_digitsOf _
  have hne0 : ds ≠ ['0'] := by
    intro h
    rw [h] at hval
    simp [Nat.ofDigitChars_cons, Nat.ofDigitChars_nil] at hval
    omega
  set lead : ℤ := d.exp10 + ds.length - 1 with hlead
  by_cases hfixed : -4 ≤ lead ∧ lead < 16
  · by_cases hneg : lead < 0
    · -- `0.00ddd`
      refine ⟨['0'], '.' :: (List.replicate (-lead - 1).toNat '0' ++ ds), ?_, Or.inl rfl,
        fun rest hrest => ?_⟩
      · simp only [decimalText, h0, ↓reduceIte, ← hds, ← hlead, hfixed, hneg, and_self]
        simp
      · refine ⟨some (List.replicate (-lead - 1).toNat '0' ++ ds), none, rest, ?_,
          scanExponent_none hrest, Or.inl (by simp), noDigit_dot _, ?_⟩
        · have hdigits : ∀ c ∈ List.replicate (-lead - 1).toNat '0' ++ ds, c.isDigit = true := by
            intro c hc
            rcases List.mem_append.mp hc with h | h
            · exact hzeros _ c h
            · exact hall c h
          exact scanFraction_some (by simpa using fun _ => List.ne_nil_of_length_pos hlen) hdigits
            hrest.noDigit
        · simp only [Option.getD_some, Option.getD_none, List.cons_append, List.nil_append,
            ofDigitChars_zeros_append, hval, List.length_append, List.length_replicate,
            Decimal.value]
          congr 2
          push_cast
          omega
    · by_cases hexp : 0 ≤ d.exp10
      · -- `ddd000.0`
        refine ⟨ds ++ List.replicate d.exp10.toNat '0', ['.', '0'], ?_,
          hpart.append hne0 (hzeros _), fun rest hrest => ?_⟩
        · simp only [decimalText, h0, ↓reduceIte, ← hds, ← hlead, hfixed, hneg, hexp, and_self]
        · refine ⟨some ['0'], none, rest, ?_, scanExponent_none hrest, Or.inl (by simp),
            noDigit_dot _, ?_⟩
          · exact scanFraction_some (by simp) (by simp) hrest.noDigit
          · have hz : Nat.ofDigitChars 10 ((ds ++ List.replicate d.exp10.toNat '0') ++ ['0']) 0 =
                10 * (10 ^ d.exp10.toNat * d.digits) := by
              rw [Nat.ofDigitChars_append, ofDigitChars_append_zeros, hval]
              simp [Nat.ofDigitChars_cons, Nat.ofDigitChars_nil]
            have hpow : (10 : ℚ) ^ d.exp10 = 10 ^ d.exp10.toNat := by
              conv_lhs => rw [← Int.toNat_of_nonneg hexp]
              exact zpow_natCast _ _
            simp only [Option.getD_some, Option.getD_none, hz, Decimal.value, hpow,
              List.length_singleton]
            push_cast
            rw [zpow_neg_one]
            ring
      · -- `ddd.ddd`
        have hk : (lead + 1).toNat < ds.length := by omega
        have hk0 : 0 < (lead + 1).toNat := by omega
        refine ⟨ds.take (lead + 1).toNat, '.' :: ds.drop (lead + 1).toNat, ?_, ?_,
          fun rest hrest => ?_⟩
        · simp only [decimalText, h0, ↓reduceIte, ← hds, ← hlead, hfixed, hneg, hexp, and_self]
          simp
        · rcases hpart with h | ⟨-, c, t, heq, hc⟩
          · exact absurd h hne0
          · refine Or.inr ⟨fun c hc => hall c (List.mem_of_mem_take hc), c,
              t.take ((lead + 1).toNat - 1), ?_, hc⟩
            rw [heq, List.take_cons hk0]
        · refine ⟨some (ds.drop (lead + 1).toNat), none, rest, ?_, scanExponent_none hrest,
            Or.inl (by simp), noDigit_dot _, ?_⟩
          · exact scanFraction_some (by simp [List.drop_eq_nil_iff]; omega)
              (fun c hc => hall c (List.mem_of_mem_drop hc)) hrest.noDigit
          · simp only [Option.getD_some, Option.getD_none, List.take_append_drop, hval,
              List.length_drop, Decimal.value]
            congr 2
            rw [Nat.cast_sub hk.le]
            omega
  · -- `d.ddde±XX`
    set exponent := digitsOf lead.natAbs with hexponent
    set padded := if exponent.length < 2 then '0' :: exponent else exponent with hpadded
    have hpad : (∀ c ∈ padded, c.isDigit = true) ∧ padded ≠ [] ∧
        Nat.ofDigitChars 10 padded 0 = lead.natAbs := by
      have he : ∀ c ∈ exponent, c.isDigit = true := isDigit_digitsOf
      have hv : Nat.ofDigitChars 10 exponent 0 = lead.natAbs := ofDigitChars_digitsOf _
      rw [hpadded]
      split_ifs
      · refine ⟨?_, by simp, ?_⟩
        · intro c hc
          rcases List.mem_cons.mp hc with rfl | h
          · decide
          · exact he c h
        · rw [Nat.ofDigitChars_cons]
          simpa using hv
      · exact ⟨he, List.ne_nil_of_length_pos (length_digitsOf_pos _), hv⟩
    have hexpval : (if (decide (lead < 0) : Bool) = true then
        -(Nat.ofDigitChars 10 padded 0 : ℤ) else Nat.ofDigitChars 10 padded 0) = lead := by
      rw [hpad.2.2]
      by_cases h : lead < 0
      · simp only [h, decide_true, ↓reduceIte]
        omega
      · simp only [h, decide_false, Bool.false_eq_true, ↓reduceIte]
        omega
    have htext : decimalText d = ds.take 1 ++ ((if ds.length = 1 then [] else '.' :: ds.drop 1) ++
        ('e' :: (if (decide (lead < 0) : Bool) = true then '-' else '+') :: padded)) := by
      simp only [decimalText, h0, ↓reduceIte, ← hds, ← hlead, hfixed, ← hexponent, ← hpadded]
      simp
    have htake : IntegerPart (ds.take 1) := by
      rcases hpart with h | ⟨-, c, t, heq, hc⟩
      · exact absurd h hne0
      · exact Or.inr ⟨fun c hc => hall c (List.mem_of_mem_take hc), c, [], by rw [heq]; rfl, hc⟩
    refine ⟨ds.take 1, _, htext, htake, fun rest hrest => ?_⟩
    have hexp := scanExponent_some (decide (lead < 0)) hpad.2.1 hpad.1 hrest.noDigit
    rw [hexpval] at hexp
    by_cases h1 : ds.length = 1
    · refine ⟨none, some lead, 'e' :: (if (decide (lead < 0) : Bool) = true then '-' else '+') ::
        (padded ++ rest), ?_, hexp, Or.inr (by simp), ?_, ?_⟩
      · simp [h1, scanFraction]
      · simpa [h1] using noDigit_e _
      · have htake1 : ds.take 1 = ds := List.take_of_length_le (by omega)
        simp only [htake1, Option.getD_none, List.append_nil, hval, Option.getD_some,
          List.length_nil, Decimal.value]
        congr 2
        omega
    · have hdrop : ds.drop 1 ≠ [] := by
        rw [ne_eq, List.drop_eq_nil_iff]
        omega
      refine ⟨some (ds.drop 1), some lead,
        'e' :: (if (decide (lead < 0) : Bool) = true then '-' else '+') :: (padded ++ rest), ?_, hexp,
        Or.inl (by simp), ?_, ?_⟩
      · have := scanFraction_some hdrop (fun c hc => hall c (List.mem_of_mem_drop hc))
          (noDigit_e ((if (decide (lead < 0) : Bool) = true then '-' else '+') :: (padded ++ rest)))
        simpa [h1] using this
      · simpa [h1] using noDigit_dot _
      · simp only [Option.getD_some, List.take_append_drop, hval, List.length_drop, Decimal.value]
        congr 2
        rw [Nat.cast_sub hlen]
        push_cast
        omega

/-- A finite float's literal is read back. -/
lemma scanNumber_double (mode : LoadMode) (x : Double) {rest : List Char} (h : NumberStop rest) :
    scanNumber mode x.neg (decimalText x.shortest ++ rest) = some (.float (.finite x), rest) := by
  obtain ⟨integer, middle, htext, hint, hscan⟩ := decimalParts x.shortest
  obtain ⟨fraction, exponent, tail, hf, he, hsome, hnd, hval⟩ := hscan rest h
  obtain ⟨d, hd, hstrict, hloose⟩ := scanNumber_parts mode x.neg hint hnd hf he hsome
  have hx : floatOf x.neg d = .finite x := by
    unfold floatOf
    rw [x.ofDecimal_shortest d (hd.trans hval)]
  rw [hx] at hstrict hloose
  rw [htext, List.append_assoc]
  cases hmode : mode.strict with
  | true => exact hstrict hmode rfl
  | false => exact hloose hmode

/-! ## Values -/

/-- The head of a text is a character that opens a value. -/
def OpensValue (cs : List Char) : Prop :=
  ∃ c rest, cs = c :: rest ∧ isJsonSpace c = false ∧ c ≠ ']' ∧ c ≠ '\x7d'

lemma opensValue_digit {c : Char} (h : c.isDigit = true) (cs : List Char) :
    OpensValue (c :: cs) := by
  refine ⟨c, cs, rfl, ?_, ?_, ?_⟩
  · by_contra hs
    simp only [isJsonSpace, Bool.not_eq_false, Bool.or_eq_true, decide_eq_true_eq] at hs
    rcases hs with ((rfl | rfl) | rfl) | rfl <;> exact absurd h (by decide)
  · rintro rfl
    exact absurd h (by decide)
  · rintro rfl
    exact absurd h (by decide)

lemma IntegerPart.head {ds : List Char} (h : IntegerPart ds) :
    ∃ c rest, ds = c :: rest ∧ c.isDigit = true := by
  rcases h with rfl | ⟨hall, d, t, rfl, -⟩
  · exact ⟨'0', [], rfl, by decide⟩
  · exact ⟨d, t, rfl, hall d List.mem_cons_self⟩

lemma digitsOf_digit (n : ℕ) : ∃ c rest, digitsOf n = c :: rest ∧ c.isDigit = true :=
  (integerPart_digitsOf n).head

lemma decimalText_digit (d : Decimal) :
    ∃ c rest, decimalText d = c :: rest ∧ c.isDigit = true := by
  obtain ⟨integer, middle, h⟩ := decimalParts d
  obtain ⟨c, rest, heq, hc⟩ := h.integerPart.head
  exact ⟨c, rest ++ middle, by rw [h.text, heq, List.cons_append], hc⟩

/-- The text of a finite value opens a value. -/
lemma opensValue_jsonText {v : Json} (h : v.isFinite = true) : OpensValue (jsonText v) := by
  cases v with
  | null => exact ⟨'n', _, rfl, by decide, by decide, by decide⟩
  | bool b =>
      cases b with
      | false => exact ⟨'f', _, rfl, by decide, by decide, by decide⟩
      | true => exact ⟨'t', _, rfl, by decide, by decide, by decide⟩
  | int n =>
      obtain ⟨c, rest, heq, hc⟩ := digitsOf_digit n.natAbs
      show OpensValue (intText n)
      unfold intText
      split_ifs
      · exact ⟨'-', _, rfl, by decide, by decide, by decide⟩
      · rw [heq]
        exact opensValue_digit hc rest
  | float x =>
      cases x with
      | finite x =>
          obtain ⟨c, rest, heq, hc⟩ := decimalText_digit x.shortest
          show OpensValue (floatRepr (.finite x)).toList
          unfold floatRepr
          rw [String.toList_ofList]
          split_ifs
          · exact ⟨'-', _, rfl, by decide, by decide, by decide⟩
          · rw [heq]
            exact opensValue_digit hc rest
      | inf neg => exact absurd h (by simp [Json.isFinite, PyFloat.isFinite])
      | nan => exact absurd h (by simp [Json.isFinite, PyFloat.isFinite])
  | str s => exact ⟨'\"', _, rfl, by decide, by decide, by decide⟩
  | arr items => exact ⟨'[', _, rfl, by decide, by decide, by decide⟩
  | obj entries => exact ⟨'\x7b', _, rfl, by decide, by decide, by decide⟩

lemma OpensValue.length_pos {cs : List Char} (h : OpensValue cs) : 0 < cs.length := by
  obtain ⟨c, rest, rfl, -⟩ := h
  exact Nat.succ_pos _

lemma OpensValue.append {cs : List Char} (h : OpensValue cs) (rest : List Char) :
    OpensValue (cs ++ rest) := by
  obtain ⟨c, tail, rfl, hc⟩ := h
  exact ⟨c, tail ++ rest, rfl, hc⟩

lemma OpensValue.skipSpace {cs : List Char} (h : OpensValue cs) : skipSpace cs = cs := by
  obtain ⟨c, tail, rfl, hc, -⟩ := h
  exact List.dropWhile_cons_of_neg (by simp [hc])

lemma skipSpace_cons {c : Char} (h : isJsonSpace c = false) (cs : List Char) :
    skipSpace (c :: cs) = c :: cs :=
  List.dropWhile_cons_of_neg (by simp [h])

lemma skipSpace_comma (cs : List Char) : skipSpace (',' :: cs) = ',' :: cs :=
  skipSpace_cons (by decide) cs

lemma skipSpace_bracket (cs : List Char) : skipSpace (']' :: cs) = ']' :: cs :=
  skipSpace_cons (by decide) cs

lemma skipSpace_brace (cs : List Char) : skipSpace ('\x7d' :: cs) = '\x7d' :: cs :=
  skipSpace_cons (by decide) cs

lemma skipSpace_colon (cs : List Char) : skipSpace (':' :: cs) = ':' :: cs :=
  skipSpace_cons (by decide) cs

lemma skipSpace_quote (cs : List Char) : skipSpace ('\"' :: cs) = '\"' :: cs :=
  skipSpace_cons (by decide) cs

lemma numberStop_cons {c : Char} (h : c.isDigit = false ∧ c ≠ '.' ∧ c ≠ 'e' ∧ c ≠ 'E')
    (cs : List Char) : NumberStop (c :: cs) := by
  intro d hd
  rw [List.head?_cons, Option.mem_some_iff] at hd
  exact hd ▸ h

lemma numberStop_nil : NumberStop [] := by
  intro c hc
  simp at hc

lemma numberStop_comma (cs : List Char) : NumberStop (',' :: cs) :=
  numberStop_cons (by decide) cs

lemma numberStop_bracket (cs : List Char) : NumberStop (']' :: cs) :=
  numberStop_cons (by decide) cs

lemma numberStop_brace (cs : List Char) : NumberStop ('\x7d' :: cs) :=
  numberStop_cons (by decide) cs

/-- A digit opens a number. -/
lemma scanValue_digit (mode : LoadMode) (fuel : ℕ) {c : Char} (hc : c.isDigit = true)
    (cs : List Char) : scanValue mode (fuel + 1) (c :: cs) = scanNumber mode false (c :: cs) := by
  unfold scanValue
  split
  all_goals first
    | rfl
    | (rename_i heq
       rw [List.cons.injEq] at heq
       rw [heq.1] at hc
       exact absurd hc (by decide))

/-- A minus before a digit opens a negative number. -/
lemma scanValue_minus (mode : LoadMode) (fuel : ℕ) {c : Char} (hc : c.isDigit = true)
    (cs : List Char) :
    scanValue mode (fuel + 1) ('-' :: c :: cs) = scanNumber mode true (c :: cs) := by
  unfold scanValue
  split
  all_goals first
    | (rename_i heq
       simp only [List.cons.injEq] at heq
       exact absurd heq.1 (by decide))
    | skip
  · rename_i heq
    simp only [List.cons.injEq] at heq
    rw [heq.2.1] at hc
    exact absurd hc (by decide)
  · rename_i heq
    rw [List.cons.injEq] at heq
    rw [← heq.2]
  · rename_i hne
    exact absurd rfl (hne (c :: cs))

lemma scanValue_int (mode : LoadMode) (fuel : ℕ) (n : ℤ) {rest : List Char} (h : NumberStop rest) :
    scanValue mode (fuel + 1) (intText n ++ rest) = some (.int n, rest) := by
  obtain ⟨c, t, heq, hc⟩ := digitsOf_digit n.natAbs
  unfold intText
  split_ifs with hn
  · rw [List.cons_append, heq, List.cons_append, scanValue_minus mode fuel hc, ← List.cons_append,
      ← heq, scanNumber_int mode true _ h]
    simp only [↓reduceIte]
    rw [show -(n.natAbs : ℤ) = n by omega]
  · rw [heq, List.cons_append, scanValue_digit mode fuel hc, ← List.cons_append, ← heq,
      scanNumber_int mode false _ h]
    simp only [Bool.false_eq_true, ↓reduceIte]
    rw [show (n.natAbs : ℤ) = n by omega]

lemma scanValue_double (mode : LoadMode) (fuel : ℕ) (x : Double) {rest : List Char}
    (h : NumberStop rest) :
    scanValue mode (fuel + 1) (floatText (.finite x) ++ rest) =
      some (.float (.finite x), rest) := by
  obtain ⟨c, t, heq, hc⟩ := decimalText_digit x.shortest
  have hscan := scanNumber_double mode x h
  show scanValue mode (fuel + 1) ((floatRepr (.finite x)).toList ++ rest) = _
  unfold floatRepr
  rw [String.toList_ofList]
  cases hneg : x.neg with
  | true =>
      rw [hneg, heq] at hscan
      simp only [↓reduceIte, heq, List.cons_append, List.nil_append]
      rw [scanValue_minus mode fuel hc]
      exact hscan
  | false =>
      rw [hneg, heq] at hscan
      simp only [Bool.false_eq_true, ↓reduceIte, List.nil_append, heq, List.cons_append]
      rw [scanValue_digit mode fuel hc]
      exact hscan

namespace Dict

lemma set_append {d : Dict} {key : String} (value : Json) (h : ∀ e ∈ d, e.1 < key) :
    d.set key value = d ++ [(key, value)] := by
  induction d with
  | nil => rfl
  | cons e rest ih =>
      obtain ⟨k, v⟩ := e
      have hk : k < key := h (k, v) List.mem_cons_self
      have hrest := ih fun e he => h e (List.mem_cons_of_mem _ he)
      simp only [set, hk.ne, not_lt_of_gt hk, ↓reduceIte, hrest, List.cons_append]

/-- Items in key order are the dictionary that they build. -/
theorem ofList_of_ordered {d : Dict} (h : d.Ordered) : ofList d = d := by
  have hrun : ∀ (entries acc : Dict), Ordered (acc ++ entries) →
      entries.foldl (fun d e => d.set e.1 e.2) acc = acc ++ entries := by
    intro entries
    induction entries with
    | nil =>
        intro acc _
        rw [List.foldl_nil, List.append_nil]
    | cons e rest ih =>
        intro acc hord
        have hlt : ∀ a ∈ acc, a.1 < e.1 := fun a ha =>
          (List.pairwise_append.mp hord).2.2 a ha e List.mem_cons_self
        have hassoc : acc ++ e :: rest = (acc ++ [(e.1, e.2)]) ++ rest := by simp
        rw [List.foldl_cons, set_append _ hlt, hassoc]
        rw [hassoc] at hord
        exact ih _ hord
  exact hrun d [] h

lemma Ordered.nodup_keys {d : Dict} (h : d.Ordered) : (d.map Prod.fst).Nodup := by
  rw [List.Nodup, List.pairwise_map]
  exact List.Pairwise.imp (fun hlt => ne_of_lt hlt) h

end Dict

lemma dictOfPairs_of_ordered (mode : LoadMode) {d : Dict} (h : d.Ordered) :
    dictOfPairs mode d = some d := by
  unfold dictOfPairs
  rw [if_neg (fun hdup => hdup.2 h.nodup_keys), Dict.ofList_of_ordered h]

/-- Joined pieces: the first, and what a comma brings. -/
lemma commaJoin_cons (x : List Char) (xs : List (List Char)) :
    commaJoin (x :: xs) = x ++ (match xs with | [] => [] | _ => ',' :: commaJoin xs) := by
  cases xs with
  | nil => simp [commaJoin]
  | cons y ys => rfl

mutual

/-- **Atoms and containers.**  The text of a value is read as the value, whatever stops it. -/
theorem scanValue_jsonText (mode : LoadMode) : ∀ (v : Json) (fuel : ℕ) (rest : List Char),
    v.WF → v.isFinite = true → NumberStop rest → (jsonText v).length ≤ fuel →
      scanValue mode fuel (jsonText v ++ rest) = some (v, rest)
  | v, 0, rest, _, hfin, _, hlen => by
      have := (opensValue_jsonText hfin).length_pos
      omega
  | .null, fuel + 1, rest, _, _, _, _ => rfl
  | .bool false, fuel + 1, rest, _, _, _, _ => rfl
  | .bool true, fuel + 1, rest, _, _, _, _ => rfl
  | .int n, fuel + 1, rest, _, _, hstop, _ => scanValue_int mode fuel n hstop
  | .float (.finite x), fuel + 1, rest, _, _, hstop, _ => scanValue_double mode fuel x hstop
  | .float (.inf neg), fuel + 1, rest, _, hfin, _, _ => by
      exact absurd hfin (by simp [Json.isFinite, PyFloat.isFinite])
  | .float .nan, fuel + 1, rest, _, hfin, _, _ => by
      exact absurd hfin (by simp [Json.isFinite, PyFloat.isFinite])
  | .str s, fuel + 1, rest, _, _, _, _ => by
      show (scanString ((s.toList.flatMap escapeChar ++ ['\"']) ++ rest)).bind _ = _
      rw [scanString_stringText]
      simp
  | .arr [], fuel + 1, rest, _, _, _, _ => rfl
  | .arr (x :: xs), fuel + 1, rest, hwf, hfin, _, hlen => by
      have hopen : OpensValue (commaJoin (itemTexts (x :: xs)) ++ (']' :: rest)) := by
        have hx : x.isFinite = true := (Bool.and_eq_true_iff.mp hfin).1
        rw [itemTexts, commaJoin_cons, List.append_assoc]
        exact (opensValue_jsonText hx).append _
      have hitems := scanItems_itemTexts mode x xs fuel rest hwf hfin (by
        simp only [jsonText, List.length_cons, List.length_append, List.length_nil] at hlen
        omega)
      have htext : jsonText (.arr (x :: xs)) ++ rest =
          '[' :: (commaJoin (itemTexts (x :: xs)) ++ (']' :: rest)) := by
        simp [jsonText]
      rw [htext]
      obtain ⟨c, tail, heq, hspace, hne, -⟩ := hopen
      rw [heq] at hitems ⊢
      unfold scanValue
      simp only [skipSpace_cons hspace]
      split
      · rename_i h
        rw [List.cons.injEq] at h
        exact absurd h.1 hne
      · rw [hitems]
        rfl
  | .obj [], fuel + 1, rest, _, _, _, _ => rfl
  | .obj ((k, x) :: xs), fuel + 1, rest, hwf, hfin, _, hlen => by
      have hord : Dict.Ordered ((k, x) :: xs) := (Json.wf_obj.mp hwf).1
      have hpairs := scanPairs_entryTexts mode k x xs fuel rest hwf.2 hfin (by
        simp only [jsonText, List.length_cons, List.length_append, List.length_nil] at hlen
        omega)
      have htext : jsonText (.obj ((k, x) :: xs)) ++ rest =
          '\x7b' :: (commaJoin (entryTexts ((k, x) :: xs)) ++ ('\x7d' :: rest)) := by
        simp [jsonText]
      obtain ⟨tail, heq⟩ : ∃ tail, commaJoin (entryTexts ((k, x) :: xs)) ++ ('\x7d' :: rest) =
          '\"' :: tail := by
        rw [entryTexts, commaJoin_cons]
        exact ⟨_, rfl⟩
      rw [htext]
      rw [heq] at hpairs ⊢
      unfold scanValue
      simp only [skipSpace_quote]
      split
      · rename_i h
        rw [List.cons.injEq] at h
        exact absurd h.1 (by decide)
      · rw [hpairs]
        simp only [Option.bind_eq_bind, Option.bind_some, dictOfPairs_of_ordered mode hord]
        rfl

theorem scanItems_itemTexts (mode : LoadMode) : ∀ (x : Json) (xs : List Json) (fuel : ℕ)
    (rest : List Char), Json.ItemsWF (x :: xs) → Json.itemsFinite (x :: xs) = true →
    (commaJoin (itemTexts (x :: xs))).length + 1 ≤ fuel →
      scanItems mode fuel (commaJoin (itemTexts (x :: xs)) ++ (']' :: rest)) =
        some (x :: xs, rest)
  | _, _, 0, _, _, _, hlen => by omega
  | x, [], fuel + 1, rest, hwf, hfin, hlen => by
      have hx : x.isFinite = true := (Bool.and_eq_true_iff.mp hfin).1
      simp only [itemTexts, commaJoin] at hlen ⊢
      unfold scanItems
      rw [scanValue_jsonText mode x fuel _ hwf.1 hx (numberStop_bracket rest) (by omega)]
      simp only [Option.bind_eq_bind, Option.bind_some, skipSpace_bracket]
      rfl
  | x, y :: ys, fuel + 1, rest, hwf, hfin, hlen => by
      have hx : x.isFinite = true := (Bool.and_eq_true_iff.mp hfin).1
      have hys : Json.itemsFinite (y :: ys) = true := (Bool.and_eq_true_iff.mp hfin).2
      have hy : y.isFinite = true := (Bool.and_eq_true_iff.mp hys).1
      have hpos := (opensValue_jsonText hx).length_pos
      have htext : commaJoin (itemTexts (x :: y :: ys)) ++ (']' :: rest) =
          jsonText x ++ (',' :: (commaJoin (itemTexts (y :: ys)) ++ (']' :: rest))) := by
        simp [itemTexts, commaJoin]
      have hlen' : (jsonText x).length + 1 + (commaJoin (itemTexts (y :: ys))).length =
          (commaJoin (itemTexts (x :: y :: ys))).length := by
        simp only [itemTexts, commaJoin, List.length_append, List.length_cons]
        omega
      have hopen : OpensValue (commaJoin (itemTexts (y :: ys)) ++ (']' :: rest)) := by
        rw [itemTexts, commaJoin_cons, List.append_assoc]
        exact (opensValue_jsonText hy).append _
      rw [htext]
      unfold scanItems
      rw [scanValue_jsonText mode x fuel _ hwf.1 hx (numberStop_comma _) (by omega)]
      simp only [Option.bind_eq_bind, Option.bind_some, skipSpace_comma, hopen.skipSpace]
      rw [scanItems_itemTexts mode y ys fuel rest hwf.2 hys (by omega)]
      rfl

theorem scanPairs_entryTexts (mode : LoadMode) : ∀ (k : String) (x : Json)
    (xs : List (String × Json)) (fuel : ℕ) (rest : List Char), Json.EntriesWF ((k, x) :: xs) →
    Json.entriesFinite ((k, x) :: xs) = true →
    (commaJoin (entryTexts ((k, x) :: xs))).length + 1 ≤ fuel →
      scanPairs mode fuel (commaJoin (entryTexts ((k, x) :: xs)) ++ ('\x7d' :: rest)) =
        some ((k, x) :: xs, rest)
  | _, _, _, 0, _, _, _, hlen => by omega
  | k, x, [], fuel + 1, rest, hwf, hfin, hlen => by
      have hx : x.isFinite = true := (Bool.and_eq_true_iff.mp hfin).1
      have htext : commaJoin (entryTexts [(k, x)]) ++ ('\x7d' :: rest) =
          '\"' :: ((k.toList.flatMap escapeChar ++ ['\"']) ++
            (':' :: (jsonText x ++ ('\x7d' :: rest)))) := by
        simp [entryTexts, commaJoin, stringText]
      have hlen' : (jsonText x).length + 1 ≤ (commaJoin (entryTexts [(k, x)])).length := by
        simp only [entryTexts, commaJoin, List.length_append, List.length_cons]
        omega
      rw [htext]
      unfold scanPairs
      simp only [scanString_stringText, Option.bind_eq_bind, Option.bind_some, skipSpace_colon,
        ((opensValue_jsonText hx).append _).skipSpace]
      rw [scanValue_jsonText mode x fuel _ hwf.1 hx (numberStop_brace rest) (by omega)]
      simp only [Option.bind_some, skipSpace_brace, String.ofList_toList]
      rfl
  | k, x, (k', y) :: ys, fuel + 1, rest, hwf, hfin, hlen => by
      have hx : x.isFinite = true := (Bool.and_eq_true_iff.mp hfin).1
      have hys : Json.entriesFinite ((k', y) :: ys) = true := (Bool.and_eq_true_iff.mp hfin).2
      have htext : commaJoin (entryTexts ((k, x) :: (k', y) :: ys)) ++ ('\x7d' :: rest) =
          '\"' :: ((k.toList.flatMap escapeChar ++ ['\"']) ++ (':' :: (jsonText x ++
            (',' :: (commaJoin (entryTexts ((k', y) :: ys)) ++ ('\x7d' :: rest)))))) := by
        simp [entryTexts, commaJoin, stringText]
      have hlen' : (jsonText x).length + 2 + (commaJoin (entryTexts ((k', y) :: ys))).length ≤
          (commaJoin (entryTexts ((k, x) :: (k', y) :: ys))).length := by
        simp only [entryTexts, commaJoin, List.length_append, List.length_cons]
        omega
      obtain ⟨tail, heq⟩ : ∃ tail, commaJoin (entryTexts ((k', y) :: ys)) ++ ('\x7d' :: rest) =
          '\"' :: tail := by
        rw [entryTexts, commaJoin_cons]
        exact ⟨_, rfl⟩
      have ih := scanPairs_entryTexts mode k' y ys fuel rest hwf.2 hys (by omega)
      rw [htext]
      unfold scanPairs
      simp only [scanString_stringText, Option.bind_eq_bind, Option.bind_some, skipSpace_colon,
        ((opensValue_jsonText hx).append _).skipSpace]
      rw [scanValue_jsonText mode x fuel _ hwf.1 hx (numberStop_comma _) (by omega)]
      simp only [Option.bind_some, skipSpace_comma, String.ofList_toList]
      rw [heq, skipSpace_quote, ← heq, ih]
      rfl

end

/-! ## Whole texts -/

lemma dumps_eq_ok {v : Json} {text : String} :
    dumps v = .ok text ↔ v.isFinite = true ∧ text = String.ofList (jsonText v) := by
  simp only [dumps, bind_eq_ok, exists_unit, require_eq_ok, Except.ok.injEq]
  exact and_congr_right fun _ => eq_comm

/-- **A value is read back from its text.** -/
theorem loads_dumps (mode : LoadMode) {v : Json} {text : String} (hwf : v.WF)
    (h : dumps v = .ok text) : loads mode text = .ok v := by
  obtain ⟨hfin, rfl⟩ := dumps_eq_ok.mp h
  have hscan := scanValue_jsonText mode v ((jsonText v).length + 1) [] hwf hfin numberStop_nil
    (Nat.le_succ _)
  rw [List.append_nil] at hscan
  unfold loads parseText
  rw [String.toList_ofList, (opensValue_jsonText hfin).skipSpace, hscan]
  rfl

/-- **The text determines the value.** -/
theorem dumps_injective {v w : Json} {text : String} (hv : v.WF) (hw : w.WF)
    (h : dumps v = .ok text) (h' : dumps w = .ok text) : v = w := by
  have hread := loads_dumps ⟨false⟩ hv h
  rw [loads_dumps ⟨false⟩ hw h'] at hread
  exact (Except.ok.inj hread).symm

/-! ## What is read -/

/-- A property that every value read has: it passes from the parts to the whole, and no number but
the ones the mode admits can break it. -/
structure ReadClosed (mode : LoadMode) (P : Json → Prop) : Prop where
  null : P .null
  bool : ∀ b, P (.bool b)
  int : ∀ n, P (.int n)
  float : ∀ x, (mode.strict = true → x.isFinite = true) → P (.float x)
  str : ∀ s, P (.str s)
  arr : ∀ xs, (∀ x ∈ xs, P x) → P (.arr xs)
  obj : ∀ pairs : List (String × Json), (∀ e ∈ pairs, P e.2) → P (.obj (Dict.ofList pairs))

/-- What a scan returns has the property. -/
structure ScanAll (mode : LoadMode) (P : Json → Prop) (fuel : ℕ) : Prop where
  value : ∀ cs v rest, scanValue mode fuel cs = some (v, rest) → P v
  items : ∀ cs xs rest, scanItems mode fuel cs = some (xs, rest) → ∀ x ∈ xs, P x
  pairs : ∀ cs ps rest, scanPairs mode fuel cs = some (ps, rest) → ∀ e ∈ ps, P e.2

lemma ReadClosed.scanNumber {mode : LoadMode} {P : Json → Prop} (hP : ReadClosed mode P)
    {neg : Bool} {cs rest : List Char} {v : Json}
    (h : scanNumber mode neg cs = some (v, rest)) : P v := by
  simp only [Py.scanNumber, Option.bind_eq_bind, Option.bind_eq_some_iff] at h
  obtain ⟨p, -, h⟩ := h
  split at h
  · simp only [Option.pure_def, Option.some.injEq, Prod.mk.injEq] at h
    rw [← h.1]
    exact hP.int _
  · split_ifs at h with hnone
    simp only [Option.pure_def, Option.some.injEq, Prod.mk.injEq] at h
    rw [← h.1]
    exact hP.float _ fun hstrict => Bool.of_not_eq_false fun hinfinite => hnone ⟨hstrict, hinfinite⟩

lemma ReadClosed.dictOfPairs {mode : LoadMode} {P : Json → Prop} (hP : ReadClosed mode P)
    {pairs : List (String × Json)} {d : Dict} (h : dictOfPairs mode pairs = some d)
    (hpairs : ∀ e ∈ pairs, P e.2) : P (.obj d) := by
  unfold Py.dictOfPairs at h
  split_ifs at h
  obtain rfl := Option.some.inj h
  exact hP.obj pairs hpairs

lemma scan_all {mode : LoadMode} {P : Json → Prop} (hP : ReadClosed mode P) (fuel : ℕ) :
    ScanAll mode P fuel := by
  induction fuel with
  | zero =>
      exact ⟨fun cs v rest h => by simp [scanValue] at h, fun cs xs rest h => by simp [scanItems] at h,
        fun cs ps rest h => by simp [scanPairs] at h⟩
  | succ fuel ih =>
      refine ⟨fun cs v rest h => ?_, fun cs xs rest h => ?_, fun cs ps rest h => ?_⟩
      · unfold scanValue at h
        split at h
        · simp only [Option.bind_eq_bind, Option.bind_eq_some_iff, Option.pure_def,
            Option.some.injEq, Prod.mk.injEq] at h
          obtain ⟨p, -, rfl, -⟩ := h
          exact hP.str _
        · split at h
          · simp only [Option.some.injEq, Prod.mk.injEq] at h
            rw [← h.1]
            exact hP.arr [] (by simp)
          · simp only [Option.bind_eq_bind, Option.bind_eq_some_iff, Option.pure_def,
              Option.some.injEq, Prod.mk.injEq] at h
            obtain ⟨p, hp, rfl, -⟩ := h
            exact hP.arr _ (ih.items _ _ _ hp)
        · split at h
          · simp only [Option.some.injEq, Prod.mk.injEq] at h
            rw [← h.1]
            exact hP.obj [] (by simp)
          · simp only [Option.bind_eq_bind, Option.bind_eq_some_iff, Option.pure_def,
              Option.some.injEq, Prod.mk.injEq] at h
            obtain ⟨p, hp, d, hd, rfl, -⟩ := h
            exact hP.dictOfPairs hd (ih.pairs _ _ _ hp)
        · simp only [Option.some.injEq, Prod.mk.injEq] at h
          exact h.1 ▸ hP.null
        · simp only [Option.some.injEq, Prod.mk.injEq] at h
          exact h.1 ▸ hP.bool true
        · simp only [Option.some.injEq, Prod.mk.injEq] at h
          exact h.1 ▸ hP.bool false
        -- the three names of numbers that are not finite, and the numbers
        all_goals first
          | exact hP.scanNumber h
          | (split_ifs at h with hstrict
             simp only [Option.some.injEq, Prod.mk.injEq] at h
             exact h.1 ▸ hP.float _ fun hmode => absurd hmode hstrict)
      · unfold scanItems at h
        simp only [Option.bind_eq_bind, Option.bind_eq_some_iff] at h
        obtain ⟨p, hp, h⟩ := h
        have hvalue := ih.value _ _ _ hp
        split at h
        · simp only [Option.pure_def, Option.some.injEq, Prod.mk.injEq] at h
          rw [← h.1]
          simpa using hvalue
        · simp only [Option.bind_eq_some_iff, Option.pure_def, Option.some.injEq,
            Prod.mk.injEq] at h
          obtain ⟨q, hq, rfl, -⟩ := h
          exact List.forall_mem_cons.mpr ⟨hvalue, ih.items _ _ _ hq⟩
        · simp at h
      · unfold scanPairs at h
        split at h
        · simp only [Option.bind_eq_bind, Option.bind_eq_some_iff] at h
          obtain ⟨k, -, h⟩ := h
          split at h
          · simp only [Option.bind_eq_some_iff] at h
            obtain ⟨p, hp, h⟩ := h
            have hvalue := ih.value _ _ _ hp
            split at h
            · simp only [Option.pure_def, Option.some.injEq, Prod.mk.injEq] at h
              rw [← h.1]
              simpa using hvalue
            · simp only [Option.bind_eq_some_iff, Option.pure_def, Option.some.injEq,
                Prod.mk.injEq] at h
              obtain ⟨q, hq, rfl, -⟩ := h
              exact List.forall_mem_cons.mpr ⟨hvalue, ih.pairs _ _ _ hq⟩
            · simp at h
          · simp at h
        · simp at h

/-- **Whatever passes from the parts to the whole** holds of what is read. -/
theorem ReadClosed.parseText {mode : LoadMode} {P : Json → Prop} (hP : ReadClosed mode P)
    {cs : List Char} {v : Json} (h : parseText mode cs = some v) : P v := by
  unfold Py.parseText at h
  split at h
  · rename_i w rest hscan
    split_ifs at h
    obtain rfl := Option.some.inj h
    exact (scan_all hP _).value _ _ _ hscan
  · simp at h

/-- **What is read is well formed.** -/
theorem parseText_wf {mode : LoadMode} {cs : List Char} {v : Json}
    (h : parseText mode cs = some v) : v.WF := by
  refine ReadClosed.parseText (P := Json.WF) ?_ h
  refine ⟨trivial, fun _ => trivial, fun _ => trivial, fun _ _ => trivial, Json.wf_str,
    fun _ => Json.wf_arr.mpr, fun _ hpairs => Json.wf_ofList hpairs⟩

end Py

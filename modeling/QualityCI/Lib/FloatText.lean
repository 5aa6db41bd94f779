import Mathlib
import QualityCI.Lib.HexNumeral

/-!
# Text to float, and integers among the doubles

`float(text)` reads a decimal numeral and rounds it to the nearest double.  An integer that is no
double is changed on the way.

* `parseFloat` — what `float(text)` reads: blanks around, a sign, underscores between digits, the
  decimal digits of every script, `inf` and `nan`.
* `integerOrFloat` — a float, as an integer where it is one.
* `IntegerLiteral` — a sign and digits, and the integer they denote.
* `Representable` — the integers that are doubles.
* **`roundDouble_eq_none_iff`** — what is beyond the finite range.
* **`roundDouble_natCast`** — an integer rounds to an integer, and to itself exactly when it is
  representable.
* `parseFloat_literal` — the double that a literal reads as.
-/

namespace Py

/-! ## Reading -/

/-- The text without its underscores, each of which must stand between two digits; the last
character read comes along. -/
def dropUnderscores : Char → List Char → Option (List Char)
  | last, [] => if last = '_' then none else some []
  | last, c :: rest =>
      if c = '_' then
        if last.isDigit then dropUnderscores '_' rest else none
      else if last = '_' ∧ c.isDigit = false then none
      else (dropUnderscores c rest).map (c :: ·)

/-- A decimal numeral after its sign: digits, a fraction and an exponent, some digit in it. -/
def parseDecimal (neg : Bool) (cs : List Char) : Option PyFloat :=
  let (whole, cs) := scanDigits cs
  let (fraction, cs) := match cs with
    | '.' :: rest => scanDigits rest
    | rest => ([], rest)
  let (exponent, cs) := scanExponent cs
  if whole ++ fraction = [] ∨ cs ≠ [] then none
  else some (floatOf neg ⟨Nat.ofDigitChars 10 (whole ++ fraction) 0,
    exponent.getD 0 - fraction.length⟩)

/-- What may follow the sign: an infinity, the not-a-number or a numeral. -/
def parseMagnitude (neg : Bool) (cs : List Char) : Option PyFloat :=
  let word := String.ofList (cs.map lowerAscii)
  if word = "inf" ∨ word = "infinity" then some (.inf neg)
  else if word = "nan" then some .nan
  else parseDecimal neg cs

/-- A number with its sign. -/
def parseSigned : List Char → Option PyFloat
  | '-' :: rest => parseMagnitude true rest
  | '+' :: rest => parseMagnitude false rest
  | cs => parseMagnitude false cs

/-- `float(text)`, `none` where it raises `ValueError`. -/
def parseFloat (text : String) : Option PyFloat := do
  let cs := (asciiForm text.toList).dropWhile isAsciiSpace
  let cs := (cs.reverse.dropWhile isAsciiSpace).reverse
  let cs ← dropUnderscores (Char.ofNat 0) cs
  parseSigned cs

/-- `int(x) if x.is_integer() else x` of a finite float. -/
def integerOrFloat (x : Double) : Json :=
  if x.value.den = 1 then .int x.value.num else .float (.finite x)

lemma integerOrFloat_of_value {x : Double} {z : ℤ} (h : x.value = z) :
    integerOrFloat x = .int z := by
  rw [integerOrFloat, h, if_pos (Rat.den_intCast z), Rat.num_intCast]

lemma ofDecimal_eq_none {neg : Bool} {d : Decimal} :
    Double.ofDecimal neg d = none ↔ roundDouble d.value = none := by
  unfold Double.ofDecimal
  split
  · rename_i h
    simp [h]
  · rename_i h
    simp [h]

lemma ofDecimal_eq_some {neg : Bool} {d : Decimal} {x : Double}
    (h : Double.ofDecimal neg d = some x) :
    x.neg = neg ∧ roundDouble d.value = some (x.mant, x.exp) := by
  unfold Double.ofDecimal at h
  split at h
  · exact absurd h (by simp)
  · rename_i hround
    rw [← Option.some.inj h]
    exact ⟨rfl, hround⟩

/-! ## Integer literals -/

/-- One decimal digit or more. -/
def IsDigits (cs : List Char) : Prop := cs ≠ [] ∧ ∀ c ∈ cs, c.isDigit = true

/-- **An integer literal of base ten**: a sign or none, and digits, with the integer denoted. -/
inductive IntegerLiteral : List Char → ℤ → Prop
  | bare {ds : List Char} (h : IsDigits ds) : IntegerLiteral ds (Nat.ofDigitChars 10 ds 0)
  | plus {ds : List Char} (h : IsDigits ds) : IntegerLiteral ('+' :: ds) (Nat.ofDigitChars 10 ds 0)
  | minus {ds : List Char} (h : IsDigits ds) :
      IntegerLiteral ('-' :: ds) (-(Nat.ofDigitChars 10 ds 0 : ℤ))

lemma isDigit_range {c : Char} (h : c.isDigit = true) : 48 ≤ c.toNat ∧ c.toNat ≤ 57 := by
  simp only [Char.isDigit, Bool.and_eq_true, decide_eq_true_eq, UInt32.le_iff_toNat_le] at h
  exact h

/-- The characters of a literal: no blanks, no underscore, all in ASCII. -/
lemma IntegerLiteral.range {cs : List Char} {n : ℤ} (h : IntegerLiteral cs n) :
    ∀ c ∈ cs, 43 ≤ c.toNat ∧ c.toNat ≤ 57 := by
  have hdigits : ∀ {ds : List Char}, IsDigits ds → ∀ c ∈ ds, 43 ≤ c.toNat ∧ c.toNat ≤ 57 := by
    intro ds hds c hc
    have := isDigit_range (hds.2 c hc)
    omega
  cases h with
  | bare h => exact hdigits h
  | plus h => exact List.forall_mem_cons.mpr ⟨by decide, hdigits h⟩
  | minus h => exact List.forall_mem_cons.mpr ⟨by decide, hdigits h⟩

lemma dropUnderscores_self (last : Char) (hlast : last ≠ '_') (cs : List Char)
    (h : ∀ c ∈ cs, c ≠ '_') : dropUnderscores last cs = some cs := by
  induction cs generalizing last with
  | nil => simp [dropUnderscores, hlast]
  | cons c cs ih =>
      obtain ⟨hc, hcs⟩ := List.forall_mem_cons.mp h
      rw [dropUnderscores, if_neg hc, if_neg (by simp [hlast]), ih c hc hcs, Option.map_some]

lemma dropWhile_eq_self {p : Char → Bool} {cs : List Char} (h : ∀ c ∈ cs, p c = false) :
    cs.dropWhile p = cs := by
  cases cs with
  | nil => rfl
  | cons c cs => rw [List.dropWhile_cons_of_neg (by simp [h c])]

lemma scanDigits_digits {ds : List Char} (h : ∀ c ∈ ds, c.isDigit = true) :
    scanDigits ds = (ds, []) := by
  unfold scanDigits
  rw [List.span_eq_takeWhile_dropWhile, Prod.mk.injEq]
  constructor
  · induction ds with
    | nil => rfl
    | cons d ds ih =>
        obtain ⟨hd, hds⟩ := List.forall_mem_cons.mp h
        rw [List.takeWhile_cons_of_pos hd, ih hds]
  · induction ds with
    | nil => rfl
    | cons d ds ih =>
        obtain ⟨hd, hds⟩ := List.forall_mem_cons.mp h
        rw [List.dropWhile_cons_of_pos hd, ih hds]

lemma parseMagnitude_digits (neg : Bool) {ds : List Char} (h : IsDigits ds) :
    parseMagnitude neg ds = some (floatOf neg ⟨Nat.ofDigitChars 10 ds 0, 0⟩) := by
  -- a word begins with a letter
  have hword : ∀ word : String, word.toList.head?.all Char.isAlpha = true →
      word ≠ "" → String.ofList (ds.map lowerAscii) ≠ word := by
    rintro word hhead hne rfl
    obtain ⟨d, ds, rfl⟩ := List.exists_cons_of_ne_nil h.1
    have hd := isDigit_range (h.2 d List.mem_cons_self)
    have hlower : lowerAscii d = d := by
      rw [lowerAscii, if_neg]
      rintro ⟨hA, -⟩
      have : 65 ≤ d.toNat := hA
      omega
    rw [String.toList_ofList, List.map_cons, List.head?_cons, Option.all_some, hlower] at hhead
    simp only [Char.isAlpha, Char.isUpper, Char.isLower, Bool.or_eq_true, Bool.and_eq_true,
      decide_eq_true_eq, UInt32.le_iff_toNat_le] at hhead
    have hval : d.val.toNat = d.toNat := rfl
    simp only [hval] at hhead
    rcases hhead with hhead | hhead
    · have : 65 ≤ d.toNat := hhead.1
      omega
    · have : 97 ≤ d.toNat := hhead.1
      omega
  unfold parseMagnitude parseDecimal
  simp only [hword "inf" (by decide) (by decide), hword "infinity" (by decide) (by decide),
    hword "nan" (by decide) (by decide), or_self, if_false, scanDigits_digits h.2]
  simp [h.1, scanExponent]

/-- **A literal reads as the double nearest to the integer it denotes.** -/
theorem parseFloat_literal {text : String} {n : ℤ} (h : IntegerLiteral text.toList n) :
    ∃ neg, parseFloat text = some (floatOf neg ⟨n.natAbs, 0⟩) ∧
      (n = if neg then -(n.natAbs : ℤ) else n.natAbs) := by
  have hrange := h.range
  have hascii : asciiForm text.toList = text.toList := by
    rw [asciiForm, if_pos]
    rw [List.all_eq_true]
    intro c hc
    have := hrange c hc
    simp only [decide_eq_true_eq]
    omega
  have hspace : ∀ c ∈ text.toList, isAsciiSpace c = false := by
    intro c hc
    rw [← Bool.not_eq_true]
    intro hs
    have h1 := hrange c hc
    have h2 := isAsciiSpace_range hs
    omega
  have hunder : ∀ c ∈ text.toList, c ≠ '_' := by
    rintro c hc rfl
    exact absurd (hrange _ hc) (by decide)
  have hspace' : ∀ c ∈ text.toList.reverse, isAsciiSpace c = false := by
    simpa using hspace
  have hread : parseFloat text = parseSigned text.toList := by
    simp only [parseFloat, hascii, dropWhile_eq_self hspace, dropWhile_eq_self hspace',
      List.reverse_reverse, dropUnderscores_self (Char.ofNat 0) (by decide) _ hunder,
      Option.bind_some, Option.bind_eq_bind]
  rw [hread]
  generalize text.toList = cs at h
  cases h with
  | bare h =>
      refine ⟨false, ?_, by simp⟩
      obtain ⟨d, ds, rfl⟩ := List.exists_cons_of_ne_nil h.1
      have hd := isDigit_range (h.2 d List.mem_cons_self)
      unfold parseSigned
      split
      · rename_i heq
        rw [(List.cons.inj heq).1] at hd
        exact absurd hd (by decide)
      · rename_i heq
        rw [(List.cons.inj heq).1] at hd
        exact absurd hd (by decide)
      · rw [parseMagnitude_digits false h, Int.natAbs_natCast]
  | plus h =>
      exact ⟨false, by rw [parseSigned, parseMagnitude_digits false h, Int.natAbs_natCast], by simp⟩
  | minus h =>
      exact ⟨true, by rw [parseSigned, parseMagnitude_digits true h, Int.natAbs_neg,
        Int.natAbs_natCast], by simp⟩

/-! ## Integers among the doubles -/

/-- The integers that are doubles: at most 53 bits, moved up. -/
def Representable (n : ℕ) : Prop := ∃ m e : ℕ, m < 2 ^ 53 ∧ e ≤ 971 ∧ n = m * 2 ^ e

/-- A number of 53 bits at the last place it rounds at is a double. -/
lemma roundDouble_of_multiple {q : ℚ} {k : ℤ} {m : ℕ} (hq : 0 < q) (hk : lastPlace q = k)
    (hm : q = m * 2 ^ k) (hle : k ≤ 971) : m < 2 ^ 53 ∧ roundDouble q = some (m, k) := by
  have hlt : m < 2 ^ 53 := by
    have hbit : q < (2 : ℚ) ^ (leadingBit q + 1) := (leadingBit_spec hq).2
    have hplace : leadingBit q + 1 ≤ 53 + k := by
      have := le_max_right (-1074) (leadingBit q - 52)
      rw [← hk, lastPlace]
      omega
    have hlt : (m : ℚ) * 2 ^ k < 2 ^ (53 : ℤ) * 2 ^ k := by
      calc (m : ℚ) * 2 ^ k = q := hm.symm
        _ < 2 ^ (leadingBit q + 1) := hbit
        _ ≤ 2 ^ (53 + k) := zpow_le_zpow_right₀ (by norm_num) hplace
        _ = 2 ^ (53 : ℤ) * 2 ^ k := zpow_add₀ (by norm_num) _ _
    have := lt_of_mul_lt_mul_right hlt (by positivity)
    exact_mod_cast this
  refine ⟨hlt, ?_⟩
  have hround : roundAt q k = m := by
    rw [hm]
    exact roundAt_exact m k
  unfold roundDouble
  simp only [hq.ne', hk, hround, hlt.ne, hle, if_true, if_false]

/-- A representable integer rounds to itself. -/
lemma roundDouble_of_representable {n : ℕ} (h : Representable n) :
    ∃ m k, roundDouble n = some (m, k) ∧ (m : ℚ) * 2 ^ k = n := by
  obtain ⟨m, e, hm, he, rfl⟩ := h
  rcases Nat.eq_zero_or_pos m with rfl | hpos
  · exact ⟨0, -1074, by simp [roundDouble], by simp⟩
  have hq : (0 : ℚ) < ((m * 2 ^ e : ℕ) : ℚ) := by
    have : 0 < m * 2 ^ e := Nat.mul_pos hpos (by positivity)
    exact_mod_cast this
  obtain ⟨k, hk⟩ : ∃ k, lastPlace ((m * 2 ^ e : ℕ) : ℚ) = k := ⟨_, rfl⟩
  -- the last place is not above the zeros at the end of the number
  have hke : k ≤ e := by
    have hbit : leadingBit ((m * 2 ^ e : ℕ) : ℚ) < 53 + e := by
      refine (zpow_lt_zpow_iff_right₀ (by norm_num : (1 : ℚ) < 2)).mp ?_
      calc (2 : ℚ) ^ leadingBit ((m * 2 ^ e : ℕ) : ℚ) ≤ ((m * 2 ^ e : ℕ) : ℚ) :=
            (leadingBit_spec hq).1
        _ = m * 2 ^ e := by push_cast; ring
        _ < 2 ^ 53 * 2 ^ e := by
            have hcast : (m : ℚ) < 2 ^ 53 := by exact_mod_cast hm
            gcongr
        _ = 2 ^ (53 + (e : ℤ)) := by
            rw [zpow_add₀ (by norm_num), zpow_natCast]
            norm_num
    rw [← hk, lastPlace]
    omega
  have hmul : ((m * 2 ^ e : ℕ) : ℚ) = ((m * 2 ^ (e - k).toNat : ℕ) : ℚ) * 2 ^ k := by
    have hsplit : (2 : ℚ) ^ (e : ℤ) = 2 ^ (((e - k).toNat : ℕ) : ℤ) * 2 ^ k := by
      rw [← zpow_add₀ (by norm_num)]
      congr 1
      omega
    push_cast
    rw [mul_assoc, ← zpow_natCast, ← zpow_natCast, hsplit]
  obtain ⟨-, hround⟩ := roundDouble_of_multiple hq hk hmul (by omega)
  exact ⟨_, k, hround, hmul.symm⟩

/-- **An integer rounds to an integer, and to itself exactly when it is representable.** -/
theorem roundDouble_natCast {n m : ℕ} {k : ℤ} (h : roundDouble n = some (m, k)) :
    ∃ r : ℕ, (m : ℚ) * 2 ^ k = r ∧ (r = n ↔ Representable n) := by
  obtain ⟨r, hr, hrep⟩ : ∃ r : ℕ, (m : ℚ) * 2 ^ k = r ∧ Representable r := by
    obtain ⟨hm, -, hk, -⟩ := roundDouble_canonical (Nat.cast_nonneg n) h
    rcases Nat.eq_zero_or_pos n with rfl | hpos
    · have h0 : (0, (-1074 : ℤ)) = (m, k) := by simpa [roundDouble] using h
      obtain ⟨rfl, -⟩ := Prod.mk.inj h0
      exact ⟨0, by simp, 0, 0, by norm_num, by norm_num, by simp⟩
    have hq : (0 : ℚ) < n := by exact_mod_cast hpos
    by_cases hneg : lastPlace (n : ℚ) < 0
    · -- a last place below one: nothing is rounded away
      obtain ⟨j, hj⟩ : ∃ j, lastPlace (n : ℚ) = j := ⟨_, rfl⟩
      have hmul : (n : ℚ) = ((n * 2 ^ (-j).toNat : ℕ) : ℚ) * 2 ^ j := by
        have hone : (2 : ℚ) ^ (((-j).toNat : ℕ) : ℤ) * 2 ^ j = 1 := by
          rw [← zpow_add₀ (by norm_num)]
          simp only [show (((-j).toNat : ℕ) : ℤ) + j = 0 by omega, zpow_zero]
        push_cast
        rw [mul_assoc, ← zpow_natCast, hone, mul_one]
      obtain ⟨hlt, hround⟩ := roundDouble_of_multiple hq hj hmul (by omega)
      rw [hround, Option.some.injEq, Prod.mk.injEq] at h
      obtain ⟨rfl, rfl⟩ := h
      refine ⟨n, hmul.symm, n, 0, lt_of_le_of_lt ?_ hlt, by norm_num, by simp⟩
      exact Nat.le_mul_of_pos_right n (by positivity)
    · have hk0 : 0 ≤ k := by
        unfold roundDouble at h
        rw [if_neg hq.ne'] at h
        dsimp only at h
        split_ifs at h
        all_goals
          rw [Option.some.injEq, Prod.mk.injEq] at h
          omega
      refine ⟨m * 2 ^ k.toNat, ?_, m, k.toNat, hm, by omega, rfl⟩
      conv_lhs => rw [← Int.toNat_of_nonneg hk0]
      push_cast
      rw [zpow_natCast]
  refine ⟨r, hr, ?_, ?_⟩
  · rintro rfl
    exact hrep
  · intro hn
    obtain ⟨m', k', h', hvalue⟩ := roundDouble_of_representable hn
    rw [h, Option.some.injEq, Prod.mk.injEq] at h'
    obtain ⟨rfl, rfl⟩ := h'
    rw [hr] at hvalue
    exact_mod_cast hvalue

/-! ## The finite range -/

/-- Below an odd bound and a half the quotient rounds to the bound at most. -/
lemma roundQuotient_le_iff {n d b : ℕ} (hd : 0 < d) (hb : b % 2 = 1) :
    roundQuotient n d ≤ b ↔ 2 * n < (2 * b + 1) * d := by
  have hdiv : d * (n / d) + n % d = n := Nat.div_add_mod n d
  have hlt : n % d < d := Nat.mod_lt n hd
  have hexpand : (2 * b + 1) * d = 2 * (d * b) + d := by ring
  rw [hexpand]
  rcases Nat.lt_trichotomy (n / d) b with hq | hq | hq
  · have hmul : d * (n / d) + d ≤ d * b := by
      calc d * (n / d) + d = d * (n / d + 1) := by ring
        _ ≤ d * b := Nat.mul_le_mul_left d hq
    have hle : roundQuotient n d ≤ b := by
      unfold roundQuotient
      dsimp only
      split_ifs <;> omega
    exact ⟨fun _ => by omega, fun _ => hle⟩
  · unfold roundQuotient
    dsimp only
    rw [hq] at hdiv ⊢
    split_ifs <;> omega
  · have hmul : d * b + d ≤ d * (n / d) := by
      calc d * b + d = d * (b + 1) := by ring
        _ ≤ d * (n / d) := Nat.mul_le_mul_left d hq
    have hge : b < roundQuotient n d := by
      unfold roundQuotient
      dsimp only
      split_ifs <;> omega
    exact ⟨fun h => by omega, fun h => by omega⟩

/-- The bound of the finite range, in half units of the largest doubles. -/
lemma overflowBound_cast : (overflowBound : ℚ) = (2 ^ 54 - 1) * 2 ^ (970 : ℤ) := by
  have hle : 2 ^ 970 ≤ 2 ^ 1024 := Nat.pow_le_pow_right (by norm_num) (by norm_num)
  have htop : (2 : ℚ) ^ 1024 = 2 ^ 54 * 2 ^ 970 := by rw [← pow_add]
  have hunit : (2 : ℚ) ^ (970 : ℤ) = 2 ^ 970 := zpow_natCast 2 970
  rw [overflowBound, Nat.cast_sub hle, Nat.cast_pow, Nat.cast_pow, Nat.cast_ofNat, htop, hunit]
  ring

lemma zpow_two_add (k : ℕ) : (2 : ℚ) ^ (970 + k : ℤ) = 2 ^ k * 2 ^ (970 : ℤ) := by
  rw [zpow_add₀ (by norm_num), zpow_natCast, mul_comm]

/-- At the last place of the largest doubles, a number rounds up to the next power of two exactly
from half a unit below it. -/
lemma roundAt_eq_top_iff {q : ℚ} (hq : 0 ≤ q) (hlt : q < (2 : ℚ) ^ (1024 : ℤ)) :
    roundAt q 971 = 2 ^ 53 ↔ (overflowBound : ℚ) ≤ q := by
  have hle : roundAt q 971 ≤ 2 ^ 53 := by
    refine roundAt_le hq (hlt.le.trans_eq ?_)
    rw [show (1024 : ℤ) = 970 + (54 : ℕ) by norm_num, show (971 : ℤ) = 970 + (1 : ℕ) by norm_num,
      zpow_two_add, zpow_two_add]
    push_cast
    ring
  have hs : 0 ≤ q / (2 : ℚ) ^ (971 : ℤ) := by positivity
  have hden : (0 : ℚ) < (q / (2 : ℚ) ^ (971 : ℤ)).den := by exact_mod_cast Rat.den_pos _
  have htop : roundAt q 971 = 2 ^ 53 ↔ ¬roundAt q 971 ≤ 2 ^ 53 - 1 := by omega
  have hhalf : 2 * (q / (2 : ℚ) ^ (971 : ℤ)).num.natAbs <
      (2 * (2 ^ 53 - 1) + 1) * (q / (2 : ℚ) ^ (971 : ℤ)).den ↔
        q / (2 : ℚ) ^ (971 : ℤ) * 2 < 2 ^ 54 - 1 := by
    conv_rhs => rw [← natAbs_num_div_den hs]
    rw [div_mul_eq_mul_div, div_lt_iff₀ hden, ← Nat.cast_lt (α := ℚ)]
    push_cast
    norm_num [mul_comm]
  rw [htop, roundAt, roundQuotient_le_iff (Rat.den_pos _) (by decide), hhalf, not_lt,
    div_mul_eq_mul_div, le_div_iff₀ (by positivity)]
  have hbound : (overflowBound : ℚ) * 2 = (2 ^ 54 - 1) * 2 ^ (971 : ℤ) := by
    rw [overflowBound_cast, show (971 : ℤ) = 970 + (1 : ℕ) by norm_num, zpow_two_add]
    ring
  rw [← hbound, mul_le_mul_iff_left₀ (by norm_num)]

/-- **Beyond the finite range lies what is half a unit above the largest double, or more.** -/
theorem roundDouble_eq_none_iff {q : ℚ} (hq : 0 ≤ q) :
    roundDouble q = none ↔ (overflowBound : ℚ) ≤ q := by
  have hunit : (0 : ℚ) < 2 ^ (970 : ℤ) := by positivity
  rcases hq.eq_or_lt with rfl | hpos
  · have hbound : ¬(overflowBound : ℚ) ≤ 0 := by
      rw [overflowBound_cast, not_le]
      exact mul_pos (by norm_num) hunit
    simp only [roundDouble, if_true, reduceCtorEq, hbound]
  obtain ⟨hlo, hhi⟩ := leadingBit_spec hpos
  have hround : roundDouble q =
      if roundAt q (lastPlace q) = 2 ^ 53 then
        if lastPlace q + 1 ≤ 971 then some (2 ^ 52, lastPlace q + 1) else none
      else if lastPlace q ≤ 971 then some (roundAt q (lastPlace q), lastPlace q) else none := by
    unfold roundDouble
    rw [if_neg hpos.ne']
    dsimp only
    split_ifs <;> rfl
  rcases lt_trichotomy (leadingBit q) 1023 with hbit | hbit | hbit
  · -- small enough to round to a double, whatever the last place
    have hplace : lastPlace q + 1 ≤ 971 := by
      rw [lastPlace]
      omega
    have hsome : roundDouble q ≠ none := by
      rw [hround]
      split_ifs with htop hlast
      · simp
      · simp
      · omega
    have hsmall : q < (overflowBound : ℚ) := by
      calc q < (2 : ℚ) ^ (leadingBit q + 1) := hhi
        _ ≤ 2 ^ (1023 : ℤ) := zpow_le_zpow_right₀ (by norm_num) (by omega)
        _ = 2 ^ 53 * 2 ^ (970 : ℤ) := zpow_two_add 53
        _ ≤ overflowBound := by
            rw [overflowBound_cast]
            gcongr
            norm_num
    exact ⟨fun h => absurd h hsome, fun h => absurd hsmall (not_lt.mpr h)⟩
  · have hplace : lastPlace q = 971 := by
      rw [lastPlace, hbit]
      norm_num
    rw [hbit] at hhi
    rw [hround, hplace, ← roundAt_eq_top_iff hpos.le (by simpa using hhi)]
    by_cases htop : roundAt q 971 = 2 ^ 53
    · simp [htop]
    · simp
  · -- the last place alone is too high
    have hplace : 971 < lastPlace q := by
      rw [lastPlace]
      omega
    have hnone : roundDouble q = none := by
      rw [hround]
      split_ifs <;> first | rfl | omega
    have hlarge : (overflowBound : ℚ) ≤ q := by
      calc (overflowBound : ℚ) ≤ 2 ^ 54 * 2 ^ (970 : ℤ) := by
            rw [overflowBound_cast]
            gcongr
            norm_num
        _ = 2 ^ (1024 : ℤ) := (zpow_two_add 54).symm
        _ ≤ 2 ^ leadingBit q := zpow_le_zpow_right₀ (by norm_num) (by omega)
        _ ≤ q := hlo
    exact ⟨fun _ => hlarge, fun _ => hnone⟩

end Py

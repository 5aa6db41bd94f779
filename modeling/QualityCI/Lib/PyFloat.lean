import Mathlib.Data.Rat.Floor
import Mathlib.Algebra.Order.Field.Power
import Mathlib.Tactic.Linarith
import Mathlib.Tactic.Ring
import Mathlib.Tactic.NormNum
import Mathlib.Tactic.Positivity
import Mathlib.Tactic.FieldSimp

/-!
# Binary64 numbers as Python's `float` presents them

A finite `Double` is a sign, a significand and an exponent in the one canonical form binary64
gives it, so that equal values of the type are equal numbers.  The conversions a program sees are
the two that go through text: `float(text)` rounds the decimal to the nearest double, ties to
even, and `repr` prints the shortest decimal that reads back as the same double.

* `roundDouble` — the significand and exponent nearest to a positive rational.
* `roundDouble_canonical` — what it returns is in canonical form.
* `roundDouble_exact` — a number that already is a double rounds to itself.
* `Double.shortest` — the decimal that `repr` prints.
* **`Double.ofDecimal_shortest`** — reading that decimal gives back the double.

Everything is computed on rationals; no runtime floating point takes part.
-/

namespace Py

/-! ## Rounding to the nearest double -/

/-- `n / d` rounded to the nearest integer, ties to even. -/
def roundQuotient (n d : ℕ) : ℕ :=
  let q := n / d
  let r := n % d
  if 2 * r < d then q
  else if d < 2 * r then q + 1
  else if q % 2 = 0 then q else q + 1

/-- The exponent of the leading bit of a positive rational: `⌊log₂ q⌋`. -/
def leadingBit (q : ℚ) : ℤ :=
  let e : ℤ := (q.num.natAbs.log2 : ℤ) - q.den.log2
  if (2 : ℚ) ^ e ≤ q then e else e - 1

/-- The exponent of the last place of the double nearest to `q`; below the normal range it stays
at that of the subnormal numbers. -/
def lastPlace (q : ℚ) : ℤ := max (-1074) (leadingBit q - 52)

/-- Significand and exponent in the one form binary64 gives a number. -/
def Canonical (mant : ℕ) (exp : ℤ) : Prop :=
  mant < 2 ^ 53 ∧ -1074 ≤ exp ∧ exp ≤ 971 ∧ (2 ^ 52 ≤ mant ∨ exp = -1074)

instance (mant : ℕ) (exp : ℤ) : Decidable (Canonical mant exp) := by
  unfold Canonical
  infer_instance

/-- The quotient of `q` by the unit `2 ^ k`, rounded to an integer. -/
def roundAt (q : ℚ) (k : ℤ) : ℕ :=
  let scaled := q / 2 ^ k
  roundQuotient scaled.num.natAbs scaled.den

/-- Rounding a non-negative rational to the nearest double; `none` is an overflow. -/
def roundDouble (q : ℚ) : Option (ℕ × ℤ) :=
  if q = 0 then some (0, -1074)
  else
    let k := lastPlace q
    let mant := roundAt q k
    -- a carry out of the top bit moves the unit up by one
    let (mant, k) := if mant = 2 ^ 53 then (2 ^ 52, k + 1) else (mant, k)
    if k ≤ 971 then some (mant, k) else none

/-! ### The bounds that put the result in canonical form -/

lemma roundQuotient_le {n d b : ℕ} (hd : 0 < d) (h : n ≤ b * d) : roundQuotient n d ≤ b := by
  have hdiv : d * (n / d) + n % d = n := Nat.div_add_mod n d
  have hlt : n % d < d := Nat.mod_lt n hd
  have hq : n / d ≤ b := by
    calc n / d ≤ b * d / d := Nat.div_le_div_right h
      _ = b := Nat.mul_div_cancel b hd
  rcases Nat.lt_or_ge (n / d) b with hlt' | hge
  · unfold roundQuotient
    dsimp only
    split_ifs <;> omega
  · have hqb : n / d = b := le_antisymm hq hge
    have hr : n % d = 0 := by
      rw [hqb] at hdiv
      have : d * b = b * d := Nat.mul_comm d b
      omega
    unfold roundQuotient
    simp only [hr, hqb, Nat.mul_zero, hd, ↓reduceIte, le_refl]

lemma le_roundQuotient {n d b : ℕ} (hd : 0 < d) (h : b * d ≤ n) : b ≤ roundQuotient n d := by
  have hq : b ≤ n / d := (Nat.le_div_iff_mul_le hd).mpr h
  unfold roundQuotient
  dsimp only
  split_ifs <;> omega

lemma roundQuotient_one (n : ℕ) : roundQuotient n 1 = n := by
  simp [roundQuotient, Nat.mod_one]

/-- `leadingBit` brackets its argument between two powers of two. -/
lemma leadingBit_spec {q : ℚ} (hq : 0 < q) :
    (2 : ℚ) ^ leadingBit q ≤ q ∧ q < (2 : ℚ) ^ (leadingBit q + 1) := by
  have hnum : 0 < q.num := Rat.num_pos.mpr hq
  obtain ⟨n, hn⟩ : ∃ n : ℕ, q.num = n := ⟨q.num.natAbs, by omega⟩
  have hn0 : n ≠ 0 := by omega
  have hval : q * q.den = n := by
    have h := Rat.mul_den_eq_num q
    rw [hn] at h
    simpa using h
  have hden : (0 : ℚ) < q.den := by exact_mod_cast q.den_pos
  have hnabs : q.num.natAbs = n := by simp [hn]
  -- the logarithms of numerator and denominator bracket the quotient up to one bit
  have hlo : (2 : ℚ) ^ n.log2 ≤ n := by exact_mod_cast Nat.log2_self_le hn0
  have hhi : (n : ℚ) < 2 ^ (n.log2 + 1) := by exact_mod_cast Nat.lt_log2_self
  have hdlo : (2 : ℚ) ^ q.den.log2 ≤ q.den := by
    exact_mod_cast Nat.log2_self_le q.den_ne_zero
  have hdhi : (q.den : ℚ) < 2 ^ (q.den.log2 + 1) := by exact_mod_cast Nat.lt_log2_self
  have hupper : q < (2 : ℚ) ^ ((n.log2 : ℤ) - q.den.log2 + 1) := by
    have hpow : (2 : ℚ) ^ ((n.log2 : ℤ) - q.den.log2 + 1)
        = 2 ^ (n.log2 + 1) / 2 ^ q.den.log2 := by
      rw [show (n.log2 : ℤ) - q.den.log2 + 1 = ((n.log2 + 1 : ℕ) : ℤ) - (q.den.log2 : ℕ) by
        push_cast; ring, zpow_sub₀ (by norm_num), zpow_natCast, zpow_natCast]
    rw [hpow, lt_div_iff₀ (by positivity)]
    calc q * 2 ^ q.den.log2 ≤ q * q.den := by gcongr
      _ = n := hval
      _ < 2 ^ (n.log2 + 1) := hhi
  have hlower : (2 : ℚ) ^ ((n.log2 : ℤ) - q.den.log2 - 1) ≤ q := by
    have hpow : (2 : ℚ) ^ ((n.log2 : ℤ) - q.den.log2 - 1)
        = 2 ^ n.log2 / 2 ^ (q.den.log2 + 1) := by
      rw [show (n.log2 : ℤ) - q.den.log2 - 1 = (n.log2 : ℤ) - ((q.den.log2 + 1 : ℕ) : ℤ) by
        push_cast; ring, zpow_sub₀ (by norm_num), zpow_natCast, zpow_natCast]
    rw [hpow, div_le_iff₀ (by positivity)]
    calc (2 : ℚ) ^ n.log2 ≤ n := hlo
      _ = q * q.den := hval.symm
      _ ≤ q * 2 ^ (q.den.log2 + 1) := by gcongr
  unfold leadingBit
  simp only [hnabs]
  split_ifs with h
  · exact ⟨h, hupper⟩
  · refine ⟨hlower, ?_⟩
    rw [sub_add_cancel]
    exact lt_of_not_ge h

/-- Only one exponent brackets a number. -/
lemma leadingBit_unique {q : ℚ} {e : ℤ} (hlo : (2 : ℚ) ^ e ≤ q) (hhi : q < (2 : ℚ) ^ (e + 1)) :
    leadingBit q = e := by
  have hq : 0 < q := lt_of_lt_of_le (by positivity) hlo
  obtain ⟨h1, h2⟩ := leadingBit_spec hq
  have h3 : leadingBit q < e + 1 :=
    (zpow_lt_zpow_iff_right₀ (by norm_num : (1 : ℚ) < 2)).mp (lt_of_le_of_lt h1 hhi)
  have h4 : e < leadingBit q + 1 :=
    (zpow_lt_zpow_iff_right₀ (by norm_num : (1 : ℚ) < 2)).mp (lt_of_le_of_lt hlo h2)
  omega

lemma natAbs_num_div_den {q : ℚ} (hq : 0 ≤ q) : (q.num.natAbs : ℚ) / q.den = q := by
  have hnum : 0 ≤ q.num := Rat.num_nonneg.mpr hq
  have h : ((q.num.natAbs : ℤ) : ℚ) = (q.num : ℚ) := by rw [Int.natAbs_of_nonneg hnum]
  rw [Int.cast_natCast] at h
  rw [h, Rat.num_div_den]

lemma roundAt_le {q : ℚ} {k : ℤ} {b : ℕ} (hq : 0 ≤ q) (h : q ≤ b * 2 ^ k) : roundAt q k ≤ b := by
  have hs : 0 ≤ q / (2 : ℚ) ^ k := by positivity
  refine roundQuotient_le (q / (2 : ℚ) ^ k).den_pos ?_
  have hle : q / (2 : ℚ) ^ k ≤ b := (div_le_iff₀ (by positivity)).mpr h
  rw [← natAbs_num_div_den hs, div_le_iff₀ (by exact_mod_cast Rat.den_pos _)] at hle
  exact_mod_cast hle

lemma le_roundAt {q : ℚ} {k : ℤ} {b : ℕ} (hq : 0 ≤ q) (h : b * 2 ^ k ≤ q) : b ≤ roundAt q k := by
  have hs : 0 ≤ q / (2 : ℚ) ^ k := by positivity
  refine le_roundQuotient (q / (2 : ℚ) ^ k).den_pos ?_
  have hle : (b : ℚ) ≤ q / (2 : ℚ) ^ k := (le_div_iff₀ (by positivity)).mpr h
  rw [← natAbs_num_div_den hs, le_div_iff₀ (by exact_mod_cast Rat.den_pos _)] at hle
  exact_mod_cast hle

lemma roundAt_exact (mant : ℕ) (k : ℤ) : roundAt (mant * 2 ^ k) k = mant := by
  have h : (mant * (2 : ℚ) ^ k) / 2 ^ k = mant := by field_simp
  unfold roundAt
  rw [h]
  simp [roundQuotient_one]

/-- **What `roundDouble` returns is canonical.** -/
theorem roundDouble_canonical {q : ℚ} {mant : ℕ} {exp : ℤ} (hq : 0 ≤ q)
    (h : roundDouble q = some (mant, exp)) : Canonical mant exp := by
  unfold roundDouble at h
  split_ifs at h with h0
  · simp only [Option.some.injEq, Prod.mk.injEq] at h
    obtain ⟨rfl, rfl⟩ := h
    decide
  have hpos : 0 < q := lt_of_le_of_ne hq (Ne.symm h0)
  obtain ⟨hlo, hhi⟩ := leadingBit_spec hpos
  have hk : -1074 ≤ lastPlace q := le_max_left _ _
  have hk' : leadingBit q + 1 ≤ lastPlace q + 53 := by
    have := le_max_right (-1074) (leadingBit q - 52)
    simp only [lastPlace]
    omega
  -- the scaled number is below `2 ^ 53`, so its rounding is at most `2 ^ 53`
  have hup : roundAt q (lastPlace q) ≤ 2 ^ 53 := by
    refine roundAt_le hq ?_
    calc q ≤ (2 : ℚ) ^ (leadingBit q + 1) := hhi.le
      _ ≤ (2 : ℚ) ^ (lastPlace q + 53) := zpow_le_zpow_right₀ (by norm_num) hk'
      _ = ((2 ^ 53 : ℕ) : ℚ) * 2 ^ lastPlace q := by
        rw [zpow_add₀ (by norm_num)]
        norm_num
        ring
  -- and unless the unit is the subnormal one, it is at least `2 ^ 52`
  have hdown : lastPlace q = -1074 ∨ 2 ^ 52 ≤ roundAt q (lastPlace q) := by
    rcases max_choice (-1074) (leadingBit q - 52) with hm | hm
    · exact Or.inl hm
    · refine Or.inr (le_roundAt hq ?_)
      calc ((2 ^ 52 : ℕ) : ℚ) * 2 ^ lastPlace q = (2 : ℚ) ^ (lastPlace q + 52) := by
            rw [zpow_add₀ (by norm_num)]
            norm_num
            ring
        _ = (2 : ℚ) ^ leadingBit q := by rw [lastPlace, hm, sub_add_cancel]
        _ ≤ q := hlo
  dsimp only at h
  split_ifs at h with hcarry hle
  all_goals
    simp only [Option.some.injEq, Prod.mk.injEq] at h
    obtain ⟨rfl, rfl⟩ := h
  · exact ⟨by norm_num, by omega, by assumption, Or.inl le_rfl⟩
  · exact ⟨by omega, hk, by assumption, hdown.symm⟩

/-- **A double rounds to itself.** -/
theorem roundDouble_exact {mant : ℕ} {exp : ℤ} (h : Canonical mant exp) :
    roundDouble (mant * 2 ^ exp) = some (mant, exp) := by
  obtain ⟨hlt, hge, hle, hnorm⟩ := h
  rcases Nat.eq_zero_or_pos mant with rfl | hpos
  · have hexp : exp = -1074 := by
      rcases hnorm with h | h
      · norm_num at h
      · exact h
    simp [roundDouble, hexp]
  have hmant : (mant : ℚ) ≠ 0 := by exact_mod_cast hpos.ne'
  have hne : (mant : ℚ) * 2 ^ exp ≠ 0 := mul_ne_zero hmant (by positivity)
  -- the leading bit is that of the significand, moved by the exponent
  have hbit : leadingBit (mant * 2 ^ exp) = mant.log2 + exp := by
    have hlo : (2 : ℚ) ^ mant.log2 ≤ mant := by exact_mod_cast Nat.log2_self_le hpos.ne'
    have hhi : (mant : ℚ) < 2 ^ (mant.log2 + 1) := by exact_mod_cast Nat.lt_log2_self
    refine leadingBit_unique ?_ ?_
    · rw [zpow_add₀ (by norm_num), zpow_natCast]
      gcongr
    · rw [show (mant.log2 : ℤ) + exp + 1 = ((mant.log2 + 1 : ℕ) : ℤ) + exp by push_cast; ring,
        zpow_add₀ (by norm_num), zpow_natCast]
      gcongr
  have hplace : lastPlace (mant * 2 ^ exp) = exp := by
    have hlog : mant.log2 < 53 := (Nat.log2_lt hpos.ne').mpr hlt
    unfold lastPlace
    rw [hbit]
    rcases hnorm with h | h
    · have h52 : 52 ≤ mant.log2 := by
        by_contra hc
        have := (Nat.log2_lt hpos.ne').mp (by omega : mant.log2 < 52)
        omega
      rw [show ((mant.log2 : ℤ) + exp - 52) = exp by omega]
      exact max_eq_right hge
    · rw [h]
      exact max_eq_left (by omega)
  unfold roundDouble
  simp only [hne, ↓reduceIte, hplace, roundAt_exact, hlt.ne, hle]

/-! ## Decimals and finite doubles -/

/-- A decimal number `digits · 10 ^ exp10`. -/
structure Decimal where
  digits : ℕ
  exp10 : ℤ
  deriving DecidableEq, Repr

/-- The number a decimal stands for. -/
def Decimal.value (d : Decimal) : ℚ := d.digits * 10 ^ d.exp10

lemma Decimal.value_nonneg (d : Decimal) : 0 ≤ d.value := by
  unfold Decimal.value
  positivity

/-- A finite binary64 number. -/
structure Double where
  neg : Bool
  mant : ℕ
  exp : ℤ
  canonical : Canonical mant exp
  deriving DecidableEq

namespace Double

/-- The magnitude of a double. -/
def magnitude (x : Double) : ℚ := x.mant * 2 ^ x.exp

/-- The exact value of a double. -/
def value (x : Double) : ℚ := if x.neg then -x.magnitude else x.magnitude

/-- `float(text)` for a decimal numeral: the nearest double, or `none` beyond the finite range. -/
def ofDecimal (neg : Bool) (d : Decimal) : Option Double :=
  match h : roundDouble d.value with
  | none => none
  | some (mant, exp) => some ⟨neg, mant, exp, roundDouble_canonical d.value_nonneg h⟩

/-- The exact decimal expansion, which every double has. -/
def exactDecimal (x : Double) : Decimal :=
  if 0 ≤ x.exp then ⟨x.mant * 2 ^ x.exp.toNat, 0⟩
  else ⟨x.mant * 5 ^ (-x.exp).toNat, x.exp⟩

/-- The two decimals of `precision` digits around a positive magnitude, the nearer one first and
an even one first when both are as near. -/
def decimalsOfPrecision (q : ℚ) (lead : ℤ) (precision : ℕ) : List Decimal :=
  let e : ℤ := lead - (precision - 1)
  let scaled := q / 10 ^ e
  let low := scaled.num.natAbs / scaled.den
  let near := roundQuotient scaled.num.natAbs scaled.den
  [⟨near, e⟩, ⟨if near = low then low + 1 else low, e⟩]

/-- `⌊log₁₀ q⌋` for a positive rational, from the digit counts of numerator and denominator. -/
def leadingDigit (q : ℚ) : ℤ :=
  let e : ℤ := ((Nat.toDigits 10 q.num.natAbs).length : ℤ) - (Nat.toDigits 10 q.den).length
  if (10 : ℚ) ^ e ≤ q then e else e - 1

/-- Whether a decimal reads back as `x`. -/
def ReadsBack (x : Double) (d : Decimal) : Prop := roundDouble d.value = some (x.mant, x.exp)

instance (x : Double) (d : Decimal) : Decidable (x.ReadsBack d) := by
  unfold ReadsBack
  infer_instance

/-- The decimal `repr` prints: the shortest one that reads back, the nearest of that length.
Seventeen digits are enough for every double; the exact expansion closes the search. -/
def shortest (x : Double) : Decimal :=
  if x.mant = 0 then ⟨0, 0⟩
  else
    let candidates := (List.range 17).flatMap fun p =>
      decimalsOfPrecision x.magnitude (leadingDigit x.magnitude) (p + 1)
    (candidates.find? fun d => x.ReadsBack d).getD x.exactDecimal

lemma exactDecimal_value (x : Double) : x.exactDecimal.value = x.magnitude := by
  unfold exactDecimal Decimal.value magnitude
  split_ifs with h
  · have : (2 : ℚ) ^ x.exp = 2 ^ x.exp.toNat := by
      conv_lhs => rw [← Int.toNat_of_nonneg h]
      exact zpow_natCast _ _
    simp [this]
  · have hneg : x.exp = -((-x.exp).toNat : ℤ) := by omega
    have h10 : (10 : ℚ) ^ x.exp = 2 ^ x.exp * 5 ^ x.exp := by
      rw [← mul_zpow]
      norm_num
    have h5 : (5 : ℚ) ^ x.exp = (5 ^ (-x.exp).toNat)⁻¹ := by
      conv_lhs => rw [hneg]
      rw [zpow_neg, zpow_natCast]
    simp only [Nat.cast_mul, Nat.cast_pow, Nat.cast_ofNat]
    rw [h10, h5]
    field_simp

lemma shortest_readsBack (x : Double) : x.ReadsBack x.shortest := by
  have hexact : x.ReadsBack x.exactDecimal := by
    unfold ReadsBack
    rw [exactDecimal_value]
    exact roundDouble_exact x.canonical
  unfold shortest
  split_ifs with h0
  · have hexp : x.exp = -1074 := by
      have h := x.canonical.2.2.2
      rw [h0] at h
      rcases h with h | h
      · norm_num at h
      · exact h
    simp [ReadsBack, Decimal.value, roundDouble, h0, hexp]
  dsimp only
  cases hfind : List.find? _ _ with
  | none => exact hexact
  | some d => simpa using List.find?_some hfind

/-- **`float(repr(x)) = x`**: the printed decimal, or any with its value, reads as the double. -/
theorem ofDecimal_shortest (x : Double) (d : Decimal) (h : d.value = x.shortest.value) :
    ofDecimal x.neg d = some x := by
  have hread : roundDouble d.value = some (x.mant, x.exp) := h ▸ x.shortest_readsBack
  unfold ofDecimal
  split
  · simp_all
  · rename_i mant exp heq
    rw [hread, Option.some.injEq, Prod.mk.injEq] at heq
    obtain ⟨hm, he⟩ := heq
    subst hm he
    rfl

end Double

/-! ## Python's `float` -/

/-- A Python `float`: a finite double, an infinity or the not-a-number. -/
inductive PyFloat
  | finite (x : Double)
  | inf (neg : Bool)
  | nan
  deriving DecidableEq

/-- `math.isfinite` on a float. -/
def PyFloat.isFinite : PyFloat → Bool
  | .finite _ => true
  | .inf _ => false
  | .nan => false

/-- The smallest magnitude that `float(n)` of an integer refuses: half a unit above the largest
finite double. -/
def overflowBound : ℕ := 2 ^ 1024 - 2 ^ 970

example : (Double.ofDecimal false ⟨1, -1⟩).map (fun x => x.shortest) = some ⟨1, -1⟩ := by
  decide +kernel

end Py

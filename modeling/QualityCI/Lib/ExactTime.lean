import Mathlib.Algebra.Order.Field.Rat
import Mathlib.Tactic.FieldSimp
import Mathlib.Tactic.Linarith
import Mathlib.Tactic.Positivity
import Mathlib.Tactic.Ring
import QualityCI.Lib.PyText

/-!
# Moments to the last digit

A timestamp may write the fraction of a second with any number of digits, and a `datetime` keeps six
of them.  Here a timestamp is read as the exact number of seconds it names, and the order of the
`datetime`s is compared with the order of these numbers.

* `CalendarDate.number` — the days of the calendar, counted.
* `exactTime` — the seconds of a timestamp, a rational number.
* `beyondMicros` — what its digits after the sixth add.
* **`CalendarDate.number_lt_iff`** — the count grows with the calendar's order.
* **`exactTime_le_iff`** — moments are in order exactly when they are in order to the microsecond
  and, where they agree to the microsecond, in order beyond it.
-/

namespace Py

/-! ## Counting days -/

/-- The days of the years from 0 on. -/
def daysBeforeYear : ℕ → ℕ
  | 0 => 0
  | year + 1 => daysBeforeYear year + if isLeapYear year then 366 else 365

/-- The days of a year before a month of it. -/
def daysBeforeMonth (year : ℕ) : ℕ → ℕ
  | 0 => 0
  | month + 1 => if month = 0 then 0 else daysBeforeMonth year month + daysInMonth year month

/-- The number of a day. -/
def CalendarDate.number (d : CalendarDate) : ℕ :=
  daysBeforeYear d.year + daysBeforeMonth d.year d.month + d.day

lemma daysBeforeYear_le {year year' : ℕ} (h : year < year') :
    daysBeforeYear year + (if isLeapYear year then 366 else 365) ≤ daysBeforeYear year' := by
  induction year' with
  | zero => omega
  | succ year' ih =>
      rw [daysBeforeYear]
      rcases Nat.lt_succ_iff_lt_or_eq.mp h with hlt | rfl
      · have := ih hlt
        omega
      · exact le_rfl

lemma daysBeforeMonth_le (year : ℕ) {month month' : ℕ} (hpos : 1 ≤ month) (h : month < month') :
    daysBeforeMonth year month + daysInMonth year month ≤ daysBeforeMonth year month' := by
  induction month' with
  | zero => omega
  | succ month' ih =>
      rw [daysBeforeMonth, if_neg (by omega)]
      rcases Nat.lt_succ_iff_lt_or_eq.mp h with hlt | rfl
      · have := ih hlt
        omega
      · exact le_rfl

lemma daysBeforeMonth_thirteen (year : ℕ) :
    daysBeforeMonth year 13 = if isLeapYear year then 366 else 365 := by
  cases hleap : isLeapYear year with
  | true => simp [daysBeforeMonth, daysInMonth, hleap]
  | false => simp [daysBeforeMonth, daysInMonth, hleap]

lemma daysInMonth_le (year month : ℕ) : daysInMonth year month ≤ 31 := by
  unfold daysInMonth
  split_ifs <;> omega

/-- A later day has a greater number. -/
lemma CalendarDate.number_lt {d d' : CalendarDate} (h : d.order < d'.order) :
    d.number < d'.number := by
  obtain ⟨year, month, day, _, hm, hm', hd, hd'⟩ := d
  obtain ⟨year', month', day', _, hn, hn', he, he'⟩ := d'
  have hday := daysInMonth_le year month
  have hday' := daysInMonth_le year' month'
  simp only [CalendarDate.order, CalendarDate.number] at h ⊢
  rcases Nat.lt_trichotomy year year' with hyear | rfl | hyear
  · have hyears := daysBeforeYear_le hyear
    have hmonths := daysBeforeMonth_le year hm (show month < 13 by omega)
    rw [daysBeforeMonth_thirteen] at hmonths
    omega
  · rcases Nat.lt_trichotomy month month' with hmonth | rfl | hmonth
    · have hmonths := daysBeforeMonth_le year hm hmonth
      omega
    · omega
    · omega
  · omega

/-- **The count grows with the order of the calendar.** -/
theorem CalendarDate.number_lt_iff {d d' : CalendarDate} :
    d.number < d'.number ↔ d.order < d'.order := by
  constructor
  · intro h
    by_contra hge
    rcases Nat.lt_or_eq_of_le (Nat.le_of_not_lt hge) with hlt | heq
    · have := CalendarDate.number_lt hlt
      omega
    · have hsame : d = d' := by
        obtain ⟨year, month, day, _, _, hm', _, hd'⟩ := d
        obtain ⟨year', month', day', _, _, hn', _, he'⟩ := d'
        have hday := daysInMonth_le year month
        have hday' := daysInMonth_le year' month'
        simp only [CalendarDate.order] at heq
        simp only [CalendarDate.mk.injEq]
        omega
      rw [hsame] at h
      exact lt_irrefl _ h
  · exact CalendarDate.number_lt

/-! ## The digits of a fraction -/

/-- One step of reading a run of digits. -/
def digitStep (acc : Option ℕ) (c : Char) : Option ℕ := do
  let n ← acc
  let d ← digitValue c
  pure (10 * n + d)

lemma digitsValue_eq (cs : List Char) : digitsValue cs = cs.foldl digitStep (some 0) := rfl

lemma foldl_digitStep_none (cs : List Char) : cs.foldl digitStep none = none := by
  induction cs with
  | nil => rfl
  | cons c cs ih => exact ih

lemma foldl_digitStep (m : ℕ) (cs : List Char) :
    cs.foldl digitStep (some m) = (digitsValue cs).map fun n => m * 10 ^ cs.length + n := by
  rw [digitsValue_eq]
  induction cs using List.reverseRecOn with
  | nil => simp
  | append_singleton cs c ih =>
      simp only [List.foldl_append, List.foldl_cons, List.foldl_nil, ih, List.length_append,
        List.length_singleton]
      cases hcs : cs.foldl digitStep (some 0) with
      | none => rfl
      | some n =>
          cases hc : digitValue c with
          | none => simp [digitStep, hc]
          | some d =>
              simp only [digitStep, hc, Option.map_some, Option.pure_def, Option.bind_eq_bind,
                Option.bind_some, Option.some.injEq]
              ring

/-- The value of digits in a row. -/
lemma digitsValue_append (front back : List Char) :
    digitsValue (front ++ back) = (digitsValue front).bind fun m =>
      (digitsValue back).map fun n => m * 10 ^ back.length + n := by
  rw [digitsValue_eq, List.foldl_append, ← digitsValue_eq]
  cases digitsValue front with
  | none => exact foldl_digitStep_none back
  | some m => exact foldl_digitStep m back

lemma digitsValue_zeros (n : ℕ) : digitsValue (List.replicate n '0') = some 0 := by
  induction n with
  | zero => rfl
  | succ n ih =>
      rw [List.replicate_succ', digitsValue_append, ih]
      rfl

lemma digitsValue_lt {cs : List Char} {n : ℕ} (h : digitsValue cs = some n) :
    n < 10 ^ cs.length := by
  induction cs using List.reverseRecOn generalizing n with
  | nil =>
      obtain rfl : 0 = n := by simpa [digitsValue] using h
      simp
  | append_singleton cs c ih =>
      rw [digitsValue_append, Option.bind_eq_some_iff] at h
      obtain ⟨m, hm, h⟩ := h
      obtain ⟨d, hd, rfl⟩ := Option.map_eq_some_iff.mp h
      have hlt := ih hm
      have hdigit : d < 10 := by
        simp only [digitsValue, List.foldl_cons, List.foldl_nil, Option.bind_eq_bind,
          Option.bind_some] at hd
        cases hc : digitValue c with
        | none => simp [hc] at hd
        | some e =>
            obtain rfl : e = d := by simpa [hc] using hd
            unfold digitValue at hc
            split_ifs at hc with hrange
            obtain rfl := Option.some.inj hc
            have hnine : c.toNat ≤ '9'.toNat := hrange.2
            have : '9'.toNat = '0'.toNat + 9 := rfl
            omega
      rw [List.length_append, List.length_singleton, pow_one, pow_succ]
      omega

/-! ## Exact time -/

/-- The digits of the fraction of a second: what stands between the point and the `Z`. -/
def fractionDigits (s : String) : List Char := (s.toList.drop 20).dropLast

/-- The seconds since the first day that a timestamp names, to its last digit. -/
def exactTime (s : String) : Option ℚ :=
  (parseTimestamp s).map fun moment =>
    (moment.1.number : ℚ) * 86400 + ((moment.2 / 1000000 : ℕ) : ℚ) +
      ((digitsValue (fractionDigits s)).getD 0 : ℚ) / 10 ^ (fractionDigits s).length

/-- What the digits after the sixth add to the seconds. -/
def beyondMicros (s : String) : ℚ :=
  ((digitsValue ((fractionDigits s).drop 6)).getD 0 : ℚ) / 10 ^ (fractionDigits s).length

/-- The microseconds since the first day. -/
def microsOf (moment : CalendarDate × ℕ) : ℕ := moment.1.number * 86400000000 + moment.2

/-- A fraction is its microseconds and what stands beyond them. -/
lemma microseconds_spec {fraction : List Char} {micros : ℕ}
    (h : microseconds fraction = some micros) :
    micros < 1000000 ∧
      ((digitsValue fraction).getD 0 : ℚ) / 10 ^ fraction.length =
        (micros : ℚ) / 1000000 +
          ((digitsValue (fraction.drop 6)).getD 0 : ℚ) / 10 ^ fraction.length ∧
      ((digitsValue (fraction.drop 6)).getD 0 : ℚ) / 10 ^ fraction.length < 1 / 1000000 := by
  simp only [microseconds, Option.bind_eq_bind, Option.bind_eq_some_iff] at h
  obtain ⟨n, hn, hmicros⟩ := h
  have hlen : ((fraction ++ List.replicate 6 '0').take 6).length = 6 := by simp
  have hlt := digitsValue_lt hmicros
  rw [hlen] at hlt
  refine ⟨by simpa using hlt, ?_⟩
  have hten : (10 : ℚ) ^ fraction.length ≠ 0 := by positivity
  rcases Nat.lt_or_ge fraction.length 6 with hshort | hlong
  · -- fewer digits than six are filled up with zeros
    obtain ⟨k, hk⟩ : ∃ k, fraction.length + k = 6 := ⟨6 - fraction.length, by omega⟩
    have htake : (fraction ++ List.replicate 6 '0').take 6 = fraction ++ List.replicate k '0' := by
      rw [List.take_append, List.take_of_length_le hshort.le, List.take_replicate]
      congr 2
      omega
    rw [htake, digitsValue_append, hn, digitsValue_zeros, Option.bind_some, Option.map_some,
      List.length_replicate, Nat.add_zero] at hmicros
    obtain rfl := Option.some.inj hmicros
    rw [List.drop_eq_nil_of_le hshort.le, hn]
    have hpow : (10 : ℚ) ^ fraction.length * 10 ^ k = 1000000 := by
      rw [← pow_add, hk]
      norm_num
    constructor
    · simp only [digitsValue, List.foldl_nil, Option.getD_some, Nat.cast_zero, zero_div, add_zero]
      rw [← hpow]
      push_cast
      field_simp
    · simp [digitsValue]
  · -- the digits after the sixth are dropped
    have htake : (fraction ++ List.replicate 6 '0').take 6 = fraction.take 6 :=
      List.take_append_of_le_length hlong
    rw [htake] at hmicros
    have hsplit := digitsValue_append (fraction.take 6) (fraction.drop 6)
    rw [List.take_append_drop, hn, hmicros, Option.bind_some] at hsplit
    obtain ⟨rest, hrest, hvalue⟩ := Option.map_eq_some_iff.mp hsplit.symm
    have hpow : (10 : ℚ) ^ fraction.length = 1000000 * 10 ^ (fraction.drop 6).length := by
      rw [List.length_drop, show fraction.length = 6 + (fraction.length - 6) by omega, pow_add,
        Nat.add_sub_cancel_left]
      norm_num
    have hten' : (10 : ℚ) ^ (fraction.drop 6).length ≠ 0 := by positivity
    have hrestlt : (rest : ℚ) < 10 ^ (fraction.drop 6).length := by
      exact_mod_cast digitsValue_lt hrest
    rw [hn, hrest, Option.getD_some, Option.getD_some, ← hvalue, hpow]
    push_cast
    constructor
    · field_simp
    · rw [div_lt_div_iff₀ (by positivity) (by norm_num)]
      linarith

/-- What a timestamp is made of: its day, its whole seconds and its fraction, which is read to the
microsecond. -/
lemma parseTimestamp_parts {s : String} {moment : CalendarDate × ℕ}
    (h : parseTimestamp s = some moment) :
    ∃ seconds micros, seconds < 86400 ∧ moment.2 = seconds * 1000000 + micros ∧
      (microseconds (fractionDigits s) = some micros) := by
  unfold parseTimestamp at h
  split at h
  case h_2 => simp at h
  case h_1 rest hs =>
    simp only [Option.bind_eq_bind, Option.bind_eq_some_iff, Option.pure_def,
      Option.guard_eq_some', exists_const] at h
    obtain ⟨parts, -, hour, -, minute, -, second, -, ⟨hhour, hminute, hsecond⟩, h⟩ := h
    have hdrop : s.toList.drop 20 = rest.drop 1 := by rw [hs]; rfl
    -- what the fraction gives, the day and the whole seconds complete
    have hwhole : ∀ micros : ℕ,
        (∃ day, calendarDate parts = some day ∧
          some (day, ((hour * 60 + minute) * 60 + second) * 1000000 + micros) = some moment) →
        microseconds (fractionDigits s) = some micros →
        ∃ seconds micros, seconds < 86400 ∧ moment.2 = seconds * 1000000 + micros ∧
          microseconds (fractionDigits s) = some micros := by
      rintro micros ⟨day, -, hmoment⟩ hmicros
      obtain rfl := Option.some.inj hmoment
      exact ⟨(hour * 60 + minute) * 60 + second, micros, by omega, rfl, hmicros⟩
    split at h
    · rw [Option.bind_some, Option.bind_eq_some_iff] at h
      exact hwhole 0 h (by rw [fractionDigits, hdrop]; rfl)
    · split at h
      · rename_i tail d digits hreverse
        rw [Option.bind_eq_some_iff] at h
        obtain ⟨micros, hmicros, h⟩ := h
        rw [Option.bind_eq_some_iff] at h
        have htail := congrArg List.reverse hreverse
        rw [List.reverse_reverse, List.reverse_cons] at htail
        refine hwhole micros h ?_
        rw [fractionDigits, hdrop, List.drop_one, List.tail_cons, htail, List.dropLast_concat]
        exact hmicros
      · simp at h
    · simp at h

/-- A timestamp is its microseconds and what its digits add beyond them. -/
lemma exactTime_of_parse {s : String} {moment : CalendarDate × ℕ}
    (h : parseTimestamp s = some moment) :
    moment.2 < 86400000000 ∧
      exactTime s = some ((microsOf moment : ℚ) / 1000000 + beyondMicros s) ∧
      0 ≤ beyondMicros s ∧ beyondMicros s < 1 / 1000000 := by
  obtain ⟨seconds, micros, hseconds, hmoment, hfraction⟩ := parseTimestamp_parts h
  obtain ⟨hmicros, hsplit, hbeyond⟩ := microseconds_spec hfraction
  refine ⟨by omega, ?_, by unfold beyondMicros; positivity, hbeyond⟩
  have hwhole : moment.2 / 1000000 = seconds := by omega
  rw [exactTime, h, Option.map_some, hwhole, hsplit, microsOf, hmoment, beyondMicros]
  push_cast
  congr 1
  ring

/-- The order of moments is the order of their microseconds. -/
lemma microsOf_lt_iff {t t' : CalendarDate × ℕ} (h : t.2 < 86400000000) (h' : t'.2 < 86400000000) :
    microsOf t < microsOf t' ↔ instantOrder t < instantOrder t' := by
  have hlt : t.1.number < t'.1.number ↔ t.1.order < t'.1.order := CalendarDate.number_lt_iff
  have hgt : t'.1.number < t.1.number ↔ t'.1.order < t.1.order := CalendarDate.number_lt_iff
  unfold microsOf instantOrder
  omega

/-- One timestamp names a moment at or before another's. -/
def ExactlyBefore (s s' : String) : Prop := ∃ x ∈ exactTime s, ∃ y ∈ exactTime s', x ≤ y

/-- **The order of moments.**  They are in order exactly when they are in order to the microsecond
and, where they agree to the microsecond, in order beyond it. -/
theorem exactTime_le_iff {s s' : String} {t t' : CalendarDate × ℕ} (h : parseTimestamp s = some t)
    (h' : parseTimestamp s' = some t') :
    ExactlyBefore s s' ↔ instantOrder t ≤ instantOrder t' ∧
      (instantOrder t = instantOrder t' → beyondMicros s ≤ beyondMicros s') := by
  obtain ⟨hday, htime, hnonneg, hsmall⟩ := exactTime_of_parse h
  obtain ⟨hday', htime', hnonneg', hsmall'⟩ := exactTime_of_parse h'
  have hlt := microsOf_lt_iff hday hday'
  have hgt := microsOf_lt_iff hday' hday
  have hbefore : ExactlyBefore s s' ↔ (microsOf t : ℚ) / 1000000 + beyondMicros s ≤
      (microsOf t' : ℚ) / 1000000 + beyondMicros s' := by
    simp [ExactlyBefore, htime, htime']
  rw [hbefore]
  rcases Nat.lt_trichotomy (microsOf t) (microsOf t') with hless | heq | hmore
  · have hstep : (microsOf t : ℚ) + 1 ≤ microsOf t' := by exact_mod_cast hless
    have horder := hlt.mp hless
    refine iff_of_true (by linarith) ⟨horder.le, fun heq => absurd heq horder.ne⟩
  · have horder : instantOrder t = instantOrder t' := by omega
    simp [heq, horder]
  · have hstep : (microsOf t' : ℚ) + 1 ≤ microsOf t := by exact_mod_cast hmore
    have horder := hgt.mp hmore
    refine iff_of_false (by linarith) ?_
    rintro ⟨hle, -⟩
    omega

end Py

import Mathlib.Data.List.TakeWhile
import QualityCI.Lib.HexNumeral
import QualityCI.Authorization.Subject
import QualityCI.Engine.Returns
import QualityCI.Replay.Operations

/-!
# The digests the layers admit

Every layer checks the form of the hashes it is given, and each has a check of its own.  Three of
them look at the alphabet.  Three ask for 64 characters, no capitals, and that `int(value, 16)`
returns, and `int` has a grammar of its own.

* `validationLowerSha`, `approvalLowerSha`, `isLowerHex` — the checks that call `int`.
* `lowerHash`, `sourceLowerHash`, `isLowercaseSha256` — the checks of the alphabet.
* `databaseCheck` — the constraint of the tables.
* `Disguised` — a numeral of 64 characters that is not 64 hexadecimal digits.
* **`oneLanguage_iff`** — the checks agree on a text exactly when it is not such a numeral.
-/

namespace QualityCI

open Py

/-! ## The checks -/

/-- `_lower_sha` of the validation evidence, word for word the one of the approval subject. -/
def validationLowerSha (value : Json) (label : String) : Result String :=
  approvalLowerSha value label

/-- `_is_lower_hex`.  As in `isLowerSha`, where `int` returns only ASCII capitals are changed by
`lower`. -/
def isLowerHex (value : Json) (length : ℕ) : Bool :=
  match value with
  | .str s => s.toList.length = length && s.toList.all (fun c => !('A' ≤ c && c ≤ 'Z')) &&
      (intBase16 s).isSome
  | _ => false

/-- `CHECK(length(h)=64 AND h NOT GLOB '*[^0-9a-f]*')`: both functions of SQLite read a text up to
its first NUL. -/
def databaseCheck (h : String) : Bool :=
  let read := h.toList.takeWhile (· ≠ Char.ofNat 0)
  read.length = 64 && !read.any fun c => !decide (IsHexDigit c)

/-! ## One language -/

/-- **What the layers owe each other**: the three checks that call `int` accept the texts of 64
lowercase hexadecimal digits, which are the texts the three checks of the alphabet accept, and
what they accept passes the constraint of the tables. -/
structure OneLanguage (s : String) : Prop where
  validation : ∀ label, validationLowerSha (.str s) label = .ok s ↔ IsHexText 64 s
  approval : ∀ label, approvalLowerSha (.str s) label = .ok s ↔ IsHexText 64 s
  store : isLowerHex (.str s) 64 = true ↔ IsHexText 64 s
  models : ∀ label, lowerHash (some s) label = .ok () ↔ IsHexText 64 s
  source : ∀ label, sourceLowerHash (.str s) label = .ok () ↔ IsHexText 64 s
  loader : isLowercaseSha256 s = true ↔ IsHexText 64 s
  database : isLowerHex (.str s) 64 = true → databaseCheck s = true

/-- **A disguised numeral**: 64 characters without capitals that `int` reads in base sixteen, one
of which is no lowercase hexadecimal digit.  It is a blank, a sign, the `x` of `0x`, an underscore
or a digit of another script. -/
structure Disguised (s : String) : Prop where
  length : s.toList.length = 64
  lower : ∀ c ∈ s.toList, ¬('A' ≤ c ∧ c ≤ 'Z')
  numeral : IsHexNumeral (asciiForm s.toList)
  other : ∃ c ∈ s.toList, ¬IsHexDigit c

/-! ## The checks of the alphabet -/

lemma isLowercaseSha256_iff (s : String) : isLowercaseSha256 s = true ↔ IsHexText 64 s := by
  simp only [isLowercaseSha256, IsHexText, IsHexDigit, Bool.and_eq_true, Bool.or_eq_true,
    decide_eq_true_eq, List.all_eq_true]

lemma lowerHash_iff (s label : String) : lowerHash (some s) label = .ok () ↔ IsHexText 64 s := by
  simp only [lowerHash, lowerHashOrNone, seq_eq_ok, require_eq_ok, Option.isSome_some, and_true]

lemma sourceLowerHash_iff (s label : String) :
    sourceLowerHash (.str s) label = .ok () ↔ IsHexText 64 s := by
  simp only [sourceLowerHash, require_eq_ok, isLowercaseSha256_iff]

lemma databaseCheck_of_hex {s : String} (h : IsHexText 64 s) : databaseCheck s = true := by
  have hread : s.toList.takeWhile (· ≠ Char.ofNat 0) = s.toList := by
    rw [List.takeWhile_eq_self_iff]
    intro c hc
    rw [decide_eq_true_eq]
    rintro rfl
    exact absurd (h.2 _ hc) (by decide)
  simp only [databaseCheck, hread, Bool.and_eq_true, decide_eq_true_eq, Bool.not_eq_true',
    List.any_eq_false, decide_eq_false_iff_not, not_not]
  exact h

/-! ## The checks that call `int` -/

/-- The check of the store, as a statement about the text. -/
lemma isLowerHex_iff (s : String) :
    isLowerHex (.str s) 64 = true ↔
      s.toList.length = 64 ∧ (∀ c ∈ s.toList, ¬('A' ≤ c ∧ c ≤ 'Z')) ∧
        IsHexNumeral (asciiForm s.toList) := by
  simp only [isLowerHex, Bool.and_eq_true, decide_eq_true_eq, List.all_eq_true,
    isSome_intBase16_iff, Bool.not_eq_true', Bool.and_eq_false_iff, decide_eq_false_iff_not,
    not_and_or, and_assoc]

lemma isLowerHex_of_hex {s : String} (h : IsHexText 64 s) : isLowerHex (.str s) 64 = true :=
  isLowerSha_of_hex h.1 h.2

/-- No blank is rewritten to a digit. -/
lemma not_isHexValue_of_isSpace {c : Char} (h : isSpace c = true) :
    ¬IsHexValue c ∧ ¬IsHexValue (asciiOf c) := by
  have hself : ¬IsHexValue c := by
    intro hc
    have hrange := hexValue_range hc
    simp only [isSpace, Bool.or_eq_true, Bool.and_eq_true, decide_eq_true_eq] at h
    omega
  refine ⟨hself, ?_⟩
  unfold asciiOf
  split_ifs
  · exact hself
  · rw [IsHexValue]
    decide

/-- A numeral is not blank: it has a digit, and no digit is a space. -/
lemma isBlank_of_isLowerHex {s : String} (h : isLowerHex (.str s) 64 = true) :
    isBlank s = false := by
  obtain ⟨-, -, front, body, back, -, hbody, -, hform⟩ := (isLowerHex_iff s).mp h
  obtain ⟨d, hd, hvalue⟩ := hbody.has_digit
  rw [isBlank, ← Bool.not_eq_true, List.all_eq_true]
  intro hblank
  have hmem : d ∈ asciiForm s.toList := by
    rw [hform]
    simp [hd]
  unfold asciiForm at hmem
  split_ifs at hmem
  · exact (not_isHexValue_of_isSpace (hblank d hmem)).1 hvalue
  · obtain ⟨c, hc, rfl⟩ := List.mem_map.mp hmem
    exact (not_isHexValue_of_isSpace (hblank c hc)).2 hvalue

lemma approvalLowerSha_iff (s label : String) :
    approvalLowerSha (.str s) label = .ok s ↔ isLowerHex (.str s) 64 = true := by
  simp only [approvalLowerSha, exactNonempty, bind_eq_ok, exists_unit, require_eq_ok,
    Except.ok.injEq]
  constructor
  · rintro ⟨t, ⟨-, rfl⟩, h, -⟩
    exact h
  · intro h
    exact ⟨s, ⟨isBlank_of_isLowerHex h, rfl⟩, h, rfl⟩

/-- What the store accepts is 64 hexadecimal digits or a disguised numeral. -/
lemma isLowerHex_iff_or (s : String) :
    isLowerHex (.str s) 64 = true ↔ IsHexText 64 s ∨ Disguised s := by
  constructor
  · intro h
    obtain ⟨hlen, hlower, hnum⟩ := (isLowerHex_iff s).mp h
    by_cases hall : ∀ c ∈ s.toList, IsHexDigit c
    · exact Or.inl ⟨hlen, hall⟩
    · push Not at hall
      exact Or.inr ⟨hlen, hlower, hnum, hall⟩
  · rintro (h | h)
    · exact isLowerHex_of_hex h
    · exact (isLowerHex_iff s).mpr ⟨h.length, h.lower, h.numeral⟩

lemma Disguised.not_hex {s : String} (h : Disguised s) : ¬IsHexText 64 s := by
  intro hhex
  obtain ⟨c, hc, hno⟩ := h.other
  exact hno (hhex.2 c hc)

/-- **The checks agree on a text exactly when it is not a disguised numeral.** -/
theorem oneLanguage_iff (s : String) : OneLanguage s ↔ ¬Disguised s := by
  constructor
  · intro h hdis
    exact hdis.not_hex (h.store.mp ((isLowerHex_iff_or s).mpr (Or.inr hdis)))
  · intro hdis
    have hstore : isLowerHex (.str s) 64 = true ↔ IsHexText 64 s := by
      rw [isLowerHex_iff_or, or_iff_left hdis]
    have happroval : ∀ label, approvalLowerSha (.str s) label = .ok s ↔ IsHexText 64 s := by
      intro label
      rw [approvalLowerSha_iff, hstore]
    exact {
      validation := happroval
      approval := happroval
      store := hstore
      models := lowerHash_iff s
      source := sourceLowerHash_iff s
      loader := isLowercaseSha256_iff s
      database := fun h => databaseCheck_of_hex (hstore.mp h) }

/-- `0x` and 62 zeros pass the checks that call `int`, and no other. -/
theorem marked_not_oneLanguage :
    ¬OneLanguage "0x00000000000000000000000000000000000000000000000000000000000000" := by
  intro h
  exact absurd (h.store.mp (by decide)) (by decide)

end QualityCI

import QualityCI.Lib.JsonText
import QualityCI.Lib.Sha256

/-!
# Bytes

What a program does with raw bytes before they are values: `bytes.decode("utf-8")`, SHA-256 of
bytes, standard base64, and `int(text, 16)`.

* `encodeUtf8`, `decodeUtf8` — text and its bytes.
* `sha256Bytes` — the digest of bytes.
* `base64Encode`, `base64Decode` — RFC 4648 with padding.
* `intBase16` — the integer that `int(text, 16)` reads, which allows a sign, `0x`, single
  underscores, surrounding spaces and the decimal digits of every script.
* **`decodeUtf8_encodeUtf8`** — decoding gives the encoded text back.
-/

namespace Py

/-- Raw bytes. -/
abbrev Bytes := List UInt8

/-! ## UTF-8 -/

/-- `text.encode("utf-8")`. -/
def encodeUtf8 (text : String) : Bytes := (utf8 text).map UInt8.ofNat

/-- A continuation byte. -/
def isTail (b : ℕ) : Bool := 0x80 ≤ b && b ≤ 0xBF

/-- A character whose code must lie in the range its length is for; no half of a surrogate pair. -/
def codeChar (low code : ℕ) : Option Char :=
  if low ≤ code ∧ ¬(0xD800 ≤ code ∧ code < 0xE000) ∧ code < 0x110000 then some (Char.ofNat code)
  else none

/-- The characters of bytes. -/
def decodeChars : List ℕ → Option (List Char)
  | [] => some []
  | a :: rest =>
      if a < 0x80 then do
        let cs ← decodeChars rest
        pure (Char.ofNat a :: cs)
      else if 0xC0 ≤ a ∧ a ≤ 0xDF then
        match rest with
        | b :: rest => do
            guard (isTail b = true)
            let c ← codeChar 0x80 ((a - 0xC0) * 0x40 + (b - 0x80))
            let cs ← decodeChars rest
            pure (c :: cs)
        | [] => none
      else if 0xE0 ≤ a ∧ a ≤ 0xEF then
        match rest with
        | b :: c :: rest => do
            guard (isTail b = true ∧ isTail c = true)
            let c ← codeChar 0x800 ((a - 0xE0) * 0x1000 + (b - 0x80) * 0x40 + (c - 0x80))
            let cs ← decodeChars rest
            pure (c :: cs)
        | _ => none
      else if 0xF0 ≤ a ∧ a ≤ 0xF7 then
        match rest with
        | b :: c :: d :: rest => do
            guard (isTail b = true ∧ isTail c = true ∧ isTail d = true)
            let c ← codeChar 0x10000
              ((a - 0xF0) * 0x40000 + (b - 0x80) * 0x1000 + (c - 0x80) * 0x40 + (d - 0x80))
            let cs ← decodeChars rest
            pure (c :: cs)
        | _ => none
      else none

/-- `raw.decode("utf-8")`, `none` where it raises `UnicodeDecodeError`. -/
def decodeUtf8 (raw : Bytes) : Option String :=
  (decodeChars (raw.map UInt8.toNat)).map String.ofList

lemma utf8Char_lt (c : Char) : ∀ b ∈ utf8Char c, b < 256 := by
  intro b hb
  have hc : c.toNat < 0x110000 := by
    have := c.valid
    rcases this with h | h
    · exact lt_trans h (by norm_num)
    · exact h.2
  simp only [utf8Char] at hb
  split_ifs at hb <;> simp only [List.mem_cons, List.not_mem_nil, or_false] at hb <;> omega

lemma toNat_encodeUtf8 (text : String) : (encodeUtf8 text).map UInt8.toNat = utf8 text := by
  rw [encodeUtf8, List.map_map]
  refine (List.map_congr_left fun b hb => ?_).trans (List.map_id _)
  obtain ⟨c, -, hc⟩ := List.mem_flatMap.mp hb
  exact Nat.mod_eq_of_lt (utf8Char_lt c b hc)

lemma codeChar_toNat {c : Char} {low : ℕ} (h : low ≤ c.toNat) : codeChar low c.toNat = some c := by
  have hvalid : c.toNat < 0xD800 ∨ 0xDFFF < c.toNat ∧ c.toNat < 0x110000 := c.valid
  rw [codeChar, if_pos (by omega), Char.ofNat_toNat]

lemma isTail_of_lt {n : ℕ} (h : n < 0x40) : isTail (0x80 + n) = true := by
  simp only [isTail, Bool.and_eq_true, decide_eq_true_eq]
  omega

/-- One character comes back, and the rest is decoded after it. -/
lemma decodeChars_utf8Char (c : Char) (rest : List ℕ) :
    decodeChars (utf8Char c ++ rest) = (decodeChars rest).map (c :: ·) := by
  have hvalid : c.toNat < 0xD800 ∨ 0xDFFF < c.toNat ∧ c.toNat < 0x110000 := c.valid
  have hpure : ∀ o : Option (List Char),
      (do let cs ← o; pure (c :: cs)) = o.map (c :: ·) := by
    intro o
    cases o <;> rfl
  simp only [utf8Char]
  split_ifs with h1 h2 h3
  · -- one byte
    rw [List.singleton_append, decodeChars.eq_def]
    simp only [h1, if_true, Char.ofNat_toNat]
    exact hpure _
  · -- two bytes
    have hcode : (0xC0 + c.toNat / 0x40 - 0xC0) * 0x40 + (0x80 + c.toNat % 0x40 - 0x80) =
        c.toNat := by omega
    rw [List.cons_append, List.cons_append, List.nil_append, decodeChars.eq_def]
    simp only [if_neg (show ¬0xC0 + c.toNat / 0x40 < 0x80 by omega),
      if_pos (show 0xC0 ≤ 0xC0 + c.toNat / 0x40 ∧ 0xC0 + c.toNat / 0x40 ≤ 0xDF by omega), hcode,
      isTail_of_lt (Nat.mod_lt c.toNat (show 0 < 0x40 by decide)),
      codeChar_toNat (show 0x80 ≤ c.toNat by omega)]
    exact hpure _
  · -- three bytes
    have hcode : (0xE0 + c.toNat / 0x1000 - 0xE0) * 0x1000 +
        (0x80 + c.toNat / 0x40 % 0x40 - 0x80) * 0x40 + (0x80 + c.toNat % 0x40 - 0x80) =
        c.toNat := by omega
    rw [List.cons_append, List.cons_append, List.cons_append, List.nil_append, decodeChars.eq_def]
    simp only [if_neg (show ¬0xE0 + c.toNat / 0x1000 < 0x80 by omega),
      if_neg (show ¬(0xC0 ≤ 0xE0 + c.toNat / 0x1000 ∧ 0xE0 + c.toNat / 0x1000 ≤ 0xDF) by omega),
      if_pos (show 0xE0 ≤ 0xE0 + c.toNat / 0x1000 ∧ 0xE0 + c.toNat / 0x1000 ≤ 0xEF by omega), hcode,
      isTail_of_lt (Nat.mod_lt c.toNat (show 0 < 0x40 by decide)),
      isTail_of_lt (Nat.mod_lt (c.toNat / 0x40) (show 0 < 0x40 by decide)),
      codeChar_toNat (show 0x800 ≤ c.toNat by omega)]
    exact hpure _
  · -- four bytes
    have hcode : (0xF0 + c.toNat / 0x40000 - 0xF0) * 0x40000 +
        (0x80 + c.toNat / 0x1000 % 0x40 - 0x80) * 0x1000 +
        (0x80 + c.toNat / 0x40 % 0x40 - 0x80) * 0x40 + (0x80 + c.toNat % 0x40 - 0x80) =
        c.toNat := by omega
    rw [List.cons_append, List.cons_append, List.cons_append, List.cons_append, List.nil_append,
      decodeChars.eq_def]
    simp only [if_neg (show ¬0xF0 + c.toNat / 0x40000 < 0x80 by omega),
      if_neg (show ¬(0xC0 ≤ 0xF0 + c.toNat / 0x40000 ∧ 0xF0 + c.toNat / 0x40000 ≤ 0xDF) by omega),
      if_neg (show ¬(0xE0 ≤ 0xF0 + c.toNat / 0x40000 ∧ 0xF0 + c.toNat / 0x40000 ≤ 0xEF) by omega),
      if_pos (show 0xF0 ≤ 0xF0 + c.toNat / 0x40000 ∧ 0xF0 + c.toNat / 0x40000 ≤ 0xF7 by omega),
      hcode, isTail_of_lt (Nat.mod_lt c.toNat (show 0 < 0x40 by decide)),
      isTail_of_lt (Nat.mod_lt (c.toNat / 0x40) (show 0 < 0x40 by decide)),
      isTail_of_lt (Nat.mod_lt (c.toNat / 0x1000) (show 0 < 0x40 by decide)),
      codeChar_toNat (show 0x10000 ≤ c.toNat by omega)]
    exact hpure _

/-- **Decoding gives the encoded text back.** -/
theorem decodeUtf8_encodeUtf8 (text : String) : decodeUtf8 (encodeUtf8 text) = some text := by
  have hchars : ∀ cs : List Char, decodeChars (cs.flatMap utf8Char) = some cs := by
    intro cs
    induction cs with
    | nil => rfl
    | cons c cs ih => rw [List.flatMap_cons, decodeChars_utf8Char, ih, Option.map_some]
  rw [decodeUtf8, toNat_encodeUtf8, utf8, hchars, Option.map_some, String.ofList_toList]

lemma encodeUtf8_injective {s t : String} (h : encodeUtf8 s = encodeUtf8 t) : s = t := by
  have hdecode := decodeUtf8_encodeUtf8 s
  rw [h, decodeUtf8_encodeUtf8] at hdecode
  exact (Option.some.inj hdecode).symm

/-! ## The escapes of JSON -/

/-- A character of one byte is escaped by such characters. -/
lemma escapeChar_ascii {c : Char} (hc : c.toNat < 0x80) : ∀ d ∈ escapeChar c, d.toNat < 0x80 := by
  have hhex : ∀ d ∈ hexText 4 c.toNat, d.toNat < 0x80 := fun d hd => by
    rcases isHexDigit_hexText hd with ⟨-, h⟩ | ⟨-, h⟩
    · exact lt_of_le_of_lt (show d.toNat ≤ 57 from h) (by norm_num)
    · exact lt_of_le_of_lt (show d.toNat ≤ 102 from h) (by norm_num)
  unfold escapeChar
  split_ifs <;> simp [hc]
  exact hhex


/-- A longer character is never escaped. -/
lemma escapeChar_of_le {c : Char} (hc : 0x80 ≤ c.toNat) : escapeChar c = [c] := by
  have hchar : ∀ d : Char, d.toNat < 0x80 → c ≠ d := by
    rintro d hd rfl
    exact absurd hc (not_le_of_gt hd)
  simp [escapeChar, hchar '\n' (by decide), hchar '\r' (by decide), hchar '\t' (by decide),
    hchar '\"' (by decide), hchar '\\' (by decide), show c.toNat ≠ 0x0C by omega,
    show c.toNat ≠ 0x08 by omega, show ¬c.toNat < 0x20 by omega]

/-! ## SHA-256 of bytes -/

/-- `hashlib.sha256(raw).hexdigest()`. -/
def sha256Bytes (raw : Bytes) : String :=
  let ws := wordsOf (padBytes (raw.map UInt8.toNat))
  let w := (blocksOf (ws.length / 16) ws).foldl compressBlock initialWords
  String.ofList ([w.a, w.b, w.c, w.d, w.e, w.f, w.g, w.h].flatMap (hexText 8))

lemma sha256Bytes_encodeUtf8 (text : String) : sha256Bytes (encodeUtf8 text) = sha256Hex text := by
  rw [sha256Bytes, toNat_encodeUtf8, sha256Hex]

lemma sha256Bytes_chars (raw : Bytes) :
    (sha256Bytes raw).toList.length = 64 ∧ ∀ c ∈ (sha256Bytes raw).toList, IsHexDigit c := by
  unfold sha256Bytes
  rw [String.toList_ofList]
  constructor
  · simp [length_hexText]
  · intro c hc
    obtain ⟨w, -, hc⟩ := List.mem_flatMap.mp hc
    exact isHexDigit_hexText hc

/-! ## Base64 -/

/-- The character of six bits. -/
def base64Char (n : ℕ) : Char :=
  if n < 26 then Char.ofNat (65 + n)
  else if n < 52 then Char.ofNat (97 + (n - 26))
  else if n < 62 then Char.ofNat (48 + (n - 52))
  else if n = 62 then '+'
  else '/'

/-- The six bits of a character. -/
def base64Value (c : Char) : Option ℕ :=
  if 'A' ≤ c ∧ c ≤ 'Z' then some (c.toNat - 65)
  else if 'a' ≤ c ∧ c ≤ 'z' then some (c.toNat - 97 + 26)
  else if '0' ≤ c ∧ c ≤ '9' then some (c.toNat - 48 + 52)
  else if c = '+' then some 62
  else if c = '/' then some 63
  else none

/-- Three bytes to four characters, the last group padded. -/
def base64Chars : List ℕ → List Char
  | [] => []
  | [a] => [base64Char (a / 4), base64Char (a % 4 * 16), '=', '=']
  | [a, b] =>
      [base64Char (a / 4), base64Char (a % 4 * 16 + b / 16), base64Char (b % 16 * 4), '=']
  | a :: b :: c :: rest =>
      base64Char (a / 4) :: base64Char (a % 4 * 16 + b / 16) ::
        base64Char (b % 16 * 4 + c / 64) :: base64Char (c % 64) :: base64Chars rest

/-- `base64.b64encode(raw).decode("ascii")`. -/
def base64Encode (raw : Bytes) : String := String.ofList (base64Chars (raw.map UInt8.toNat))

/-- The bytes of groups of four characters. -/
def base64Groups : List Char → Option (List ℕ)
  | [] => some []
  | [w, x, '=', '='] => do
      let w ← base64Value w
      let x ← base64Value x
      pure [w * 4 + x / 16]
  | [w, x, y, '='] => do
      let w ← base64Value w
      let x ← base64Value x
      let y ← base64Value y
      pure [w * 4 + x / 16, x % 16 * 16 + y / 4]
  | w :: x :: y :: z :: rest => do
      let w ← base64Value w
      let x ← base64Value x
      let y ← base64Value y
      let z ← base64Value z
      let more ← base64Groups rest
      pure ((w * 4 + x / 16) :: (x % 16 * 16 + y / 4) :: (y % 4 * 64 + z) :: more)
  | _ => none

/-- `base64.b64decode(text, validate=True)`, `none` where it raises. -/
def base64Decode (text : String) : Option Bytes :=
  (base64Groups text.toList).map fun bytes => bytes.map UInt8.ofNat

/-! ## `int(text, 16)` -/

/-- The zeros of the decimal digits of the scripts outside ASCII. -/
def decimalZeros : List ℕ :=
  [0x660, 0x6f0, 0x7c0, 0x966, 0x9e6, 0xa66, 0xae6, 0xb66, 0xbe6, 0xc66, 0xce6, 0xd66, 0xde6,
   0xe50, 0xed0, 0xf20, 0x1040, 0x1090, 0x17e0, 0x1810, 0x1946, 0x19d0, 0x1a80, 0x1a90, 0x1b50,
   0x1bb0, 0x1c40, 0x1c50, 0xa620, 0xa8d0, 0xa900, 0xa9d0, 0xa9f0, 0xaa50, 0xabf0, 0xff10, 0x104a0,
   0x10d30, 0x11066, 0x110f0, 0x11136, 0x111d0, 0x112f0, 0x11450, 0x114d0, 0x11650, 0x116c0,
   0x11730, 0x118e0, 0x11950, 0x11c50, 0x11d50, 0x11da0, 0x16a60, 0x16ac0, 0x16b50, 0x1d7ce,
   0x1d7d8, 0x1d7e2, 0x1d7ec, 0x1d7f6, 0x1e140, 0x1e2f0, 0x1e950, 0x1fbf0]

/-- The ASCII form of a character outside ASCII: a space, a decimal digit, or neither. -/
def asciiOf (c : Char) : Char :=
  if c.toNat < 127 then c
  else if isSpace c then ' '
  else
    match decimalZeros.find? fun first => first ≤ c.toNat && c.toNat < first + 10 with
    | some first => Char.ofNat (48 + (c.toNat - first))
    | none => '?'

/-- The spaces `int` skips in ASCII text. -/
def isAsciiSpace (c : Char) : Bool := c = ' ' || (0x09 ≤ c.toNat && c.toNat ≤ 0x0D)

/-- Hexadecimal digits with single underscores between them; `begun` once a digit was read and
`under` right after an underscore. -/
def scanBase16 : Bool → Bool → ℕ → List Char → Option (ℕ × List Char)
  | begun, under, n, [] => if begun = true ∧ under = false then some (n, []) else none
  | begun, under, n, c :: rest =>
      if c = '_' then
        if begun = true ∧ under = false then scanBase16 begun true n rest else none
      else
        match hexValue c with
        | some d => scanBase16 true false (16 * n + d) rest
        | none => if begun = true ∧ under = false then some (n, c :: rest) else none

/-- The digits after the sign: `0x` may stand before them, and then an underscore. -/
def scanPrefixed : List Char → Option (ℕ × List Char)
  | '0' :: x :: rest =>
      if x = 'x' ∨ x = 'X' then
        match rest with
        | '_' :: rest => scanBase16 false false 0 rest
        | rest => scanBase16 false false 0 rest
      else scanBase16 false false 0 ('0' :: x :: rest)
  | cs => scanBase16 false false 0 cs

/-- The digits after the spaces, with their sign. -/
def scanSigned : List Char → Option (ℤ × List Char)
  | '-' :: rest => (scanPrefixed rest).map fun (n, tail) => (-(n : ℤ), tail)
  | '+' :: rest => (scanPrefixed rest).map fun (n, tail) => ((n : ℤ), tail)
  | rest => (scanPrefixed rest).map fun (n, tail) => ((n : ℤ), tail)

/-- `int(text, 16)`, `none` where it raises `ValueError`. -/
def intBase16 (text : String) : Option ℤ :=
  -- digits and spaces outside ASCII are rewritten only in a text that has some such character
  let cs := if text.toList.all (fun c => c.toNat < 128) then text.toList
    else text.toList.map asciiOf
  match scanSigned (cs.dropWhile isAsciiSpace) with
  | some (n, rest) => if rest.all isAsciiSpace then some n else none
  | none => none

/-- `len(value) == 64`, `value == value.lower()` and `int(value, 16)` returns.  Where `int` returns
no character but an ASCII capital is changed by `lower`. -/
def isLowerSha (value : String) : Bool :=
  value.toList.length = 64 && value.toList.all (fun c => !('A' ≤ c && c ≤ 'Z')) &&
    (intBase16 value).isSome

/-- Hexadecimal digits read to the end. -/
lemma scanBase16_hex : ∀ (cs : List Char) (begun : Bool) (n : ℕ), (∀ c ∈ cs, IsHexDigit c) →
    (cs ≠ [] ∨ begun = true) → ∃ m, scanBase16 begun false n cs = some (m, [])
  | [], begun, n, _, h => by
      have hbegun : begun = true := by simpa using h
      exact ⟨n, by simp [scanBase16, hbegun]⟩
  | c :: cs, begun, n, hall, _ => by
      obtain ⟨hc, hcs⟩ := List.forall_mem_cons.mp hall
      have hne : c ≠ '_' := by
        rintro rfl
        rcases hc with h | h
        · exact absurd h (by decide)
        · exact absurd h (by decide)
      obtain ⟨d, hd⟩ : ∃ d, hexValue c = some d := by
        unfold hexValue
        rcases hc with h | h
        · exact ⟨_, if_pos h⟩
        · rw [if_pos h]
          split_ifs
          · exact ⟨_, rfl⟩
          · exact ⟨_, rfl⟩
      rw [scanBase16, if_neg hne, hd]
      exact scanBase16_hex cs true (16 * n + d) hcs (Or.inr rfl)

/-- **A digest is a lowercase SHA-256 to every validator.** -/
theorem isLowerSha_of_hex {value : String} (hlen : value.toList.length = 64)
    (h : ∀ c ∈ value.toList, IsHexDigit c) : isLowerSha value = true := by
  have hupper : ∀ c ∈ value.toList, ¬('A' ≤ c ∧ c ≤ 'Z') := by
    intro c hc hcap
    rcases h c hc with hd | hd
    · exact absurd (le_trans hcap.1 hd.2) (by decide)
    · exact absurd (le_trans hd.1 hcap.2) (by decide)
  have hascii : value.toList.all (fun c => c.toNat < 128) = true := by
    rw [List.all_eq_true]
    intro c hc
    have hbound : c ≤ 'f' := by
      rcases h c hc with hd | hd
      · exact le_trans hd.2 (by decide)
      · exact hd.2
    have : c.toNat ≤ 'f'.toNat := hbound
    simpa using lt_of_le_of_lt this (by decide)
  obtain ⟨c, rest, hcons⟩ : ∃ c rest, value.toList = c :: rest := by
    match hv : value.toList with
    | [] => simp [hv] at hlen
    | c :: rest => exact ⟨c, rest, rfl⟩
  have hdigit : ∀ d, IsHexDigit d → isAsciiSpace d = false ∧ d ≠ '-' ∧ d ≠ '+' ∧ d ≠ 'x' ∧
      d ≠ 'X' := by
    intro d hd
    have hrange : 48 ≤ d.toNat ∧ d.toNat ≤ 57 ∨ 97 ≤ d.toNat ∧ d.toNat ≤ 102 := hd
    refine ⟨?_, ?_, ?_, ?_, ?_⟩
    · simp only [isAsciiSpace, Bool.or_eq_false_iff, Bool.and_eq_false_iff, decide_eq_false_iff_not]
      refine ⟨?_, by omega⟩
      rintro rfl
      exact absurd hrange (by decide)
    all_goals
      rintro rfl
      exact absurd hrange (by decide)
  rw [hcons] at h
  obtain ⟨hc, hrest⟩ := List.forall_mem_cons.mp h
  obtain ⟨hspace, hminus, hplus, -, -⟩ := hdigit c hc
  obtain ⟨m, hm⟩ := scanBase16_hex (c :: rest) false 0 h (Or.inl (by simp))
  have hprefixed : scanPrefixed (c :: rest) = some (m, []) := by
    unfold scanPrefixed
    split
    · rename_i x tail heq
      have hx : IsHexDigit x := by
        have hmem : x ∈ rest := by
          rw [(List.cons.inj heq).2]
          exact List.mem_cons_self
        exact hrest x hmem
      obtain ⟨-, -, -, hx1, hx2⟩ := hdigit x hx
      rw [if_neg (by simp [hx1, hx2]), ← heq]
      exact hm
    · exact hm
  have hsigned : scanSigned (c :: rest) = some ((m : ℤ), []) := by
    unfold scanSigned
    split
    · rename_i tail heq
      exact absurd (List.cons.inj heq).1 hminus
    · rename_i tail heq
      exact absurd (List.cons.inj heq).1 hplus
    · rw [hprefixed, Option.map_some]
  have hint : intBase16 value = some (m : ℤ) := by
    simp only [intBase16]
    rw [if_pos hascii, hcons, List.dropWhile_cons_of_neg (by simp [hspace]), hsigned]
    rfl
  simp only [isLowerSha, Bool.and_eq_true, decide_eq_true_eq, List.all_eq_true, hint]
  refine ⟨⟨hlen, fun d hd => ?_⟩, rfl⟩
  have := hupper d hd
  rw [Bool.not_eq_true', Bool.and_eq_false_iff, decide_eq_false_iff_not, decide_eq_false_iff_not]
  exact not_and_or.mp this

end Py

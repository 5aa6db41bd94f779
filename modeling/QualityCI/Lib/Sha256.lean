import QualityCI.Lib.PyText

/-!
# SHA-256

`hashlib.sha256(text.encode("utf-8")).hexdigest()`, computed on natural numbers below `2 ^ 32`.
Nothing is assumed of the function; where a result needs that some texts do not collide, it says
so about these texts.

* `utf8` — the bytes of a text.
* `sha256Hex` — the digest in 64 lowercase hexadecimal digits.
* **`sha256Hex_chars`** — its length and its alphabet.
-/

namespace Py

/-! ## UTF-8 -/

/-- The bytes of one character. -/
def utf8Char (c : Char) : List ℕ :=
  let n := c.toNat
  if n < 0x80 then [n]
  else if n < 0x800 then [0xC0 + n / 0x40, 0x80 + n % 0x40]
  else if n < 0x10000 then [0xE0 + n / 0x1000, 0x80 + n / 0x40 % 0x40, 0x80 + n % 0x40]
  else [0xF0 + n / 0x40000, 0x80 + n / 0x1000 % 0x40, 0x80 + n / 0x40 % 0x40, 0x80 + n % 0x40]

/-- `text.encode("utf-8")`. -/
def utf8 (text : String) : List ℕ := text.toList.flatMap utf8Char

/-! ## The compression function -/

def add32 (a b : ℕ) : ℕ := (a + b) % 0x100000000

def rotateRight (n a : ℕ) : ℕ := a >>> n ||| (a <<< (32 - n)) % 0x100000000

def smallSigma0 (a : ℕ) : ℕ := (rotateRight 7 a ^^^ rotateRight 18 a) ^^^ a >>> 3
def smallSigma1 (a : ℕ) : ℕ := (rotateRight 17 a ^^^ rotateRight 19 a) ^^^ a >>> 10
def bigSigma0 (a : ℕ) : ℕ := (rotateRight 2 a ^^^ rotateRight 13 a) ^^^ rotateRight 22 a
def bigSigma1 (a : ℕ) : ℕ := (rotateRight 6 a ^^^ rotateRight 11 a) ^^^ rotateRight 25 a

def choose (e f g : ℕ) : ℕ := e &&& f ^^^ (0xFFFFFFFF ^^^ e) &&& g
def majority (a b c : ℕ) : ℕ := (a &&& b ^^^ a &&& c) ^^^ b &&& c

/-- The constants of the 64 rounds. -/
def roundConstants : List ℕ :=
  [0x428a2f98, 0x71374491, 0xb5c0fbcf, 0xe9b5dba5, 0x3956c25b, 0x59f111f1, 0x923f82a4, 0xab1c5ed5,
   0xd807aa98, 0x12835b01, 0x243185be, 0x550c7dc3, 0x72be5d74, 0x80deb1fe, 0x9bdc06a7, 0xc19bf174,
   0xe49b69c1, 0xefbe4786, 0x0fc19dc6, 0x240ca1cc, 0x2de92c6f, 0x4a7484aa, 0x5cb0a9dc, 0x76f988da,
   0x983e5152, 0xa831c66d, 0xb00327c8, 0xbf597fc7, 0xc6e00bf3, 0xd5a79147, 0x06ca6351, 0x14292967,
   0x27b70a85, 0x2e1b2138, 0x4d2c6dfc, 0x53380d13, 0x650a7354, 0x766a0abb, 0x81c2c92e, 0x92722c85,
   0xa2bfe8a1, 0xa81a664b, 0xc24b8b70, 0xc76c51a3, 0xd192e819, 0xd6990624, 0xf40e3585, 0x106aa070,
   0x19a4c116, 0x1e376c08, 0x2748774c, 0x34b0bcb5, 0x391c0cb3, 0x4ed8aa4a, 0x5b9cca4f, 0x682e6ff3,
   0x748f82ee, 0x78a5636f, 0x84c87814, 0x8cc70208, 0x90befffa, 0xa4506ceb, 0xbef9a3f7, 0xc67178f2]

/-- The eight working words. -/
structure Words where
  a : ℕ
  b : ℕ
  c : ℕ
  d : ℕ
  e : ℕ
  f : ℕ
  g : ℕ
  h : ℕ

def initialWords : Words :=
  ⟨0x6a09e667, 0xbb67ae85, 0x3c6ef372, 0xa54ff53a, 0x510e527f, 0x9b05688c, 0x1f83d9ab, 0x5be0cd19⟩

/-- The sixteen words of a block extended by `n` more, the newest first. -/
def schedule : ℕ → List ℕ → List ℕ
  | 0, newest => newest
  | n + 1, newest =>
      schedule n (add32 (add32 (smallSigma1 (newest.getD 1 0)) (newest.getD 6 0))
        (add32 (smallSigma0 (newest.getD 14 0)) (newest.getD 15 0)) :: newest)

/-- One round with its constant and its word of the schedule. -/
def shaRound (w : Words) (input : ℕ × ℕ) : Words :=
  let t1 := add32 (add32 (add32 w.h (bigSigma1 w.e)) (choose w.e w.f w.g))
    (add32 input.1 input.2)
  let t2 := add32 (bigSigma0 w.a) (majority w.a w.b w.c)
  ⟨add32 t1 t2, w.a, w.b, w.c, add32 w.d t1, w.e, w.f, w.g⟩

/-- One block of sixteen words. -/
def compressBlock (w : Words) (block : List ℕ) : Words :=
  let r := (roundConstants.zip (schedule 48 block.reverse).reverse).foldl shaRound w
  ⟨add32 w.a r.a, add32 w.b r.b, add32 w.c r.c, add32 w.d r.d, add32 w.e r.e, add32 w.f r.f,
    add32 w.g r.g, add32 w.h r.h⟩

/-! ## The digest -/

/-- The big-endian bytes of a number. -/
def bigEndian : ℕ → ℕ → List ℕ
  | 0, _ => []
  | width + 1, n => bigEndian width (n / 256) ++ [n % 256]

/-- The bytes with the closing bit, the zeros and the length. -/
def padBytes (bytes : List ℕ) : List ℕ :=
  bytes ++ 0x80 :: List.replicate ((119 - bytes.length % 64) % 64) 0 ++
    bigEndian 8 (8 * bytes.length)

/-- Four bytes to a word. -/
def wordsOf : List ℕ → List ℕ
  | a :: b :: c :: d :: rest => (((a * 256 + b) * 256 + c) * 256 + d) :: wordsOf rest
  | _ => []

/-- The blocks of a number of words. -/
def blocksOf : ℕ → List ℕ → List (List ℕ)
  | 0, _ => []
  | n + 1, ws => ws.take 16 :: blocksOf n (ws.drop 16)

/-- `hashlib.sha256(text.encode("utf-8")).hexdigest()`. -/
def sha256Hex (text : String) : String :=
  let ws := wordsOf (padBytes (utf8 text))
  let w := (blocksOf (ws.length / 16) ws).foldl compressBlock initialWords
  String.ofList ([w.a, w.b, w.c, w.d, w.e, w.f, w.g, w.h].flatMap (hexText 8))

lemma length_hexText (width n : ℕ) : (hexText width n).length = width := by
  induction width generalizing n with
  | zero => rfl
  | succ width ih => simp [hexText, ih]

/-- A lowercase hexadecimal digit. -/
def IsHexDigit (c : Char) : Prop := ('0' ≤ c ∧ c ≤ '9') ∨ ('a' ≤ c ∧ c ≤ 'f')

lemma isHexDigit_hexDigit (n : ℕ) : IsHexDigit (hexDigit n) := by
  have h : ∀ d : Fin 16, ('0' ≤ Nat.digitChar d ∧ Nat.digitChar d ≤ '9') ∨
      ('a' ≤ Nat.digitChar d ∧ Nat.digitChar d ≤ 'f') := by decide
  exact h ⟨n % 16, Nat.mod_lt n (by decide)⟩

lemma isHexDigit_hexText {width n : ℕ} {c : Char} (h : c ∈ hexText width n) : IsHexDigit c := by
  induction width generalizing n with
  | zero => simp [hexText] at h
  | succ width ih =>
      rcases List.mem_append.mp h with h | h
      · exact ih h
      · rw [List.mem_singleton.mp h]
        exact isHexDigit_hexDigit n

/-- **The form of a digest**: 64 lowercase hexadecimal digits. -/
theorem sha256Hex_chars (text : String) :
    (sha256Hex text).toList.length = 64 ∧ ∀ c ∈ (sha256Hex text).toList, IsHexDigit c := by
  unfold sha256Hex
  rw [String.toList_ofList]
  constructor
  · simp [length_hexText]
  · intro c hc
    rw [List.mem_flatMap] at hc
    obtain ⟨w, -, hc⟩ := hc
    exact isHexDigit_hexText hc

example : sha256Hex "abc" =
    "ba7816bf8f01cfea414140de5dae2223b00361a396177a9cb410ff61f20015ad" := by
  decide +kernel

end Py

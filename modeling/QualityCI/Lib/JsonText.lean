import QualityCI.Lib.PyText

/-!
# JSON text

`json.dumps` with sorted keys, compact separators and `ensure_ascii=False`, and `json.loads` with
and without the hooks that make it strict.  A dictionary is held in the order of its keys, so
sorting the keys is walking it.

* `dumps` — the text; values with an infinity or a not-a-number raise.
* `loads` — the reader.  With `strict`, a repeated key, a non-finite constant and a number beyond
  the floats raise; without, the last of repeated keys wins and such numbers are read.

A string escape that names half of a surrogate pair raises here: Lean strings hold no lone
surrogates.  Depth and the number of digits are not limited.
-/

namespace Py

/-! ## Writing -/

/-- One character of a string, escaped where JSON has to. -/
def escapeChar (c : Char) : List Char :=
  if c = '\"' then ['\\', '\"']
  else if c = '\\' then ['\\', '\\']
  else if c = '\n' then ['\\', 'n']
  else if c = '\r' then ['\\', 'r']
  else if c = '\t' then ['\\', 't']
  else if c.toNat = 0x0C then ['\\', 'f']
  else if c.toNat = 0x08 then ['\\', 'b']
  else if c.toNat < 0x20 then '\\' :: 'u' :: hexText 4 c.toNat
  else [c]

/-- A string literal. -/
def stringText (s : String) : List Char := '\"' :: (s.toList.flatMap escapeChar ++ ['\"'])

/-- A float literal. -/
def floatText : PyFloat → List Char
  | .finite x => (floatRepr (.finite x)).toList
  | .inf neg => if neg then "-Infinity".toList else "Infinity".toList
  | .nan => "NaN".toList

/-- Pieces joined by commas. -/
def commaJoin : List (List Char) → List Char
  | [] => []
  | [x] => x
  | x :: y :: rest => x ++ ',' :: commaJoin (y :: rest)

mutual

/-- The text of a value. -/
def jsonText : Json → List Char
  | .null => "null".toList
  | .bool b => if b then "true".toList else "false".toList
  | .int n => intText n
  | .float x => floatText x
  | .str s => stringText s
  | .arr items => '[' :: (commaJoin (itemTexts items) ++ [']'])
  | .obj entries => '\x7b' :: (commaJoin (entryTexts entries) ++ ['\x7d'])

/-- The texts of the members of a list. -/
def itemTexts : List Json → List (List Char)
  | [] => []
  | x :: xs => jsonText x :: itemTexts xs

/-- The texts of the items of a dictionary. -/
def entryTexts : List (String × Json) → List (List Char)
  | [] => []
  | (k, x) :: xs => (stringText k ++ ':' :: jsonText x) :: entryTexts xs

end

mutual

/-- Every float in the value is finite. -/
def Json.isFinite : Json → Bool
  | .float x => x.isFinite
  | .arr items => Json.itemsFinite items
  | .obj entries => Json.entriesFinite entries
  | .null | .bool _ | .int _ | .str _ => true

/-- Every float in a list is finite. -/
def Json.itemsFinite : List Json → Bool
  | [] => true
  | x :: xs => x.isFinite && Json.itemsFinite xs

/-- Every float in a dictionary is finite. -/
def Json.entriesFinite : List (String × Json) → Bool
  | [] => true
  | (_, x) :: xs => x.isFinite && Json.entriesFinite xs

end

lemma itemsFinite_iff {items : List Json} :
    Json.itemsFinite items = true ↔ ∀ x ∈ items, x.isFinite = true := by
  induction items with
  | nil => simp [Json.itemsFinite]
  | cons x xs ih => simp [Json.itemsFinite, ih]

lemma entriesFinite_iff {entries : List (String × Json)} :
    Json.entriesFinite entries = true ↔ ∀ e ∈ entries, e.2.isFinite = true := by
  induction entries with
  | nil => simp [Json.entriesFinite]
  | cons e rest ih => simp [Json.entriesFinite, ih]

lemma isFinite_arr {items : List Json} :
    (Json.arr items).isFinite = true ↔ ∀ x ∈ items, x.isFinite = true := by
  rw [Json.isFinite, itemsFinite_iff]

lemma isFinite_obj {d : Dict} :
    (Json.obj d).isFinite = true ↔ ∀ e ∈ d, e.2.isFinite = true := by
  rw [Json.isFinite, entriesFinite_iff]

lemma isFinite_ofList {entries : List (String × Json)} (h : ∀ e ∈ entries, e.2.isFinite = true) :
    (Json.obj (Dict.ofList entries)).isFinite = true :=
  isFinite_obj.mpr fun e he => h e (Dict.mem_ofList he)

/-- `json.dumps(value, ensure_ascii=False, sort_keys=True, separators=(",", ":"),
allow_nan=False)`. -/
def dumps (value : Json) : Result String := do
  require (value.isFinite = true) "Out of range float values are not JSON compliant"
  .ok (String.ofList (jsonText value))

/-! ## Reading -/

/-- Whether repeated keys and non-finite numbers are refused. -/
structure LoadMode where
  strict : Bool
  deriving DecidableEq

/-- JSON's whitespace. -/
def isJsonSpace (c : Char) : Bool := c = ' ' || c = '\t' || c = '\n' || c = '\r'

def skipSpace (cs : List Char) : List Char := cs.dropWhile isJsonSpace

/-- The value of a hexadecimal digit. -/
def hexValue (c : Char) : Option ℕ :=
  if '0' ≤ c ∧ c ≤ '9' then some (c.toNat - 48)
  else if 'a' ≤ c ∧ c ≤ 'f' then some (c.toNat - 87)
  else if 'A' ≤ c ∧ c ≤ 'F' then some (c.toNat - 55)
  else none

/-- Four hexadecimal digits. -/
def hexFour (a b c d : Char) : Option ℕ := do
  let a ← hexValue a
  let b ← hexValue b
  let c ← hexValue c
  let d ← hexValue d
  pure (((a * 16 + b) * 16 + c) * 16 + d)

/-- What a one-letter escape stands for. -/
def simpleEscape (c : Char) : Option Char :=
  if c = '\"' then some '\"'
  else if c = '\\' then some '\\'
  else if c = '/' then some '/'
  else if c = 'b' then some (Char.ofNat 8)
  else if c = 'f' then some (Char.ofNat 12)
  else if c = 'n' then some '\n'
  else if c = 'r' then some '\r'
  else if c = 't' then some '\t'
  else none

/-- The rest of a string literal: its characters and what follows the closing quote. -/
def scanString : List Char → Option (List Char × List Char)
  | [] => none
  | '\"' :: rest => some ([], rest)
  | '\\' :: 'u' :: a :: b :: c :: d :: rest => do
      let code ← hexFour a b c d
      if 0xD800 ≤ code ∧ code < 0xDC00 then
        match rest with
        | '\\' :: 'u' :: e :: f :: g :: h :: rest => do
            let low ← hexFour e f g h
            if 0xDC00 ≤ low ∧ low < 0xE000 then
              -- a surrogate pair is one character
              let (cs, tail) ← scanString rest
              pure (Char.ofNat (0x10000 + (code - 0xD800) * 0x400 + (low - 0xDC00)) :: cs, tail)
            else none
        | _ => none
      else if 0xDC00 ≤ code ∧ code < 0xE000 then none
      else
        let (cs, tail) ← scanString rest
        pure (Char.ofNat code :: cs, tail)
  | '\\' :: c :: rest => do
      let c ← simpleEscape c
      let (cs, tail) ← scanString rest
      pure (c :: cs, tail)
  | c :: rest =>
      if c.toNat < 0x20 ∨ c = '\\' then none
      else do
        let (cs, tail) ← scanString rest
        pure (c :: cs, tail)

/-- The digits at the head of a text, and what follows them. -/
def scanDigits (cs : List Char) : List Char × List Char := cs.span Char.isDigit

/-- The fraction of a number: `(\.\d+)?`. -/
def scanFraction : List Char → Option (List Char) × List Char
  | '.' :: rest =>
      match scanDigits rest with
      | ([], _) => (none, '.' :: rest)
      | (d :: ds, tail) => (some (d :: ds), tail)
  | cs => (none, cs)

/-- The digits of an exponent with its sign. -/
def scanExponentDigits (neg : Bool) (cs : List Char) : Option (ℤ × List Char) :=
  match scanDigits cs with
  | ([], _) => none
  | (d :: ds, tail) =>
      let n : ℤ := Nat.ofDigitChars 10 (d :: ds) 0
      some (if neg then -n else n, tail)

/-- The exponent of a number: `([eE][-+]?\d+)?`. -/
def scanExponent : List Char → Option ℤ × List Char
  | c :: rest =>
      if c = 'e' ∨ c = 'E' then
        let scanned := match rest with
          | '-' :: digits => scanExponentDigits true digits
          | '+' :: digits => scanExponentDigits false digits
          | digits => scanExponentDigits false digits
        match scanned with
        | some (e, tail) => (some e, tail)
        | none => (none, c :: rest)
      else (none, c :: rest)
  | [] => (none, [])

/-- The integer part of a number: `0|[1-9]\d*`. -/
def scanInteger : List Char → Option (List Char × List Char)
  | '0' :: rest => some (['0'], rest)
  | cs =>
      match scanDigits cs with
      | ([], _) => none
      | (d :: ds, tail) => some (d :: ds, tail)

/-- `float(text)` of a decimal numeral, beyond the finite range an infinity. -/
def floatOf (neg : Bool) (d : Decimal) : PyFloat :=
  match Double.ofDecimal neg d with
  | some x => .finite x
  | none => .inf neg

/-- A number after its sign. -/
def scanNumber (mode : LoadMode) (neg : Bool) (cs : List Char) : Option (Json × List Char) := do
  let (integer, cs) ← scanInteger cs
  let (fraction, cs) := scanFraction cs
  let (exponent, cs) := scanExponent cs
  match fraction, exponent with
  | none, none =>
      let n : ℤ := Nat.ofDigitChars 10 integer 0
      pure (.int (if neg then -n else n), cs)
  | fraction, exponent =>
      let digits := fraction.getD []
      let x := floatOf neg ⟨Nat.ofDigitChars 10 (integer ++ digits) 0,
        exponent.getD 0 - digits.length⟩
      if mode.strict = true ∧ x.isFinite = false then none
      else pure (.float x, cs)

/-- The dictionary of the items read: the last of repeated keys wins, or none may be repeated. -/
def dictOfPairs (mode : LoadMode) (pairs : List (String × Json)) : Option Dict :=
  if mode.strict = true ∧ ¬(pairs.map Prod.fst).Nodup then none
  else some (Dict.ofList pairs)

mutual

/-- One value, from a text without leading whitespace. -/
def scanValue (mode : LoadMode) : ℕ → List Char → Option (Json × List Char)
  | 0, _ => none
  | fuel + 1, cs =>
      match cs with
      | '\"' :: rest => do
          let (s, rest) ← scanString rest
          pure (.str (String.ofList s), rest)
      | '[' :: rest =>
          match skipSpace rest with
          | ']' :: rest => some (.arr [], rest)
          | rest => do
              let (items, rest) ← scanItems mode fuel rest
              pure (.arr items, rest)
      | '\x7b' :: rest =>
          match skipSpace rest with
          | '\x7d' :: rest => some (.obj [], rest)
          | rest => do
              let (pairs, rest) ← scanPairs mode fuel rest
              let d ← dictOfPairs mode pairs
              pure (.obj d, rest)
      | 'n' :: 'u' :: 'l' :: 'l' :: rest => some (.null, rest)
      | 't' :: 'r' :: 'u' :: 'e' :: rest => some (.bool true, rest)
      | 'f' :: 'a' :: 'l' :: 's' :: 'e' :: rest => some (.bool false, rest)
      | 'N' :: 'a' :: 'N' :: rest => if mode.strict then none else some (.float .nan, rest)
      | 'I' :: 'n' :: 'f' :: 'i' :: 'n' :: 'i' :: 't' :: 'y' :: rest =>
          if mode.strict then none else some (.float (.inf false), rest)
      | '-' :: 'I' :: 'n' :: 'f' :: 'i' :: 'n' :: 'i' :: 't' :: 'y' :: rest =>
          if mode.strict then none else some (.float (.inf true), rest)
      | '-' :: rest => scanNumber mode true rest
      | cs => scanNumber mode false cs

/-- The members of a list, up to its closing bracket. -/
def scanItems (mode : LoadMode) : ℕ → List Char → Option (List Json × List Char)
  | 0, _ => none
  | fuel + 1, cs => do
      let (x, rest) ← scanValue mode fuel cs
      match skipSpace rest with
      | ']' :: rest => pure ([x], rest)
      | ',' :: rest =>
          let (xs, rest) ← scanItems mode fuel (skipSpace rest)
          pure (x :: xs, rest)
      | _ => none

/-- The items of a dictionary, up to its closing brace. -/
def scanPairs (mode : LoadMode) : ℕ → List Char → Option (List (String × Json) × List Char)
  | 0, _ => none
  | fuel + 1, cs =>
      match cs with
      | '\"' :: rest => do
          let (k, rest) ← scanString rest
          match skipSpace rest with
          | ':' :: rest =>
              let (x, rest) ← scanValue mode fuel (skipSpace rest)
              match skipSpace rest with
              | '\x7d' :: rest => pure ([(String.ofList k, x)], rest)
              | ',' :: rest =>
                  let (xs, rest) ← scanPairs mode fuel (skipSpace rest)
                  pure ((String.ofList k, x) :: xs, rest)
              | _ => none
          | _ => none
      | _ => none

end

/-- The value of a whole text. -/
def parseText (mode : LoadMode) (cs : List Char) : Option Json :=
  match scanValue mode (cs.length + 1) (skipSpace cs) with
  | some (v, rest) => if skipSpace rest = [] then some v else none
  | none => none

/-- `json.loads(text)`. -/
def loads (mode : LoadMode) (text : String) : Result Json :=
  match parseText mode text.toList with
  | some v => .ok v
  | none => valueError "invalid JSON text"

end Py

import QualityCI.Lib.Json

/-!
# Python text

Strings, the texts of numbers, and the two date formats.  Python's string methods rest on the
Unicode tables; the three that a program here needs and that no short definition gives are the
operations of the class `PyUnicode`.  Whitespace, which has twenty-nine characters, is written out.

* `asciiUnicode` — the Unicode operations on ASCII text.
* `isSpace`, `isBlank`, `strip`, `splitWords` — `str.isspace`, `str.strip`, `str.split`.
* `isAbsolutePath`, `pathParts`, `asPosix` — `PurePosixPath`.
* `floatRepr`, `strRepr`, `Json.repr` — `repr` of a value, as it stands in messages.
* `parseIsoDate`, `parseTimestamp` — `YYYY-MM-DD` and `YYYY-MM-DDThh:mm:ss[.f…]Z`, read into a
  number that grows with time.
-/

namespace Py

/-- The operations that rest on the Unicode tables. -/
class PyUnicode where
  /-- `unicodedata.normalize("NFKC", s)` -/
  nfkc : String → String
  /-- `s.casefold()` -/
  casefold : String → String
  /-- `c.isprintable()` -/
  isPrintable : Char → Bool

/-- A character with its ASCII capitals in lowercase. -/
def lowerAscii (c : Char) : Char := if 'A' ≤ c ∧ c ≤ 'Z' then Char.ofNat (c.toNat + 32) else c

/-- What the Unicode tables say of ASCII text: it is in normal form, and its case folding is its
lowercase. -/
class LawfulUnicode [PyUnicode] : Prop where
  nfkc_ascii : ∀ s : String, (∀ c ∈ s.toList, c.toNat < 128) → PyUnicode.nfkc s = s
  casefold_ascii : ∀ s : String, (∀ c ∈ s.toList, c.toNat < 128) →
    PyUnicode.casefold s = String.ofList (s.toList.map lowerAscii)

/-- The Unicode operations as they are on ASCII text. -/
@[reducible] def asciiUnicode : PyUnicode where
  nfkc s := s
  casefold s := String.ofList (s.toList.map lowerAscii)
  isPrintable c := decide (0x20 ≤ c.toNat ∧ c.toNat < 0x7F)

/-- A question about the characters of a text is put to them, not to all the characters there
are. -/
instance decidableCharsAll (cs : List Char) (p : Char → Prop) [DecidablePred p] :
    Decidable (∀ c ∈ cs, p c) := List.decidableBAll p cs

/-! ## Whitespace -/

/-- `c.isspace()`. -/
def isSpace (c : Char) : Bool :=
  let n := c.toNat
  (0x09 ≤ n && n ≤ 0x0D) || (0x1C ≤ n && n ≤ 0x20) || n = 0x85 || n = 0xA0 || n = 0x1680 ||
    (0x2000 ≤ n && n ≤ 0x200A) || n = 0x2028 || n = 0x2029 || n = 0x202F || n = 0x205F ||
    n = 0x3000

/-- `not s.strip()`. -/
def isBlank (s : String) : Bool := s.toList.all isSpace

/-- `s.strip()`. -/
def strip (s : String) : String :=
  String.ofList ((s.toList.dropWhile isSpace).reverse.dropWhile isSpace).reverse

lemma dropWhile_isSpace {cs : List Char} (h : ∀ c ∈ cs, isSpace c = false) :
    cs.dropWhile isSpace = cs := by
  cases cs with
  | nil => rfl
  | cons c cs => simp [List.dropWhile, h c]

/-- A text without whitespace is its own strip. -/
lemma strip_eq_self {s : String} (h : ∀ c ∈ s.toList, isSpace c = false) : strip s = s := by
  have hrev : ∀ c ∈ s.toList.reverse, isSpace c = false := by
    simpa using h
  rw [strip, dropWhile_isSpace h, dropWhile_isSpace hrev, List.reverse_reverse,
    String.ofList_toList]

/-- A text that is its own strip is not blank, or it is empty. -/
lemma isBlank_of_trimmed {s : String} (hne : s ≠ "") (h : s = strip s) : isBlank s = false := by
  by_contra hblank
  have hall : s.toList.all isSpace = true := by
    simpa [isBlank] using hblank
  have hnil : ∀ cs : List Char, cs.all isSpace = true → cs.dropWhile isSpace = [] := by
    intro cs hcs
    induction cs with
    | nil => rfl
    | cons c cs ih =>
        simp only [List.all_cons, Bool.and_eq_true] at hcs
        rw [List.dropWhile_cons_of_pos hcs.1, ih hcs.2]
  rw [strip, hnil _ hall] at h
  exact hne h

/-- The words of a list of characters, `word` being the one begun. -/
def splitChars : List Char → List Char → List (List Char)
  | [], [] => []
  | [], c :: word => [(c :: word).reverse]
  | c :: cs, word =>
      if isSpace c then
        match word with
        | [] => splitChars cs []
        | d :: rest => (d :: rest).reverse :: splitChars cs []
      else splitChars cs (c :: word)

/-- `s.split()`. -/
def splitWords (s : String) : List String := (splitChars s.toList []).map String.ofList

/-- `separator.join(parts)`. -/
def join (separator : String) (parts : List String) : String := separator.intercalate parts

/-! ## POSIX paths -/

/-- The pieces of a list of characters between slashes, `piece` being the one begun. -/
def splitSlashes : List Char → List Char → List (List Char)
  | [], piece => [piece.reverse]
  | c :: cs, piece =>
      if c = '/' then piece.reverse :: splitSlashes cs [] else splitSlashes cs (c :: piece)

/-- `PurePosixPath(path).is_absolute()`. -/
def isAbsolutePath (path : String) : Bool := path.toList.head? = some '/'

/-- `PurePosixPath(path).parts` of a relative path: empty pieces and single dots are dropped. -/
def pathParts (path : String) : List String :=
  ((splitSlashes path.toList []).map String.ofList).filter fun part => part ≠ "" && part ≠ "."

/-- `PurePosixPath(path).as_posix()` of a relative path. -/
def asPosix (path : String) : String :=
  if pathParts path = [] then "." else join "/" (pathParts path)

/-! ## Numbers as text -/

/-- The decimal digits of a number. -/
def digitsOf (n : ℕ) : List Char := Nat.toDigits 10 n

/-- `repr` of a non-negative finite number, from the digits and the place of the leading one. -/
def decimalText (d : Decimal) : List Char :=
  let ds := digitsOf d.digits
  let lead : ℤ := d.exp10 + ds.length - 1
  if d.digits = 0 then ['0', '.', '0']
  else if -4 ≤ lead ∧ lead < 16 then
    if lead < 0 then
      ['0', '.'] ++ List.replicate (-lead - 1).toNat '0' ++ ds
    else if 0 ≤ d.exp10 then ds ++ List.replicate d.exp10.toNat '0' ++ ['.', '0']
    else ds.take (lead + 1).toNat ++ ['.'] ++ ds.drop (lead + 1).toNat
  else
    let exponent := digitsOf lead.natAbs
    let padded := if exponent.length < 2 then '0' :: exponent else exponent
    ds.take 1 ++ (if ds.length = 1 then [] else '.' :: ds.drop 1) ++
      ['e', if lead < 0 then '-' else '+'] ++ padded

/-- `repr(x)` of a float. -/
def floatRepr : PyFloat → String
  | .finite x => String.ofList ((if x.neg then ['-'] else []) ++ decimalText x.shortest)
  | .inf neg => if neg then "-inf" else "inf"
  | .nan => "nan"

/-- `str(n)` of an integer. -/
def intText (n : ℤ) : List Char :=
  if n < 0 then '-' :: digitsOf n.natAbs else digitsOf n.natAbs

/-! ## `repr` of strings and values -/

/-- A lowercase hexadecimal digit. -/
def hexDigit (n : ℕ) : Char := Nat.digitChar (n % 16)

/-- `n` in `width` lowercase hexadecimal digits. -/
def hexText : ℕ → ℕ → List Char
  | 0, _ => []
  | width + 1, n => hexText width (n / 16) ++ [hexDigit n]

section Repr

variable [PyUnicode]

/-- One character of `repr(s)` between quotes `quote`. -/
def reprChar (quote c : Char) : List Char :=
  if c = quote ∨ c = '\\' then ['\\', c]
  else if c = '\n' then ['\\', 'n']
  else if c = '\r' then ['\\', 'r']
  else if c = '\t' then ['\\', 't']
  else if PyUnicode.isPrintable c then [c]
  else if c.toNat < 0x100 then '\\' :: 'x' :: hexText 2 c.toNat
  else if c.toNat < 0x10000 then '\\' :: 'u' :: hexText 4 c.toNat
  else '\\' :: 'U' :: hexText 8 c.toNat

/-- `repr(s)` of a string. -/
def strRepr (s : String) : String :=
  let quote := if s.toList.contains '\'' && !s.toList.contains '\"' then '\"' else '\''
  String.ofList ([quote] ++ s.toList.flatMap (reprChar quote) ++ [quote])

/-- `repr` of a list of strings. -/
def reprStrings (items : List String) : String := "[" ++ join ", " (items.map strRepr) ++ "]"

mutual

/-- `repr(value)`. -/
def Json.repr : Json → String
  | .null => "None"
  | .bool b => if b then "True" else "False"
  | .int n => String.ofList (intText n)
  | .float x => floatRepr x
  | .str s => strRepr s
  | .arr items => "[" ++ join ", " (Json.reprItems items) ++ "]"
  | .obj entries => "\x7b" ++ join ", " (Json.reprEntries entries) ++ "\x7d"

/-- The `repr` of each member of a list. -/
def Json.reprItems : List Json → List String
  | [] => []
  | x :: xs => Json.repr x :: Json.reprItems xs

/-- The `repr` of each item of a dictionary. -/
def Json.reprEntries : List (String × Json) → List String
  | [] => []
  | (k, x) :: xs => (strRepr k ++ ": " ++ Json.repr x) :: Json.reprEntries xs

end

/-- `str(value)`. -/
def Json.toStr : Json → String
  | .str s => s
  | v => v.repr

end Repr

/-! ## Dates and times -/

/-- The value of a decimal digit. -/
def digitValue (c : Char) : Option ℕ :=
  if '0' ≤ c ∧ c ≤ '9' then some (c.toNat - '0'.toNat) else none

/-- The value of a run of digits; `none` when some character is not one. -/
def digitsValue (cs : List Char) : Option ℕ :=
  cs.foldl (fun acc c => do
    let n ← acc
    let d ← digitValue c
    pure (10 * n + d)) (some 0)

/-- A leap year of the Gregorian calendar. -/
def isLeapYear (year : ℕ) : Bool :=
  year % 4 = 0 && (year % 100 ≠ 0 || year % 400 = 0)

/-- The number of days of a month. -/
def daysInMonth (year month : ℕ) : ℕ :=
  if month = 2 then if isLeapYear year then 29 else 28
  else if month = 4 ∨ month = 6 ∨ month = 9 ∨ month = 11 then 30 else 31

/-- A calendar day. -/
structure CalendarDate where
  year : ℕ
  month : ℕ
  day : ℕ
  valid : 1 ≤ year ∧ 1 ≤ month ∧ month ≤ 12 ∧ 1 ≤ day ∧ day ≤ daysInMonth year month
  deriving DecidableEq

/-- A number that orders the days. -/
def CalendarDate.order (d : CalendarDate) : ℕ := (d.year * 13 + d.month) * 32 + d.day

/-- The shape `[0-9]{4}-[0-9]{2}-[0-9]{2}`, with its three numbers. -/
def datePattern (cs : List Char) : Option (ℕ × ℕ × ℕ) :=
  match cs with
  | [y1, y2, y3, y4, '-', m1, m2, '-', d1, d2] => do
      let year ← digitsValue [y1, y2, y3, y4]
      let month ← digitsValue [m1, m2]
      let day ← digitsValue [d1, d2]
      pure (year, month, day)
  | _ => none

/-- The calendar day of three numbers. -/
def calendarDate (parts : ℕ × ℕ × ℕ) : Option CalendarDate :=
  if h : 1 ≤ parts.1 ∧ 1 ≤ parts.2.1 ∧ parts.2.1 ≤ 12 ∧ 1 ≤ parts.2.2 ∧
      parts.2.2 ≤ daysInMonth parts.1 parts.2.1 then
    some ⟨parts.1, parts.2.1, parts.2.2, h⟩
  else none

/-- `date.fromisoformat(s)` of a text in the shape `YYYY-MM-DD`. -/
def parseIsoDate (s : String) : Option CalendarDate := do
  let parts ← datePattern s.toList
  calendarDate parts

/-- The fraction of a second in microseconds: six digits count, more are dropped. -/
def microseconds (fraction : List Char) : Option ℕ := do
  let _ ← digitsValue fraction
  digitsValue ((fraction ++ List.replicate 6 '0').take 6)

/-- `[0-9]{4}-[0-9]{2}-[0-9]{2}T(?:[01][0-9]|2[0-3]):[0-5][0-9]:[0-5][0-9](?:\.[0-9]+)?Z`, read as
a moment of the calendar: its day and the microseconds of the day. -/
def parseTimestamp (s : String) : Option (CalendarDate × ℕ) :=
  match s.toList with
  | y1 :: y2 :: y3 :: y4 :: '-' :: m1 :: m2 :: '-' :: d1 :: d2 :: 'T' ::
      h1 :: h2 :: ':' :: i1 :: i2 :: ':' :: s1 :: s2 :: rest => do
      let parts ← datePattern [y1, y2, y3, y4, '-', m1, m2, '-', d1, d2]
      let hour ← digitsValue [h1, h2]
      let minute ← digitsValue [i1, i2]
      let second ← digitsValue [s1, s2]
      guard (hour ≤ 23 ∧ minute ≤ 59 ∧ second ≤ 59)
      let micros ← match rest with
        | ['Z'] => some 0
        | '.' :: tail =>
            match tail.reverse with
            | 'Z' :: d :: digits => microseconds (d :: digits).reverse
            | _ => none
        | _ => none
      let day ← calendarDate parts
      pure (day, ((hour * 60 + minute) * 60 + second) * 1000000 + micros)
  | _ => none

/-- The order of moments. -/
def instantOrder (t : CalendarDate × ℕ) : ℕ := t.1.order * 86400000000 + t.2

end Py

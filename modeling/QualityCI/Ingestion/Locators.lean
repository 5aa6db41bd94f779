import QualityCI.Ingestion.Errors
import QualityCI.Lib.BijectiveNumeral
import QualityCI.Lib.JsonPath

/-!
# Locators of cells

Every item of evidence names the place it was read from.  Columns are named by letters as
spreadsheets do it, and the name of a worksheet is quoted where it is not a plain word.

* `columnLabel`, `columnNumber` — the letters of a column.
* `csvLocator`, `docxLocator`, `paragraphLocator`, `sheetLocator` — the four kinds of locators.
* `validateSheetName`, `validateXlsxCoordinate` — what a workbook may hold.
* **`columnNumber_columnLabel`**, **`columnLabel_columnNumber`** — labels and positive numbers
  correspond.
* **`sheetLocator_injective`** — a locator determines the sheet and the coordinate.
-/

namespace QualityCI

open Py

/-! ## Columns -/

/-- The letter of a digit. -/
def columnLetter (d : ℕ) : Char := Char.ofNat (65 + d)

/-- The letters that the loop of `_column_label` collects, in reading order. -/
def columnLetters (n : ℕ) : String := String.ofList ((bijDigits 26 n).map columnLetter)

/-- `_column_label`. -/
def columnLabel (columnNumber : ℤ) : Result String := do
  require (0 < columnNumber) "column_number must be positive"
  .ok (columnLetters columnNumber.toNat)

/-- `letter.upper()` of an ASCII letter. -/
def upperAscii (c : Char) : Char := if 'a' ≤ c ∧ c ≤ 'z' then Char.ofNat (c.toNat - 32) else c

/-- `_column_number`, of ASCII letters. -/
def columnNumber (letters : String) : ℤ :=
  (letters.toList.map upperAscii).foldl (fun value c => value * 26 + ((c.toNat : ℤ) - 64)) 0

/-- A non-empty string over `A` to `Z`. -/
def IsColumnLabel (label : String) : Prop :=
  label.toList ≠ [] ∧ ∀ c ∈ label.toList, 'A' ≤ c ∧ c ≤ 'Z'

lemma columnLetter_toNat {d : ℕ} (h : d < 26) : (columnLetter d).toNat = 65 + d := by
  have hall : ∀ d < 26, (columnLetter d).toNat = 65 + d := by decide
  exact hall d h

lemma columnLetter_sub {c : Char} (h : 'A' ≤ c ∧ c ≤ 'Z') :
    c.toNat - 65 < 26 ∧ columnLetter (c.toNat - 65) = c := by
  have hrange : 65 ≤ c.toNat ∧ c.toNat ≤ 90 := h
  refine ⟨by omega, ?_⟩
  rw [columnLetter, Nat.add_sub_cancel' hrange.1, Char.ofNat_toNat]

lemma upperAscii_self {c : Char} (h : 'A' ≤ c ∧ c ≤ 'Z') : upperAscii c = c := by
  rw [upperAscii, if_neg]
  rintro ⟨ha, -⟩
  have hrange : 65 ≤ c.toNat ∧ c.toNat ≤ 90 := h
  have hlow : 97 ≤ c.toNat := ha
  omega

/-- The letters of a label are digits of a bijective numeral. -/
lemma columnNumber_of_digits {ds : List ℕ} (h : ∀ d ∈ ds, d < 26) :
    columnNumber (String.ofList (ds.map columnLetter)) = bijValue 26 ds := by
  have hfold : ∀ (ds : List ℕ) (v : ℕ), (∀ d ∈ ds, d < 26) →
      ((ds.map columnLetter).map upperAscii).foldl
        (fun value c => value * 26 + ((c.toNat : ℤ) - 64)) (v : ℤ) =
        (ds.foldl (fun value d => value * 26 + (d + 1)) v : ℕ) := by
    intro ds
    induction ds with
    | nil => simp
    | cons d ds ih =>
        intro v h
        obtain ⟨hd, hds⟩ := List.forall_mem_cons.mp h
        have hletter := columnLetter_toNat hd
        have hupper : upperAscii (columnLetter d) = columnLetter d := by
          refine upperAscii_self ⟨?_, ?_⟩
          · show 65 ≤ (columnLetter d).toNat
            omega
          · show (columnLetter d).toNat ≤ 90
            omega
        rw [List.map_cons, List.map_cons, List.foldl_cons, List.foldl_cons, ← ih _ hds, hupper,
          hletter]
        congr 1
        push_cast
        ring
  rw [columnNumber, String.toList_ofList]
  exact hfold ds 0 h

/-- **The label of a positive number is a non-empty string of capitals with that number.** -/
theorem columnNumber_columnLabel {n : ℤ} (h : 0 < n) :
    ∃ label, columnLabel n = .ok label ∧ IsColumnLabel label ∧ columnNumber label = n := by
  have hlt := bijDigits_lt (b := 26) (by decide) n.toNat
  refine ⟨columnLetters n.toNat, by simp [columnLabel, require, h], ⟨?_, ?_⟩, ?_⟩
  · rw [columnLetters, String.toList_ofList, ne_eq, List.map_eq_nil_iff]
    exact bijDigits_ne_nil (by omega)
  · rw [columnLetters, String.toList_ofList]
    intro c hc
    obtain ⟨d, hd, rfl⟩ := List.mem_map.mp hc
    have hletter := columnLetter_toNat (hlt d hd)
    have hd26 := hlt d hd
    constructor
    · show 65 ≤ (columnLetter d).toNat
      omega
    · show (columnLetter d).toNat ≤ 90
      omega
  · rw [columnLetters, columnNumber_of_digits hlt, bijValue_bijDigits]
    omega

/-- **Every non-empty string of capitals is the label of its number.** -/
theorem columnLabel_columnNumber {label : String} (h : IsColumnLabel label) :
    0 < columnNumber label ∧ columnLabel (columnNumber label) = .ok label := by
  obtain ⟨hne, hall⟩ := h
  obtain ⟨ds, hds⟩ : ∃ ds, ds = label.toList.map fun c => c.toNat - 65 := ⟨_, rfl⟩
  have hlt : ∀ d ∈ ds, d < 26 := by
    intro d hd
    rw [hds] at hd
    obtain ⟨c, hc, rfl⟩ := List.mem_map.mp hd
    exact (columnLetter_sub (hall c hc)).1
  have hlabel : label = String.ofList (ds.map columnLetter) := by
    have hback : ds.map columnLetter = label.toList := by
      rw [hds, List.map_map]
      refine (List.map_congr_left fun c hc => ?_).trans (List.map_id _)
      exact (columnLetter_sub (hall c hc)).2
    rw [hback, String.ofList_toList]
  have hnonempty : ds ≠ [] := by
    rw [hds, ne_eq, List.map_eq_nil_iff]
    exact hne
  have hpos : (0 : ℤ) < bijValue 26 ds := by exact_mod_cast bijValue_pos hnonempty
  have hvalue : columnNumber label = bijValue 26 ds := by
    rw [hlabel]
    exact columnNumber_of_digits hlt
  rw [hvalue]
  refine ⟨hpos, ?_⟩
  simp only [columnLabel, require, if_pos hpos]
  rw [Int.toNat_natCast, columnLetters, bijDigits_bijValue (by decide) hlt, ← hlabel]
  rfl

/-! ## The locators -/

/-- The locator of a cell of a CSV file. -/
def csvLocator (row : ℕ) (columnLabel : String) : String :=
  "CSV#row-" ++ toString row ++ ".cell-" ++ columnLabel

/-- The locator of a cell of a table of a document. -/
def docxLocator (table row : ℕ) (columnLabel : String) : String :=
  "DOCX#table-" ++ toString table ++ ".row-" ++ toString row ++ ".cell-" ++ columnLabel

/-- The locator of a paragraph of a document. -/
def paragraphLocator (paragraph : ℕ) : String := "DOCX#paragraph-" ++ toString paragraph

def apostrophe : Char := Char.ofNat 39

/-- `_SIMPLE_SHEET_NAME`. -/
def isSimpleSheetName (name : String) : Bool :=
  name.toList ≠ [] && name.toList.all fun c => c.isAlphanum || c = '_' || c = '.'

/-- `name.replace("'", "''")`. -/
def doubleApostrophes (cs : List Char) : List Char :=
  cs.flatMap fun c => if c = apostrophe then [apostrophe, apostrophe] else [c]

/-- `_sheet_locator`. -/
def sheetLocator (sheetName cell : String) : String :=
  if isSimpleSheetName sheetName then sheetName ++ "!" ++ cell
  else "'" ++ String.ofList (doubleApostrophes sheetName.toList) ++ "'!" ++ cell

/-! ## What a workbook may hold -/

/-- `_CONTROL_CHARS`. -/
def isControlChar (c : Char) : Bool :=
  c.toNat ≤ 0x08 || c.toNat = 0x0B || c.toNat = 0x0C || (0x0E ≤ c.toNat && c.toNat ≤ 0x1F) ||
    c.toNat = 0x7F

/-- `_validate_sheet_name`. -/
def validateSheetName [PyUnicode] (sheetName : String) : Result Unit := do
  whenever (sheetName = "" ∨ 31 < sheetName.toList.length)
    (ingestionError "XLSX sheet name must contain 1 to 31 characters")
  whenever (sheetName.toList.any isControlChar = true ∨
      sheetName.toList.any (fun c => c ∈ "[]:*?/\\".toList) = true)
    (ingestionError s!"XLSX sheet name contains invalid characters: {strRepr sheetName}")
  whenever (sheetName.toList.head? = some apostrophe ∨ sheetName.toList.getLast? = some apostrophe)
    (ingestionError s!"XLSX sheet name has invalid apostrophe placement: {strRepr sheetName}")

/-- `_XLSX_CELL`, with the letters and the digits it matches. -/
def matchXlsxCell (coordinate : String) : Option (String × List Char) :=
  let letters := coordinate.toList.takeWhile Char.isAlpha
  match coordinate.toList.dropWhile Char.isAlpha with
  | d :: ds =>
      if letters ≠ [] ∧ ('1' ≤ d ∧ d ≤ '9') ∧ ds.all Char.isDigit = true then
        some (String.ofList letters, d :: ds)
      else none
  | [] => none

/-- `int(digits)`, which refuses more than 4300 digits. -/
def intOfDigits (digits : List Char) : Result ℕ := do
  require (digits.length ≤ 4300)
    (s!"Exceeds the limit (4300 digits) for integer string conversion: value has {digits.length} " ++
      "digits; use sys.set_int_max_str_digits() to increase the limit")
  .ok (Nat.ofDigitChars 10 digits 0)

/-- `_validate_xlsx_coordinate`: the letters, the row and the column. -/
def validateXlsxCoordinate [PyUnicode] (coordinate : String) : Result (String × ℕ × ℤ) :=
  match matchXlsxCell coordinate with
  | some (letters, digits) => do
      let row ← intOfDigits digits
      whenever (3 < letters.toList.length)
        (ingestionError s!"XLSX cell is outside Excel column bounds: {coordinate}")
      whenever (1048576 < row ∨ 16384 < columnNumber letters)
        (ingestionError s!"XLSX cell is outside Excel bounds: {coordinate}")
      .ok (letters, row, columnNumber letters)
  | none => ingestionError s!"XLSX cell has invalid coordinate: {strRepr coordinate}"

/-! ## What a locator determines -/

/-- A text is cut in one way where a separator comes first. -/
lemma append_cons_inj {p : Char → Bool} {a b x y : List Char} {s t : Char}
    (ha : ∀ c ∈ a, p c = true) (hb : ∀ c ∈ b, p c = true) (hs : p s = false) (ht : p t = false)
    (h : a ++ s :: x = b ++ t :: y) : a = b ∧ s = t ∧ x = y := by
  have htake := congrArg (List.takeWhile p) h
  rw [List.takeWhile_append_of_pos ha, List.takeWhile_append_of_pos hb,
    List.takeWhile_cons_of_neg (by simp [hs]), List.takeWhile_cons_of_neg (by simp [ht]),
    List.append_nil, List.append_nil] at htake
  subst htake
  obtain ⟨hst, hxy⟩ := List.cons.inj (List.append_cancel_left h)
  exact ⟨rfl, hst, hxy⟩

lemma toList_toString (n : ℕ) : (toString n).toList = Nat.toDigits 10 n := by
  show (Nat.repr n).toList = _
  rw [Nat.repr, String.toList_ofList]

lemma toDigits_inj {m n : ℕ} (h : Nat.toDigits 10 m = Nat.toDigits 10 n) : m = n := by
  rw [← Nat.ofDigitChars_ten_toDigits (n := m), h, Nat.ofDigitChars_ten_toDigits]

/-- A number before a full stop. -/
lemma toDigits_dot_inj {m n : ℕ} {x y : List Char}
    (h : Nat.toDigits 10 m ++ '.' :: x = Nat.toDigits 10 n ++ '.' :: y) : m = n ∧ x = y := by
  have hdigits : ∀ k, ∀ c ∈ Nat.toDigits 10 k, c.isDigit = true :=
    fun k c hc => Nat.isDigit_of_mem_toDigits (by decide) (by decide) hc
  obtain ⟨hmn, -, hxy⟩ := append_cons_inj (hdigits m) (hdigits n) (by decide) (by decide) h
  exact ⟨toDigits_inj hmn, hxy⟩

/-- **A CSV locator determines the row and the label.** -/
theorem csvLocator_injective {row row' : ℕ} {label label' : String}
    (h : csvLocator row label = csvLocator row' label') : row = row' ∧ label = label' := by
  have hchars := congrArg String.toList h
  simp only [csvLocator, String.toList_append, toList_toString, List.append_assoc,
    List.append_cancel_left_eq] at hchars
  obtain ⟨hrow, hrest⟩ := toDigits_dot_inj hchars
  have hlabel : "cell-".toList ++ label.toList = "cell-".toList ++ label'.toList := hrest
  exact ⟨hrow, String.toList_injective (List.append_cancel_left hlabel)⟩

/-- **A locator of a table's cell determines the table, the row and the label.** -/
theorem docxLocator_injective {table table' row row' : ℕ} {label label' : String}
    (h : docxLocator table row label = docxLocator table' row' label') :
    table = table' ∧ row = row' ∧ label = label' := by
  have hchars := congrArg String.toList h
  simp only [docxLocator, String.toList_append, toList_toString, List.append_assoc,
    List.append_cancel_left_eq] at hchars
  obtain ⟨htable, hrest⟩ := toDigits_dot_inj hchars
  have hrows : "row-".toList ++ (Nat.toDigits 10 row ++ (".cell-".toList ++ label.toList)) =
      "row-".toList ++ (Nat.toDigits 10 row' ++ (".cell-".toList ++ label'.toList)) := hrest
  obtain ⟨hrow, hrest⟩ := toDigits_dot_inj (List.append_cancel_left hrows)
  have hlabel : "cell-".toList ++ label.toList = "cell-".toList ++ label'.toList := hrest
  exact ⟨htable, hrow, String.toList_injective (List.append_cancel_left hlabel)⟩

theorem paragraphLocator_injective {n m : ℕ} (h : paragraphLocator n = paragraphLocator m) :
    n = m := by
  have hchars := congrArg String.toList h
  simp only [paragraphLocator, String.toList_append, toList_toString,
    List.append_cancel_left_eq] at hchars
  exact toDigits_inj hchars

/-- No paragraph has the locator of a cell. -/
lemma paragraphLocator_ne_docxLocator (n table row : ℕ) (label : String) :
    paragraphLocator n ≠ docxLocator table row label := by
  intro h
  have hchars := congrArg (fun s => (String.toList s)[5]?) h
  simp [paragraphLocator, docxLocator, String.toList_append] at hchars

/-- A quoted text ends at the first apostrophe that is not doubled. -/
lemma doubleApostrophes_inj {a b x y : List Char}
    (h : doubleApostrophes a ++ apostrophe :: '!' :: x =
      doubleApostrophes b ++ apostrophe :: '!' :: y) : a = b ∧ x = y := by
  have hbang : '!' ≠ apostrophe := by decide
  induction a generalizing b with
  | nil =>
      cases b with
      | nil =>
          refine ⟨rfl, ?_⟩
          simpa [doubleApostrophes] using h
      | cons d b =>
          rw [doubleApostrophes, doubleApostrophes, List.flatMap_nil, List.flatMap_cons] at h
          split_ifs at h with hd
          · simp [hbang] at h
          · simp [Ne.symm hd] at h
  | cons c a ih =>
      cases b with
      | nil =>
          rw [doubleApostrophes, doubleApostrophes, List.flatMap_nil, List.flatMap_cons] at h
          split_ifs at h with hc
          · simp [Ne.symm hbang] at h
          · simp [hc] at h
      | cons d b =>
          have hrest : c = d ∧ doubleApostrophes a ++ apostrophe :: '!' :: x =
              doubleApostrophes b ++ apostrophe :: '!' :: y := by
            rw [doubleApostrophes, doubleApostrophes, List.flatMap_cons, List.flatMap_cons] at h
            split_ifs at h with hc hd hd
            · exact ⟨hc.trans hd.symm, by simpa [doubleApostrophes] using h⟩
            · simp [Ne.symm hd] at h
            · simp [hc] at h
            · simpa [doubleApostrophes] using h
          obtain ⟨rfl, hrest⟩ := hrest
          obtain ⟨rfl, hxy⟩ := ih hrest
          exact ⟨rfl, hxy⟩

/-- **A locator determines the sheet and the coordinate**, whatever they are. -/
theorem sheetLocator_injective {name name' cell cell' : String}
    (h : sheetLocator name cell = sheetLocator name' cell') : name = name' ∧ cell = cell' := by
  -- a plain name has neither an apostrophe nor an exclamation mark
  have hplain : ∀ {name : String}, isSimpleSheetName name = true →
      (∀ c ∈ name.toList, (c ≠ '!' : Bool) = true) ∧ name.toList.head? ≠ some apostrophe := by
    intro name hname
    simp only [isSimpleSheetName, Bool.and_eq_true, List.all_eq_true] at hname
    have hchar : ∀ c : Char, (c.isAlphanum || c = '_' || c = '.') = true → c ≠ '!' ∧ c ≠ apostrophe := by
      intro c hc
      constructor
      · rintro rfl
        exact absurd hc (by decide)
      · rintro rfl
        exact absurd hc (by decide)
    refine ⟨fun c hc => by simpa using (hchar c (hname.2 c hc)).1, ?_⟩
    intro hhead
    exact (hchar _ (hname.2 _ (List.mem_of_head? hhead))).2 rfl
  have hquote : ∀ {name cell : String}, isSimpleSheetName name = false →
      (sheetLocator name cell).toList = apostrophe ::
        (doubleApostrophes name.toList ++ apostrophe :: '!' :: cell.toList) := by
    intro name cell hname
    simp only [sheetLocator, hname, Bool.false_eq_true, if_false, String.toList_append,
      String.toList_ofList, List.append_assoc]
    rfl
  have hword : ∀ {name cell : String}, isSimpleSheetName name = true →
      (sheetLocator name cell).toList = name.toList ++ '!' :: cell.toList := by
    intro name cell hname
    simp only [sheetLocator, hname, if_true, String.toList_append, List.append_assoc]
    rfl
  -- a plain locator begins like its name, or with the exclamation mark
  have hdiffer : ∀ {name name' cell cell' : String}, isSimpleSheetName name = true →
      isSimpleSheetName name' = false → sheetLocator name cell ≠ sheetLocator name' cell' := by
    intro name name' cell cell' hname hname' heq
    have hchars := congrArg String.toList heq
    rw [hword hname, hquote hname'] at hchars
    match hcs : name.toList with
    | [] =>
        rw [hcs] at hchars
        exact absurd (List.cons.inj hchars).1 (by decide)
    | c :: cs =>
        rw [hcs] at hchars
        refine (hplain hname).2 ?_
        rw [hcs, List.head?_cons, (List.cons.inj hchars).1]
  have hchars := congrArg String.toList h
  cases hname : isSimpleSheetName name with
  | true =>
      cases hname' : isSimpleSheetName name' with
      | true =>
          rw [hword hname, hword hname'] at hchars
          obtain ⟨hnames, -, hcells⟩ := append_cons_inj (hplain hname).1 (hplain hname').1
            (by decide) (by decide) hchars
          exact ⟨String.toList_injective hnames, String.toList_injective hcells⟩
      | false => exact absurd h (hdiffer hname hname')
  | false =>
      cases hname' : isSimpleSheetName name' with
      | true => exact absurd h.symm (hdiffer hname' hname)
      | false =>
          rw [hquote hname, hquote hname'] at hchars
          obtain ⟨hnames, hcells⟩ := doubleApostrophes_inj (List.cons.inj hchars).2
          exact ⟨String.toList_injective hnames, String.toList_injective hcells⟩

end QualityCI

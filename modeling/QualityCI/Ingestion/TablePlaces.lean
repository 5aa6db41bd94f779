import QualityCI.Ingestion.Tables

/-!
# Places of evidence

The loops of the readers give every item the locator of a place, and never two items that of one.

* `Keyed` — evidence whose locators are those of distinct places.
* `csvRow_keyed`, `docxBlock_keyed`, `xlsxCell_distinct` — what one pass of each loop keeps.
* `parseCsvRows_nodup`, `parseDocxBody_nodup`, `parseXlsxSheets_nodup` — what whole documents keep.
* **`locators_injective`** — a locator determines its cell, and no two items of one document have
  the same one.
-/

namespace QualityCI

open Py

/-! ## Keyed evidence -/

/-- The locators of the evidence are those of distinct places, all with `P`. -/
def Keyed {κ : Type} (render : κ → String) (P : κ → Prop) (evidence : List Dict) : Prop :=
  ∃ keys : List κ, evidence.map locatorText = keys.map render ∧ keys.Nodup ∧ ∀ k ∈ keys, P k

section Keyed

variable {κ : Type} {render : κ → String} {P Q : κ → Prop} {evidence : List Dict}

lemma Keyed.nil : Keyed render P [] := ⟨[], rfl, List.nodup_nil, by simp⟩

lemma Keyed.mono (h : Keyed render P evidence) (hPQ : ∀ k, P k → Q k) :
    Keyed render Q evidence := by
  obtain ⟨keys, hrender, hnodup, hall⟩ := h
  exact ⟨keys, hrender, hnodup, fun k hk => hPQ k (hall k hk)⟩

/-- An item at a place that no other has. -/
lemma Keyed.append (h : Keyed render P evidence) {k : κ} {item : Dict} (hnew : ¬P k)
    (hitem : locatorText item = render k) (hPQ : ∀ k, P k → Q k) (hk : Q k) :
    Keyed render Q (evidence ++ [item]) := by
  obtain ⟨keys, hrender, hnodup, hall⟩ := h
  refine ⟨keys ++ [k], ?_, ?_, ?_⟩
  · rw [List.map_append, List.map_append, hrender, List.map_singleton, List.map_singleton, hitem]
  · rw [List.nodup_append]
    refine ⟨hnodup, List.nodup_singleton k, ?_⟩
    rintro k' hk' _ hmem rfl
    rw [List.mem_singleton] at hmem
    exact hnew (hmem ▸ hall k' hk')
  · intro k' hk'
    rcases List.mem_append.mp hk' with hk' | hk'
    · exact hPQ k' (hall k' hk')
    · rw [List.mem_singleton.mp hk']
      exact hk

/-- Where a locator determines its place, no two items have the same. -/
lemma Keyed.nodup (h : Keyed render P evidence) (hinj : Function.Injective render) :
    (evidence.map locatorText).Nodup := by
  obtain ⟨keys, hrender, hnodup, -⟩ := h
  rw [hrender]
  exact hnodup.map hinj

end Keyed

@[simp] lemma locatorText_baseEvidence (sourceHash kind locator text : String)
    (coordinates : List (String × Json)) :
    locatorText (baseEvidence sourceHash kind locator text coordinates) = locator := by
  simp [locatorText, baseEvidence, Dict.ofList, Dict.textAt, Json.str?]

lemma locatorText_set {item : Dict} {key : String} (h : key ≠ "locator") (value : Json) :
    locatorText (item.set key value) = locatorText item := by
  simp [locatorText, Dict.textAt, h]

lemma columnLabel_eq_ok {n : ℤ} {label : String} (h : columnLabel n = .ok label) :
    label = columnLetters n.toNat := by
  simp only [columnLabel, seq_eq_ok, require_eq_ok, Except.ok.injEq] at h
  exact h.2.symm

lemma columnLetters_injective : Function.Injective columnLetters := by
  intro n m h
  have hvalue : ∀ k, columnNumber (columnLetters k) = k := by
    intro k
    rw [columnLetters, columnNumber_of_digits (bijDigits_lt (by decide) k), bijValue_bijDigits]
  have hsame := hvalue n
  rw [h, hvalue m] at hsame
  exact_mod_cast hsame.symm

/-! ## CSV -/

/-- The locator of a row and a column. -/
def csvPlace (k : ℕ × ℕ) : String := csvLocator k.1 (columnLetters k.2)

lemma csvPlace_injective : Function.Injective csvPlace := by
  intro k k' h
  obtain ⟨hrow, hlabel⟩ := csvLocator_injective h
  exact Prod.ext hrow (columnLetters_injective hlabel)

lemma locatorText_csvItem (sourceHash : String) (row column : ℕ) (label value : String) :
    locatorText (csvItem sourceHash row column label value) = csvLocator row label := by
  unfold csvItem
  dsimp only
  split_ifs
  · rw [locatorText_set (by decide), locatorText_set (by decide), locatorText_baseEvidence]
  · rw [locatorText_baseEvidence]

/-- The places of the rows before one, and those of its columns before one. -/
def CsvBefore (row column : ℕ) (k : ℕ × ℕ) : Prop := k.1 < row ∨ k.1 = row ∧ k.2 < column

lemma csvCell_keyed {limits : TableLimits} {sourceHash : String} {row column : ℕ}
    {evidence evidence' : List Dict} {value : String}
    (h : Keyed csvPlace (CsvBefore row column) evidence)
    (hcell : csvCell limits sourceHash row column evidence value = .ok evidence') :
    Keyed csvPlace (CsvBefore row (column + 1)) evidence' := by
  simp only [csvCell, bind_eq_ok, exists_unit, Except.ok.injEq] at hcell
  obtain ⟨-, label, hlabel, -, rfl⟩ := hcell
  have hletters : label = columnLetters column := by simpa using columnLabel_eq_ok hlabel
  refine h.append (k := (row, column)) ?_ ?_ ?_ ?_
  · rintro (hlt | ⟨-, hlt⟩)
    · exact absurd hlt (lt_irrefl row)
    · exact absurd hlt (lt_irrefl column)
  · rw [locatorText_csvItem, hletters]
    rfl
  · rintro k (hlt | ⟨heq, hlt⟩)
    · exact Or.inl hlt
    · exact Or.inr ⟨heq, Nat.lt_succ_of_lt hlt⟩
  · exact Or.inr ⟨rfl, Nat.lt_succ_self column⟩

lemma csvRow_keyed {limits : TableLimits} {sourceHash : String} {row : ℕ}
    {state state' : List Dict × ℕ} {values : List String}
    (h : Keyed csvPlace (fun k => k.1 < row) state.1)
    (hrow : csvRow limits sourceHash row state values = .ok state') :
    Keyed csvPlace (fun k => k.1 < row + 1) state'.1 := by
  simp only [csvRow, bind_eq_ok, exists_unit, Except.ok.injEq] at hrow
  obtain ⟨-, -, evidence, hcells, rfl⟩ := hrow
  have hbefore : Keyed csvPlace (CsvBefore row 1) state.1 := h.mono fun k hk => Or.inl hk
  have hafter := enumerateM_invariant (P := fun column => Keyed csvPlace (CsvBefore row column))
    hbefore (fun j _ _ _ _ hkeyed hcell => csvCell_keyed hkeyed hcell) hcells
  refine hafter.mono ?_
  rintro k (hlt | ⟨heq, -⟩)
  · exact Nat.lt_succ_of_lt hlt
  · exact Nat.lt_succ_of_le heq.le

/-- **No two items of a CSV file have one locator.** -/
theorem parseCsvRows_nodup {limits : TableLimits} {sourceHash : String} {reading : CsvReading}
    {parsed : ParsedDocument} (h : parseCsvRows limits sourceHash reading = .ok parsed) :
    (parsed.evidence.map locatorText).Nodup := by
  simp only [parseCsvRows, bind_eq_ok] at h
  obtain ⟨⟨evidence, columns⟩, hrows, h⟩ := h
  have hkeyed := enumerateM_invariant
    (P := fun row (state : List Dict × ℕ) => Keyed csvPlace (fun k => k.1 < row) state.1)
    Keyed.nil (fun j _ _ _ _ hkeyed hrow => csvRow_keyed hkeyed hrow) hrows
  have hnodup : (evidence.map locatorText).Nodup := hkeyed.nodup csvPlace_injective
  split at h
  · exact absurd h (by simp [ingestionError])
  · simp only [seq_eq_ok, Except.ok.injEq] at h
    obtain ⟨-, rfl⟩ := h
    exact hnodup

/-! ## Documents -/

/-- A place of a document: a paragraph, or a cell of a table. -/
inductive DocxPlace
  | paragraph (n : ℕ)
  | cell (table row column : ℕ)

/-- The locator of a place. -/
def DocxPlace.locator : DocxPlace → String
  | .paragraph n => paragraphLocator n
  | .cell table row column => docxLocator table row (columnLetters column)

lemma DocxPlace.locator_injective : Function.Injective DocxPlace.locator := by
  intro k k' h
  cases k with
  | paragraph n =>
      cases k' with
      | paragraph m => rw [paragraphLocator_injective h]
      | cell table row column => exact absurd h (paragraphLocator_ne_docxLocator n table row _)
  | cell table row column =>
      cases k' with
      | paragraph m => exact absurd h.symm (paragraphLocator_ne_docxLocator m table row _)
      | cell table' row' column' =>
          obtain ⟨htable, hrow, hlabel⟩ := docxLocator_injective h
          rw [htable, hrow, columnLetters_injective hlabel]

/-- The paragraphs up to one, and the tables up to one. -/
def DocxUpTo (paragraphs tables : ℕ) : DocxPlace → Prop
  | .paragraph n => n ≤ paragraphs
  | .cell table _ _ => table ≤ tables

/-- These places, and those of the next table before a row and a column. -/
def DocxBefore (paragraphs tables row column : ℕ) : DocxPlace → Prop
  | .paragraph n => n ≤ paragraphs
  | .cell table r c => table ≤ tables ∨ table = tables + 1 ∧ (r < row ∨ r = row ∧ c < column)

lemma docxCell_keyed {limits : TableLimits} {sourceHash : String}
    {paragraphs tables row column : ℕ} {evidence evidence' : List Dict} {cell : Element}
    (h : Keyed DocxPlace.locator (DocxBefore paragraphs tables row column) evidence)
    (hcell : docxCell limits sourceHash (tables + 1) row column evidence cell = .ok evidence') :
    Keyed DocxPlace.locator (DocxBefore paragraphs tables row (column + 1)) evidence' := by
  simp only [docxCell, bind_eq_ok, exists_unit, Except.ok.injEq] at hcell
  obtain ⟨-, -, label, hlabel, rfl⟩ := hcell
  have hletters : label = columnLetters column := by simpa using columnLabel_eq_ok hlabel
  refine h.append (k := .cell (tables + 1) row column) ?_ ?_ ?_ ?_
  · rintro (hlt | ⟨-, hlt | ⟨-, hlt⟩⟩)
    · omega
    · exact absurd hlt (lt_irrefl row)
    · exact absurd hlt (lt_irrefl column)
  · rw [locatorText_baseEvidence, hletters]
    rfl
  · intro k hk
    cases k with
    | paragraph n => exact hk
    | cell table r c =>
        rcases hk with hle | ⟨heq, hlt | ⟨hr, hlt⟩⟩
        · exact Or.inl hle
        · exact Or.inr ⟨heq, Or.inl hlt⟩
        · exact Or.inr ⟨heq, Or.inr ⟨hr, Nat.lt_succ_of_lt hlt⟩⟩
  · exact Or.inr ⟨rfl, Or.inr ⟨rfl, Nat.lt_succ_self column⟩⟩

lemma docxRow_keyed {limits : TableLimits} {sourceHash : String} {paragraphs tables row : ℕ}
    {state state' : List Dict × ℕ} {element : Element}
    (h : Keyed DocxPlace.locator (DocxBefore paragraphs tables row 0) state.1)
    (hrow : docxRow limits sourceHash (tables + 1) row state element = .ok state') :
    Keyed DocxPlace.locator (DocxBefore paragraphs tables (row + 1) 0) state'.1 := by
  simp only [docxRow, bind_eq_ok, Except.ok.injEq] at hrow
  obtain ⟨evidence, hcells, rfl⟩ := hrow
  have hwiden : ∀ c d k, c ≤ d → DocxBefore paragraphs tables row c k →
      DocxBefore paragraphs tables row d k := by
    intro c d k hcd hk
    cases k with
    | paragraph n => exact hk
    | cell table r e =>
        rcases hk with hle | ⟨heq, hlt | ⟨hr, hlt⟩⟩
        · exact Or.inl hle
        · exact Or.inr ⟨heq, Or.inl hlt⟩
        · exact Or.inr ⟨heq, Or.inr ⟨hr, hlt.trans_le hcd⟩⟩
  have hafter := enumerateM_invariant
    (P := fun column => Keyed DocxPlace.locator (DocxBefore paragraphs tables row column))
    (h.mono fun k hk => hwiden 0 1 k (Nat.zero_le 1) hk)
    (fun j _ _ _ _ hkeyed hcell => docxCell_keyed hkeyed hcell) hcells
  refine hafter.mono ?_
  intro k hk
  cases k with
  | paragraph n => exact hk
  | cell table r c =>
      rcases hk with hle | ⟨heq, hlt | ⟨hr, -⟩⟩
      · exact Or.inl hle
      · exact Or.inr ⟨heq, Or.inl (Nat.lt_succ_of_lt hlt)⟩
      · exact Or.inr ⟨heq, Or.inl (Nat.lt_succ_of_le hr.le)⟩

/-- The evidence of a document up to its last paragraph and its last table. -/
def DocxKeyed (state : DocxState) : Prop :=
  Keyed DocxPlace.locator (DocxUpTo state.paragraphs state.tables) state.evidence

lemma docxTable_keyed {limits : TableLimits} {sourceHash : String} {state state' : DocxState}
    {element : Element} (h : DocxKeyed state)
    (htable : docxTable limits sourceHash state element = .ok state') : DocxKeyed state' := by
  simp only [docxTable, bind_eq_ok, exists_unit, Except.ok.injEq] at htable
  obtain ⟨-, ⟨evidence, columns⟩, hrows, rfl⟩ := htable
  have hbefore : Keyed DocxPlace.locator (DocxBefore state.paragraphs state.tables 1 0)
      state.evidence := by
    refine h.mono ?_
    intro k hk
    cases k with
    | paragraph n => exact hk
    | cell table r c => exact Or.inl hk
  have hafter := enumerateM_invariant
    (P := fun row (s : List Dict × ℕ) =>
      Keyed DocxPlace.locator (DocxBefore state.paragraphs state.tables row 0) s.1)
    hbefore (fun j _ _ _ _ hkeyed hrow => docxRow_keyed hkeyed hrow) hrows
  refine hafter.mono ?_
  intro k hk
  cases k with
  | paragraph n => exact hk
  | cell table r c =>
      show table ≤ state.tables + 1
      rcases hk with hle | ⟨heq, -⟩
      · exact Nat.le_succ_of_le hle
      · exact heq.le

lemma docxParagraph_keyed {limits : TableLimits} {sourceHash : String} {state state' : DocxState}
    {element : Element} (h : DocxKeyed state)
    (hparagraph : docxParagraph limits sourceHash state element = .ok state') :
    DocxKeyed state' := by
  simp only [docxParagraph, seq_eq_ok, Except.ok.injEq] at hparagraph
  obtain ⟨-, rfl⟩ := hparagraph
  refine Keyed.append h (k := .paragraph (state.paragraphs + 1)) ?_ ?_ ?_ ?_
  · exact Nat.not_succ_le_self state.paragraphs
  · rw [locatorText_baseEvidence]
    rfl
  · intro k hk
    cases k with
    | paragraph n => exact Nat.le_succ_of_le hk
    | cell table r c => exact hk
  · exact le_refl (state.paragraphs + 1)

/-- One block of a document keeps the places distinct. -/
lemma docxBlock_keyed {limits : TableLimits} {sourceHash : String} {state state' : DocxState}
    {block : Result Element} (h : DocxKeyed state)
    (hblock : docxBlock limits sourceHash state block = .ok state') : DocxKeyed state' := by
  simp only [docxBlock, bind_eq_ok, exists_unit, Except.ok.injEq] at hblock
  obtain ⟨element, -, next, hnext, -, rfl⟩ := hblock
  unfold docxElement at hnext
  split_ifs at hnext
  · exact docxParagraph_keyed h hnext
  · exact docxTable_keyed h hnext
  · rwa [← Except.ok.inj hnext]

/-- **No two items of a document have one locator.** -/
theorem parseDocxBody_nodup {limits : TableLimits} {sourceHash : String} {body : Element}
    {parsed : ParsedDocument} (h : parseDocxBody limits sourceHash body = .ok parsed) :
    (parsed.evidence.map locatorText).Nodup := by
  simp only [parseDocxBody, bind_eq_ok, exists_unit, Except.ok.injEq] at h
  obtain ⟨state, hblocks, -, -, rfl⟩ := h
  have hnil : DocxKeyed {} := Keyed.nil
  have hkeyed : DocxKeyed state := enumerateM_invariant (P := fun _ => DocxKeyed) hnil
    (fun j _ _ _ _ hkeyed hblock => docxBlock_keyed hkeyed hblock) hblocks
  exact Keyed.nodup hkeyed DocxPlace.locator_injective

/-! ## Workbooks -/

section Workbook

variable [PyUnicode] [PyUpper]

omit [PyUnicode] [PyUpper] in
lemma locatorText_xlsxItem (sourceHash sheetName : String) (sheetNumber : ℕ) (coordinate : String)
    (row : ℕ) (column : ℤ) (value : Json) (text : String) (formula : Option String) :
    locatorText (xlsxItem sourceHash sheetName sheetNumber coordinate row column value text
      formula) = sheetLocator sheetName coordinate := by
  unfold xlsxItem
  cases formula with
  | none => rw [locatorText_set (by decide), locatorText_baseEvidence]
  | some f =>
      rw [locatorText_set (by decide), locatorText_set (by decide), locatorText_set (by decide),
        locatorText_set (by decide), locatorText_baseEvidence]

/-- The locators that the loop has seen are those of the evidence, and no two are equal. -/
def Distinct (evidence : List Dict) (seenLocators : List String) : Prop :=
  evidence.map locatorText = seenLocators ∧ seenLocators.Nodup

lemma xlsxCell_distinct {limits : TableLimits} {sourceHash sheetName : String} {sheetNumber : ℕ}
    {sharedStrings : List String} {state state' : SheetState} {cell : Element}
    (h : Distinct state.evidence state.seenLocators)
    (hcell : xlsxCell limits sourceHash sheetName sheetNumber sharedStrings state cell =
      .ok state') : Distinct state'.evidence state'.seenLocators := by
  simp only [xlsxCell, bind_eq_ok, exists_unit, whenever_eq_ok, Except.ok.injEq,
    Prod.exists] at hcell
  obtain ⟨_, row, column, -, -, value, text, formula, -, -, hunseen, -, rfl⟩ := hcell
  obtain ⟨hseen, hnodup⟩ := h
  constructor
  · simp only [List.map_append, List.map_singleton, locatorText_xlsxItem, hseen]
  · rw [List.nodup_append]
    refine ⟨hnodup, List.nodup_singleton _, ?_⟩
    rintro locator hlocator other hother rfl
    rw [List.mem_singleton] at hother
    subst hother
    exact absurd (hunseen hlocator) (by simp [ingestionError])

lemma xlsxSheet_distinct {archive : OoxmlArchive} {rels : List (String × String × String)}
    {limits : TableLimits} {sourceHash : String} {sharedStrings : List String} {sheetNumber : ℕ}
    {state state' : WorkbookState} {sheet : Element}
    (h : Distinct state.evidence state.seenLocators)
    (hsheet : xlsxSheet archive rels limits sourceHash sharedStrings sheetNumber state sheet =
      .ok state') : Distinct state'.evidence state'.seenLocators := by
  simp only [xlsxSheet, bind_eq_ok, exists_unit, Except.ok.injEq, Prod.exists] at hsheet
  obtain ⟨-, -, _, _, worksheet, -, done, hcells, rfl⟩ := hsheet
  exact enumerateM_invariant (P := fun _ (s : SheetState) => Distinct s.evidence s.seenLocators) h
    (fun j _ _ _ _ hdistinct hcell => xlsxCell_distinct hdistinct hcell) hcells

/-- **No two items of a workbook have one locator.** -/
theorem parseXlsxSheets_nodup {archive : OoxmlArchive} {rels : List (String × String × String)}
    {limits : TableLimits} {sourceHash : String} {sharedStrings : List String} {sheets : Element}
    {parsed : ParsedDocument}
    (h : parseXlsxSheets archive rels limits sourceHash sharedStrings sheets = .ok parsed) :
    (parsed.evidence.map locatorText).Nodup := by
  simp only [parseXlsxSheets, bind_eq_ok, exists_unit, Except.ok.injEq] at h
  obtain ⟨state, hsheets, -, rfl⟩ := h
  obtain ⟨hseen, hnodup⟩ := enumerateM_invariant
    (P := fun _ (s : WorkbookState) => Distinct s.evidence s.seenLocators)
    ⟨rfl, List.nodup_nil⟩ (fun j _ _ _ _ hdistinct hsheet => xlsxSheet_distinct hdistinct hsheet)
    hsheets
  rw [hseen]
  exact hnodup

/-! ## Locators and cells -/

/-- **A locator determines its cell.**  Labels of columns correspond to positive numbers; the
locators of each kind determine what they are made of, and those of paragraphs are no cell's; and no
two items that a reader emits for one document have the same locator. -/
theorem locators_injective :
    ((∀ n : ℤ, 0 < n → ∃ label, columnLabel n = .ok label ∧ IsColumnLabel label ∧
        columnNumber label = n) ∧
      ∀ label, IsColumnLabel label → 0 < columnNumber label ∧
        columnLabel (columnNumber label) = .ok label) ∧
    ((∀ row row' label label', csvLocator row label = csvLocator row' label' →
        row = row' ∧ label = label') ∧
      (∀ table table' row row' label label',
        docxLocator table row label = docxLocator table' row' label' →
        table = table' ∧ row = row' ∧ label = label') ∧
      (∀ n m, paragraphLocator n = paragraphLocator m → n = m) ∧
      (∀ n table row label, paragraphLocator n ≠ docxLocator table row label) ∧
      ∀ name name' coordinate coordinate',
        validateSheetName name = .ok () → validateSheetName name' = .ok () →
        (∃ place, validateXlsxCoordinate coordinate = .ok place) →
        (∃ place, validateXlsxCoordinate coordinate' = .ok place) →
        sheetLocator name coordinate = sheetLocator name' coordinate' →
        name = name' ∧ coordinate = coordinate') ∧
    (∀ limits sourceHash reading parsed, parseCsvRows limits sourceHash reading = .ok parsed →
      (parsed.evidence.map locatorText).Nodup) ∧
    (∀ limits sourceHash body parsed, parseDocxBody limits sourceHash body = .ok parsed →
      (parsed.evidence.map locatorText).Nodup) ∧
    (∀ archive rels limits sourceHash sharedStrings sheets parsed,
      parseXlsxSheets archive rels limits sourceHash sharedStrings sheets = .ok parsed →
      (parsed.evidence.map locatorText).Nodup) := by
  refine ⟨⟨fun n hn => columnNumber_columnLabel hn, fun label h => columnLabel_columnNumber h⟩,
    ⟨?_, ?_, ?_, ?_, ?_⟩, ?_, ?_, ?_⟩
  · exact fun row row' label label' h => csvLocator_injective h
  · exact fun table table' row row' label label' h => docxLocator_injective h
  · exact fun n m h => paragraphLocator_injective h
  · exact paragraphLocator_ne_docxLocator
  · exact fun name name' coordinate coordinate' _ _ _ _ h => sheetLocator_injective h
  · exact fun limits sourceHash reading parsed h => parseCsvRows_nodup h
  · exact fun limits sourceHash body parsed h => parseDocxBody_nodup h
  · exact fun archive rels limits sourceHash sharedStrings sheets parsed h =>
      parseXlsxSheets_nodup h

end Workbook

section Ascii

attribute [local instance] asciiUnicode

/-- `str.upper`, on ASCII text. -/
@[reducible] def asciiUpper : PyUpper where
  upper s := String.ofList (s.toList.map upperAscii)

attribute [local instance] asciiUpper

/-- A document with a paragraph and a table of one row. -/
def sampleBody : Element :=
  let text (t : String) := Element.mk (wordTag "p") [] none [.mk (wordTag "t") [] (some t) []]
  let cell (t : String) := Element.mk (wordTag "tc") [] none [text t]
  .mk (wordTag "body") [] none
    [text "torque", .mk (wordTag "tbl") [] none [.mk (wordTag "tr") [] none [cell "10", cell "Nm"]]]

/-- A workbook with one sheet, of one cell. -/
def sampleSheets : Element :=
  .mk (mainTag "sheets") [] none
    [.mk (mainTag "sheet") [("name", "QC plan"), (relationshipIdName, "rId1")] none []]

def sampleWorkbook : OoxmlArchive where
  names := ["xl/worksheets/sheet1.xml"]
  xml _ := .ok (.mk (mainTag "worksheet") [] none
    [.mk (mainTag "c") [("r", "b2")] none [.mk (mainTag "v") [] (some "7") []]])

def sampleRelationships : List (String × String × String) :=
  [("rId1", "xl/worksheets/sheet1.xml",
    "http://schemas.openxmlformats.org/officeDocument/2006/relationships/worksheet")]

/-- Each of the three readers returns. -/
example :
    ((parseCsvRows {} "H" ⟨[["part", "torque"], ["P-1"]], none, ","⟩).map fun parsed =>
      parsed.evidence.map locatorText) =
        .ok ["CSV#row-1.cell-A", "CSV#row-1.cell-B", "CSV#row-2.cell-A"] ∧
    ((parseDocxBody {} "H" sampleBody).map fun parsed => parsed.evidence.map locatorText) =
      .ok ["DOCX#paragraph-1", "DOCX#table-1.row-1.cell-A", "DOCX#table-1.row-1.cell-B"] ∧
    ((parseXlsxSheets sampleWorkbook sampleRelationships {} "H" [] sampleSheets).map fun parsed =>
      parsed.evidence.map locatorText) = .ok ["'QC plan'!B2"] := by
  decide +kernel

end Ascii

end QualityCI

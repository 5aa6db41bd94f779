import QualityCI.Ingestion.Locators
import QualityCI.Ingestion.PdfNames
import QualityCI.Lib.FloatText
import QualityCI.Lib.XmlElement

/-!
# Evidence from tables

The readers of CSV files, of documents and of workbooks go through rows and cells, check the limits
on the way and give each cell a locator.  What a library reads first is taken as it comes: the rows
of a CSV file, the elements of the XML members of an archive.

* `parseCsvRows` — the rows of a CSV file.
* `parseDocxBody` — the paragraphs and tables of a document.
* `parseXlsxSheets` — the worksheets of a workbook.
-/

namespace QualityCI

open Py

/-- The limits of `IngestionLimits` that the readers of tables check besides. -/
structure TableLimits extends IngestionLimits where
  maxCellChars : ℕ := 100000
  maxCsvRows : ℕ := 10000
  maxCsvColumns : ℕ := 1000

/-- `_base_evidence`. -/
def baseEvidence (sourceHash kind locator text : String) (coordinates : List (String × Json)) :
    Dict :=
  Dict.ofList [("kind", .str kind), ("locator", .str locator), ("text", .str text),
    ("source_hash", .str sourceHash), ("coordinates", .obj (Dict.ofList coordinates))]

/-- `item["locator"]`. -/
def locatorText (item : Dict) : String := item.textAt "locator"

/-- What a reader returns. -/
structure ParsedDocument where
  evidence : List Dict
  documentStructure : Dict

/-- The check at the end of each reader. -/
def checkLimits (evidence : List Dict) (limits : TableLimits) : Result Unit :=
  checkEvidenceLimits (evidence.map fun item => item.textAt "text") limits.toIngestionLimits

/-- `if len(evidence) > limits.max_evidence_items: raise …`. -/
def checkItemCount (evidence : List Dict) (limits : TableLimits) : Result Unit :=
  whenever (limits.maxEvidenceItems < evidence.length)
    (limitExceededError s!"evidence item count exceeds {limits.maxEvidenceItems}")

/-- `_validate_text_length`. -/
def validateTextLength (text : String) (limits : TableLimits) (description : String) :
    Result Unit :=
  whenever (limits.maxCellChars < text.length)
    (limitExceededError s!"{description} exceeds {limits.maxCellChars} characters")

/-! ## CSV -/

/-- What `csv.reader` gives: rows, the error it ends with, if it does, and the delimiter. -/
structure CsvReading where
  rows : List (List String)
  failure : Option String
  delimiter : String

/-- `value.lstrip().startswith(("=", "+", "-", "@"))`. -/
def looksLikeFormula (value : String) : Bool :=
  match value.toList.dropWhile isSpace with
  | c :: _ => c = '=' || c = '+' || c = '-' || c = '@'
  | [] => false

/-- The evidence of one cell. -/
def csvItem (sourceHash : String) (row column : ℕ) (label value : String) : Dict :=
  let item := baseEvidence sourceHash "CELL" (csvLocator row label) value
    [("row", .int row), ("column", .int column), ("column_label", .str label)]
  if looksLikeFormula value then
    (item.set "potential_spreadsheet_formula" (.bool true)).set "formula_executed" (.bool false)
  else item

/-- One pass of the loop over the values of a row. -/
def csvCell (limits : TableLimits) (sourceHash : String) (row column : ℕ) (evidence : List Dict)
    (value : String) : Result (List Dict) := do
  whenever (limits.maxCellChars < value.length)
    (limitExceededError
      s!"CSV cell at row {row}, column {column} exceeds {limits.maxCellChars} characters")
  let label ← columnLabel column
  let evidence := evidence ++ [csvItem sourceHash row column label value]
  checkItemCount evidence limits
  .ok evidence

/-- One pass of the loop over the rows: the evidence and the greatest number of columns. -/
def csvRow (limits : TableLimits) (sourceHash : String) (row : ℕ) (state : List Dict × ℕ)
    (values : List String) : Result (List Dict × ℕ) := do
  whenever (limits.maxCsvRows < row)
    (limitExceededError s!"CSV row count exceeds {limits.maxCsvRows}")
  whenever (limits.maxCsvColumns < values.length)
    (limitExceededError s!"CSV row {row} exceeds {limits.maxCsvColumns} columns")
  let evidence ← enumerateM (csvCell limits sourceHash row) 1 state.1 values
  .ok (evidence, max state.2 values.length)

/-- `[item["text"] for item in evidence if item["coordinates"]["row"] == 1]`. -/
def headerValues (evidence : List Dict) : List String :=
  (evidence.filter fun item => (item.dictAt "coordinates").get? "row" = some (.int 1)).map
    fun item => item.textAt "text"

/-- `_parse_csv`, from where the reader has been made. -/
def parseCsvRows (limits : TableLimits) (sourceHash : String) (reading : CsvReading) :
    Result ParsedDocument := do
  let (evidence, columnCount) ← enumerateM (csvRow limits sourceHash) 1 ([], 0) reading.rows
  match reading.failure with
  | some error => ingestionError s!"malformed CSV: {error}"
  | none => do
      checkLimits evidence limits
      .ok ⟨evidence, Dict.ofList
        [("format", .str "CSV"), ("row_count", .int reading.rows.length),
         ("column_count", .int columnCount), ("delimiter", .str reading.delimiter),
         ("header_values", .arr ((headerValues evidence).map Json.str))]⟩

/-! ## Documents -/

/-- A tag of a document. -/
def wordTag (name : String) : String :=
  "\x7bhttp://schemas.openxmlformats.org/wordprocessingml/2006/main\x7d" ++ name

/-- What an element adds to the text. -/
def wordToken (e : Element) : String :=
  if e.tag = wordTag "t" then e.text.getD ""
  else if e.tag = wordTag "tab" then "\t"
  else if e.tag = wordTag "br" ∨ e.tag = wordTag "cr" then "\n"
  else ""

/-- `_word_text`. -/
def wordText (e : Element) : String := join "" (e.all.map wordToken)

mutual

/-- What `_word_blocks` yields for one child: blocks, and the error it stops with. -/
def wordBlocksOf : Element → List (Result Element)
  | .mk tag attrib text children =>
      if tag = wordTag "p" ∨ tag = wordTag "tbl" then [.ok (.mk tag attrib text children)]
      else if tag = wordTag "sdt" then contentBlocks children
      else if tag = wordTag "sectPr" then []
      else [unsupportedFormatError s!"DOCX body contains unsupported block element: {tag}"]

/-- `_word_blocks`, of the children of a container. -/
def wordBlocks : List Element → List (Result Element)
  | [] => []
  | child :: rest => wordBlocksOf child ++ wordBlocks rest

/-- The blocks of the first `sdtContent`. -/
def contentBlocks : List Element → List (Result Element)
  | [] => [unsupportedFormatError "DOCX content control has no sdtContent"]
  | .mk tag _ _ children :: rest =>
      if tag = wordTag "sdtContent" then wordBlocks children else contentBlocks rest

end

/-- The variables of the loop over the blocks. -/
structure DocxState where
  paragraphs : ℕ := 0
  tables : ℕ := 0
  evidence : List Dict := []
  summaries : List Json := []

/-- One pass of the loop over the cells of a row. -/
def docxCell (limits : TableLimits) (sourceHash : String) (table row column : ℕ)
    (evidence : List Dict) (cell : Element) : Result (List Dict) := do
  whenever ((cell.findDescendant (wordTag "tbl")).isSome = true) (unsupportedFormatError
    "DOCX nested tables are not supported without a reviewed locator mapping")
  let text := wordText cell
  validateTextLength text limits s!"DOCX table {table}, row {row}, cell {column}"
  let label ← columnLabel column
  .ok (evidence ++ [baseEvidence sourceHash "TABLE_CELL" (docxLocator table row label) text
    [("table", .int table), ("row", .int row), ("column", .int column),
     ("column_label", .str label)]])

/-- One pass of the loop over the rows of a table: the evidence and the greatest number of cells. -/
def docxRow (limits : TableLimits) (sourceHash : String) (table row : ℕ)
    (state : List Dict × ℕ) (element : Element) : Result (List Dict × ℕ) := do
  let cells := element.findall (wordTag "tc")
  let evidence ← enumerateM (docxCell limits sourceHash table row) 1 state.1 cells
  .ok (evidence, max state.2 cells.length)

/-- A table. -/
def docxTable (limits : TableLimits) (sourceHash : String) (state : DocxState)
    (element : Element) : Result DocxState := do
  let table := state.tables + 1
  whenever ((element.findDescendant (wordTag "sdt")).isSome = true) (unsupportedFormatError
    "DOCX content controls inside tables require a reviewed locator mapping")
  let rows := element.findall (wordTag "tr")
  let (evidence, columns) ←
    enumerateM (docxRow limits sourceHash table) 1 (state.evidence, 0) rows
  .ok { state with
    tables := table
    evidence := evidence
    summaries := state.summaries ++ [.obj (Dict.ofList
      [("table_number", .int table), ("row_count", .int rows.length),
       ("column_count", .int columns)])] }

/-- A paragraph. -/
def docxParagraph (limits : TableLimits) (sourceHash : String) (state : DocxState)
    (element : Element) : Result DocxState := do
  let paragraph := state.paragraphs + 1
  let text := wordText element
  validateTextLength text limits s!"DOCX paragraph {paragraph}"
  .ok { state with
    paragraphs := paragraph
    evidence := state.evidence ++ [baseEvidence sourceHash "PARAGRAPH"
      (paragraphLocator paragraph) text [("paragraph", .int paragraph)]] }

/-- A block, by its tag. -/
def docxElement (limits : TableLimits) (sourceHash : String) (state : DocxState)
    (element : Element) : Result DocxState :=
  if element.tag = wordTag "p" then docxParagraph limits sourceHash state element
  else if element.tag = wordTag "tbl" then docxTable limits sourceHash state element
  else .ok state

/-- One pass of the loop over the blocks. -/
def docxBlock (limits : TableLimits) (sourceHash : String) (state : DocxState)
    (block : Result Element) : Result DocxState := do
  let element ← block
  let state ← docxElement limits sourceHash state element
  checkItemCount state.evidence limits
  .ok state

/-- `_parse_docx`, of the body of the document. -/
def parseDocxBody (limits : TableLimits) (sourceHash : String) (body : Element) :
    Result ParsedDocument := do
  let state ← enumerateM (fun _ state block => docxBlock limits sourceHash state block) 0 {}
    (wordBlocks body.children)
  whenever (state.evidence.all (fun item => isBlank (item.textAt "text")) = true)
    (ingestionError "DOCX produced no supported, non-empty text evidence")
  checkLimits state.evidence limits
  .ok ⟨state.evidence, Dict.ofList
    [("format", .str "DOCX"), ("paragraph_count", .int state.paragraphs),
     ("tables", .arr state.summaries), ("page_coordinates_available", .bool false)]⟩

/-! ## Workbooks -/

/-- `str.upper`, which rests on the Unicode tables. -/
class PyUpper where
  upper : String → String

/-- A tag of a workbook. -/
def mainTag (name : String) : String :=
  "\x7bhttp://schemas.openxmlformats.org/spreadsheetml/2006/main\x7d" ++ name

/-- `{…}id`, the attribute that names a relationship. -/
def relationshipIdName : String :=
  "\x7bhttp://schemas.openxmlformats.org/officeDocument/2006/relationships\x7did"

/-- `_RELATIONSHIP_PREFIXES`. -/
def relationshipPrefixes : List String :=
  ["http://schemas.openxmlformats.org/officeDocument/2006/relationships/",
   "http://schemas.openxmlformats.org/package/2006/relationships/",
   "http://purl.oclc.org/ooxml/officeDocument/relationships/"]

/-- `_relationship_kind`: the first namespace under which the type names a kind. -/
def relationshipKind (relationshipType : String) : Result String :=
  let kindUnder (namespaceText : String) : Option String :=
    if namespaceText.toList.isPrefixOf relationshipType.toList then
      let kind := String.ofList (relationshipType.toList.drop namespaceText.length)
      if kind = "metadata/core-properties" then some "core-properties"
      else if kind ≠ "" ∧ '/' ∉ kind.toList then some kind
      else none
    else none
  match relationshipPrefixes.findSome? kindUnder with
  | some kind => .ok kind
  | none => archiveSafetyError
      s!"OOXML relationship namespace is not allowlisted: {relationshipType}"

/-- What `_SafeOOXML` gives of an archive: its members, and the XML of a member. -/
structure OoxmlArchive where
  names : List String
  xml : String → Result Element

/-- The number of one decimal digit or more. -/
def digitsValue (ds : List Char) : Option ℕ :=
  if ds ≠ [] ∧ ds.all Char.isDigit = true then some (Nat.ofDigitChars 10 ds 0) else none

/-- `int(text)`, `none` where it raises `ValueError`; a number of more than 4300 digits, which is
refused, is no index of a list either. -/
def parseInt (text : String) : Option ℤ := do
  let cs := (asciiForm text.toList).dropWhile isAsciiSpace
  let cs := (cs.reverse.dropWhile isAsciiSpace).reverse
  let cs ← dropUnderscores (Char.ofNat 0) cs
  match cs with
  | '-' :: ds => (digitsValue ds).map fun n => -(n : ℤ)
  | '+' :: ds => (digitsValue ds).map fun n => (n : ℤ)
  | ds => (digitsValue ds).map fun n => (n : ℤ)

/-- `_safe_number`. -/
def safeNumber (rawValue : String) : Json :=
  if rawValue = "" then .str ""
  else
    match parseFloat rawValue with
    | some (.finite x) => integerOrFloat x
    | _ => .str rawValue

section Workbook

variable [PyUnicode] [PyUpper]

omit [PyUpper] in
/-- A shared string. -/
def sharedString (sharedStrings : List String) (rawValue : String) : Result String :=
  match (parseInt rawValue).bind fun index =>
      if index < 0 then none else sharedStrings[index.toNat]? with
  | some text => .ok text
  | none => ingestionError s!"XLSX shared-string index is invalid: {strRepr rawValue}"

omit [PyUpper] in
/-- The value and the text of a cell, before its formula is looked at. -/
def xlsxPlainValue (cell : Element) (sharedStrings : List String) : Result (Json × String) :=
  let cellType := (cell.get? "t").getD "n"
  let rawValue := match cell.find (mainTag "v") with
    | some node => node.text.getD ""
    | none => ""
  if cellType = "inlineStr" then
    let text := join "" ((cell.iter (mainTag "t")).map fun node => node.text.getD "")
    .ok (.str text, text)
  else if cellType = "s" then do
    let text ← sharedString sharedStrings rawValue
    .ok (.str text, text)
  else if cellType = "b" then
    if rawValue = "0" then .ok (.bool false, "FALSE")
    else if rawValue = "1" then .ok (.bool true, "TRUE")
    else ingestionError s!"XLSX boolean cell has invalid value: {strRepr rawValue}"
  else if cellType = "str" ∨ cellType = "e" ∨ cellType = "d" then .ok (.str rawValue, rawValue)
  else .ok (safeNumber rawValue, rawValue)

omit [PyUpper] in
/-- `_xlsx_cell_value`. -/
def xlsxCellValue (cell : Element) (sharedStrings : List String) :
    Result (Json × String × Option String) := do
  let formula := (cell.find (mainTag "f")).map fun node => node.text.getD ""
  let (value, text) ← xlsxPlainValue cell sharedStrings
  match formula with
  | some f => .ok (value, if text = "" then "=" ++ f else text, some f)
  | none => .ok (value, text, none)

/-- The evidence of one cell. -/
def xlsxItem (sourceHash sheetName : String) (sheetNumber : ℕ) (coordinate : String) (row : ℕ)
    (column : ℤ) (value : Json) (text : String) (formula : Option String) : Dict :=
  let item := (baseEvidence sourceHash "CELL" (sheetLocator sheetName coordinate) text
    [("sheet", .str sheetName), ("sheet_number", .int sheetNumber), ("cell", .str coordinate),
     ("row", .int row), ("column", .int column)]).set "value" value
  match formula with
  | some f => ((item.set "formula" (.str f)).set "formula_executed" (.bool false)).set
      "value_is_cached" (.bool true)
  | none => item

/-- The variables of the loop over the cells of a worksheet. -/
structure SheetState where
  evidence : List Dict
  seenLocators : List String
  seenCoordinates : List String := []
  maxRow : ℕ := 0
  maxColumn : ℤ := 0

/-- One pass of the loop over the cells of a worksheet. -/
def xlsxCell (limits : TableLimits) (sourceHash sheetName : String) (sheetNumber : ℕ)
    (sharedStrings : List String) (state : SheetState) (cell : Element) : Result SheetState := do
  let coordinate := PyUpper.upper ((cell.get? "r").getD "")
  let (_, row, column) ← validateXlsxCoordinate coordinate
  whenever (coordinate ∈ state.seenCoordinates) (ingestionError
    s!"XLSX sheet {strRepr sheetName} has duplicate cell coordinate {coordinate}")
  let (value, text, formula) ← xlsxCellValue cell sharedStrings
  let locator := sheetLocator sheetName coordinate
  whenever (limits.maxCellChars < text.length) (limitExceededError
    s!"XLSX cell {locator} exceeds {limits.maxCellChars} characters")
  whenever (locator ∈ state.seenLocators)
    (ingestionError s!"XLSX evidence locator is not unique: {locator}")
  let evidence := state.evidence ++
    [xlsxItem sourceHash sheetName sheetNumber coordinate row column value text formula]
  checkItemCount evidence limits
  .ok
    { evidence := evidence
      seenLocators := state.seenLocators ++ [locator]
      seenCoordinates := state.seenCoordinates ++ [coordinate]
      maxRow := max state.maxRow row
      maxColumn := max state.maxColumn column }

/-- The variables of the loop over the sheets. -/
structure WorkbookState where
  evidence : List Dict := []
  summaries : List Json := []
  seenSheetNames : List String := []
  seenRelationshipIds : List String := []
  seenSheetPaths : List String := []
  seenLocators : List String := []

/-- The worksheet that a sheet of the workbook refers to, and the identifier and the member through
which it does. -/
def worksheetOf (archive : OoxmlArchive) (rels : List (String × String × String))
    (state : WorkbookState) (sheetName : String) (sheet : Element) :
    Result (String × String × Element) :=
  let relationshipId := (sheet.get? relationshipIdName).getD ""
  match if relationshipId = "" then none else rels.lookup relationshipId with
  | none => ingestionError
      s!"XLSX sheet {strRepr sheetName} has no internal worksheet relationship"
  | some (sheetPath, relationshipType) => do
      whenever (relationshipId ∈ state.seenRelationshipIds) (ingestionError
        s!"XLSX sheets reuse worksheet relationship {strRepr relationshipId}")
      let kind ← relationshipKind relationshipType
      whenever (kind ≠ "worksheet") (ingestionError
        s!"XLSX sheet {strRepr sheetName} relationship is not a worksheet")
      whenever (sheetPath ∈ state.seenSheetPaths)
        (ingestionError s!"XLSX sheets reuse worksheet member: {sheetPath}")
      whenever (sheetPath ∉ archive.names)
        (ingestionError s!"XLSX worksheet member is missing: {sheetPath}")
      let worksheet ← archive.xml sheetPath
      .ok (relationshipId, sheetPath, worksheet)

/-- One pass of the loop over the sheets. -/
def xlsxSheet (archive : OoxmlArchive) (rels : List (String × String × String))
    (limits : TableLimits) (sourceHash : String) (sharedStrings : List String) (sheetNumber : ℕ)
    (state : WorkbookState) (sheet : Element) : Result WorkbookState := do
  let sheetName := (sheet.get? "name").getD ("Sheet" ++ toString sheetNumber)
  validateSheetName sheetName
  let sheetKey := PyUnicode.casefold sheetName
  whenever (sheetKey ∈ state.seenSheetNames) (ingestionError
    s!"XLSX has duplicate/colliding sheet name: {strRepr sheetName}")
  let (relationshipId, sheetPath, worksheet) ← worksheetOf archive rels state sheetName sheet
  let cells := worksheet.iter (mainTag "c")
  let done ← enumerateM
    (fun _ cellState cell => xlsxCell limits sourceHash sheetName sheetNumber sharedStrings
      cellState cell) 0 { evidence := state.evidence, seenLocators := state.seenLocators } cells
  .ok
    { evidence := done.evidence
      summaries := state.summaries ++ [.obj (Dict.ofList
        [("name", .str sheetName), ("sheet_number", .int sheetNumber),
         ("cell_count", .int cells.length), ("max_row", .int done.maxRow),
         ("max_column", .int done.maxColumn)])]
      seenSheetNames := state.seenSheetNames ++ [sheetKey]
      seenRelationshipIds := state.seenRelationshipIds ++ [relationshipId]
      seenSheetPaths := state.seenSheetPaths ++ [sheetPath]
      seenLocators := done.seenLocators }

/-- `_parse_xlsx`, from where the relationships and the shared strings have been read. -/
def parseXlsxSheets (archive : OoxmlArchive) (rels : List (String × String × String))
    (limits : TableLimits) (sourceHash : String) (sharedStrings : List String) (sheets : Element) :
    Result ParsedDocument := do
  let state ← enumerateM (xlsxSheet archive rels limits sourceHash sharedStrings) 1 {}
    sheets.children
  checkLimits state.evidence limits
  .ok ⟨state.evidence, Dict.ofList [("format", .str "XLSX"), ("sheets", .arr state.summaries)]⟩

end Workbook

end QualityCI

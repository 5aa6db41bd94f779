import Mathlib.Data.Prod.Lex
import Mathlib.Data.String.Basic
import QualityCI.Lib.SelfDelimiting
import QualityCI.CaseBuilder.Numbers

/-!
# The logical fingerprint of a table

The builder hashes the grid of cells that it selected, so that one table written in two ways is
known to be one table.  Texts are normalized, the header row is folded, blank cells go, and what is
left is hashed at its coordinates relative to its own corner.

* `logicalTableBytes` — what is hashed.
* `TableCell`, `ReadsTable` — the cells that the evidence stands for.
* `normalGrid`, `SameGrid` — the normalized cells that are not blank, up to a translation.
* `logicalTableBytes_eq_ok` — the bytes are the words of the relative grid, in order.
* **`logicalTableBytes_law`** — two grids are hashed from the same bytes exactly when they are the
  same up to a translation; and what therefore does not matter.
-/

namespace Py

/-- The normal form that the Unicode tables define by canonical equivalence. -/
class PyNormalForm where
  /-- `unicodedata.normalize("NFC", s)` -/
  nfc : String → String

/-- `s.replace("\r\n", "\n")`. -/
def replaceCrLf : List Char → List Char
  | '\r' :: '\n' :: rest => '\n' :: replaceCrLf rest
  | c :: rest => c :: replaceCrLf rest
  | [] => []

/-- `s.replace("\r\n", "\n").replace("\r", "\n")`. -/
def unifyNewlines (s : String) : String :=
  String.ofList ((replaceCrLf s.toList).map fun c => if c = '\r' then '\n' else c)

/-- A text and the same text with `\n` for each of its line ends, which may be `\n`, `\r\n` or
`\r`. -/
inductive LineSpelling : List Char → List Char → Prop
  | nil : LineSpelling [] []
  | char {c : Char} {s t : List Char} (hcr : c ≠ '\r') (hlf : c ≠ '\n') (h : LineSpelling s t) :
      LineSpelling (c :: s) (c :: t)
  | lf {s t : List Char} (h : LineSpelling s t) : LineSpelling ('\n' :: s) ('\n' :: t)
  | crlf {s t : List Char} (h : LineSpelling s t) : LineSpelling ('\r' :: '\n' :: s) ('\n' :: t)
  | cr {s t : List Char} (hlf : s.head? ≠ some '\n') (h : LineSpelling s t) :
      LineSpelling ('\r' :: s) ('\n' :: t)

/-- The spelling of line ends is what `unifyNewlines` forgets. -/
lemma LineSpelling.unify {s t : List Char} (h : LineSpelling s t) :
    (replaceCrLf s).map (fun c => if c = '\r' then '\n' else c) = t := by
  induction h with
  | nil => rfl
  | char hcr _ _ ih => rw [replaceCrLf, List.map_cons, if_neg hcr, ih]; exact fun _ h _ => hcr h
  | lf _ ih => rw [replaceCrLf, List.map_cons, ih]; rfl; exact fun _ h _ => absurd h (by decide)
  | crlf _ ih => rw [replaceCrLf, List.map_cons, ih]; rfl
  | cr hlf _ ih =>
      rw [replaceCrLf, List.map_cons, ih, if_pos rfl]
      rintro rest - rfl
      exact hlf rfl

/-- `n.to_bytes(8, "big")`. -/
def toBytes8 (n : ℤ) : Result Bytes :=
  if n < 0 then .error ⟨.overflowError, "can't convert negative int to unsigned"⟩
  else if n < 256 ^ 8 then .ok ((bigEndian 8 n.toNat).map UInt8.ofNat)
  else .error ⟨.overflowError, "int too big to convert"⟩

end Py

namespace QualityCI

open Py

section Table

variable [PyUnicode] [PyNormalForm]

/-! ## Cells -/

/-- A cell of a table, at the coordinates that the evidence gives. -/
structure TableCell where
  row : ℤ
  column : ℤ
  text : String
  deriving DecidableEq

/-- `_normalize_header`. -/
def normalizeHeader (value : String) : String :=
  join " " (splitWords (PyUnicode.casefold (strip value)))

/-- The text of a cell as it is hashed, folded in the header row. -/
def normalizedText (headerRow row : ℤ) (text : String) : String :=
  let normalized := strip (PyNormalForm.nfc (unifyNewlines text))
  if row = headerRow then normalizeHeader normalized else normalized

/-- One pass of the loop over the cells, before blank ones are left out. -/
def readCell (sourceId : String) (headerRow : ℤ) (item : Dict) : Result TableCell :=
  match item.get? "coordinates" with
  | some (.obj coordinates) =>
      match Dict.get? coordinates "row", Dict.get? coordinates "column" with
      | some (.int row), some (.int column) =>
          if row ≤ 0 ∨ column ≤ 0 then
            caseBuilderError s!"{sourceId} evidence has invalid row/column coordinates"
          else
            match item.get? "text" with
            | some (.str text) => .ok ⟨row, column, normalizedText headerRow row text⟩
            | _ => caseBuilderError s!"{sourceId} evidence has invalid text"
      | _, _ => caseBuilderError s!"{sourceId} evidence has invalid row/column coordinates"
  | _ => caseBuilderError s!"{sourceId} evidence lacks structured coordinates"

/-! ## The grid -/

/-- `min` of a list that is not empty. -/
def least : List ℤ → ℤ
  | [] => 0
  | n :: ns => ns.foldl min n

/-- A cell moved by a number of rows and columns. -/
def TableCell.shift (rows columns : ℤ) (c : TableCell) : TableCell :=
  ⟨c.row + rows, c.column + columns, c.text⟩

/-- The cells at their coordinates from the corner of what is there. -/
def relativeGrid (grid : List TableCell) : List TableCell :=
  grid.map (TableCell.shift (1 - least (grid.map TableCell.row))
    (1 - least (grid.map TableCell.column)))

/-- The order of tuples of coordinates and text. -/
def TableCell.sortKey (c : TableCell) : ℤ ×ₗ ℤ ×ₗ String := toLex (c.row, toLex (c.column, c.text))

/-! ## What is hashed -/

/-- What the digest is updated with for one cell. -/
def encodeCell (c : TableCell) : Result Bytes := do
  let encoded := encodeUtf8 c.text
  let row ← toBytes8 c.row
  let column ← toBytes8 c.column
  let length ← toBytes8 encoded.length
  .ok (row ++ column ++ length ++ encoded)

/-- `b"qualityci-logical-table-v1\0"`. -/
def logicalTableDomain : Bytes := encodeUtf8 "qualityci-logical-table-v1" ++ [0]

/-- The bytes that `_logical_table_fingerprint` hashes. -/
def logicalTableBytes (cells : List Dict) (sourceId : String) (headerRow : ℤ) : Result Bytes := do
  let read ← mapEach (readCell sourceId headerRow) cells
  let grid := read.filter fun c => c.text ≠ ""
  let words ← mapEach encodeCell (KeySort.sortBy TableCell.sortKey (relativeGrid grid))
  .ok (logicalTableDomain ++ words.flatten)

/-! ## The table that evidence stands for -/

/-- An item of evidence stands for a cell. -/
structure Reads (item : Dict) (c : TableCell) : Prop where
  coordinates : ∃ coordinates : Dict, item.get? "coordinates" = some (.obj coordinates) ∧
    coordinates.get? "row" = some (.int c.row) ∧ coordinates.get? "column" = some (.int c.column)
  row_pos : 0 < c.row
  column_pos : 0 < c.column
  text : item.get? "text" = some (.str c.text)

/-- The items stand for the cells of a table. -/
def ReadsTable (cells : List Dict) (table : List TableCell) : Prop := List.Forall₂ Reads cells table

/-- **The normalized grid**: the cells with their normalized texts, where these are not empty. -/
def normalGrid (headerRow : ℤ) (table : List TableCell) : List TableCell :=
  (table.map fun c => { c with text := normalizedText headerRow c.row c.text }).filter
    fun c => c.text ≠ ""

omit [PyUnicode] [PyNormalForm] in
/-- **Equal up to a translation**: moving all cells of the one grid by a number of rows and columns
gives the cells of the other, in some order. -/
def SameGrid (grid other : List TableCell) : Prop :=
  ∃ rows columns, (grid.map (TableCell.shift rows columns)).Perm other

/-! ## What the loop reads -/

lemma readCell_eq_ok {sourceId : String} {headerRow : ℤ} {item : Dict} {read : TableCell} :
    readCell sourceId headerRow item = .ok read ↔
      ∃ c, Reads item c ∧ read = { c with text := normalizedText headerRow c.row c.text } := by
  constructor
  · intro h
    unfold readCell at h
    split at h
    · rename_i coordinates hcoordinates
      split at h
      · rename_i row column hrow hcolumn
        split_ifs at h with hpos
        · exact absurd h (by simp)
        · split at h
          · rename_i text htext
            refine ⟨⟨row, column, text⟩, ⟨⟨coordinates, hcoordinates, hrow, hcolumn⟩, ?_, ?_, htext⟩,
              (Except.ok.inj h).symm⟩
            · show 0 < row
              omega
            · show 0 < column
              omega
          · exact absurd h (by simp)
      · exact absurd h (by simp)
    · exact absurd h (by simp)
  · rintro ⟨c, ⟨⟨coordinates, hcoordinates, hrow, hcolumn⟩, hrowpos, hcolumnpos, htext⟩, rfl⟩
    have hpos : ¬(c.row ≤ 0 ∨ c.column ≤ 0) := by omega
    simp only [readCell, hcoordinates, hrow, hcolumn, if_neg hpos, htext]

omit [PyUnicode] [PyNormalForm] in
lemma Reads.unique {item : Dict} {c d : TableCell} (hc : Reads item c) (hd : Reads item d) :
    c = d := by
  obtain ⟨coordinates, hcoordinates, hrow, hcolumn⟩ := hc.coordinates
  obtain ⟨coordinates', hcoordinates', hrow', hcolumn'⟩ := hd.coordinates
  rw [hcoordinates, Option.some.injEq, Json.obj.injEq] at hcoordinates'
  subst hcoordinates'
  rw [hrow, Option.some.injEq, Json.int.injEq] at hrow'
  rw [hcolumn, Option.some.injEq, Json.int.injEq] at hcolumn'
  have htext := hc.text
  rw [hd.text, Option.some.injEq, Json.str.injEq] at htext
  cases c
  cases d
  simp_all

omit [PyUnicode] [PyNormalForm] in
lemma ReadsTable.unique {cells : List Dict} {table other : List TableCell}
    (h : ReadsTable cells table) (h' : ReadsTable cells other) : table = other := by
  induction h generalizing other with
  | nil => cases h' with | nil => rfl
  | cons hc _ ih =>
      cases h' with
      | cons hd hrest => rw [hc.unique hd, ih hrest]

/-- The loop reads the table that the items stand for, and raises when they stand for none. -/
lemma mapEach_readCell {sourceId : String} {headerRow : ℤ} {cells : List Dict}
    {read : List TableCell} :
    mapEach (readCell sourceId headerRow) cells = .ok read ↔
      ∃ table, ReadsTable cells table ∧
        read = table.map fun c => { c with text := normalizedText headerRow c.row c.text } := by
  rw [mapEach_eq_ok]
  constructor
  · intro h
    induction h with
    | nil => exact ⟨[], List.Forall₂.nil, rfl⟩
    | cons hitem _ ih =>
        obtain ⟨c, hc, rfl⟩ := readCell_eq_ok.mp hitem
        obtain ⟨table, htable, rfl⟩ := ih
        exact ⟨c :: table, List.Forall₂.cons hc htable, rfl⟩
  · rintro ⟨table, htable, rfl⟩
    induction htable with
    | nil => exact List.Forall₂.nil
    | cons hc _ ih => exact List.Forall₂.cons (readCell_eq_ok.mpr ⟨_, hc, rfl⟩) ih

/-! ## The words of the cells -/

/-- The numbers that fit in eight bytes. -/
def FitsEight (n : ℤ) : Prop := 0 ≤ n ∧ n < 256 ^ 8

def bytes8 (n : ℤ) : Bytes := (bigEndian 8 n.toNat).map UInt8.ofNat

omit [PyUnicode] [PyNormalForm] in
lemma toBytes8_eq_ok {n : ℤ} {raw : Bytes} :
    toBytes8 n = .ok raw ↔ FitsEight n ∧ raw = bytes8 n := by
  unfold toBytes8 FitsEight bytes8
  split_ifs with hneg hlt
  · simp only [false_iff]
    omega
  · rw [Except.ok.injEq]
    exact ⟨fun h => ⟨⟨by omega, hlt⟩, h.symm⟩, fun h => h.2.symm⟩
  · simp only [false_iff]
    omega

omit [PyUnicode] [PyNormalForm] in
lemma length_bigEndian (width n : ℕ) : (bigEndian width n).length = width := by
  induction width generalizing n with
  | zero => rfl
  | succ width ih => rw [bigEndian, List.length_append, ih, List.length_singleton]

omit [PyUnicode] [PyNormalForm] in
lemma bigEndian_lt {width n b : ℕ} (h : b ∈ bigEndian width n) : b < 256 := by
  induction width generalizing n with
  | zero => exact absurd h (by simp [bigEndian])
  | succ width ih =>
      rcases List.mem_append.mp h with h | h
      · exact ih h
      · rw [List.mem_singleton.mp h]
        exact Nat.mod_lt n (by decide)

omit [PyUnicode] [PyNormalForm] in
lemma bigEndian_inj {width n m : ℕ} (hn : n < 256 ^ width) (hm : m < 256 ^ width)
    (h : bigEndian width n = bigEndian width m) : n = m := by
  induction width generalizing n m with
  | zero =>
      rw [pow_zero] at hn hm
      omega
  | succ width ih =>
      rw [pow_succ] at hn hm
      obtain ⟨hhigh, hlow⟩ := List.append_inj' h rfl
      have hdiv : n / 256 = m / 256 :=
        ih (Nat.div_lt_of_lt_mul (by rwa [mul_comm])) (Nat.div_lt_of_lt_mul (by rwa [mul_comm])) hhigh
      have hmod : n % 256 = m % 256 := (List.cons.inj hlow).1
      omega

omit [PyUnicode] [PyNormalForm] in
/-- Eight bytes are a self-delimiting code of the numbers that fit in them. -/
lemma selfDelimiting_bytes8 : SelfDelimiting FitsEight bytes8 := by
  refine SelfDelimiting.of_length 8 (fun n _ => by rw [bytes8, List.length_map, length_bigEndian]) ?_
  intro n m hn hm h
  have hback : ∀ k : ℤ, (bytes8 k).map UInt8.toNat = bigEndian 8 k.toNat := by
    intro k
    rw [bytes8, List.map_map]
    refine (List.map_congr_left fun b hb => ?_).trans (List.map_id _)
    exact Nat.mod_eq_of_lt (bigEndian_lt hb)
  have hwords : bigEndian 8 n.toNat = bigEndian 8 m.toNat := by rw [← hback n, h, hback m]
  have hn' : n.toNat < 256 ^ 8 := by have := hn.1; have := hn.2; omega
  have hm' : m.toNat < 256 ^ 8 := by have := hm.1; have := hm.2; omega
  have := bigEndian_inj hn' hm' hwords
  have := hn.1
  have := hm.1
  omega

/-- A cell whose coordinates and length fit. -/
structure Encodable (c : TableCell) : Prop where
  row : FitsEight c.row
  column : FitsEight c.column
  length : FitsEight (encodeUtf8 c.text).length

/-- The word of a cell: coordinates, length, text. -/
def cellWord (c : TableCell) : Bytes :=
  bytes8 c.row ++ bytes8 c.column ++ (bytes8 (encodeUtf8 c.text).length ++ encodeUtf8 c.text)

omit [PyUnicode] [PyNormalForm] in
lemma encodeCell_eq_ok {c : TableCell} {word : Bytes} :
    encodeCell c = .ok word ↔ Encodable c ∧ word = cellWord c := by
  simp only [encodeCell, bind_eq_ok, toBytes8_eq_ok, Except.ok.injEq, cellWord]
  constructor
  · rintro ⟨_, ⟨hrow, rfl⟩, _, ⟨hcolumn, rfl⟩, _, ⟨hlength, rfl⟩, rfl⟩
    exact ⟨⟨hrow, hcolumn, hlength⟩, by simp only [List.append_assoc]⟩
  · rintro ⟨⟨hrow, hcolumn, hlength⟩, rfl⟩
    exact ⟨_, ⟨hrow, rfl⟩, _, ⟨hcolumn, rfl⟩, _, ⟨hlength, rfl⟩, by simp only [List.append_assoc]⟩

omit [PyUnicode] [PyNormalForm] in
/-- **The words of cells are self-delimiting.** -/
lemma selfDelimiting_cellWord : SelfDelimiting Encodable cellWord := by
  have hlength : SelfDelimiting (fun n : ℕ => FitsEight n) (fun n : ℕ => bytes8 n) :=
    selfDelimiting_bytes8.comap (fun n : ℕ => (n : ℤ)) Nat.cast_injective
  have hcode := (selfDelimiting_bytes8.prod selfDelimiting_bytes8).prod hlength.payload
  have hword := hcode.comap (fun c : TableCell => ((c.row, c.column), encodeUtf8 c.text)) (by
    intro c d h
    obtain ⟨hcoordinates, htext⟩ := Prod.mk.inj h
    obtain ⟨hrow, hcolumn⟩ := Prod.mk.inj hcoordinates
    cases c
    cases d
    simp only [TableCell.mk.injEq]
    exact ⟨hrow, hcolumn, encodeUtf8_injective htext⟩)
  intro c d hc hd
  exact hword c d ⟨⟨hc.row, hc.column⟩, hc.length⟩ ⟨⟨hd.row, hd.column⟩, hd.length⟩

omit [PyUnicode] [PyNormalForm] in
lemma mapEach_encodeCell {cells : List TableCell} {words : List Bytes} :
    mapEach encodeCell cells = .ok words ↔
      (∀ c ∈ cells, Encodable c) ∧ words = cells.map cellWord := by
  induction cells generalizing words with
  | nil => simp [mapEach, eq_comm]
  | cons c cells ih =>
      simp only [mapEach, bind_eq_ok, encodeCell_eq_ok, ih, Except.ok.injEq, List.forall_mem_cons,
        List.map_cons]
      constructor
      · rintro ⟨_, ⟨hc, rfl⟩, _, ⟨hcells, rfl⟩, rfl⟩
        exact ⟨⟨hc, hcells⟩, rfl⟩
      · rintro ⟨⟨hc, hcells⟩, rfl⟩
        exact ⟨_, ⟨hc, rfl⟩, _, ⟨hcells, rfl⟩, rfl⟩

/-! ## Grids up to a translation -/

omit [PyUnicode] [PyNormalForm] in
lemma least_spec {ns : List ℤ} (h : ns ≠ []) : least ns ∈ ns ∧ ∀ n ∈ ns, least ns ≤ n := by
  obtain ⟨n, ns, rfl⟩ := List.exists_cons_of_ne_nil h
  have hfold : ∀ (ms : List ℤ) (m : ℤ), (ms.foldl min m = m ∨ ms.foldl min m ∈ ms) ∧
      ms.foldl min m ≤ m ∧ ∀ k ∈ ms, ms.foldl min m ≤ k := by
    intro ms
    induction ms with
    | nil => simp
    | cons k ms ih =>
        intro m
        obtain ⟨hmem, hle, hall⟩ := ih (min m k)
        rw [List.foldl_cons]
        refine ⟨?_, hle.trans (min_le_left m k), ?_⟩
        · rcases hmem with hmem | hmem
          · rcases min_choice m k with hmin | hmin
            · exact Or.inl (hmem.trans hmin)
            · exact Or.inr (List.mem_cons.mpr (Or.inl (hmem.trans hmin)))
          · exact Or.inr (List.mem_cons_of_mem _ hmem)
        · intro j hj
          rcases List.mem_cons.mp hj with rfl | hj
          · exact hle.trans (min_le_right m j)
          · exact hall j hj
  obtain ⟨hmem, hle, hall⟩ := hfold ns n
  refine ⟨List.mem_cons.mpr hmem, ?_⟩
  intro m hm
  rcases List.mem_cons.mp hm with rfl | hm
  · exact hle
  · exact hall m hm

omit [PyUnicode] [PyNormalForm] in
/-- The least number depends on the members alone. -/
lemma least_eq_of_perm {ns ms : List ℤ} (h : ns.Perm ms) : least ns = least ms := by
  by_cases hns : ns = []
  · subst hns
    rw [List.nil_perm.mp h]
  · have hms : ms ≠ [] := fun hms => hns (by rwa [hms, List.perm_nil] at h)
    obtain ⟨hmem, hle⟩ := least_spec hns
    obtain ⟨hmem', hle'⟩ := least_spec hms
    exact le_antisymm (hle _ (h.mem_iff.mpr hmem')) (hle' _ (h.mem_iff.mp hmem))

omit [PyUnicode] [PyNormalForm] in
lemma least_map_add {ns : List ℤ} (h : ns ≠ []) (d : ℤ) :
    least (ns.map (· + d)) = least ns + d := by
  obtain ⟨hmem, hle⟩ := least_spec h
  obtain ⟨hmem', hle'⟩ := least_spec (mt List.map_eq_nil_iff.mp h : ns.map (· + d) ≠ [])
  obtain ⟨n, hn, heq⟩ := List.mem_map.mp hmem'
  have h1 := hle n hn
  have h2 := hle' _ (List.mem_map_of_mem hmem)
  omega

omit [PyUnicode] [PyNormalForm] in
lemma TableCell.shift_shift (a b c d : ℤ) (cell : TableCell) :
    (cell.shift a b).shift c d = cell.shift (a + c) (b + d) := by
  simp only [TableCell.shift, add_assoc]

omit [PyUnicode] [PyNormalForm] in
lemma relativeGrid_perm {grid other : List TableCell} (h : grid.Perm other) :
    (relativeGrid grid).Perm (relativeGrid other) := by
  rw [relativeGrid, relativeGrid, least_eq_of_perm (h.map TableCell.row),
    least_eq_of_perm (h.map TableCell.column)]
  exact h.map _

omit [PyUnicode] [PyNormalForm] in
/-- A translation moves the corner along. -/
lemma relativeGrid_shift (grid : List TableCell) (rows columns : ℤ) :
    relativeGrid (grid.map (TableCell.shift rows columns)) = relativeGrid grid := by
  by_cases hgrid : grid = []
  · rw [hgrid]
    rfl
  have hrow : (grid.map (TableCell.shift rows columns)).map TableCell.row =
      (grid.map TableCell.row).map (· + rows) := by
    simp only [List.map_map]
    rfl
  have hcolumn : (grid.map (TableCell.shift rows columns)).map TableCell.column =
      (grid.map TableCell.column).map (· + columns) := by
    simp only [List.map_map]
    rfl
  have hne : ∀ f : TableCell → ℤ, grid.map f ≠ [] := fun f => mt List.map_eq_nil_iff.mp hgrid
  rw [relativeGrid, hrow, hcolumn, least_map_add (hne _), least_map_add (hne _), relativeGrid,
    List.map_map]
  refine List.map_congr_left fun c _ => ?_
  rw [Function.comp_apply, TableCell.shift_shift]
  congr 1 <;> ring

omit [PyUnicode] [PyNormalForm] in
/-- **The relative grids agree exactly when the grids do up to a translation.** -/
theorem sameGrid_iff {grid other : List TableCell} :
    SameGrid grid other ↔ (relativeGrid grid).Perm (relativeGrid other) := by
  constructor
  · rintro ⟨rows, columns, h⟩
    rw [← relativeGrid_shift grid rows columns]
    exact relativeGrid_perm h
  · intro h
    -- moving the other grid back from its corner undoes its translation
    obtain ⟨rows, columns, hother⟩ : ∃ rows columns,
        other = (relativeGrid other).map (TableCell.shift rows columns) := by
      refine ⟨-(1 - least (other.map TableCell.row)), -(1 - least (other.map TableCell.column)), ?_⟩
      rw [relativeGrid, List.map_map]
      refine ((List.map_congr_left fun c _ => ?_).trans (List.map_id _)).symm
      rw [Function.comp_apply, TableCell.shift_shift]
      simp [TableCell.shift]
    have hmoved := h.map (TableCell.shift rows columns)
    rw [← hother, relativeGrid, List.map_map] at hmoved
    refine ⟨1 - least (grid.map TableCell.row) + rows,
      1 - least (grid.map TableCell.column) + columns, ?_⟩
    refine List.Perm.trans (List.Perm.of_eq ?_) hmoved
    refine List.map_congr_left fun c _ => ?_
    rw [Function.comp_apply, TableCell.shift_shift]

omit [PyUnicode] [PyNormalForm] in
lemma TableCell.sortKey_injective : Function.Injective TableCell.sortKey := by
  intro c d h
  obtain ⟨hrow, hrest⟩ := Prod.mk.inj (toLex.injective h)
  obtain ⟨hcolumn, htext⟩ := Prod.mk.inj (toLex.injective hrest)
  cases c
  cases d
  simp only [TableCell.mk.injEq]
  exact ⟨hrow, hcolumn, htext⟩

omit [PyUnicode] [PyNormalForm] in
/-- No two cells have one key, so sorting forgets the order and nothing else. -/
lemma sortBy_sortKey_eq_iff {cells others : List TableCell} :
    KeySort.sortBy TableCell.sortKey cells = KeySort.sortBy TableCell.sortKey others ↔
      cells.Perm others := by
  refine ⟨KeySort.perm_of_sortBy_eq, fun h => ?_⟩
  refine List.Perm.eq_of_pairwise ?_ (KeySort.sortBy_sorted cells) (KeySort.sortBy_sorted others)
    ((KeySort.sortBy_perm cells).trans (h.trans (KeySort.sortBy_perm others).symm))
  intro a b _ _ hab hba
  exact TableCell.sortKey_injective (le_antisymm hab hba)

/-! ## The bytes -/

/-- What the fingerprint hashes of a grid: its relative cells, in order. -/
def gridBytes (grid : List TableCell) : Bytes :=
  logicalTableDomain ++
    (KeySort.sortBy TableCell.sortKey (relativeGrid grid)).flatMap cellWord

/-- The relative cells fit their words. -/
def GridFits (grid : List TableCell) : Prop := ∀ c ∈ relativeGrid grid, Encodable c

/-- **The bytes are those of the normalized grid**, where its relative cells fit their words. -/
theorem logicalTableBytes_eq_ok {cells : List Dict} {sourceId : String} {headerRow : ℤ}
    {bytes : Bytes} :
    logicalTableBytes cells sourceId headerRow = .ok bytes ↔
      ∃ table, ReadsTable cells table ∧ GridFits (normalGrid headerRow table) ∧
        bytes = gridBytes (normalGrid headerRow table) := by
  simp only [logicalTableBytes, bind_eq_ok, mapEach_readCell, mapEach_encodeCell, Except.ok.injEq,
    KeySort.mem_sortBy]
  constructor
  · rintro ⟨_, ⟨table, htable, rfl⟩, _, ⟨hfits, rfl⟩, rfl⟩
    exact ⟨table, htable, hfits, rfl⟩
  · rintro ⟨table, htable, hfits, rfl⟩
    exact ⟨_, ⟨table, htable, rfl⟩, _, ⟨hfits, rfl⟩, rfl⟩

omit [PyUnicode] [PyNormalForm] in
lemma gridFits_congr {grid other : List TableCell} (h : SameGrid grid other) :
    GridFits grid ↔ GridFits other := by
  have hperm := sameGrid_iff.mp h
  exact forall_congr' fun c => by rw [hperm.mem_iff]

omit [PyUnicode] [PyNormalForm] in
/-- **The bytes determine the grid up to a translation, and nothing more.** -/
theorem gridBytes_eq_iff {grid other : List TableCell} (hgrid : GridFits grid)
    (hother : GridFits other) : gridBytes grid = gridBytes other ↔ SameGrid grid other := by
  have hne : ∀ c, Encodable c → cellWord c ≠ [] := by
    intro c _ hnil
    have hlen := congrArg List.length hnil
    simp only [cellWord, bytes8, List.length_append, List.length_map, length_bigEndian,
      List.length_nil] at hlen
    omega
  rw [gridBytes, gridBytes, List.append_cancel_left_eq,
    selfDelimiting_cellWord.flatMap_inj hne (fun c hc => hgrid c (KeySort.mem_sortBy.mp hc))
      (fun c hc => hother c (KeySort.mem_sortBy.mp hc)), sortBy_sortKey_eq_iff, sameGrid_iff]

/-! ## What does not matter -/

/-- Tables with one grid up to a translation are hashed from the same bytes. -/
lemma logicalTableBytes_congr {cells cells' : List Dict} {sourceId sourceId' : String}
    {headerRow headerRow' : ℤ} {table table' : List TableCell} {bytes : Bytes}
    (hread : ReadsTable cells table) (hread' : ReadsTable cells' table')
    (hsame : SameGrid (normalGrid headerRow table) (normalGrid headerRow' table'))
    (h : logicalTableBytes cells sourceId headerRow = .ok bytes) :
    logicalTableBytes cells' sourceId' headerRow' = .ok bytes := by
  obtain ⟨_, htable, hfits, rfl⟩ := logicalTableBytes_eq_ok.mp h
  rw [htable.unique hread] at hfits ⊢
  have hfits' := (gridFits_congr hsame).mp hfits
  exact logicalTableBytes_eq_ok.mpr
    ⟨table', hread', hfits', (gridBytes_eq_iff hfits hfits').mpr hsame⟩

omit [PyUnicode] [PyNormalForm] in
lemma SameGrid.of_perm {grid other : List TableCell} (h : grid.Perm other) :
    SameGrid grid other := by
  refine ⟨0, 0, ?_⟩
  have hid : grid.map (TableCell.shift 0 0) = grid := by
    refine (List.map_congr_left fun c _ => ?_).trans (List.map_id _)
    simp [TableCell.shift]
  rwa [hid]

lemma normalGrid_perm {headerRow : ℤ} {table other : List TableCell} (h : table.Perm other) :
    (normalGrid headerRow table).Perm (normalGrid headerRow other) :=
  (h.map _).filter _

/-- A cell is in the grid exactly when its normalized text is not empty. -/
lemma normalGrid_cons (headerRow : ℤ) (c : TableCell) (table : List TableCell) :
    normalGrid headerRow (c :: table) =
      if normalizedText headerRow c.row c.text = "" then normalGrid headerRow table
      else { c with text := normalizedText headerRow c.row c.text } ::
        normalGrid headerRow table := by
  rw [normalGrid, List.map_cons, List.filter_cons]
  by_cases h : normalizedText headerRow c.row c.text = ""
  · simp [h, normalGrid]
  · simp [h, normalGrid]

/-- The header row moves along with the table. -/
lemma normalGrid_shift (headerRow rows columns : ℤ) (table : List TableCell) :
    normalGrid (headerRow + rows) (table.map (TableCell.shift rows columns)) =
      (normalGrid headerRow table).map (TableCell.shift rows columns) := by
  induction table with
  | nil => rfl
  | cons c table ih =>
      have htext : normalizedText (headerRow + rows) (c.shift rows columns).row
          (c.shift rows columns).text = normalizedText headerRow c.row c.text := by
        simp only [normalizedText, TableCell.shift, add_left_inj]
      rw [List.map_cons, normalGrid_cons, normalGrid_cons, htext, ih]
      split_ifs
      · rfl
      · rfl

/-- Cells at the same coordinates with the same normalized text. -/
def SameNormal (headerRow : ℤ) (c c' : TableCell) : Prop :=
  c'.row = c.row ∧ c'.column = c.column ∧
    normalizedText headerRow c.row c.text = normalizedText headerRow c.row c'.text

lemma normalGrid_congr {headerRow : ℤ} {table table' : List TableCell}
    (h : List.Forall₂ (SameNormal headerRow) table table') :
    normalGrid headerRow table = normalGrid headerRow table' := by
  induction h with
  | nil => rfl
  | cons hcell _ ih =>
      obtain ⟨hrow, hcolumn, htext⟩ := hcell
      rw [normalGrid_cons, normalGrid_cons, ih, hrow, hcolumn, htext]

omit [PyUnicode] [PyNormalForm] in
lemma map_of_forall₂ {f : TableCell → TableCell} {table table' : List TableCell}
    (h : List.Forall₂ (fun c c' => c' = f c) table table') : table' = table.map f := by
  induction h with
  | nil => rfl
  | cons hcell _ ih => rw [List.map_cons, hcell, ih]

/-- Texts that are two spellings of the same lines are normalized alike. -/
lemma normalizedText_of_spelling {text text' : String} {lines : List Char}
    (h : LineSpelling text.toList lines) (h' : LineSpelling text'.toList lines)
    (headerRow row : ℤ) : normalizedText headerRow row text = normalizedText headerRow row text' := by
  have hunify : unifyNewlines text = unifyNewlines text' := by
    rw [unifyNewlines, unifyNewlines, h.unify, h'.unify]
  simp only [normalizedText, hunify]

/-- Cells at the same coordinates whose texts differ in their line ends alone. -/
def SameLines (item item' : Dict) : Prop :=
  ∃ c text' lines, Reads item c ∧ Reads item' { c with text := text' } ∧
    LineSpelling c.text.toList lines ∧ LineSpelling text'.toList lines

omit [PyUnicode] [PyNormalForm] in
/-- What the items of two lists have to do with each other carries over to their tables. -/
lemma ReadsTable.related {R : Dict → Dict → Prop} {S : TableCell → TableCell → Prop}
    (hR : ∀ {item item' c}, R item item' → Reads item c → ∃ c', Reads item' c' ∧ S c c')
    {cells cells' : List Dict} {table : List TableCell} (hread : ReadsTable cells table)
    (hcells : List.Forall₂ R cells cells') :
    ∃ table', ReadsTable cells' table' ∧ List.Forall₂ S table table' := by
  induction hcells generalizing table with
  | nil =>
      cases hread
      exact ⟨[], List.Forall₂.nil, List.Forall₂.nil⟩
  | cons hitem _ ih =>
      cases hread with
      | cons hc htable =>
          obtain ⟨c', hc', hS⟩ := hR hitem hc
          obtain ⟨table', htable', hrel⟩ := ih htable
          exact ⟨c' :: table', List.Forall₂.cons hc' htable', List.Forall₂.cons hS hrel⟩

/-- **The fingerprint is of the table.**  Two grids are hashed from the same bytes exactly when
their normalized cells that are not blank are the same up to a translation.  So the order of the
cells, cells that are blank, a move of the table with its header row and the spelling of line ends
do not matter. -/
theorem logicalTableBytes_law {cells : List Dict} {sourceId : String} {headerRow : ℤ}
    {table : List TableCell} {bytes : Bytes} (hread : ReadsTable cells table)
    (hbytes : logicalTableBytes cells sourceId headerRow = .ok bytes) :
    (∀ cells' sourceId' headerRow' table' bytes', ReadsTable cells' table' →
      logicalTableBytes cells' sourceId' headerRow' = .ok bytes' →
      (bytes = bytes' ↔ SameGrid (normalGrid headerRow table) (normalGrid headerRow' table'))) ∧
    (∀ cells', cells.Perm cells' → logicalTableBytes cells' sourceId headerRow = .ok bytes) ∧
    (∀ item c, Reads item c → normalizedText headerRow c.row c.text = "" →
      logicalTableBytes (item :: cells) sourceId headerRow = .ok bytes) ∧
    (∀ rows columns cells',
      List.Forall₂ (fun item item' => ∃ c, Reads item c ∧ Reads item' (c.shift rows columns))
        cells cells' →
      logicalTableBytes cells' sourceId (headerRow + rows) = .ok bytes) ∧
    (∀ cells', List.Forall₂ SameLines cells cells' →
      logicalTableBytes cells' sourceId headerRow = .ok bytes) := by
  refine ⟨?_, ?_, ?_, ?_, ?_⟩
  · intro cells' sourceId' headerRow' table' bytes' hread' hbytes'
    obtain ⟨_, htable, hfits, rfl⟩ := logicalTableBytes_eq_ok.mp hbytes
    obtain ⟨_, htable', hfits', rfl⟩ := logicalTableBytes_eq_ok.mp hbytes'
    rw [htable.unique hread] at hfits ⊢
    rw [htable'.unique hread'] at hfits' ⊢
    exact gridBytes_eq_iff hfits hfits'
  · intro cells' hperm
    obtain ⟨table', hread', hperm'⟩ := List.perm_comp_forall₂ hperm.symm hread
    exact logicalTableBytes_congr hread hread' (SameGrid.of_perm (normalGrid_perm hperm'.symm)) hbytes
  · intro item c hitem hblank
    have hread' : ReadsTable (item :: cells) (c :: table) := List.Forall₂.cons hitem hread
    refine logicalTableBytes_congr hread hread' (SameGrid.of_perm ?_) hbytes
    rw [normalGrid_cons, if_pos hblank]
  · intro rows columns cells' hcells
    obtain ⟨table', hread', hrel⟩ := hread.related
      (S := fun c c' => c' = c.shift rows columns) (by
        rintro item item' c ⟨d, hd, hd'⟩ hc
        rw [hc.unique hd]
        exact ⟨_, hd', rfl⟩) hcells
    rw [map_of_forall₂ hrel] at hread'
    refine logicalTableBytes_congr hread hread' ⟨rows, columns, ?_⟩ hbytes
    rw [normalGrid_shift]
  · intro cells' hcells
    obtain ⟨table', hread', hrel⟩ := hread.related (S := SameNormal headerRow) (by
      rintro item item' c ⟨d, text', lines, hd, hd', hlines, hlines'⟩ hc
      rw [hc.unique hd]
      exact ⟨_, hd', rfl, rfl, normalizedText_of_spelling hlines hlines' headerRow d.row⟩) hcells
    refine logicalTableBytes_congr hread hread' (SameGrid.of_perm ?_) hbytes
    rw [normalGrid_congr hrel]

end Table

section Ascii

attribute [local instance] asciiUnicode

/-- Text in ASCII is in normal form. -/
@[reducible] def asciiNormalForm : PyNormalForm := ⟨id⟩

attribute [local instance] asciiNormalForm

/-- An item of evidence for a cell. -/
def evidenceItem (c : TableCell) : Dict :=
  Dict.ofList [("coordinates", .obj (Dict.ofList [("row", .int c.row), ("column", .int c.column)])),
    ("text", .str c.text)]

/-- A header over a cell of two lines, and a blank cell. -/
def sampleTable : List TableCell :=
  [⟨3, 2, "Process  Step"⟩, ⟨4, 2, "grind\r\npolish "⟩, ⟨4, 3, " "⟩]

theorem logicalTableBytes_law_sample :
    ∃ bytes, logicalTableBytes (sampleTable.map evidenceItem) "source" 3 = .ok bytes ∧
      logicalTableBytes (sampleTable.map evidenceItem).reverse "source" 3 = .ok bytes := by
  have hread : ReadsTable (sampleTable.map evidenceItem) sampleTable := by
    rw [ReadsTable, List.forall₂_map_left_iff, List.forall₂_same]
    intro c hc
    have hpos : ∀ c ∈ sampleTable, 0 < c.row ∧ 0 < c.column := by decide
    obtain ⟨hrow, hcolumn⟩ := hpos c hc
    refine ⟨⟨Dict.ofList [("row", .int c.row), ("column", .int c.column)], ?_, ?_, ?_⟩, hrow, hcolumn,
      ?_⟩
    · simp [evidenceItem, Dict.ofList]
    · simp [Dict.ofList]
    · simp [Dict.ofList]
    · simp [evidenceItem, Dict.ofList]
  obtain ⟨bytes, hbytes⟩ : ∃ bytes,
      logicalTableBytes (sampleTable.map evidenceItem) "source" 3 = .ok bytes :=
    exists_ok_of_isSome (by decide +kernel)
  exact ⟨bytes, hbytes, (logicalTableBytes_law hread hbytes).2.1 _ (List.reverse_perm _).symm⟩

end Ascii

end QualityCI

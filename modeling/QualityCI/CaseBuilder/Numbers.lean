import QualityCI.Lib.FloatText
import QualityCI.CaseBuilder.References
import QualityCI.Rules.Specification

/-!
# Numbers of the case builder

The builder reads the numbers of a specification from cells of text.  It goes through `float`, and
turns a float that is an integer back into one, so an integer that is no double is recorded as its
neighbour.

* `parseNumber` — the value that is recorded for a cell.
* `buildCharacteristic` — the row of a characteristic, with the specification of its cells.
* `parseNumber_literal` — what is recorded for an integer literal.
* `CellsExact` — two cells are recorded as they are, and different integers keep documents apart.
* **`cellsExact_iff`** — exactly when every integer in them is a double or is rejected.
-/

namespace QualityCI

open Py

/-- `raise CaseBuilderError(message)`. -/
def caseBuilderError {α : Type} (message : String) : Result α :=
  .error ⟨caseBuilderErrorClass, message⟩

/-- `raise MissingColumnError(message)`. -/
def missingColumnError {α : Type} (message : String) : Result α :=
  .error ⟨.derived caseBuilderErrorClass "MissingColumnError", message⟩

@[simp] lemma caseBuilderError_ne_ok {α : Type} {message : String} {a : α} :
    (caseBuilderError message : Result α) ≠ .ok a := by
  simp [caseBuilderError]

@[simp] lemma missingColumnError_ne_ok {α : Type} {message : String} {a : α} :
    (missingColumnError message : Result α) ≠ .ok a := by
  simp [missingColumnError]

/-! ## Cells to numbers -/

/-- `_parse_number`. -/
def parseNumber (value label : String) : Result Json :=
  match parseFloat (strip value) with
  | some (.finite x) => .ok (integerOrFloat x)
  | _ => caseBuilderError s!"{label} must be a finite number"

/-- `_Cell`. -/
structure Cell where
  text : String
  locator : String

/-- `_MappedRow`: the cells of a row under the canonical names of their columns. -/
structure MappedRow where
  rowNumber : ℕ
  cells : List (String × Cell)

/-- `_required_cell`. -/
def requiredCell (row : MappedRow) (canonicalName sourceId : String) : Result Cell :=
  match row.cells.lookup canonicalName with
  | some cell =>
      if isBlank cell.text = true then
        missingColumnError s!"{sourceId} row {row.rowNumber} has no value for {canonicalName}"
      else .ok cell
  | none => missingColumnError s!"{sourceId} row {row.rowNumber} has no value for {canonicalName}"

/-- `_required_text`. -/
def requiredText (row : MappedRow) (canonicalName sourceId : String) : Result (Cell × String) := do
  let cell ← requiredCell row canonicalName sourceId
  .ok (cell, strip cell.text)

/-! ## The row of a characteristic -/

/-- The columns of numbers. -/
def numberColumns : List String := ["target", "minimum", "maximum"]

/-- One pass of the loop over the columns of numbers. -/
def recordNumber (sourceId : String) (row : MappedRow) (specification : Dict)
    (canonical : String) : Result Dict := do
  let cell ← requiredCell row canonical sourceId
  let value ← parseNumber cell.text canonical
  .ok (specification.set canonical value)

/-- One pass of a loop over columns of text. -/
def recordText (sourceId : String) (row : MappedRow) (characteristic : Dict)
    (canonical : String) : Result Dict := do
  let (_, text) ← requiredText row canonical sourceId
  .ok (characteristic.set canonical (.str text))

/-- `_build_characteristic`, without the provenance it records beside each value. -/
def buildCharacteristic (sourceId : String) (row : MappedRow) (includeControls : Bool) :
    Result Dict := do
  let (characteristicCell, characteristicId) ← requiredText row "characteristic_id" sourceId
  let (_, processStepId) ← requiredText row "process_step_id" sourceId
  let characteristic := Dict.ofList
    [("process_step_id", .str processStepId), ("characteristic_id", .str characteristicId),
     ("specification", .obj []), ("locator", .str characteristicCell.locator)]
  let characteristic ← (if includeControls then ["control_id"] else []).foldlM
    (recordText sourceId row) characteristic
  let specification ← numberColumns.foldlM (recordNumber sourceId row) []
  let (_, unit) ← requiredText row "unit" sourceId
  let characteristic := characteristic.set "specification"
    (.obj (specification.set "unit" (.str unit)))
  (if includeControls then ["control_method", "frequency", "reaction_plan"] else []).foldlM
    (recordText sourceId row) characteristic

lemma lookup_of_requiredCell {row : MappedRow} {canonicalName sourceId : String} {cell : Cell}
    (h : requiredCell row canonicalName sourceId = .ok cell) :
    row.cells.lookup canonicalName = some cell := by
  unfold requiredCell at h
  split at h
  · rename_i found hfound
    split_ifs at h
    · exact absurd h (by simp)
    · rw [hfound, Except.ok.inj h]
  · exact absurd h (by simp)

/-- Columns of text do not touch the specification. -/
lemma recordText_get? {sourceId : String} {row : MappedRow} {names : List String}
    {characteristic built : Dict} (hnames : "specification" ∉ names)
    (h : names.foldlM (recordText sourceId row) characteristic = .ok built) :
    built.get? "specification" = characteristic.get? "specification" := by
  induction names generalizing characteristic with
  | nil =>
      rw [List.foldlM_nil] at h
      rw [← Except.ok.inj h]
  | cons name names ih =>
      obtain ⟨hname, hrest⟩ := not_or.mp (mt List.mem_cons.mpr hnames)
      simp only [List.foldlM_cons, bind_eq_ok] at h
      obtain ⟨next, hnext, h⟩ := h
      simp only [recordText, bind_eq_ok, Except.ok.injEq] at hnext
      obtain ⟨⟨_, text⟩, -, rfl⟩ := hnext
      rw [ih hrest h, Dict.get?_set, if_neg (Ne.symm hname)]

/-- The loop over the columns of numbers records each cell under its column, and nothing else. -/
lemma recordNumber_get? {sourceId : String} {row : MappedRow} {columns : List String}
    {specification built : Dict} (hnodup : columns.Nodup)
    (h : columns.foldlM (recordNumber sourceId row) specification = .ok built) :
    (∀ column ∉ columns, built.get? column = specification.get? column) ∧
      ∀ column ∈ columns, ∃ cell value, row.cells.lookup column = some cell ∧
        parseNumber cell.text column = .ok value ∧ built.get? column = some value := by
  induction columns generalizing specification with
  | nil =>
      rw [List.foldlM_nil] at h
      rw [← Except.ok.inj h]
      simp
  | cons first rest ih =>
      obtain ⟨hfirst, hrest⟩ := List.nodup_cons.mp hnodup
      simp only [List.foldlM_cons, bind_eq_ok] at h
      obtain ⟨next, hnext, h⟩ := h
      simp only [recordNumber, bind_eq_ok, Except.ok.injEq] at hnext
      obtain ⟨cell, hcell, value, hvalue, rfl⟩ := hnext
      obtain ⟨hkept, hread⟩ := ih hrest h
      constructor
      · intro column hcolumn
        obtain ⟨hne, hnot⟩ := not_or.mp (mt List.mem_cons.mpr hcolumn)
        rw [hkept column hnot, Dict.get?_set, if_neg (Ne.symm hne)]
      · intro column hcolumn
        rcases List.mem_cons.mp hcolumn with rfl | hmem
        · refine ⟨cell, value, lookup_of_requiredCell hcell, hvalue, ?_⟩
          rw [hkept column hfirst, Dict.get?_set, if_pos rfl]
        · exact hread column hmem

/-- **A built row has the number that was read from each of its cells.** -/
theorem buildCharacteristic_number {sourceId : String} {row : MappedRow} {includeControls : Bool}
    {characteristic : Dict}
    (h : buildCharacteristic sourceId row includeControls = .ok characteristic) :
    ∃ specification : Dict, characteristic.get? "specification" = some (.obj specification) ∧
      ∀ column ∈ numberColumns, ∃ cell value, row.cells.lookup column = some cell ∧
        parseNumber cell.text column = .ok value ∧ specification.get? column = some value := by
  simp only [buildCharacteristic, bind_eq_ok, Prod.exists] at h
  obtain ⟨_, _, -, _, _, -, _, -, specification, hnumbers, _, unit, -, htexts⟩ := h
  refine ⟨specification.set "unit" (.str unit), ?_, ?_⟩
  · have hnames : "specification" ∉
        (if includeControls then ["control_method", "frequency", "reaction_plan"] else []) := by
      split_ifs <;> decide
    rw [recordText_get? hnames htexts, Dict.get?_set, if_pos rfl]
  · intro column hcolumn
    obtain ⟨-, hread⟩ := recordNumber_get? (by decide) hnumbers
    obtain ⟨cell, value, hcell, hvalue, hget⟩ := hread column hcolumn
    refine ⟨cell, value, hcell, hvalue, ?_⟩
    have hunit : "unit" ≠ column := by
      rintro rfl
      exact absurd hcolumn (by decide)
    rw [Dict.get?_set, if_neg hunit, hget]

/-! ## What is recorded for an integer -/

/-- **What is recorded for an integer literal**: nothing beyond the finite range, else an integer,
and the one that is denoted exactly when that one is a double. -/
theorem parseNumber_literal {text : String} {n : ℤ} (h : IntegerLiteral text.toList n)
    (label : String) :
    (overflowBound ≤ n.natAbs → ∀ v, parseNumber text label ≠ .ok v) ∧
      (n.natAbs < overflowBound → ∃ r : ℤ, parseNumber text label = .ok (.int r) ∧
        (r = n ↔ Representable n.natAbs)) := by
  have hstrip : strip text = text := by
    refine strip_eq_self fun c hc => ?_
    have hrange := h.range c hc
    rw [← Bool.not_eq_true]
    intro hs
    simp only [isSpace, Bool.or_eq_true, Bool.and_eq_true, decide_eq_true_eq] at hs
    omega
  obtain ⟨neg, hread, hn⟩ := parseFloat_literal h
  have hvalue : (⟨n.natAbs, 0⟩ : Decimal).value = (n.natAbs : ℚ) := by simp [Decimal.value]
  have hrange : Double.ofDecimal neg ⟨n.natAbs, 0⟩ = none ↔ overflowBound ≤ n.natAbs := by
    rw [ofDecimal_eq_none, hvalue, roundDouble_eq_none_iff (Nat.cast_nonneg _), Nat.cast_le]
  constructor
  · intro hbeyond v
    simp only [parseNumber, hstrip, hread, floatOf, hrange.mpr hbeyond]
    simp
  · intro hwithin
    obtain ⟨x, hx⟩ := Option.ne_none_iff_exists'.mp (mt hrange.mp (not_le.mpr hwithin))
    obtain ⟨hneg, hround⟩ := ofDecimal_eq_some hx
    rw [hvalue] at hround
    obtain ⟨r, hr, hexact⟩ := roundDouble_natCast hround
    have hxvalue : x.value = ((if neg then -(r : ℤ) else r : ℤ) : ℚ) := by
      rw [Double.value, Double.magnitude, hneg, hr]
      split_ifs <;> simp
    refine ⟨if neg then -(r : ℤ) else r, ?_, ?_⟩
    · simp only [parseNumber, hstrip, hread, floatOf, hx, integerOrFloat_of_value hxvalue]
    · rw [← hexact]
      split_ifs at hn ⊢
      · omega
      · omega

/-! ## Two cells -/

/-- A row that the builder made, whose cell under a column has the text. -/
def BuiltFrom (characteristic : Dict) (column text : String) : Prop :=
  ∃ sourceId row includeControls cell,
    buildCharacteristic sourceId row includeControls = .ok characteristic ∧
      row.cells.lookup column = some cell ∧ cell.text = text

section Cells

variable [PyUnicode]

/-- The document of a type has a row of the pair with the specification of a built row. -/
def HasSpecification (case : Dict) (documentType : String) (key : String × String)
    (characteristic : Dict) : Prop :=
  Approved case documentType fun doc => ∃ row ∈ fieldRows doc "characteristics",
    NamesPair row key ∧ row.get? "specification" = characteristic.get? "specification"

/-- A cell is recorded as the integer it denotes, where it denotes one and is accepted. -/
def CellExact (text : String) : Prop :=
  ∀ n, IntegerLiteral text.toList n → ∀ label v, parseNumber text label = .ok v → v = .int n

/-- **Numeric cells are exact**: both cells are recorded as they are, and where they denote
different integers under one column of two rows, the rows' specifications differ and R002 does not
pass on documents that have them for one pair. -/
structure CellsExact (a b : String) : Prop where
  left : CellExact a
  right : CellExact b
  tuples : ∀ m n, IntegerLiteral a.toList m → IntegerLiteral b.toList n → m ≠ n →
    ∀ column ∈ numberColumns, ∀ first second : Dict, BuiltFrom first column a →
      BuiltFrom second column b →
      ∀ spec other, specTuple first = some spec → specTuple second = some other →
        spec.key ≠ other.key
  rule : ∀ m n, IntegerLiteral a.toList m → IntegerLiteral b.toList n → m ≠ n →
    ∀ column ∈ numberColumns, ∀ first second : Dict, BuiltFrom first column a →
      BuiltFrom second column b →
      ∀ case plan, AcceptedCase case → buildImpactPlan case = .ok plan →
        ∀ link ∈ (case.dictAt "event").rowsAt "affected_links",
        ∀ documentType ∈ specDocumentTypes, ∀ otherType ∈ specDocumentTypes,
          HasSpecification case documentType (pairOf link) first →
          HasSpecification case otherType (pairOf link) second →
          (ruleSpecConsistency case plan).status ≠ .pass

omit [PyUnicode] in
/-- An exact cell puts its integer into the rows that are built from it. -/
lemma BuiltFrom.number {characteristic : Dict} {column text : String} {n : ℤ}
    (h : BuiltFrom characteristic column text) (hcolumn : column ∈ numberColumns)
    (hexact : CellExact text) (hn : IntegerLiteral text.toList n) :
    ∃ specification : Dict, characteristic.get? "specification" = some (.obj specification) ∧
      (specification.get? column).bind finiteNumber = some (n : ℚ) := by
  obtain ⟨sourceId, row, includeControls, cell, hbuilt, hcell, rfl⟩ := h
  obtain ⟨specification, hget, hnumbers⟩ := buildCharacteristic_number hbuilt
  obtain ⟨found, value, hfound, hvalue, hat⟩ := hnumbers column hcolumn
  rw [hcell, Option.some.injEq] at hfound
  subst hfound
  have hwithin : n.natAbs < overflowBound := by
    by_contra hbeyond
    exact (parseNumber_literal hn column).1 (not_lt.mp hbeyond) value hvalue
  refine ⟨specification, hget, ?_⟩
  rw [hat, hexact n hn column value hvalue, Option.bind_some, finiteNumber, if_pos hwithin]

omit [PyUnicode] in
/-- Complete specifications with one set of values have the same number under each column. -/
lemma CompleteSpecification.same_number {first second : Dict} {target minimum maximum : ℚ}
    {unit : String} (hfirst : CompleteSpecification first target minimum maximum unit)
    (hsecond : CompleteSpecification second target minimum maximum unit)
    {specification other : Dict} (hget : first.get? "specification" = some (.obj specification))
    (hother : second.get? "specification" = some (.obj other)) :
    ∀ column ∈ numberColumns, (specification.get? column).bind finiteNumber =
      (other.get? column).bind finiteNumber := by
  obtain ⟨s, hs, htarget, hminimum, hmaximum, -⟩ := hfirst.spec
  obtain ⟨t, ht, htarget', hminimum', hmaximum', -⟩ := hsecond.spec
  rw [hget, Option.some.injEq, Json.obj.injEq] at hs
  rw [hother, Option.some.injEq, Json.obj.injEq] at ht
  subst hs ht
  simp only [numberColumns, List.forall_mem_cons, List.not_mem_nil, IsEmpty.forall_iff,
    implies_true, and_true]
  exact ⟨htarget.trans htarget'.symm, hminimum.trans hminimum'.symm, hmaximum.trans hmaximum'.symm⟩

omit [PyUnicode] in
/-- Rows built from exact cells of different integers are not complete with one set of values. -/
lemma BuiltFrom.not_both_complete {a b column : String} {m n : ℤ} (ha : CellExact a)
    (hb : CellExact b) (hm : IntegerLiteral a.toList m) (hn : IntegerLiteral b.toList n)
    (hne : m ≠ n) (hcolumn : column ∈ numberColumns) {first second : Dict}
    (hfirst : BuiltFrom first column a) (hsecond : BuiltFrom second column b)
    {target minimum maximum : ℚ} {unit : String}
    (hcomplete : CompleteSpecification first target minimum maximum unit)
    (hcomplete' : CompleteSpecification second target minimum maximum unit) : False := by
  obtain ⟨specification, hget, hnumber⟩ := hfirst.number hcolumn ha hm
  obtain ⟨other, hother, hnumber'⟩ := hsecond.number hcolumn hb hn
  have hsame := hcomplete.same_number hcomplete' hget hother column hcolumn
  rw [hnumber, hnumber', Option.some.injEq] at hsame
  exact hne (by exact_mod_cast hsame)

omit [PyUnicode] in
/-- Being complete is about the specification alone. -/
lemma CompleteSpecification.of_get? {row other : Dict} {target minimum maximum : ℚ} {unit : String}
    (h : CompleteSpecification row target minimum maximum unit)
    (hget : row.get? "specification" = other.get? "specification") :
    CompleteSpecification other target minimum maximum unit :=
  ⟨hget ▸ h.spec, h.ordered, h.named⟩

/-- Where the documents agree on a pair, the row that names the pair has the values agreed on. -/
lemma HasSpecification.complete {case : Dict} (hcase : AcceptedCase case) {documentType : String}
    {key : String × String} {characteristic : Dict}
    (h : HasSpecification case documentType key characteristic) {target minimum maximum : ℚ}
    {unit : String}
    (hagree : Approved case documentType fun doc => ∃ row ∈ fieldRows doc "characteristics",
      NamesPair row key ∧ CompleteSpecification row target minimum maximum unit) :
    CompleteSpecification characteristic target minimum maximum unit := by
  obtain ⟨doc, hdoc, row, hrow, hnames, hget⟩ := h
  obtain ⟨found, hfound, hnames', hcomplete⟩ := (approved_iff hdoc).mp hagree
  have haccepted := acceptedDocument_of_mem hcase (documentByType_mem hdoc).1
  have h1 := (characteristicAt_eq_some haccepted).mpr ⟨hrow, hnames⟩
  have h2 := (characteristicAt_eq_some haccepted).mpr ⟨hfound, hnames'⟩
  rw [h1, Option.some.injEq] at h2
  subst h2
  exact hcomplete.of_get? hget

/-- **Two numeric cells are exact if and only if every integer they denote is a double or lies
beyond the finite range, where it is rejected.** -/
theorem cellsExact_iff (a b : String) :
    CellsExact a b ↔ ∀ n, IntegerLiteral a.toList n ∨ IntegerLiteral b.toList n →
      Representable n.natAbs ∨ overflowBound ≤ n.natAbs := by
  have hcell : ∀ text, CellExact text ↔ ∀ n, IntegerLiteral text.toList n →
      Representable n.natAbs ∨ overflowBound ≤ n.natAbs := by
    intro text
    refine forall₂_congr fun n hn => ?_
    constructor
    · intro hexact
      rcases Nat.lt_or_ge n.natAbs overflowBound with hwithin | hbeyond
      · obtain ⟨r, hr, hiff⟩ := (parseNumber_literal hn "target").2 hwithin
        have := hexact "target" _ hr
        exact Or.inl (hiff.mp (Json.int.inj this))
      · exact Or.inr hbeyond
    · intro hor label v hv
      rcases Nat.lt_or_ge n.natAbs overflowBound with hwithin | hbeyond
      · obtain ⟨r, hr, hiff⟩ := (parseNumber_literal hn label).2 hwithin
        have hrep := hor.resolve_right (not_le.mpr hwithin)
        rw [hr, hiff.mpr hrep] at hv
        exact (Except.ok.inj hv).symm
      · exact absurd hv ((parseNumber_literal hn label).1 hbeyond v)
  constructor
  · rintro h n (hn | hn)
    · exact (hcell a).mp h.left n hn
    · exact (hcell b).mp h.right n hn
  · intro h
    have ha : CellExact a := (hcell a).mpr fun n hn => h n (Or.inl hn)
    have hb : CellExact b := (hcell b).mpr fun n hn => h n (Or.inr hn)
    refine ⟨ha, hb, ?_, ?_⟩
    · intro m n hm hn hne column hcolumn first second hfirst hsecond spec other hspec hother hkey
      obtain ⟨target, minimum, maximum, unit, hcomplete⟩ := specTuple_key hspec
      exact hfirst.not_both_complete ha hb hm hn hne hcolumn hsecond
        (specTuple_eq_some.mp ⟨spec, hspec, hcomplete⟩)
        (specTuple_eq_some.mp ⟨other, hother, hkey.symm.trans hcomplete⟩)
    · intro m n hm hn hne column hcolumn first second hfirst hsecond case plan hcase hplan link hlink
        documentType htype otherType hother hspec hspec' hpass
      obtain ⟨target, minimum, maximum, unit, hagree⟩ :=
        ((ruleSpecConsistency_pass_iff hcase hplan).mp hpass).agree link hlink
      exact hfirst.not_both_complete ha hb hm hn hne hcolumn hsecond
        (hspec.complete hcase (hagree documentType htype))
        (hspec'.complete hcase (hagree otherType hother))

end Cells

section Ascii

attribute [local instance] asciiUnicode

/-- The literal 9007199254740993 is recorded as its even neighbour. -/
theorem neighbour_not_cellsExact : ¬CellsExact "9007199254740993" "9007199254740992" := by
  intro h
  have hliteral : IntegerLiteral "9007199254740993".toList 9007199254740993 :=
    IntegerLiteral.bare ⟨by decide, by decide⟩
  have hrecorded : parseNumber "9007199254740993" "target" = .ok (.int 9007199254740992) := by
    decide +kernel
  have hsame := Json.int.inj (h.left _ hliteral "target" _ hrecorded)
  exact absurd hsame (by decide)

end Ascii

end QualityCI

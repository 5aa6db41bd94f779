import QualityCI.Ingestion.Errors
import QualityCI.Lib.Bytes
import QualityCI.Lib.Scan

/-!
# Active content in PDF files

A PDF file goes to a reader that the caller supplies.  Before that the file's bytes are searched
for the names of features that are not accepted; a name is a slash and the characters up to a
delimiter or white space, and each character may be written as `#` and two hexadecimal digits.

* `pdfName`, `decodeNameEscapes`, `pdfDeclaredNames` — the pattern and the names read with it.
* `parsePdf` — the checks before the reader is called, the call, and the evidence from its pages.
* `Spells` — the ways to write a name.
* **`mem_pdfDeclaredNames`** — a name spelled anywhere in the bytes is among the names read.
* `parsePdf_rejects_spelled` — a forbidden name spelled anywhere keeps the bytes from the reader.
-/

namespace QualityCI

open Py

/-! ## The names in a file -/

/-- `[0-9A-Fa-f]`. -/
def isHexByte (b : UInt8) : Bool :=
  (0x30 ≤ b && b ≤ 0x39) || (0x41 ≤ b && b ≤ 0x46) || (0x61 ≤ b && b ≤ 0x66)

/-- `[^\x00\x09\x0a\x0c\x0d\x20<>{}\[\]()/%%]`. -/
def isNameByte (b : UInt8) : Bool :=
  b ∉ [0x00, 0x09, 0x0A, 0x0C, 0x0D, 0x20, 0x3C, 0x3E, 0x7B, 0x7D, 0x5B, 0x5D, 0x28, 0x29, 0x2F,
    0x25]

/-- `(?:#[0-9A-Fa-f]{2}|[^…])*`: what matches from here, and what is left. -/
def nameBody : Bytes → Bytes × Bytes
  | c :: a :: b :: rest =>
      if c = 0x23 ∧ isHexByte a ∧ isHexByte b then
        (c :: a :: b :: (nameBody rest).1, (nameBody rest).2)
      else if isNameByte c then (c :: (nameBody (a :: b :: rest)).1, (nameBody (a :: b :: rest)).2)
      else ([], c :: a :: b :: rest)
  | c :: rest =>
      if isNameByte c then (c :: (nameBody rest).1, (nameBody rest).2) else ([], c :: rest)
  | [] => ([], [])

lemma isNameByte_of_isHexByte {b : UInt8} (h : isHexByte b = true) : isNameByte b = true := by
  unfold isHexByte at h
  simp only [isNameByte, List.mem_cons, List.not_mem_nil, or_false, decide_eq_true_eq, not_or]
  simp only [Bool.or_eq_true, Bool.and_eq_true, decide_eq_true_eq, UInt8.le_iff_toNat_le] at h
  refine ⟨?_, ?_, ?_, ?_, ?_, ?_, ?_, ?_, ?_, ?_, ?_, ?_, ?_, ?_, ?_, ?_⟩ <;>
    (rintro rfl; revert h; decide)

/-- The characters of a name end at the first one that may not stand in it. -/
lemma nameBody_eq (input : Bytes) :
    nameBody input = (input.takeWhile isNameByte, input.dropWhile isNameByte) := by
  fun_induction nameBody input with
  | case1 c a b rest h ih =>
      obtain ⟨rfl, ha, hb⟩ := h
      have hhash : isNameByte 0x23 = true := by decide
      rw [ih]
      simp [hhash, isNameByte_of_isHexByte ha, isNameByte_of_isHexByte hb]
  | case2 c a b rest _ hc ih =>
      rw [ih]
      simp [hc]
  | case3 c a b rest _ hc => simp [hc]
  | case4 c rest _ hc ih =>
      rw [ih]
      simp [hc]
  | case5 c rest _ hc => simp [hc]
  | case6 => rfl

/-- `_PDF_NAME`, tried at one place. -/
def pdfNameAt : Bytes → Option (Bytes × Bytes)
  | slash :: rest =>
      if slash = 0x2F ∧ (nameBody rest).1 ≠ [] then
        some (slash :: (nameBody rest).1, (nameBody rest).2)
      else none
  | [] => none

/-- `_PDF_NAME`. -/
def pdfName : Pattern UInt8 where
  tryAt := pdfNameAt
  takes := by
    intro input token rest h
    cases input with
    | nil => simp [pdfNameAt] at h
    | cons slash bytes =>
        rw [pdfNameAt, nameBody_eq] at h
        split_ifs at h with hname
        simp only [Option.some.injEq, Prod.mk.injEq] at h
        obtain ⟨rfl, rfl⟩ := h
        exact ⟨by simp, List.cons_ne_nil _ _⟩

/-- `int(digit, 16)` of a hexadecimal digit. -/
def hexByteValue (b : UInt8) : UInt8 :=
  if b ≤ 0x39 then b - 0x30 else if b ≤ 0x46 then b - 0x37 else b - 0x57

/-- `re.sub(rb"#([0-9A-Fa-f]{2})", …, token)`. -/
def decodeNameEscapes : Bytes → Bytes
  | c :: a :: b :: rest =>
      if c = 0x23 ∧ isHexByte a ∧ isHexByte b then
        (16 * hexByteValue a + hexByteValue b) :: decodeNameEscapes rest
      else c :: decodeNameEscapes (a :: b :: rest)
  | c :: rest => c :: decodeNameEscapes rest
  | [] => []

/-- `b.lower()` of one byte. -/
def lowerByte (b : UInt8) : UInt8 := if 0x41 ≤ b ∧ b ≤ 0x5A then b + 0x20 else b

/-- `_pdf_declared_names`. -/
def pdfDeclaredNames (raw : Bytes) : List Bytes :=
  (pdfName.finditer raw).map fun token => (decodeNameEscapes token.tail).map lowerByte

/-- `_PDF_FORBIDDEN_NAMES`. -/
def pdfForbiddenNames : List Bytes :=
  ["aa", "acroform", "embeddedfile", "encrypt", "gotoe", "gotor", "importdata", "javascript", "js",
    "launch", "movie", "objstm", "openaction", "richmedia", "sound", "submitform", "xfa"].map
    encodeUtf8

/-! ## The reader's pages -/

/-- One item of what a reader yields. -/
inductive PageItem
  | text (text : String)
  | other (typeName : String)

/-- What a reader yields: a text, bytes, a dictionary or `None`, which are not taken for pages; or
the items that iterating over it gives, and the error it ends with, if it does. -/
inductive ExtractedPages
  | notPages
  | pages (items : List PageItem) (failure : Option PyError)

/-- `_base_evidence` of a page, with its flag. -/
def pageEvidence (sourceHash text : String) (page : ℕ) : Json :=
  .obj (Dict.ofList [("kind", .str "PAGE"), ("locator", .str s!"PDF#page-{page}"),
    ("text", .str text), ("source_hash", .str sourceHash),
    ("coordinates", .obj (Dict.ofList [("page", .int page)])),
    ("extractable_text", .bool (!isBlank text))])

/-- `_check_evidence_limits`. -/
def checkEvidenceLimits (texts : List String) (limits : IngestionLimits) : Result Unit := do
  whenever (limits.maxEvidenceItems < texts.length)
    (limitExceededError s!"evidence item count exceeds {limits.maxEvidenceItems}")
  whenever (limits.maxTextChars < (texts.map String.length).sum)
    (limitExceededError s!"extracted text exceeds {limits.maxTextChars} characters")

/-- The text of one page, after the checks of the loop. -/
def pageText (limits : IngestionLimits) (pageNumber : ℕ) (item : PageItem) : Result String := do
  whenever (limits.maxPdfPages < pageNumber)
    (limitExceededError s!"PDF page count exceeds {limits.maxPdfPages}")
  match item with
  | .other typeName =>
      ingestionError s!"PDF page extractor returned {typeName} for page {pageNumber}; expected str"
  | .text text => do
      whenever (limits.maxTextChars < text.length)
        (limitExceededError s!"PDF page {pageNumber} exceeds {limits.maxTextChars} characters")
      pure text

/-- The part of `_parse_pdf` behind the call of the reader. -/
def readPages (sourceHash : String) (limits : IngestionLimits) :
    Result ExtractedPages → Result Json
  | .error error => ingestionError s!"PDF page extractor failed: {error.message}"
  | .ok .notPages => ingestionError "PDF page extractor must yield one string per physical page"
  | .ok (.pages items failure) => do
      let texts ← enumerateM (fun pageNumber texts item => do
        let text ← pageText limits pageNumber item
        pure (texts ++ [text])) 1 [] items
      match failure with
      | none => pure ()
      | some error =>
          if isIngestionError error.cls then .error error
          else ingestionError s!"PDF page extractor iteration failed: {error.message}"
      whenever (∀ text ∈ texts, isBlank text = true)
        (scannedPdfError ("PDF has no extractable text; scanned/image-only files require a " ++
          "reviewed OCR adapter"))
      checkEvidenceLimits texts limits
      pure (.obj (Dict.ofList [
        ("evidence",
          .arr (texts.mapIdx fun index text => pageEvidence sourceHash text (index + 1))),
        ("structure", .obj (Dict.ofList [("format", .str "PDF"), ("page_count", .int texts.length),
          ("extractable_page_count", .int (texts.countP fun text => !isBlank text)),
          ("adapter_required", .bool true)]))]))

section Reader

variable {σ : Type}

/-- A reader of PDF files, run in a world that it may look at and change. -/
abbrev PdfPageExtractor (σ : Type) := Bytes → σ → Result ExtractedPages × σ

/-- `_parse_pdf`. -/
def parsePdf (raw : Bytes) (sourceHash : String) (limits : IngestionLimits)
    (extractor : Option (PdfPageExtractor σ)) (trustedPdfAdapter : Bool) (world : σ) :
    Result Json × σ :=
  match extractor with
  | none =>
      (unsupportedFormatError ("PDF text extraction requires an explicit pdf_page_extractor; " ++
        "the standard library cannot provide reliable page text"), world)
  | some extract =>
      if trustedPdfAdapter = false then
        (unsupportedFormatError ("PDF adapter use is disabled by default; set " ++
          "trusted_pdf_adapter=true only for a reviewed, sandboxed adapter with independent " ++
          "structural safety checks"), world)
      else
        let declaredNames := pdfDeclaredNames raw
        -- the forbidden names are listed in their order, so what is declared of them is sorted
        let forbidden := pdfForbiddenNames.filter (· ∈ declaredNames)
        if forbidden ≠ [] then
          let names := join ", " (forbidden.map fun name =>
            String.ofList (name.map fun b => Char.ofNat b.toNat))
          (unsupportedFormatError ("PDF contains encrypted, active, embedded, or opaque object " ++
            s!"features: {names}"), world)
        else
          ((readPages sourceHash limits (extract raw world).1), (extract raw world).2)

end Reader

/-! ## The spellings of a name -/

/-- A character of a name, written in capitals or not, as itself or in hexadecimal. -/
inductive SpellsLetter (letter : UInt8) : Bytes → Prop
  | literal (b : UInt8) (hb : lowerByte b = letter) : SpellsLetter letter [b]
  | escaped (a b : UInt8) (ha : isHexByte a = true) (hb : isHexByte b = true)
      (hletter : lowerByte (16 * hexByteValue a + hexByteValue b) = letter) :
      SpellsLetter letter [0x23, a, b]

/-- A name, each of its characters in a spelling of its own. -/
inductive Spells : Bytes → Bytes → Prop
  | nil : Spells [] []
  | cons {letter : UInt8} {name written text : Bytes} (hletter : SpellsLetter letter written)
      (hname : Spells name text) : Spells (letter :: name) (written ++ text)

/-- PDF white space. -/
abbrev isPdfWhitespace (b : UInt8) : Prop := b ∈ [0x00, 0x09, 0x0A, 0x0C, 0x0D, 0x20]

/-- The PDF delimiters `( ) < > [ ] { } / %`. -/
abbrev isPdfDelimiter (b : UInt8) : Prop :=
  b ∈ [0x28, 0x29, 0x3C, 0x3E, 0x5B, 0x5D, 0x7B, 0x7D, 0x2F, 0x25]

/-- A name ends before a delimiter, white space or the end of the bytes. -/
def EndsName (after : Bytes) : Prop :=
  ∀ b ∈ after.head?, isPdfDelimiter b ∨ isPdfWhitespace b

/-- A name of the letters `a` to `z`. -/
def IsLetters (name : Bytes) : Prop := ∀ letter ∈ name, 0x61 ≤ letter ∧ letter ≤ 0x7A

/-- A character that is lowercased to a letter is one. -/
lemma letter_of_lowerByte {b letter : UInt8} (h : lowerByte b = letter)
    (hletter : 0x61 ≤ letter ∧ letter ≤ 0x7A) : isNameByte b = true ∧ b ≠ 0x23 := by
  unfold lowerByte at h
  have hrange : 0x41 ≤ b.toNat ∧ b.toNat ≤ 0x7A ∧ (b.toNat ≤ 0x5A ∨ 0x61 ≤ b.toNat) := by
    split_ifs at h with hcapital
    · simp only [UInt8.le_iff_toNat_le, UInt8.reduceToNat] at hcapital
      omega
    · subst h
      simp only [UInt8.le_iff_toNat_le, UInt8.reduceToNat] at hletter
      omega
  constructor
  · simp only [isNameByte, List.mem_cons, List.not_mem_nil, or_false, decide_eq_true_eq, not_or]
    refine ⟨?_, ?_, ?_, ?_, ?_, ?_, ?_, ?_, ?_, ?_, ?_, ?_, ?_, ?_, ?_, ?_⟩ <;>
      (rintro rfl; revert hrange; decide)
  · rintro rfl
    revert hrange
    decide

lemma IsLetters.of_cons {letter : UInt8} {name : Bytes} (h : IsLetters (letter :: name)) :
    (0x61 ≤ letter ∧ letter ≤ 0x7A) ∧ IsLetters name :=
  List.forall_mem_cons.mp h

/-- No spelling of a name of letters contains what would end the name. -/
lemma Spells.isNameByte {name text : Bytes} (h : Spells name text) (hletters : IsLetters name) :
    ∀ b ∈ text, isNameByte b = true := by
  induction h with
  | nil => simp
  | cons hletter _ ih =>
      obtain ⟨hrange, hrest⟩ := hletters.of_cons
      intro b hb
      rcases List.mem_append.mp hb with hwritten | htext
      · cases hletter with
        | literal c hc =>
            obtain rfl := List.mem_singleton.mp hwritten
            exact (letter_of_lowerByte hc hrange).1
        | escaped c d hc hd _ =>
            simp only [List.mem_cons, List.not_mem_nil, or_false] at hwritten
            rcases hwritten with rfl | rfl | rfl
            · decide
            · exact isNameByte_of_isHexByte hc
            · exact isNameByte_of_isHexByte hd
      · exact ih hrest b htext

lemma decodeNameEscapes_literal {c : UInt8} (hc : c ≠ 0x23) (rest : Bytes) :
    decodeNameEscapes (c :: rest) = c :: decodeNameEscapes rest := by
  match rest with
  | [] => rfl
  | [_] => rfl
  | a :: b :: rest => simp [decodeNameEscapes, hc]

/-- **Every spelling of a name is read as the name.** -/
theorem Spells.decode {name text : Bytes} (h : Spells name text) (hletters : IsLetters name) :
    (decodeNameEscapes text).map lowerByte = name := by
  induction h with
  | nil => rfl
  | cons hletter _ ih =>
      obtain ⟨hrange, hrest⟩ := hletters.of_cons
      cases hletter with
      | literal c hc =>
          rw [List.singleton_append, decodeNameEscapes_literal (letter_of_lowerByte hc hrange).2,
            List.map_cons, hc, ih hrest]
      | escaped c d hc hd hvalue =>
          rw [List.cons_append, List.cons_append, List.cons_append, List.nil_append,
            decodeNameEscapes, if_pos ⟨rfl, hc, hd⟩, List.map_cons, hvalue, ih hrest]

lemma Spells.ne_nil {name text : Bytes} (h : Spells name text) (hne : name ≠ []) : text ≠ [] := by
  cases h with
  | nil => exact absurd rfl hne
  | cons hletter _ => cases hletter <;> simp

lemma EndsName.takeWhile {after : Bytes} (h : EndsName after) :
    after.takeWhile QualityCI.isNameByte = [] := by
  cases after with
  | nil => rfl
  | cons b rest =>
      have hb : QualityCI.isNameByte b = false := by
        have hmem := h b rfl
        simp only [isPdfDelimiter, isPdfWhitespace, List.mem_cons, List.not_mem_nil,
          or_false] at hmem
        rcases hmem with (rfl | rfl | rfl | rfl | rfl | rfl | rfl | rfl | rfl | rfl) |
          (rfl | rfl | rfl | rfl | rfl | rfl) <;> decide
      rw [List.takeWhile_cons_of_neg]
      simp [hb]

/-- A match of the pattern has its only slash in front. -/
lemma pdfName_slash {input token rest : Bytes} (h : pdfName.tryAt input = some (token, rest)) :
    ∀ b ∈ token.tail, b ≠ 0x2F := by
  cases input with
  | nil => simp [pdfName, pdfNameAt] at h
  | cons slash bytes =>
      simp only [pdfName, pdfNameAt, nameBody_eq] at h
      split_ifs at h with hname
      simp only [Option.some.injEq, Prod.mk.injEq] at h
      obtain ⟨rfl, rfl⟩ := h
      intro b hb hslash
      have hbyte := List.all_eq_true.mp List.all_takeWhile b hb
      rw [hslash] at hbyte
      exact absurd hbyte (by decide)

/-- **A name spelled anywhere in the bytes is among the names read.** -/
theorem mem_pdfDeclaredNames {name text after : Bytes} (hne : name ≠ [])
    (hletters : IsLetters name) (hspell : Spells name text) (hend : EndsName after)
    (front : Bytes) : name ∈ pdfDeclaredNames (front ++ 0x2F :: (text ++ after)) := by
  have hbody : (nameBody (text ++ after)).1 = text := by
    rw [nameBody_eq, List.takeWhile_append_of_pos (hspell.isNameByte hletters), hend.takeWhile,
      List.append_nil]
  have htry : pdfName.tryAt (0x2F :: (text ++ after)) =
      some (0x2F :: text, (nameBody (text ++ after)).2) := by
    simp only [pdfName, pdfNameAt, hbody]
    rw [if_pos ⟨trivial, hspell.ne_nil hne⟩]
  have hfound := pdfName.mem_finditer (fun b => b = 0x2F) pdfName_slash rfl htry front
  refine List.mem_map.mpr ⟨0x2F :: text, hfound, ?_⟩
  rw [List.tail_cons, hspell.decode hletters]

lemma pdfForbiddenNames_letters : ∀ name ∈ pdfForbiddenNames, name ≠ [] ∧ IsLetters name := by
  unfold IsLetters
  decide +kernel

/-- **Active content is seen in every spelling.**  Where the bytes contain, anywhere, a slash, a
spelling of a forbidden name and the end of a name, the call raises `UnsupportedFormatError`, and
whatever reader was given, the world it runs in is as it was. -/
theorem parsePdf_rejects_spelled {σ : Type} {name text after : Bytes}
    (hname : name ∈ pdfForbiddenNames) (hspell : Spells name text) (hend : EndsName after)
    (front : Bytes) (sourceHash : String) (limits : IngestionLimits)
    (extractor : Option (PdfPageExtractor σ)) (trustedPdfAdapter : Bool) (world : σ) :
    ∃ message, parsePdf (front ++ 0x2F :: (text ++ after)) sourceHash limits extractor
      trustedPdfAdapter world = (unsupportedFormatError message, world) := by
  obtain ⟨hne, hletters⟩ := pdfForbiddenNames_letters name hname
  have hdeclared := mem_pdfDeclaredNames hne hletters hspell hend front
  have hforbidden : pdfForbiddenNames.filter
      (· ∈ pdfDeclaredNames (front ++ 0x2F :: (text ++ after))) ≠ [] := by
    refine List.ne_nil_of_mem (List.mem_filter.mpr ⟨hname, ?_⟩)
    simpa using hdeclared
  cases extractor with
  | none => exact ⟨_, rfl⟩
  | some extract =>
      cases trustedPdfAdapter with
      | false => exact ⟨_, rfl⟩
      | true =>
          simp only [parsePdf, Bool.true_eq_false, if_false, if_pos hforbidden]
          exact ⟨_, rfl⟩

/-- `/#4aS` before a blank is the name `js`, and a reader that counts its calls is not called. -/
theorem parsePdf_rejects_spelled_sample :
    ∃ message, parsePdf ([0x25, 0x50, 0x44, 0x46] ++ 0x2F :: ([0x23, 0x34, 0x61, 0x53] ++ [0x20]))
      "" {} (some fun _ calls => (.ok .notPages, calls + 1)) true 0 =
        (unsupportedFormatError message, 0) := by
  have hname : encodeUtf8 "js" ∈ pdfForbiddenNames := by decide
  have hspell : Spells (encodeUtf8 "js") [0x23, 0x34, 0x61, 0x53] :=
    .cons (.escaped 0x34 0x61 (by decide) (by decide) (by decide))
      (.cons (.literal 0x53 (by decide)) .nil)
  have hend : EndsName [0x20] := by
    intro b hb
    obtain rfl : 0x20 = b := by simpa using hb
    exact Or.inr (by decide)
  exact parsePdf_rejects_spelled hname hspell hend [0x25, 0x50, 0x44, 0x46] "" {} _ true 0

end QualityCI

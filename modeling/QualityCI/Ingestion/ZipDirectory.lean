import Mathlib.Tactic.IntervalCases
import QualityCI.Ingestion.Errors
import QualityCI.Lib.Bytes
import QualityCI.Lib.Slice

/-!
# The central directory of an archive

Before an office document is opened as a ZIP archive, the headers of its central directory are
counted in its bytes.  The directory's place and the number of its members stand in the end record,
which is the last thing in the file but for a comment.

* `preflightZipDirectory` — the check, with its walk over the headers.
* `IsHeader`, `Counted` — a well-formed header, and headers that make up the directory.
* `CarriesZip64` — the other end record, which a ZIP reader that knows the ZIP64 format follows.
* **`preflightZipDirectory_eq_ok`** — an archive passes exactly when its directory is made up of the
  declared number of well-formed headers.
* `preflightZipDirectory_zip64_iff` — which of those archives carry no ZIP64 record.
-/

namespace QualityCI

open Py

/-- `PK\x05\x06`. -/
def endSignature : Bytes := [0x50, 0x4B, 0x05, 0x06]

/-- `PK\x01\x02`. -/
def headerSignature : Bytes := [0x50, 0x4B, 0x01, 0x02]

/-- `int.from_bytes(raw[offset:offset + size], "little")`. -/
def fieldAt (raw : Bytes) (offset size : ℕ) : ℕ := littleEndian (slice raw offset (offset + size))

/-- The size of the header at `cursor`, by its three variable fields. -/
def headerSize (raw : Bytes) (cursor : ℕ) : ℕ :=
  46 + fieldAt raw (cursor + 28) 2 + fieldAt raw (cursor + 30) 2 + fieldAt raw (cursor + 32) 2

/-- The loop over the headers; it gives the place behind them and their number. -/
def walkDirectory (raw : Bytes) (maxMembers centralEnd cursor observedEntries : ℕ) :
    Result (ℕ × ℕ) :=
  if cursor < centralEnd then do
    whenever (centralEnd < cursor + 46 ∨ slice raw cursor (cursor + 4) ≠ headerSignature)
      (archiveSafetyError "ZIP central-directory entry is malformed")
    whenever (maxMembers < observedEntries + 1)
      (archiveSafetyError s!"archive member count exceeds {maxMembers}")
    walkDirectory raw maxMembers centralEnd (cursor + headerSize raw cursor) (observedEntries + 1)
  else pure (cursor, observedEntries)
  termination_by centralEnd - cursor
  decreasing_by
    unfold headerSize
    omega

/-- `_preflight_zip_directory`. -/
def preflightZipDirectory (raw : Bytes) (maxMembers : ℕ) : Result Unit := do
  let searchStart := raw.length - (65535 + 22)
  match rfind raw endSignature searchStart with
  | none => archiveSafetyError "ZIP end-of-central-directory record is missing"
  | some eocdOffset => do
      whenever (raw.length < eocdOffset + 22)
        (archiveSafetyError "ZIP end-of-central-directory record is missing")
      let diskNumber := fieldAt raw (eocdOffset + 4) 2
      let centralDisk := fieldAt raw (eocdOffset + 6) 2
      let diskEntries := fieldAt raw (eocdOffset + 8) 2
      let totalEntries := fieldAt raw (eocdOffset + 10) 2
      let centralSize := fieldAt raw (eocdOffset + 12) 4
      let centralOffset := fieldAt raw (eocdOffset + 16) 4
      let commentSize := fieldAt raw (eocdOffset + 20) 2
      whenever (diskNumber ≠ 0 ∨ centralDisk ≠ 0 ∨ diskEntries ≠ totalEntries)
        (archiveSafetyError "multi-disk ZIP containers are not accepted")
      whenever (totalEntries = 0xFFFF ∨ centralSize = 0xFFFFFFFF ∨ centralOffset = 0xFFFFFFFF)
        (archiveSafetyError "ZIP64 OOXML containers are not accepted by this prototype")
      whenever (eocdOffset + 22 + commentSize ≠ raw.length)
        (archiveSafetyError "ZIP has trailing data or an inconsistent comment length")
      whenever (maxMembers < totalEntries)
        (archiveSafetyError s!"archive member count exceeds {maxMembers}")
      let centralEnd := centralOffset + centralSize
      whenever (centralEnd ≠ eocdOffset ∨ raw.length < centralEnd)
        (archiveSafetyError "ZIP central-directory bounds are inconsistent")
      let (cursor, observedEntries) ← walkDirectory raw maxMembers centralEnd centralOffset 0
      whenever (cursor ≠ centralEnd ∨ observedEntries ≠ totalEntries)
        (archiveSafetyError "ZIP central-directory member count is inconsistent")

/-! ## The directory counted -/

/-- A header of the central directory: it begins with its signature and is as long as its variable
fields say. -/
structure IsHeader (header : Bytes) : Prop where
  signature : slice header 0 4 = headerSignature
  size : header.length = headerSize header 0

/-- The end record at `eocd`, the last of the bytes, on a single disk and with a comment up to their
end, and headers that make up its directory. -/
structure Counted (raw : Bytes) (maxMembers eocd : ℕ) (headers : List Bytes) : Prop where
  found : slice raw eocd (eocd + 4) = endSignature
  last : ∀ j, eocd < j → slice raw j (j + 4) ≠ endSignature
  comment : eocd + 22 + fieldAt raw (eocd + 20) 2 = raw.length
  singleDisk : fieldAt raw (eocd + 4) 2 = 0 ∧ fieldAt raw (eocd + 6) 2 = 0 ∧
    fieldAt raw (eocd + 8) 2 = fieldAt raw (eocd + 10) 2
  declared : headers.length = fieldAt raw (eocd + 10) 2
  bounded : headers.length ≤ maxMembers
  ends : fieldAt raw (eocd + 16) 4 + fieldAt raw (eocd + 12) 4 = eocd
  wellFormed : ∀ header ∈ headers, IsHeader header
  tiles : slice raw (fieldAt raw (eocd + 16) 4) eocd = headers.flatten

/-- None of the three values that stand for a value in a ZIP64 record. -/
def NoSentinel (raw : Bytes) (eocd : ℕ) : Prop :=
  fieldAt raw (eocd + 10) 2 ≠ 0xFFFF ∧ fieldAt raw (eocd + 12) 4 ≠ 0xFFFFFFFF ∧
    fieldAt raw (eocd + 16) 4 ≠ 0xFFFFFFFF

lemma fieldAt_slice (raw : Bytes) {start stop offset size : ℕ}
    (h : start + (offset + size) ≤ stop) :
    fieldAt (slice raw start stop) offset size = fieldAt raw (start + offset) size := by
  rw [fieldAt, slice_slice raw start stop offset (offset + size) h, fieldAt, Nat.add_assoc]

lemma headerSize_slice (raw : Bytes) {start stop : ℕ} (h : start + 46 ≤ stop) :
    headerSize (slice raw start stop) 0 = headerSize raw start := by
  simp only [headerSize, Nat.zero_add]
  rw [fieldAt_slice raw (by omega), fieldAt_slice raw (by omega), fieldAt_slice raw (by omega)]

lemma headerSize_ge (raw : Bytes) (cursor : ℕ) : 46 ≤ headerSize raw cursor := by
  unfold headerSize
  omega

lemma IsHeader.length_ge {header : Bytes} (h : IsHeader header) : 46 ≤ header.length := by
  rw [h.size]
  exact headerSize_ge header 0

/-- One pass of the walk. -/
lemma walkDirectory_step {raw : Bytes} {maxMembers centralEnd cursor observed : ℕ}
    {result : ℕ × ℕ} (hlt : cursor < centralEnd) :
    walkDirectory raw maxMembers centralEnd cursor observed = .ok result ↔
      cursor + 46 ≤ centralEnd ∧ slice raw cursor (cursor + 4) = headerSignature ∧
        observed + 1 ≤ maxMembers ∧
        walkDirectory raw maxMembers centralEnd (cursor + headerSize raw cursor) (observed + 1) =
          .ok result := by
  rw [walkDirectory, if_pos hlt]
  simp only [seq_eq_ok, whenever_eq_ok, archiveSafetyError_ne_ok, imp_false, not_or, not_lt,
    not_not, ne_eq]
  tauto

lemma walkDirectory_stop {raw : Bytes} {maxMembers centralEnd cursor observed : ℕ}
    (hge : centralEnd ≤ cursor) :
    walkDirectory raw maxMembers centralEnd cursor observed = .ok (cursor, observed) := by
  rw [walkDirectory, if_neg (not_lt.mpr hge)]
  rfl

/-- A first header that the bytes from `cursor` begin with. -/
lemma isHeader_slice {raw : Bytes} {cursor : ℕ}
    (hfits : cursor + headerSize raw cursor ≤ raw.length)
    (hsig : slice raw cursor (cursor + 4) = headerSignature) :
    IsHeader (slice raw cursor (cursor + headerSize raw cursor)) := by
  have hge := headerSize_ge raw cursor
  constructor
  · rw [slice_slice raw _ _ 0 4 (by omega)]
    exact hsig
  · rw [length_slice hfits, headerSize_slice raw (by omega)]
    omega

/-- **The walk**: from a place in front of the directory's end it reaches the end exactly when
headers make up the bytes up to there, and counts them. -/
lemma walkDirectory_eq_ok {raw : Bytes} {maxMembers centralEnd : ℕ}
    (hend : centralEnd ≤ raw.length) {cursor observed n : ℕ} (hcursor : cursor ≤ centralEnd) :
    walkDirectory raw maxMembers centralEnd cursor observed = .ok (centralEnd, n) ↔
      ∃ headers : List Bytes, (∀ header ∈ headers, IsHeader header) ∧
        slice raw cursor centralEnd = headers.flatten ∧ observed + headers.length = n ∧
        (headers ≠ [] → n ≤ maxMembers) := by
  induction hn : centralEnd - cursor using Nat.strongRecOn generalizing cursor observed with
  | ind m ih =>
      rcases Nat.lt_or_ge cursor centralEnd with hlt | hge
      · rw [walkDirectory_step hlt]
        have hge := headerSize_ge raw cursor
        constructor
        · rintro ⟨hroom, hsig, hcount, hrest⟩
          have hnext : cursor + headerSize raw cursor ≤ centralEnd := by
            by_contra hover
            rw [walkDirectory_stop (by omega)] at hrest
            simp only [Except.ok.injEq, Prod.mk.injEq] at hrest
            omega
          obtain ⟨headers, hheaders, htiles, hlength, hmax⟩ :=
            (ih _ (by omega) hnext rfl).mp hrest
          refine ⟨slice raw cursor (cursor + headerSize raw cursor) :: headers, ?_, ?_, ?_, ?_⟩
          · exact List.forall_mem_cons.mpr ⟨isHeader_slice (by omega) hsig, hheaders⟩
          · rw [List.flatten_cons, ← htiles, slice_append_slice raw (by omega) hnext]
          · rw [List.length_cons]
            omega
          · intro _
            cases headers with
            | nil =>
                rw [List.length_nil] at hlength
                omega
            | cons header rest => exact hmax (List.cons_ne_nil header rest)
        · rintro ⟨headers, hheaders, htiles, hlength, hmax⟩
          have hlen := congrArg List.length htiles
          rw [length_slice hend] at hlen
          cases headers with
          | nil =>
              rw [List.flatten_nil, List.length_nil] at hlen
              omega
          | cons header rest =>
              obtain ⟨hheader, hrest⟩ := List.forall_mem_cons.mp hheaders
              have hlong := hheader.length_ge
              rw [List.flatten_cons] at htiles hlen
              rw [List.length_append] at hlen
              have hfirst : header = slice raw cursor (cursor + header.length) := by
                have hcut : slice (slice raw cursor centralEnd) 0 header.length = header := by
                  rw [htiles, slice_append_left _ _ le_rfl, slice_all]
                rw [slice_slice raw _ _ _ _ (by omega), Nat.add_zero] at hcut
                exact hcut.symm
              have hsize : headerSize raw cursor = header.length := by
                rw [hheader.size, hfirst, headerSize_slice raw (by omega)]
              have hsig : slice raw cursor (cursor + 4) = headerSignature := by
                have hcut := hheader.signature
                rw [hfirst, slice_slice raw _ _ 0 4 (by omega), Nat.add_zero] at hcut
                exact hcut
              rw [List.length_cons] at hlength
              have hafter : slice raw (cursor + header.length) centralEnd = rest.flatten := by
                have hboth := slice_append_slice raw (Nat.le_add_right cursor header.length)
                  (show cursor + header.length ≤ centralEnd by omega)
                rw [htiles, ← hfirst] at hboth
                exact List.append_cancel_left hboth
              refine ⟨by omega, hsig, by have := hmax (List.cons_ne_nil _ _); omega, ?_⟩
              rw [hsize]
              refine (ih _ (by omega) (by omega) rfl).mpr ⟨rest, hrest, hafter, by omega, ?_⟩
              exact fun _ => hmax (List.cons_ne_nil _ _)
      · obtain rfl : cursor = centralEnd := by omega
        rw [walkDirectory_stop le_rfl]
        have hempty : slice raw cursor cursor = [] := by simp [slice]
        simp only [Except.ok.injEq, Prod.mk.injEq, true_and, hempty]
        constructor
        · rintro rfl
          exact ⟨[], by simp, rfl, rfl, fun h => absurd rfl h⟩
        · rintro ⟨headers, hheaders, htiles, hlength, -⟩
          cases headers with
          | nil => simpa using hlength
          | cons header rest =>
              have hlong := (hheaders header List.mem_cons_self).length_ge
              have hlen := congrArg List.length htiles
              rw [List.flatten_cons, List.length_append, List.length_nil] at hlen
              omega

lemma fieldAt_lt (raw : Bytes) (offset size : ℕ) : fieldAt raw offset size < 256 ^ size := by
  refine lt_of_lt_of_le (littleEndian_lt _) (Nat.pow_le_pow_right (by decide) ?_)
  rw [slice, List.length_take]
  omega

/-- **The archives that pass**: those whose directory is made up of the declared number of
well-formed headers, with none of the three values that announce a ZIP64 record. -/
theorem preflightZipDirectory_eq_ok {raw : Bytes} {maxMembers : ℕ} :
    preflightZipDirectory raw maxMembers = .ok () ↔
      ∃ eocd headers, Counted raw maxMembers eocd headers ∧ NoSentinel raw eocd := by
  have hne : endSignature ≠ [] := by decide
  constructor
  · intro h
    unfold preflightZipDirectory at h
    cases hfind : rfind raw endSignature (raw.length - (65535 + 22)) with
    | none => simp [hfind] at h
    | some eocd =>
        obtain ⟨-, hfound, hlast⟩ := (rfind_eq_some hne).mp hfind
        simp only [hfind, whenever_eq_ok, archiveSafetyError_ne_ok, imp_false, not_or,
          not_lt, not_not, ne_eq, bind_eq_ok, exists_unit, Prod.exists] at h
        obtain ⟨-, ⟨hdisk, hcentral, hdisks⟩, hsentinel, hcomment, hmax, ⟨hends, -⟩, cursor,
          observed, hwalk, hcursor, hobserved⟩ := h
        subst hcursor hobserved
        rw [hends, walkDirectory_eq_ok (by omega) (by omega)] at hwalk
        obtain ⟨headers, hheaders, htiles, hlength, -⟩ := hwalk
        rw [Nat.zero_add] at hlength
        exact ⟨eocd, headers, ⟨hfound, hlast, hcomment, ⟨hdisk, hcentral, hdisks⟩, hlength,
          hlength ▸ hmax, hends, hheaders, htiles⟩, hsentinel⟩
  · rintro ⟨eocd, headers, h, hsentinel⟩
    have hcomment := h.comment
    have hsmall := fieldAt_lt raw (eocd + 20) 2
    have hends := h.ends
    have hfind : rfind raw endSignature (raw.length - (65535 + 22)) = some eocd :=
      (rfind_eq_some hne).mpr ⟨by omega, h.found, h.last⟩
    have hwalk : walkDirectory raw maxMembers eocd (fieldAt raw (eocd + 16) 4) 0 =
        .ok (eocd, fieldAt raw (eocd + 10) 2) := by
      refine (walkDirectory_eq_ok (by omega) (by omega)).mpr
        ⟨headers, h.wellFormed, h.tiles, by rw [Nat.zero_add, h.declared], fun _ => ?_⟩
      rw [← h.declared]
      exact h.bounded
    unfold preflightZipDirectory
    simp only [hfind, whenever_eq_ok, archiveSafetyError_ne_ok, imp_false, not_or,
      not_lt, not_not, ne_eq, bind_eq_ok, exists_unit, Prod.exists]
    refine ⟨by omega, h.singleDisk, hsentinel, hcomment, ?_, ⟨hends, by omega⟩, eocd,
      fieldAt raw (eocd + 10) 2, ?_, hends.symm, rfl⟩
    · rw [← h.declared]
      exact h.bounded
    · rw [hends]
      exact hwalk

/-! ## ZIP64 records -/

/-- `PK\x06\x06`. -/
def zip64Signature : Bytes := [0x50, 0x4B, 0x06, 0x06]

/-- `PK\x06\x07`. -/
def locatorSignature : Bytes := [0x50, 0x4B, 0x06, 0x07]

/-- A ZIP64 end record of 56 bytes, and its locator of 20, directly in front of the end record. -/
structure CarriesZip64 (raw : Bytes) (eocd : ℕ) : Prop where
  room : 76 ≤ eocd
  record : slice raw (eocd - 76) (eocd - 72) = zip64Signature
  locator : slice raw (eocd - 20) (eocd - 16) = locatorSignature

/-- The bytes in front of the directory and its headers spell the two records in fields that the
check leaves free: a locator stands at the end of the last header, which has eight bytes or more of
name, extra field and comment for it, or at the end of the data when there is no header; and the
record's signature stands 56 bytes before it. -/
def SpellsZip64 (data : Bytes) (headers : List Bytes) : Prop :=
  let front := data ++ headers.flatten
  76 ≤ front.length ∧ slice front (front.length - 76) (front.length - 72) = zip64Signature ∧
    ((headers = [] ∧ slice data (data.length - 20) (data.length - 16) = locatorSignature) ∨
      ∃ others last, headers = others ++ [last] ∧ 46 + 8 ≤ last.length ∧
        slice last (last.length - 20) (last.length - 16) = locatorSignature)

/-- A two-byte field, byte by byte. -/
lemma fieldAt_two {bytes : Bytes} {offset : ℕ} (h : offset + 1 < bytes.length) :
    fieldAt bytes offset 2 = (bytes[offset]?.getD 0).toNat +
      256 * (bytes[offset + 1]?.getD 0).toNat := by
  rw [fieldAt, slice, Nat.add_sub_cancel_left, List.drop_eq_getElem_cons (by omega),
    List.drop_eq_getElem_cons h, List.getElem?_eq_getElem (by omega), List.getElem?_eq_getElem h]
  rfl

lemma slice_four {bytes : Bytes} {offset : ℕ} {a b c d : UInt8}
    (h : slice bytes offset (offset + 4) = [a, b, c, d]) :
    bytes[offset]? = some a ∧ bytes[offset + 1]? = some b ∧ bytes[offset + 2]? = some c ∧
      bytes[offset + 3]? = some d := by
  have hat : ∀ i < 4, bytes[offset + i]? = [a, b, c, d][i]? := by
    intro i hi
    rw [← h, slice, List.getElem?_take_of_lt (by omega), List.getElem?_drop]
  exact ⟨hat 0 (by decide), hat 1 (by decide), hat 2 (by decide), hat 3 (by decide)⟩

/-- A header of fewer than eight variable bytes has no room for a locator at its end: the locator's
signature would stand in the three sizes, and make the header longer. -/
lemma IsHeader.room_of_locator {header : Bytes} (h : IsHeader header)
    (hlocator : slice header (header.length - 20) (header.length - 16) = locatorSignature) :
    46 + 8 ≤ header.length := by
  have hge := h.length_ge
  have hsize := h.size
  by_contra hshort
  obtain ⟨extra, hextra⟩ : ∃ extra, header.length = 46 + extra := ⟨header.length - 46, by omega⟩
  rw [headerSize, Nat.zero_add, Nat.zero_add, Nat.zero_add, fieldAt_two (by omega),
    fieldAt_two (by omega), fieldAt_two (by omega)] at hsize
  rw [show header.length - 16 = header.length - 20 + 4 by omega] at hlocator
  obtain ⟨h0, h1, h2, h3⟩ := slice_four hlocator
  have hlt : extra < 8 := by omega
  rw [hextra] at h0 h1 h2 h3 hsize
  interval_cases extra <;>
    (simp only [Nat.reduceAdd, Nat.reduceSub] at h0 h1 h2 h3 hsize
     simp only [h0, h1, h2, h3, Option.getD_some, UInt8.reduceToNat] at hsize
     omega)

/-- The bytes in front of the end record are the data and the headers. -/
lemma Counted.before {raw : Bytes} {maxMembers eocd : ℕ} {headers : List Bytes}
    (h : Counted raw maxMembers eocd headers) :
    raw.take (fieldAt raw (eocd + 16) 4) ++ headers.flatten = raw.take eocd := by
  have hends := h.ends
  have htiles := slice_append_slice raw (Nat.zero_le (fieldAt raw (eocd + 16) 4))
    (show fieldAt raw (eocd + 16) 4 ≤ eocd by omega)
  rw [h.tiles] at htiles
  simpa [slice] using htiles

/-- **Where a ZIP64 record can stand in an archive that passes.** -/
lemma carriesZip64_iff {raw : Bytes} {maxMembers eocd : ℕ} {headers : List Bytes}
    (h : Counted raw maxMembers eocd headers) :
    CarriesZip64 raw eocd ↔ SpellsZip64 (raw.take (fieldAt raw (eocd + 16) 4)) headers := by
  have hcomment := h.comment
  have hlength : (raw.take eocd).length = eocd := by
    rw [List.length_take]
    omega
  have hfront : ∀ start stop, stop ≤ eocd →
      slice raw start stop = slice (raw.take eocd) start stop := by
    intro start stop hstop
    conv_lhs => rw [← List.take_append_drop eocd raw]
    exact slice_append_left _ _ (by omega)
  have hrecord := hfront (eocd - 76) (eocd - 72) (by omega)
  have hlocator := hfront (eocd - 20) (eocd - 16) (by omega)
  have hbefore := h.before
  simp only [SpellsZip64, hbefore, hlength, ← hrecord]
  rcases List.eq_nil_or_concat headers with rfl | ⟨others, last, rfl⟩
  · rw [List.flatten_nil, List.append_nil] at hbefore
    rw [hbefore, hlength, ← hlocator]
    constructor
    · intro hcarries
      exact ⟨hcarries.room, hcarries.record, Or.inl ⟨rfl, hcarries.locator⟩⟩
    · rintro ⟨hroom, hrecord, ⟨-, hlocator⟩ | ⟨others, last, hnil, -⟩⟩
      · exact ⟨hroom, hrecord, hlocator⟩
      · exact absurd hnil (by simp)
  · have hlast : IsHeader last := h.wellFormed last (by simp)
    have hge := hlast.length_ge
    -- the last header reaches up to the end record
    have hsame : slice raw (eocd - 20) (eocd - 16) =
        slice last (last.length - 20) (last.length - 16) := by
      rw [hlocator, ← hbefore, List.concat_eq_append, List.flatten_concat, ← List.append_assoc,
        ← slice_append_right (raw.take (fieldAt raw (eocd + 16) 4) ++ others.flatten) last]
      rw [← hbefore, List.concat_eq_append, List.flatten_concat, ← List.append_assoc,
        List.length_append] at hlength
      congr 1 <;> omega
    constructor
    · intro hcarries
      have hspelled := hcarries.locator
      rw [hsame] at hspelled
      exact ⟨hcarries.room, hcarries.record,
        Or.inr ⟨others, last, by simp, hlast.room_of_locator hspelled, hspelled⟩⟩
    · rintro ⟨hroom, hrecord, ⟨hnil, -⟩ | ⟨others', last', heq, -, hspelled⟩⟩
      · exact absurd hnil (by simp)
      · rw [List.concat_eq_append] at heq
        obtain ⟨-, heq⟩ := List.append_inj' heq rfl
        obtain rfl := List.singleton_injective heq
        exact ⟨hroom, hrecord, by rw [hsame, hspelled]⟩

lemma Counted.unique {raw : Bytes} {maxMembers eocd eocd' : ℕ} {headers headers' : List Bytes}
    (h : Counted raw maxMembers eocd headers) (h' : Counted raw maxMembers eocd' headers') :
    eocd = eocd' := by
  rcases Nat.lt_trichotomy eocd eocd' with hlt | heq | hgt
  · exact absurd h'.found (h.last eocd' hlt)
  · exact heq
  · exact absurd h.found (h'.last eocd hgt)

/-- **Which archives that pass are counted as they will be read.**  In every archive that passes,
the directory is made up of the declared number of headers.  No ZIP64 record with its locator stands
in front of the end record exactly when the headers do not spell one. -/
theorem preflightZipDirectory_zip64_iff {raw : Bytes} {maxMembers : ℕ}
    (h : preflightZipDirectory raw maxMembers = .ok ()) :
    (∃ eocd headers, Counted raw maxMembers eocd headers ∧ ¬CarriesZip64 raw eocd) ↔
      ∀ eocd headers, Counted raw maxMembers eocd headers →
        ¬SpellsZip64 (raw.take (fieldAt raw (eocd + 16) 4)) headers := by
  obtain ⟨eocd, headers, hcounted, -⟩ := preflightZipDirectory_eq_ok.mp h
  constructor
  · rintro ⟨eocd₀, headers₀, hcounted₀, hfree⟩ eocd₁ headers₁ hcounted₁
    rw [← carriesZip64_iff hcounted₁, hcounted₁.unique hcounted₀]
    exact hfree
  · intro hall
    refine ⟨eocd, headers, hcounted, ?_⟩
    rw [carriesZip64_iff hcounted]
    exact hall eocd headers hcounted

/-- The header of a member `a` with a comment. -/
def sampleHeader (comment : Bytes) : Bytes :=
  headerSignature ++ List.replicate 24 0 ++ [1, 0, 0, 0, UInt8.ofNat comment.length, 0] ++
    List.replicate 12 0 ++ [0x61] ++ comment

/-- The directory of one member with a comment, and its end record. -/
def sampleArchive (comment : Bytes) : Bytes :=
  sampleHeader comment ++ endSignature ++
    [0, 0, 0, 0, 1, 0, 1, 0, UInt8.ofNat (47 + comment.length), 0, 0, 0, 0, 0, 0, 0, 0, 0]

/-- A ZIP64 end record and its locator. -/
def zip64Trailer : Bytes :=
  zip64Signature ++ List.replicate 52 0 ++ locatorSignature ++ List.replicate 16 0

/-- The headers counted of a sample archive, where they can be read off its bytes. -/
lemma counted_of_found {raw header : Bytes} {eocd : ℕ}
    (hfind : rfind raw endSignature 0 = some eocd) (hheader : IsHeader header)
    (hcomment : eocd + 22 + fieldAt raw (eocd + 20) 2 = raw.length)
    (hdisk : fieldAt raw (eocd + 4) 2 = 0 ∧ fieldAt raw (eocd + 6) 2 = 0 ∧
      fieldAt raw (eocd + 8) 2 = 1 ∧ fieldAt raw (eocd + 10) 2 = 1)
    (hends : fieldAt raw (eocd + 16) 4 + fieldAt raw (eocd + 12) 4 = eocd)
    (htiles : slice raw (fieldAt raw (eocd + 16) 4) eocd = header) :
    Counted raw 10 eocd [header] := by
  obtain ⟨-, hfound, hlast⟩ := (rfind_eq_some (by decide)).mp hfind
  obtain ⟨hfirst, hsecond, hhere, htotal⟩ := hdisk
  refine ⟨hfound, hlast, hcomment, ⟨hfirst, hsecond, hhere.trans htotal.symm⟩, htotal.symm,
    by simp, hends, by simpa using hheader, by simpa using htiles⟩

lemma sampleArchive_counted : Counted (sampleArchive []) 10 47 [sampleHeader []] :=
  counted_of_found (by decide) ⟨by decide, by decide⟩ (by decide) (by decide) (by decide)
    (by decide)

set_option maxRecDepth 4000 in
lemma zip64Archive_counted :
    Counted (sampleArchive zip64Trailer) 10 123 [sampleHeader zip64Trailer] :=
  counted_of_found (by decide) ⟨by decide, by decide⟩ (by decide) (by decide) (by decide)
    (by decide)

/-- A directory of one member. -/
theorem preflightZipDirectory_zip64_sample :
    preflightZipDirectory (sampleArchive []) 10 = .ok () ∧
      ((∃ eocd headers, Counted (sampleArchive []) 10 eocd headers ∧
          ¬CarriesZip64 (sampleArchive []) eocd) ↔
        ∀ eocd headers, Counted (sampleArchive []) 10 eocd headers →
          ¬SpellsZip64 ((sampleArchive []).take (fieldAt (sampleArchive []) (eocd + 16) 4))
            headers) := by
  have hok : preflightZipDirectory (sampleArchive []) 10 = .ok () :=
    preflightZipDirectory_eq_ok.mpr
      ⟨47, [sampleHeader []], sampleArchive_counted, ⟨by decide, by decide, by decide⟩⟩
  exact ⟨hok, preflightZipDirectory_zip64_iff hok⟩

/-- An archive passes whose one member has a ZIP64 end record and its locator for a comment: the
sentinel values that the check looks for are not there, and the records are. -/
theorem zip64_trailer_accepted :
    ∃ raw eocd headers, preflightZipDirectory raw 10 = .ok () ∧
      Counted raw 10 eocd headers ∧ CarriesZip64 raw eocd := by
  refine ⟨sampleArchive zip64Trailer, 123, [sampleHeader zip64Trailer], ?_, zip64Archive_counted,
    ⟨by decide, by decide, by decide⟩⟩
  exact preflightZipDirectory_eq_ok.mpr
    ⟨123, _, zip64Archive_counted, ⟨by decide, by decide, by decide⟩⟩

end QualityCI

import QualityCI.Authorization.Records
import QualityCI.Ingestion.Locators
import QualityCI.Lib.Keyed
import QualityCI.Orchestration.Legacy
import QualityCI.Replay.Operations

/-!
# The sources of a root case

A root case is built from a bundle: the manifest of the builder, the five members it names, and the
snapshot in which they were captured.  A bundle carries the checks of its constructor, as do its
members and its captures.

* `CaseSourceCapture`, `CaseSourceSnapshot`, `CaseSourceMember`, `CaseSourceBundle` — the sources.
* **`bundle_captures_exact`** — the captures are those of the manifest and of each member, once.
-/

namespace QualityCI

open Py

def sourceKinds : List String := ["JSON", "CSV", "XLSX", "DOCX"]
def snapshotKinds : List String := ["FILESYSTEM_SINGLE_SNAPSHOT", "IN_MEMORY_BUNDLE"]

/-- `DOCUMENT_TYPES`. -/
def sourceRoles : List String :=
  ["PROCESS_FLOW", "PFMEA", "CONTROL_PLAN", "SOP", "INSPECTION_RECORD"]

/-- A constructor that runs its check on the fields it is given. -/
def checkedBy {α β : Type} (check : α → Result Unit) (make : (a : α) → check a = .ok () → β)
    (a : α) : Result β :=
  match h : check a with
  | .ok () => .ok (make a h)
  | .error e => .error e

lemma checkedBy_eq_ok {α β : Type} {check : α → Result Unit}
    {make : (a : α) → check a = .ok () → β} {a : α} {b : β} :
    checkedBy check make a = .ok b ↔ ∃ h, make a h = b := by
  unfold checkedBy
  constructor
  · intro h
    split at h
    · rename_i hcheck
      exact ⟨hcheck, Except.ok.inj h⟩
    · cases h
  · rintro ⟨hcheck, rfl⟩
    split
    · rfl
    · rename_i e he
      rw [hcheck] at he
      cases he

/-! ## Paths -/

/-- `_validate_relative_source_path`. -/
def validateRelativeSourcePath (path label : String) : Result Unit := do
  sourceExactNonempty (.str path) label
  require ('\\' ∉ path.toList) s!"{label} must use canonical POSIX separators"
  require (isAbsolutePath path = false ∧ ∀ part ∈ pathParts path, part ∉ ["", ".", ".."])
    s!"{label} must be one canonical pack-relative path"
  require (asPosix path = path) s!"{label} must be one canonical pack-relative path"

/-- `name[name.rfind(".") + 1:]` of a name with a dot inside. -/
def suffixLetters (name : List Char) : List Char :=
  let letters := (name.reverse.takeWhile fun c => c ≠ '.').reverse
  if letters.length + 1 < name.length then letters else []

/-- `letter.upper()`, of the letters whose capital is one of a kind's. -/
def kindLetter (c : Char) : Char := if c = 'ſ' then 'S' else upperAscii c

/-- `Path(path).suffix.removeprefix(".").upper()`. -/
def pathKind (path : String) : String :=
  String.ofList ((suffixLetters ((pathParts path).getLast?.getD "").toList).map kindLetter)

/-! ## A snapshot -/

/-- The fields of a `CaseSourceCapture`. -/
structure CaptureFields where
  relativePath : String
  sizeBytes : ℤ
  sourceKind : String
  filesystemSafe : Bool
  deriving DecidableEq

/-- `CaseSourceCapture.__post_init__`. -/
def CaptureFields.postInit (c : CaptureFields) : Result Unit := do
  validateRelativeSourcePath c.relativePath "capture.relative_path"
  require (0 ≤ c.sizeBytes) "capture.size_bytes must be a non-negative integer"
  require (c.sourceKind ∈ sourceKinds) "capture.source_kind is unsupported"

/-- A `CaseSourceCapture`. -/
structure CaseSourceCapture extends CaptureFields where
  checked : toCaptureFields.postInit = .ok ()
  deriving DecidableEq

section Sources

variable [PyUnicode]

/-- `_normalized_path`. -/
def normalizedPath (path : String) : String := PyUnicode.casefold (PyUnicode.nfkc path)

/-- `_normalized_identity`, of the sources. -/
def sourceIdentity (value : String) : String :=
  PyUnicode.casefold (join " " (splitWords (PyUnicode.nfkc value)))

/-- The key of a capture. -/
def CaseSourceCapture.path (c : CaseSourceCapture) : String := normalizedPath c.relativePath

/-- The captures of the manifest. -/
def manifestCaptures (captures : List CaseSourceCapture) : List CaseSourceCapture :=
  captures.filter fun c => c.sourceKind = "JSON"

/-- The fields of a `CaseSourceSnapshot`; it is sealed by the loader of the file system only. -/
structure SnapshotFields where
  sourceKind : String
  captures : List CaseSourceCapture
  isSealed : Bool

/-- `CaseSourceSnapshot.__post_init__`. -/
def SnapshotFields.postInit (s : SnapshotFields) : Result Unit := do
  require (s.sourceKind ∈ snapshotKinds) "snapshot.source_kind is unsupported"
  require (s.captures.length = 6) "case source snapshot must contain exactly six captures"
  require (s.captures.map CaseSourceCapture.path).Nodup
    "snapshot capture paths have a normalized collision"
  require ((manifestCaptures s.captures).length = 1)
    "snapshot must contain exactly one JSON manifest capture"
  if s.sourceKind = "FILESYSTEM_SINGLE_SNAPSHOT" then
    require (s.isSealed = true ∧ s.captures.all (fun c => c.filesystemSafe) = true)
      "filesystem safety facts require the filesystem loader"
  else
    require (s.isSealed = false ∧ s.captures.any (fun c => c.filesystemSafe) = false)
      "in-memory snapshot captures cannot assert filesystem safety"

/-- A `CaseSourceSnapshot`. -/
structure CaseSourceSnapshot extends SnapshotFields where
  checked : toSnapshotFields.postInit = .ok ()

/-- The constructor. -/
def SnapshotFields.construct : SnapshotFields → Result CaseSourceSnapshot :=
  checkedBy SnapshotFields.postInit fun s h => ⟨s, h⟩

/-! ## The members -/

/-- A text that is the canonical text of the object it holds. -/
def IsCanonicalObject (text : String) : Prop :=
  ∃ d : Dict, loads ⟨true⟩ text = .ok (.obj d) ∧ dumps (.obj d) = .ok text

/-- The fields of a `CaseSourceMember`. -/
structure SourceMemberFields where
  documentType : String
  sourceId : String
  sourcePath : String
  sourceKind : String
  rawBytes : Bytes
  declaredTableSelectorJson : Option String
  deriving DecidableEq

/-- The selector, in `CaseSourceMember.__post_init__`. -/
def checkSelector : Option String → Result Unit
  | none => .ok ()
  | some text => do
      let selector ← loads ⟨true⟩ text
      match selector with
      | .obj d => do
          let canonical ← dumps (.obj d)
          require (canonical = text) "declared table selector JSON is not canonical"
      | _ => valueError "declared table selector must be an object"

/-- `CaseSourceMember.__post_init__`. -/
def SourceMemberFields.postInit (m : SourceMemberFields) : Result Unit := do
  require (m.documentType ∈ sourceRoles) "case source member document_type is unsupported"
  sourceExactNonempty (.str m.sourceId) "member.source_id"
  validateRelativeSourcePath m.sourcePath "member.source_path"
  require (m.sourceKind ∈ ["CSV", "XLSX", "DOCX"]) "case source member source_kind is unsupported"
  require (m.sourceKind = pathKind m.sourcePath) "case source member kind differs from its path"
  checkSelector m.declaredTableSelectorJson

/-- A `CaseSourceMember`. -/
structure CaseSourceMember extends SourceMemberFields where
  checked : toSourceMemberFields.postInit = .ok ()
  deriving DecidableEq

/-- The constructor. -/
def SourceMemberFields.construct : SourceMemberFields → Result CaseSourceMember :=
  checkedBy SourceMemberFields.postInit fun m h => ⟨m, h⟩

/-- The key of a member's capture. -/
def CaseSourceMember.path (m : CaseSourceMember) : String := normalizedPath m.sourcePath

/-! ## A bundle -/

/-- The fields of a `CaseSourceBundle`. -/
structure BundleFields where
  manifestBytes : Bytes
  members : List CaseSourceMember
  snapshot : CaseSourceSnapshot
  contractVersion : String

/-- One member, in the last loop of `CaseSourceBundle.__post_init__`. -/
def checkCapture (captures : List CaseSourceCapture) (m : CaseSourceMember) : Result Unit :=
  match Keyed.lookup CaseSourceCapture.path captures m.path with
  | none => keyError m.path
  | some capture => do
      require (capture.sizeBytes = m.rawBytes.length)
        "member capture size differs from owned bytes"
      require (capture.sourceKind = m.sourceKind) "member capture kind differs from owned member"

/-- The captures, in `CaseSourceBundle.__post_init__`. -/
def BundleFields.checkCaptures (b : BundleFields) : Result Unit :=
  match manifestCaptures b.snapshot.captures with
  | [] => .error ⟨.indexError, "list index out of range"⟩
  | manifest :: _ => do
      let paths := (b.snapshot.captures.map CaseSourceCapture.path).filter (· ≠ manifest.path)
      require (SameMembers paths (b.members.map CaseSourceMember.path))
        "snapshot capture set differs from manifest plus five members"
      require (manifest.sizeBytes = b.manifestBytes.length)
        "manifest capture size differs from owned bytes"
      forEach (checkCapture b.snapshot.captures) b.members

/-- `CaseSourceBundle.__post_init__`. -/
def BundleFields.postInit (b : BundleFields) : Result Unit := do
  let roles := b.members.map fun m => m.documentType
  require (b.members.length = sourceRoles.length)
    "case source bundle must contain exactly five members"
  require (b.contractVersion = sourcePackVersion) "unsupported case source pack contract version"
  require (roles.dedup.length = sourceRoles.length ∧ SameMembers roles sourceRoles)
    "case source bundle repeats or omits a document role"
  require (roles = sourceRoles) "case source members must use the canonical role order"
  require (b.members.map fun m => sourceIdentity m.sourceId).Nodup
    "case source bundle has a normalized source_id collision"
  require (b.members.map CaseSourceMember.path).Nodup
    "case source bundle has a normalized source_path collision"
  require (b.members.map fun m => sha256Bytes m.rawBytes).Nodup
    "case source bundle has a normalized raw member bytes collision"
  b.checkCaptures

/-- A `CaseSourceBundle`. -/
structure CaseSourceBundle extends BundleFields where
  checked : toBundleFields.postInit = .ok ()

/-- The constructor. -/
def BundleFields.construct : BundleFields → Result CaseSourceBundle :=
  checkedBy BundleFields.postInit fun b h => ⟨b, h⟩

/-! ## Nothing captured in vain -/

/-- A capture is that of a member. -/
structure CaptureOf (m : CaseSourceMember) (c : CaseSourceCapture) : Prop where
  path : c.path = m.path
  size : c.sizeBytes = m.rawBytes.length
  kind : c.sourceKind = m.sourceKind

lemma checkCapture_eq_ok {captures : List CaseSourceCapture} {m : CaseSourceMember} {u : Unit} :
    checkCapture captures m = .ok u ↔
      ∃ c, Keyed.lookup CaseSourceCapture.path captures m.path = some c ∧ CaptureOf m c := by
  rw [checkCapture]
  cases hlookup : Keyed.lookup CaseSourceCapture.path captures m.path with
  | none => simp
  | some c =>
      simp only [seq_eq_ok, require_eq_ok, Option.some.injEq, exists_eq_left']
      exact ⟨fun h => ⟨(Keyed.mem_of_lookup hlookup).2, h.1, h.2⟩, fun h => ⟨h.size, h.kind⟩⟩

lemma checkCaptures_eq_ok {b : BundleFields} {u : Unit} (h : b.checkCaptures = .ok u)
    (hone : (manifestCaptures b.snapshot.captures).length = 1) :
    ∃ (manifest : CaseSourceCapture) (captures : List CaseSourceCapture),
      manifestCaptures b.snapshot.captures = [manifest] ∧
      manifest.sizeBytes = b.manifestBytes.length ∧
      SameMembers ((b.snapshot.captures.map CaseSourceCapture.path).filter (· ≠ manifest.path))
        (b.members.map CaseSourceMember.path) ∧
      List.Forall₂ (fun m c => m ∈ b.members ∧ CaptureOf m c ∧
        Keyed.lookup CaseSourceCapture.path b.snapshot.captures m.path = some c)
        b.members captures := by
  obtain ⟨manifest, hmanifest⟩ := List.length_eq_one_iff.mp hone
  rw [BundleFields.checkCaptures, hmanifest] at h
  simp only [seq_eq_ok, require_eq_ok, forEach_eq_ok, checkCapture_eq_ok] at h
  obtain ⟨hsame, hsize, hall⟩ := h
  have hfound : ∀ members : List CaseSourceMember, (∀ m ∈ members, m ∈ b.members) →
      ∃ captures, List.Forall₂ (fun m c => m ∈ b.members ∧ CaptureOf m c ∧
        Keyed.lookup CaseSourceCapture.path b.snapshot.captures m.path = some c)
        members captures := by
    intro members
    induction members with
    | nil => exact fun _ => ⟨[], .nil⟩
    | cons m rest ih =>
        intro hin
        have hm := hin m List.mem_cons_self
        obtain ⟨c, hlookup, hc⟩ := hall m hm
        obtain ⟨captures, hrest⟩ := ih fun x hx => hin x (List.mem_cons_of_mem _ hx)
        exact ⟨c :: captures, .cons ⟨hm, hc, hlookup⟩ hrest⟩
  obtain ⟨captures, hcaptures⟩ := hfound b.members fun m hm => hm
  exact ⟨manifest, captures, hmanifest, hsize, hsame, hcaptures⟩

lemma captureSizes {members : List CaseSourceMember} {captures : List CaseSourceCapture}
    (h : List.Forall₂ CaptureOf members captures) :
    (captures.map fun c => c.sizeBytes) = members.map fun m => (m.rawBytes.length : ℤ) := by
  induction h with
  | nil => rfl
  | cons h _ ih => rw [List.map_cons, List.map_cons, h.size, ih]

/-- **The captures of a bundle** are the one of its manifest and one of each member: nothing else
was read, and no member was read twice. -/
theorem bundle_captures_exact (b : CaseSourceBundle) :
    ∃ (manifest : CaseSourceCapture) (captures : List CaseSourceCapture),
      b.snapshot.captures.Perm (manifest :: captures) ∧ manifest.sourceKind = "JSON" ∧
      manifest.sizeBytes = b.manifestBytes.length ∧
      List.Forall₂ CaptureOf b.members captures ∧
      (b.snapshot.captures.map fun c => c.sizeBytes).sum =
        b.manifestBytes.length + (b.members.map fun m => (m.rawBytes.length : ℤ)).sum := by
  have hsnapshot := b.snapshot.checked
  have hbundle := b.checked
  simp only [SnapshotFields.postInit, seq_eq_ok, require_eq_ok] at hsnapshot
  simp only [BundleFields.postInit, seq_eq_ok, require_eq_ok] at hbundle
  obtain ⟨-, -, hpaths, hone, -⟩ := hsnapshot
  obtain ⟨-, -, -, -, -, hmembers, -, hcheck⟩ := hbundle
  obtain ⟨manifest, captures, hmanifest, hsize, hsame, hcaptures⟩ := checkCaptures_eq_ok hcheck hone
  have hin : manifest ∈ b.snapshot.captures ∧ manifest.sourceKind = "JSON" := by
    have hmem : manifest ∈ manifestCaptures b.snapshot.captures := hmanifest ▸ List.mem_cons_self
    simpa [manifestCaptures] using hmem
  have hsplit : b.snapshot.captures.Perm (manifest :: b.snapshot.captures.erase manifest) :=
    List.perm_cons_erase hin.1
  -- the captures but the manifest's are those of the members
  have hkeys := (hsplit.map CaseSourceCapture.path).nodup_iff.mp hpaths
  rw [List.map_cons, List.nodup_cons] at hkeys
  have hpath : ∀ k, k ∈ b.members.map CaseSourceMember.path ↔
      k ∈ (b.snapshot.captures.erase manifest).map CaseSourceCapture.path := by
    intro k
    have hsides : k ∈ b.members.map CaseSourceMember.path ↔
        k ∈ b.snapshot.captures.map CaseSourceCapture.path ∧ k ≠ manifest.path :=
      ⟨fun h => by simpa using List.mem_filter.mp (hsame.2 k h),
        fun h => hsame.1 k (List.mem_filter.mpr (by simpa using h))⟩
    rw [hsides, (hsplit.map CaseSourceCapture.path).mem_iff, List.map_cons, List.mem_cons]
    refine ⟨fun h => h.1.resolve_left h.2, fun h => ⟨Or.inr h, ?_⟩⟩
    rintro rfl
    exact hkeys.1 h
  have hothers : captures.Perm (b.snapshot.captures.erase manifest) := by
    refine Keyed.perm_of_lookup hkeys.2 hmembers hpath ?_
    rw [List.forall₂_map_left_iff]
    refine hcaptures.imp fun m c h => ?_
    obtain ⟨hm, hc, hlookup⟩ := h
    have hne : c ≠ manifest := by
      rintro rfl
      exact hkeys.1 (hc.path ▸ (hpath m.path).mp (List.mem_map_of_mem hm))
    refine (Keyed.lookup_eq_some_iff hkeys.2).mpr ⟨?_, hc.path⟩
    exact (List.mem_erase_of_ne hne).mpr (Keyed.mem_of_lookup hlookup).1
  have hof : List.Forall₂ CaptureOf b.members captures := hcaptures.imp fun m c h => h.2.1
  have hsizes := captureSizes hof
  refine ⟨manifest, captures, hsplit.trans (hothers.symm.cons manifest), hin.2, hsize, hof, ?_⟩
  rw [((hsplit.trans (hothers.symm.cons manifest)).map _).sum_eq, List.map_cons, List.sum_cons,
    hsize, hsizes]

end Sources

end QualityCI

import QualityCI.Ingestion.Errors
import QualityCI.Lib.PosixPath

/-!
# The names of archive members

An office document is a ZIP archive, and every name in it is brought into one form before the
archive's members are compared, read or related to each other.  The checks are made on the name as
it stands in the archive, and the form is made afterwards.

* `normalizeMemberName`, `resolveArchiveTarget` — the check, and the name a relationship points to.
* `IsNormalForm` — what a name in that form is.
* **`normalizeMemberName_eq_ok`** — the names accepted, and the name each becomes.
* `normalizeMemberName_isNormalForm_iff` — a leading `./` hides a drive prefix from the check; the
  result is a normal form exactly when there was none to hide.
-/

namespace QualityCI

open Py

/-- `name.replace("\\", "/")`. -/
def forwardSlashes (name : String) : String :=
  String.ofList (name.toList.map fun c => if c = '\\' then '/' else c)

/-- `re.match(r"^[A-Za-z]:", text)`. -/
def hasDrive (text : String) : Bool :=
  match text.toList with
  | letter :: colon :: _ =>
      colon = ':' && (('A' ≤ letter && letter ≤ 'Z') || ('a' ≤ letter && letter ≤ 'z'))
  | _ => false

/-- `_normalize_member_name`. -/
def normalizeMemberName (name : String) : Result String := do
  whenever (name = "" ∨ '\x00' ∈ name.toList)
    (archiveSafetyError "archive member has an empty or NUL-containing name")
  let replaced := forwardSlashes name
  whenever (isAbsolutePath replaced ∨ hasDrive replaced)
    (archiveSafetyError s!"archive member has an absolute path: {name}")
  let rawParts := pathParts replaced
  whenever (".." ∈ rawParts)
    (archiveSafetyError s!"archive member contains path traversal: {name}")
  let normalized := normpath replaced
  let parts := pathParts normalized
  whenever (normalized = "." ∨ normalized = ".." ∨ ".." ∈ parts)
    (archiveSafetyError s!"archive member escapes its container: {name}")
  pure (if normalized.toList.getLast? = some '/' then rstripSlashes normalized else normalized)

/-- `_resolve_archive_target`. -/
def resolveArchiveTarget (baseMember target : String) : Result String :=
  let target := forwardSlashes target
  let candidate :=
    if isAbsolutePath target then String.ofList (target.toList.dropWhile (· = '/'))
    else joinPath (dirname baseMember) target
  normalizeMemberName candidate

/-- A member name in normal form. -/
structure IsNormalForm (name : String) : Prop where
  relative : isAbsolutePath name = false
  noDrive : hasDrive name = false
  components : ∀ part ∈ pieces name, part ≠ "" ∧ part ≠ "." ∧ part ≠ ".."
  noBackslash : '\\' ∉ name.toList
  noNul : '\x00' ∉ name.toList
  fixed : normalizeMemberName name = .ok name

/-! ## What is accepted -/

lemma forwardSlashes_chars {name : String} {c : Char} (h : c ∈ (forwardSlashes name).toList) :
    c ≠ '\\' ∧ (c = '/' ∨ c ∈ name.toList) := by
  rw [forwardSlashes, String.toList_ofList, List.mem_map] at h
  obtain ⟨d, hd, rfl⟩ := h
  split_ifs with hback
  · exact ⟨by decide, Or.inl rfl⟩
  · exact ⟨hback, Or.inr hd⟩

lemma forwardSlashes_eq_self {name : String} (h : '\\' ∉ name.toList) :
    forwardSlashes name = name := by
  apply String.toList_injective
  rw [forwardSlashes, String.toList_ofList]
  refine List.map_congr_left (g := id) (fun c hc => ?_) |>.trans (List.map_id _)
  rw [if_neg]
  · rfl
  · rintro rfl
    exact h hc

/-- The parts of a member name, which the normal form is made of. -/
def memberParts (name : String) : List String := pathParts (forwardSlashes name)

lemma memberParts_chars {name part : String} (h : part ∈ memberParts name) :
    part ≠ "" ∧ part ≠ "." ∧ ∀ c ∈ part.toList, c ∈ name.toList ∧ c ≠ '/' ∧ c ≠ '\\' := by
  obtain ⟨hpiece, hempty, hdot⟩ := mem_pathParts.mp h
  refine ⟨hempty, hdot, fun c hc => ?_⟩
  obtain ⟨hmem, hslash⟩ := pieces_chars hpiece c hc
  obtain ⟨hback, hfrom⟩ := forwardSlashes_chars hmem
  exact ⟨hfrom.resolve_left hslash, hslash, hback⟩

/-- A joined list of parts does not end in a slash. -/
lemma getLast_join {parts : List String} (hne : parts ≠ [])
    (h : ∀ part ∈ parts, part ≠ "" ∧ '/' ∉ part.toList) :
    (join "/" parts).toList.getLast? ≠ some '/' := by
  intro hlast
  have hmem : "" ∈ pieces (join "/" parts) := by
    obtain ⟨front, hfront⟩ := List.getLast?_eq_some_iff.mp hlast
    rw [pieces_eq, hfront]
    simp [List.splitOn_append_cons_self]
  rw [pieces_join hne fun part hpart => (h part hpart).2] at hmem
  exact (h "" hmem).1 rfl

/-- The parts of a list make a dot only where one of them is a dot or there is none. -/
lemma join_ne_dots {parts : List String} (hne : parts ≠ [])
    (h : ∀ part ∈ parts, part ≠ "." ∧ part ≠ ".." ∧ '/' ∉ part.toList) :
    join "/" parts ≠ "." ∧ join "/" parts ≠ ".." := by
  have hpieces := pieces_join hne fun part hpart => (h part hpart).2.2
  constructor
  · intro hdot
    rw [hdot] at hpieces
    exact (h "." (by rw [← hpieces]; decide)).1 rfl
  · intro hdots
    rw [hdots] at hpieces
    exact (h ".." (by rw [← hpieces]; decide)).2.1 rfl

/-- The normal form of a name without `..` that has some part. -/
lemma normpath_forwardSlashes {name : String} (habs : isAbsolutePath (forwardSlashes name) = false)
    (hup : ".." ∉ memberParts name) (hparts : memberParts name ≠ []) :
    normpath (forwardSlashes name) = join "/" (memberParts name) := by
  rw [normpath_relative habs hup, asPosix]
  exact if_neg hparts

/-- **The names accepted**: not empty, free of NUL, neither absolute nor under a drive as they
stand, without `..`, and with some part.  The name becomes its parts, joined. -/
theorem normalizeMemberName_eq_ok {name n : String} :
    normalizeMemberName name = .ok n ↔
      name ≠ "" ∧ '\x00' ∉ name.toList ∧ isAbsolutePath (forwardSlashes name) = false ∧
        hasDrive (forwardSlashes name) = false ∧ ".." ∉ memberParts name ∧
        memberParts name ≠ [] ∧ n = join "/" (memberParts name) := by
  simp only [normalizeMemberName, seq_eq_ok, whenever_eq_ok, archiveSafetyError_ne_ok,
    imp_false, not_or, pure_eq_ok, Bool.not_eq_true]
  rw [← memberParts]
  constructor
  · rintro ⟨⟨hne, hnul⟩, ⟨habs, hdrive⟩, hup, ⟨hdot, -, -⟩, rfl⟩
    have hparts : memberParts name ≠ [] := by
      intro hnil
      refine hdot ?_
      rw [normpath_relative habs hup, asPosix]
      exact if_pos hnil
    rw [normpath_forwardSlashes habs hup hparts]
    refine ⟨hne, hnul, habs, hdrive, hup, hparts, ?_⟩
    rw [if_neg]
    refine getLast_join hparts fun part hpart => ?_
    obtain ⟨hempty, -, hchars⟩ := memberParts_chars hpart
    exact ⟨hempty, fun hslash => (hchars '/' hslash).2.1 rfl⟩
  · rintro ⟨hne, hnul, habs, hdrive, hup, hparts, rfl⟩
    have hplain : ∀ part ∈ memberParts name, part ≠ "" ∧ part ≠ "." ∧ part ≠ ".." ∧
        '/' ∉ part.toList := by
      intro part hpart
      obtain ⟨hempty, hdot, hchars⟩ := memberParts_chars hpart
      refine ⟨hempty, hdot, ?_, fun hslash => (hchars '/' hslash).2.1 rfl⟩
      rintro rfl
      exact hup hpart
    rw [normpath_forwardSlashes habs hup hparts]
    obtain ⟨hdot, hdots⟩ := join_ne_dots hparts fun part hpart => (hplain part hpart).2
    have hagain : pathParts (join "/" (memberParts name)) = memberParts name :=
      (pathParts_join hparts).2
    refine ⟨⟨hne, hnul⟩, ⟨habs, hdrive⟩, hup, ⟨hdot, hdots, by rwa [hagain]⟩, ?_⟩
    rw [if_neg]
    exact getLast_join hparts fun part hpart => ⟨(hplain part hpart).1, (hplain part hpart).2.2.2⟩

/-! ## What the accepted names become -/

/-- A drive prefix of a path stands in its first part. -/
lemma hasDrive_join {part : String} {rest : List String} (hempty : part ≠ "") :
    hasDrive (join "/" (part :: rest)) = hasDrive part := by
  obtain ⟨tail, htail, hslash⟩ := join_cons_toList part rest
  rw [hasDrive, htail, hasDrive]
  match hpart : part.toList with
  | [] => exact absurd (String.toList_injective hpart) hempty
  | [letter] =>
      rcases hslash with rfl | hhead
      · rfl
      · cases tail with
        | nil => rfl
        | cons c tail =>
            obtain rfl : c = '/' := by simpa using hhead
            rfl
  | letter :: c :: cs => rfl

lemma isAbsolutePath_join {part : String} {rest : List String} (hempty : part ≠ "")
    (hslash : '/' ∉ part.toList) : isAbsolutePath (join "/" (part :: rest)) = false := by
  obtain ⟨tail, htail, -⟩ := join_cons_toList part rest
  rw [isAbsolutePath, htail]
  match hpart : part.toList with
  | [] => exact absurd (String.toList_injective hpart) hempty
  | c :: cs =>
      have hc : c ≠ '/' := by
        rintro rfl
        exact hslash (by rw [hpart]; exact List.mem_cons_self)
      simpa using hc

lemma join_chars {parts : List String} {c : Char} (h : c ∈ (join "/" parts).toList) :
    c = '/' ∨ ∃ part ∈ parts, c ∈ part.toList := by
  induction parts with
  | nil => simp [join] at h
  | cons part rest ih =>
      rw [toList_join] at h
      cases rest with
      | nil => exact Or.inr ⟨part, List.mem_cons_self, by simpa using h⟩
      | cons next rest =>
          simp only [List.map_cons, List.intercalate_cons_cons, List.mem_append] at h
          rcases h with (hin | hsep) | hrest
          · exact Or.inr ⟨part, List.mem_cons_self, hin⟩
          · exact Or.inl (List.mem_singleton.mp hsep)
          · rcases ih (by rwa [toList_join, List.map_cons]) with hsep | ⟨q, hq, hin⟩
            · exact Or.inl hsep
            · exact Or.inr ⟨q, List.mem_cons_of_mem part hq, hin⟩

/-- What an accepted name becomes is a normal form but for the drive prefix it may begin with. -/
lemma isNormalForm_iff_noDrive {name n : String} (h : normalizeMemberName name = .ok n) :
    IsNormalForm n ↔ hasDrive n = false := by
  obtain ⟨hne, hnul, habs, hdrive, hup, hparts, rfl⟩ := normalizeMemberName_eq_ok.mp h
  refine ⟨fun hnormal => hnormal.noDrive, fun hclear => ?_⟩
  have hchars : ∀ c ∈ (join "/" (memberParts name)).toList,
      c = '/' ∨ (c ∈ name.toList ∧ c ≠ '\\') := by
    intro c hc
    refine (join_chars hc).imp_right ?_
    rintro ⟨part, hpart, hin⟩
    obtain ⟨-, -, hfrom⟩ := memberParts_chars hpart
    exact ⟨(hfrom c hin).1, (hfrom c hin).2.2⟩
  have hback : '\\' ∉ (join "/" (memberParts name)).toList := by
    intro hmem
    rcases hchars _ hmem with hslash | ⟨-, hself⟩
    · exact absurd hslash (by decide)
    · exact hself rfl
  have hnull : '\x00' ∉ (join "/" (memberParts name)).toList := by
    intro hmem
    rcases hchars _ hmem with hslash | ⟨hin, -⟩
    · exact absurd hslash (by decide)
    · exact hnul hin
  have hrel : isAbsolutePath (join "/" (memberParts name)) = false := by
    obtain ⟨first, rest, hcons⟩ := List.exists_cons_of_ne_nil hparts
    obtain ⟨hempty, -, hfirst⟩ := memberParts_chars (hcons ▸ List.mem_cons_self : first ∈ _)
    rw [hcons]
    exact isAbsolutePath_join hempty fun hslash => (hfirst '/' hslash).2.1 rfl
  obtain ⟨hpieces, hagain⟩ := pathParts_join hparts
  have hforward := forwardSlashes_eq_self hback
  have hself : memberParts (join "/" (memberParts name)) = memberParts name := by
    rw [memberParts, hforward]
    exact hagain
  refine ⟨hrel, hclear, ?_, hback, hnull, normalizeMemberName_eq_ok.mpr ?_⟩
  · intro part hpart
    have hin : part ∈ memberParts name := by
      rw [memberParts, ← hpieces]
      exact hpart
    obtain ⟨hpart, hdot, -⟩ := memberParts_chars hin
    refine ⟨hpart, hdot, ?_⟩
    rintro rfl
    exact hup hin
  · rw [hself, hforward]
    refine ⟨?_, hnull, hrel, hclear, hup, hparts, rfl⟩
    exact join_ne_empty hparts fun part hpart => (memberParts_chars hpart).1

/-- **Which names become normal forms.**  The checks are made on the name as it stands, and the
drive prefix that a leading `./` hides from them is what the result then begins with: a name that
is accepted becomes a normal form exactly when its first part has no drive prefix. -/
theorem normalizeMemberName_isNormalForm_iff {name n : String}
    (h : normalizeMemberName name = .ok n) :
    IsNormalForm n ↔
      ∀ first ∈ (pathParts (forwardSlashes name)).head?, hasDrive first = false := by
  rw [isNormalForm_iff_noDrive h]
  obtain ⟨-, -, -, -, -, hparts, rfl⟩ := normalizeMemberName_eq_ok.mp h
  obtain ⟨first, rest, hcons⟩ := List.exists_cons_of_ne_nil hparts
  obtain ⟨hempty, -, -⟩ := memberParts_chars (hcons ▸ List.mem_cons_self : first ∈ _)
  have hsame : hasDrive (join "/" (memberParts name)) = hasDrive first := by
    rw [hcons, hasDrive_join hempty]
  rw [hsame, show pathParts (forwardSlashes name) = first :: rest from hcons]
  simp

/-- A name written with both kinds of slash becomes a normal form. -/
theorem normalizeMemberName_isNormalForm_sample :
    normalizeMemberName "xl/./worksheets\\sheet1.xml" = .ok "xl/worksheets/sheet1.xml" ∧
      IsNormalForm "xl/worksheets/sheet1.xml" := by
  have hok : normalizeMemberName "xl/./worksheets\\sheet1.xml" =
      .ok "xl/worksheets/sheet1.xml" := by decide
  exact ⟨hok, (normalizeMemberName_isNormalForm_iff hok).mpr (by decide)⟩

/-- The name `./C:/x` passes the check for a drive prefix, and what it becomes has one and is itself
refused. -/
theorem hidden_drive_accepted :
    ∃ name n, normalizeMemberName name = .ok n ∧ hasDrive n = true ∧ ¬IsNormalForm n := by
  refine ⟨"./C:/x", "C:/x", by decide, by decide, ?_⟩
  intro hnormal
  exact absurd hnormal.noDrive (by decide)

/-- The name a relationship points to is one that a member can have: the same form, with the same
exception. -/
theorem resolveArchiveTarget_isNormalForm_iff {baseMember target n : String}
    (h : resolveArchiveTarget baseMember target = .ok n) :
    IsNormalForm n ↔ hasDrive n = false :=
  isNormalForm_iff_noDrive h

end QualityCI

import QualityCI.Lib.PyText

/-!
# POSIX paths

`posixpath` over the pieces of a path between its slashes.

* `pieces` — `path.split("/")`.
* `normpath` — `posixpath.normpath`, with its loop over the pieces.
* `dirname`, `joinPath` — `posixpath.dirname` and `posixpath.join`.
* **`pieces_join`** — the pieces of a joined path.
* **`normpath_relative`** — on a relative path without `..` the normal form is the path's parts.
-/

namespace Py

/-- `path.split("/")`. -/
def pieces (path : String) : List String := (splitSlashes path.toList []).map String.ofList

/-- The number of slashes in front that `posixpath.normpath` keeps: two stay two, and any other run
becomes one. -/
def initialSlashes : List Char → ℕ
  | '/' :: '/' :: '/' :: _ => 1
  | '/' :: '/' :: _ => 2
  | '/' :: _ => 1
  | _ => 0

/-- The loop of `posixpath.normpath`, `met` being the pieces it has kept, the last one first. -/
def normPieces (slashes : ℕ) : List String → List String → List String
  | met, [] => met.reverse
  | met, piece :: rest =>
      if piece = "" ∨ piece = "." then normPieces slashes met rest
      else if piece ≠ ".." ∨ (slashes = 0 ∧ met = []) ∨ met.head? = some ".." then
        normPieces slashes (piece :: met) rest
      else normPieces slashes met.tail rest

/-- `posixpath.normpath(path)`. -/
def normpath (path : String) : String :=
  let slashes := initialSlashes path.toList
  let normal := String.ofList (List.replicate slashes '/') ++
    join "/" (normPieces slashes [] (pieces path))
  if normal = "" then "." else normal

/-- `text.rstrip("/")`. -/
def rstripSlashes (text : String) : String :=
  String.ofList (text.toList.reverse.dropWhile (· = '/')).reverse

/-- `posixpath.dirname(path)`: what stands before the last slash, and no slashes at its end unless
it is all slashes. -/
def dirname (path : String) : String :=
  let head := String.ofList (path.toList.reverse.dropWhile (· ≠ '/')).reverse
  if head.toList.all (· = '/') then head else rstripSlashes head

/-- `posixpath.join(base, path)`. -/
def joinPath (base path : String) : String :=
  if isAbsolutePath path then path
  else if base = "" ∨ base.toList.getLast? = some '/' then base ++ path
  else base ++ "/" ++ path

/-! ## A path and its pieces -/

lemma splitSlashes_eq (cs piece : List Char) :
    splitSlashes cs piece = cs.splitOnPPrepend (· == '/') piece := by
  induction cs generalizing piece with
  | nil => rfl
  | cons c cs ih =>
      rw [splitSlashes, List.splitOnPPrepend_cons_eq_if, ih, ih, List.splitOnPPrepend_nil_right]
      simp

lemma pieces_eq (path : String) : pieces path = (path.toList.splitOn '/').map String.ofList := by
  rw [pieces, splitSlashes_eq, List.splitOnPPrepend_nil_right, List.splitOn_eq_splitOnP]

lemma toList_join (parts : List String) :
    (join "/" parts).toList = ['/'].intercalate (parts.map String.toList) := by
  rw [join, String.toList_intercalate]
  rfl

/-- The pieces are made of the path's characters, and no slash is among them. -/
lemma splitSlashes_chars {cs piece : List Char} :
    ∀ part ∈ splitSlashes cs piece, ∀ c ∈ part, c ∈ piece ∨ (c ∈ cs ∧ c ≠ '/') := by
  induction cs generalizing piece with
  | nil =>
      intro part hpart c hc
      rw [splitSlashes, List.mem_singleton] at hpart
      subst hpart
      exact Or.inl (List.mem_reverse.mp hc)
  | cons d cs ih =>
      intro part hpart c hc
      rw [splitSlashes] at hpart
      split_ifs at hpart with hslash
      · rcases List.mem_cons.mp hpart with rfl | hin
        · exact Or.inl (List.mem_reverse.mp hc)
        · rcases ih part hin c hc with hnil | ⟨hmem, hne⟩
          · simp at hnil
          · exact Or.inr ⟨List.mem_cons_of_mem d hmem, hne⟩
      · rcases ih part hpart c hc with hmem | ⟨hmem, hne⟩
        · rcases List.mem_cons.mp hmem with rfl | hin
          · exact Or.inr ⟨List.mem_cons_self, hslash⟩
          · exact Or.inl hin
        · exact Or.inr ⟨List.mem_cons_of_mem d hmem, hne⟩

lemma pieces_chars {path part : String} (h : part ∈ pieces path) :
    ∀ c ∈ part.toList, c ∈ path.toList ∧ c ≠ '/' := by
  rw [pieces, List.mem_map] at h
  obtain ⟨cs, hcs, rfl⟩ := h
  intro c hc
  rw [String.toList_ofList] at hc
  simpa using splitSlashes_chars cs hcs c hc

/-- **Pieces without slashes are the pieces of the path they spell.** -/
theorem pieces_join {parts : List String} (hne : parts ≠ [])
    (h : ∀ part ∈ parts, '/' ∉ part.toList) : pieces (join "/" parts) = parts := by
  rw [pieces_eq, toList_join, List.splitOn_intercalate '/', List.map_map]
  · simp [Function.comp_def]
  · simpa using h
  · simpa using hne

/-! ## Relative paths without `..` -/

lemma pathParts_eq (path : String) :
    pathParts path = (pieces path).filter fun part => part ≠ "" && part ≠ "." := rfl

lemma mem_pathParts {path part : String} :
    part ∈ pathParts path ↔ part ∈ pieces path ∧ part ≠ "" ∧ part ≠ "." := by
  simp [pathParts_eq]

/-- Without `..` the loop drops the empty pieces and the single dots, and nothing else. -/
lemma normPieces_of_notMem (slashes : ℕ) {met comps : List String} (h : ".." ∉ comps) :
    normPieces slashes met comps =
      met.reverse ++ comps.filter fun part => part ≠ "" && part ≠ "." := by
  induction comps generalizing met with
  | nil => simp [normPieces]
  | cons comp comps ih =>
      rw [List.mem_cons, not_or] at h
      have hne : comp ≠ ".." := fun heq => h.1 heq.symm
      rw [normPieces]
      split_ifs with hskip hkeep
      · rw [ih h.2, List.filter_cons_of_neg]
        rcases hskip with rfl | rfl
        · simp
        · simp
      · rw [not_or] at hskip
        rw [ih h.2, List.filter_cons_of_pos]
        · simp
        · simpa using hskip
      · exact absurd (Or.inl hne) hkeep

lemma initialSlashes_relative {path : String} (h : isAbsolutePath path = false) :
    initialSlashes path.toList = 0 := by
  unfold isAbsolutePath at h
  match hcs : path.toList with
  | [] => rfl
  | c :: cs =>
      have hc : c ≠ '/' := by simpa [hcs] using h
      unfold initialSlashes
      split
      · simp_all
      · simp_all
      · simp_all
      · rfl

lemma join_cons_toList (part : String) (rest : List String) :
    ∃ tail, (join "/" (part :: rest)).toList = part.toList ++ tail ∧
      (tail = [] ∨ tail.head? = some '/') := by
  rw [toList_join]
  cases rest with
  | nil => exact ⟨[], by simp, Or.inl rfl⟩
  | cons next rest =>
      refine ⟨'/' :: ['/'].intercalate ((next :: rest).map String.toList), ?_, Or.inr rfl⟩
      simp [List.intercalate_cons_cons]

lemma join_ne_empty {parts : List String} (hne : parts ≠ []) (h : ∀ part ∈ parts, part ≠ "") :
    join "/" parts ≠ "" := by
  cases parts with
  | nil => exact absurd rfl hne
  | cons part rest =>
      intro hempty
      obtain ⟨tail, htail, -⟩ := join_cons_toList part rest
      rw [hempty] at htail
      have hpart : part.toList = [] := (List.append_eq_nil_iff.mp htail.symm).1
      exact h part List.mem_cons_self (String.toList_injective hpart)

/-- **The normal form of a relative path without `..`** is its parts, or a dot when it has none. -/
theorem normpath_relative {path : String} (hrel : isAbsolutePath path = false)
    (h : ".." ∉ pathParts path) : normpath path = asPosix path := by
  have hpieces : ".." ∉ pieces path := by
    intro hmem
    exact h (mem_pathParts.mpr ⟨hmem, by decide, by decide⟩)
  have hnorm : normPieces 0 [] (pieces path) = pathParts path := by
    rw [normPieces_of_notMem 0 hpieces, pathParts_eq, List.reverse_nil, List.nil_append]
  simp only [normpath, initialSlashes_relative hrel, hnorm, asPosix]
  by_cases hnil : pathParts path = []
  · simp [hnil, join]
  · have hparts : join "/" (pathParts path) ≠ "" :=
      join_ne_empty hnil fun part hpart => (mem_pathParts.mp hpart).2.1
    simp [hnil, hparts]

/-- A relative path's parts, joined, are its parts again. -/
lemma pathParts_join {path : String} (hne : pathParts path ≠ []) :
    pieces (join "/" (pathParts path)) = pathParts path ∧
      pathParts (join "/" (pathParts path)) = pathParts path := by
  have hpieces : pieces (join "/" (pathParts path)) = pathParts path := by
    refine pieces_join hne fun part hpart hslash => ?_
    exact (pieces_chars (mem_pathParts.mp hpart).1 '/' hslash).2 rfl
  refine ⟨hpieces, ?_⟩
  rw [pathParts_eq (join "/" (pathParts path)), hpieces, List.filter_eq_self]
  intro part hpart
  simpa using (mem_pathParts.mp hpart).2

end Py

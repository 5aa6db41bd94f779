import QualityCI.Lib.Bytes
import QualityCI.Lib.JsonRoundTrip

/-!
# Texts without bytes

A Python text may hold halves of surrogate pairs on their own: `json.loads` makes them of escapes
such as `\\ud800`, `json.dumps` writes them as they are, and UTF-8 does not encode them.  A character
of Lean is no surrogate, so which characters stand for lone surrogates is a parameter here: some
that take more than one byte.

* `Surrogates` — the parameter.
* `Surrogates.encodes`, `Json.encodable` — a text, and a value, without lone surrogates.
* `encodeText` — `text.encode("utf-8")`, up to the bytes.
* **`encodes_jsonText`** — the text of a value is encoded exactly when the value has no lone
  surrogate.
-/

namespace Py

/-- The characters that stand for lone surrogates. -/
structure Surrogates where
  lone : Char → Bool
  wide : ∀ c, lone c = true → 0x80 ≤ c.toNat

/-- A text without lone surrogates. -/
def Surrogates.encodes (s : Surrogates) (text : String) : Bool :=
  text.toList.all fun c => !s.lone c

mutual

/-- No text in the value, and no key, has a lone surrogate. -/
def Json.encodable (s : Surrogates) : Json → Bool
  | .str text => s.encodes text
  | .arr items => Json.itemsEncodable s items
  | .obj entries => Json.entriesEncodable s entries
  | .null | .bool _ | .int _ | .float _ => true

/-- The same, of a list. -/
def Json.itemsEncodable (s : Surrogates) : List Json → Bool
  | [] => true
  | x :: xs => x.encodable s && Json.itemsEncodable s xs

/-- The same, of a dictionary. -/
def Json.entriesEncodable (s : Surrogates) : List (String × Json) → Bool
  | [] => true
  | (key, x) :: xs => s.encodes key && x.encodable s && Json.entriesEncodable s xs

end

/-- `text.encode("utf-8")`, up to the bytes. -/
def encodeText (s : Surrogates) (text : String) : Result Unit :=
  if s.encodes text = true then .ok ()
  else .error ⟨.derived .unicodeError "UnicodeEncodeError", "surrogates not allowed"⟩

@[simp] lemma encodeText_eq_ok {s : Surrogates} {text : String} :
    encodeText s text = .ok () ↔ s.encodes text = true := by
  unfold encodeText
  split_ifs with h <;> simp [h]

section Encodable

variable {s : Surrogates}

lemma encodable_arr {items : List Json} :
    (Json.arr items).encodable s = true ↔ ∀ x ∈ items, x.encodable s = true := by
  rw [Json.encodable]
  induction items with
  | nil => simp [Json.itemsEncodable]
  | cons x xs ih => simp [Json.itemsEncodable, ih]

lemma encodable_obj {d : Dict} : (Json.obj d).encodable s = true ↔
    ∀ e ∈ d, s.encodes e.1 = true ∧ e.2.encodable s = true := by
  rw [Json.encodable]
  induction d with
  | nil => simp [Json.entriesEncodable]
  | cons e rest ih => simp [Json.entriesEncodable, ih, and_assoc]

/-! ## The text of a value -/

/-- The characters are encoded. -/
def Encoded (s : Surrogates) (cs : List Char) : Prop := ∀ c ∈ cs, s.lone c = false

lemma encoded_append {xs ys : List Char} :
    Encoded s (xs ++ ys) ↔ Encoded s xs ∧ Encoded s ys := List.forall_mem_append

/-- A character of one byte is encoded. -/
lemma lone_of_ascii {c : Char} (h : c.toNat < 0x80) : s.lone c = false := by
  cases hlone : s.lone c with
  | false => rfl
  | true => exact absurd (s.wide c hlone) (not_le_of_gt h)

lemma encoded_of_ascii {cs : List Char} (h : ∀ c ∈ cs, c.toNat < 0x80) : Encoded s cs :=
  fun c hc => lone_of_ascii (h c hc)

lemma encoded_cons_ascii {c : Char} {cs : List Char} (h : c.toNat < 0x80) :
    Encoded s (c :: cs) ↔ Encoded s cs := by
  simp [Encoded, lone_of_ascii h]

/-- A character is escaped by characters that are encoded when it is. -/
lemma encoded_escapeChar (c : Char) : Encoded s (escapeChar c) ↔ s.lone c = false := by
  by_cases hc : c.toNat < 0x80
  · simp [lone_of_ascii hc, encoded_of_ascii (escapeChar_ascii hc)]
  · simp [escapeChar_of_le (Nat.le_of_not_lt hc), Encoded]

lemma encoded_stringText (text : String) :
    Encoded s (stringText text) ↔ s.encodes text = true := by
  have hquote : ('\"' : Char).toNat < 0x80 := by decide
  rw [stringText, encoded_cons_ascii hquote, encoded_append]
  simp only [encoded_of_ascii (show ∀ c ∈ ['\"'], c.toNat < 0x80 by decide), and_true,
    Surrogates.encodes, List.all_eq_true, Bool.not_eq_true', ← encoded_escapeChar]
  simp only [Encoded, List.mem_flatMap]
  exact ⟨fun h c hc d hd => h d ⟨c, hc, hd⟩, fun h d ⟨c, hc, hd⟩ => h c hc d hd⟩

lemma encoded_commaJoin {texts : List (List Char)} :
    Encoded s (commaJoin texts) ↔ ∀ text ∈ texts, Encoded s text := by
  have hcomma : (',' : Char).toNat < 0x80 := by decide
  induction texts with
  | nil => simp [commaJoin, Encoded]
  | cons x rest ih =>
      cases rest with
      | nil => simp [commaJoin]
      | cons y rest =>
          rw [commaJoin, encoded_append, encoded_cons_ascii hcomma, List.forall_mem_cons]
          exact and_congr_right fun _ => ih

lemma ascii_of_isDigit {c : Char} (h : c.isDigit = true) : c.toNat < 0x80 := by
  simp only [Char.isDigit, Bool.and_eq_true, decide_eq_true_eq] at h
  exact lt_of_le_of_lt (show c.toNat ≤ 57 from h.2) (by norm_num)

lemma ascii_digitsOf (n : ℕ) : ∀ c ∈ digitsOf n, c.toNat < 0x80 :=
  fun c hc => ascii_of_isDigit (isDigit_digitsOf c hc)

lemma ascii_decimalText (d : Decimal) : ∀ c ∈ decimalText d, c.toNat < 0x80 := by
  have hdigits := ascii_digitsOf
  have htake : ∀ n k, ∀ c ∈ (digitsOf n).take k, c.toNat < 0x80 :=
    fun n k c h => hdigits n c (List.mem_of_mem_take h)
  have hdrop : ∀ n k, ∀ c ∈ (digitsOf n).drop k, c.toNat < 0x80 :=
    fun n k c h => hdigits n c (List.mem_of_mem_drop h)
  have hmarks : ∀ c ∈ ['0', '.', 'e', '-', '+'], c.toNat < 0x80 := by decide
  simp only [List.forall_mem_cons, List.not_mem_nil, false_implies, implies_true, and_true] at hmarks
  have hzeros : ∀ k, ∀ c ∈ List.replicate k '0', c.toNat < 0x80 := fun k c h =>
    List.eq_of_mem_replicate h ▸ hmarks.1
  simp only [decimalText]
  split_ifs <;> simp only [List.forall_mem_append, List.forall_mem_cons, hmarks, true_and, and_true,
    List.not_mem_nil, false_implies, implies_true]
  case pos => exact ⟨hzeros _, hdigits _⟩
  case pos => exact ⟨hdigits _, hzeros _⟩
  case neg => exact ⟨htake _ _, hdrop _ _⟩
  all_goals first
    | exact ⟨htake _ _, hdigits _⟩
    | exact ⟨⟨htake _ _, hdrop _ _⟩, hdigits _⟩

lemma encoded_intText (n : ℤ) : Encoded s (intText n) := by
  refine encoded_of_ascii ?_
  unfold intText
  split_ifs
  · exact List.forall_mem_cons.mpr ⟨by decide, ascii_digitsOf _⟩
  · exact ascii_digitsOf _

lemma encoded_floatText (x : PyFloat) : Encoded s (floatText x) := by
  refine encoded_of_ascii ?_
  cases x with
  | finite x =>
      simp only [floatText, floatRepr, String.toList_ofList, List.forall_mem_append]
      refine ⟨?_, ascii_decimalText _⟩
      split_ifs <;> decide
  | inf neg => cases neg <;> decide
  | nan => decide

mutual

theorem encoded_jsonText : ∀ v : Json, Encoded s (jsonText v) ↔ v.encodable s = true
  | .null => iff_of_true (encoded_of_ascii (by decide)) rfl
  | .bool b => iff_of_true (encoded_of_ascii (by cases b <;> decide)) rfl
  | .int n => iff_of_true (encoded_intText n) rfl
  | .float x => iff_of_true (encoded_floatText x) rfl
  | .str text => encoded_stringText text
  | .arr items => by
      rw [jsonText, encoded_cons_ascii (by decide), encoded_append, encoded_commaJoin,
        Json.encodable, encoded_itemTexts items]
      simp [encoded_of_ascii (show ∀ c ∈ [']'], c.toNat < 0x80 by decide)]
  | .obj entries => by
      rw [jsonText, encoded_cons_ascii (by decide), encoded_append, encoded_commaJoin,
        Json.encodable, encoded_entryTexts entries]
      simp [encoded_of_ascii (show ∀ c ∈ ['\x7d'], c.toNat < 0x80 by decide)]

theorem encoded_itemTexts : ∀ items : List Json,
    (∀ text ∈ itemTexts items, Encoded s text) ↔ Json.itemsEncodable s items = true
  | [] => by simp [itemTexts, Json.itemsEncodable]
  | x :: xs => by
      simp only [itemTexts, List.forall_mem_cons, Json.itemsEncodable, Bool.and_eq_true,
        encoded_jsonText x, encoded_itemTexts xs]

theorem encoded_entryTexts : ∀ entries : List (String × Json),
    (∀ text ∈ entryTexts entries, Encoded s text) ↔ Json.entriesEncodable s entries = true
  | [] => by simp [entryTexts, Json.entriesEncodable]
  | (key, x) :: xs => by
      simp only [entryTexts, List.forall_mem_cons, Json.entriesEncodable, Bool.and_eq_true,
        encoded_append, encoded_stringText, encoded_jsonText x, encoded_entryTexts xs,
        encoded_cons_ascii (show (':' : Char).toNat < 0x80 by decide)]

end

/-- **The text of a value** is encoded when the value has no lone surrogate. -/
theorem encodes_jsonText (v : Json) :
    s.encodes (String.ofList (jsonText v)) = true ↔ v.encodable s = true := by
  rw [← encoded_jsonText]
  simp [Surrogates.encodes, Encoded]

end Encodable

end Py

import Mathlib.Data.String.Basic

/-!
# The order of texts, decided on bytes

Texts are ordered by their characters, and a text is kept as the UTF-8 encoding of its characters.
The encoding keeps the order, so two texts are compared byte by byte, without decoding either.

* `bytesLt` — the lexicographic order of bytes.
* `bytesLt_encodeChar` — two different characters are ordered as their encodings, whatever follows.
* **`bytesLt_iff_lt`** — texts are ordered as their bytes.
* `decidableTextLt` — the order of texts, decided so.
-/

namespace Py

/-- The lexicographic order of bytes. -/
def bytesLt : List UInt8 → List UInt8 → Bool
  | _, [] => false
  | [], _ :: _ => true
  | x :: xs, y :: ys =>
      if x.toNat < y.toNat then true
      else if x.toNat = y.toNat then bytesLt xs ys
      else false

lemma bytesLt_append (front xs ys : List UInt8) :
    bytesLt (front ++ xs) (front ++ ys) = bytesLt xs ys := by
  induction front with
  | nil => rfl
  | cons b rest ih => simp [bytesLt, ih]

lemma bytesLt_asymm {xs ys : List UInt8} (h : bytesLt xs ys = true) : bytesLt ys xs = false := by
  induction xs generalizing ys with
  | nil =>
      cases ys with
      | nil => simp [bytesLt] at h
      | cons y ys => rfl
  | cons x xs ih =>
      cases ys with
      | nil => simp [bytesLt] at h
      | cons y ys =>
          simp only [bytesLt] at h ⊢
          split_ifs at h with hlt heq
          · rw [if_neg (by omega), if_neg (by omega)]
          · rw [if_neg (by omega), if_pos heq.symm]
            exact ih h

lemma toNat_lt_size (c : Char) : c.val.toNat < 0x110000 := by
  rcases c.valid with hlow | ⟨-, hhigh⟩
  · exact Nat.lt_trans hlow (by decide)
  · exact hhigh

/-- A character that is before another has the smaller encoding, whatever follows. -/
lemma bytesLt_of_charLt {c d : Char} (h : c < d) (xs ys : List UInt8) :
    bytesLt (String.utf8EncodeChar c ++ xs) (String.utf8EncodeChar d ++ ys) = true := by
  have hlt : c.val.toNat < d.val.toNat := h
  have hc := toNat_lt_size c
  have hd := toNat_lt_size d
  unfold String.utf8EncodeChar
  generalize c.val.toNat = v at *
  generalize d.val.toNat = w at *
  dsimp only
  -- the leading byte decides between two lengths, and the digits within one
  split_ifs <;> simp only [List.cons_append, List.nil_append, bytesLt, UInt8.toNat_ofNat'] <;>
    split_ifs <;> first | rfl | omega

/-- Two different characters are ordered as their encodings, whatever follows. -/
lemma bytesLt_encodeChar {c d : Char} (h : c ≠ d) (xs ys : List UInt8) :
    bytesLt (String.utf8EncodeChar c ++ xs) (String.utf8EncodeChar d ++ ys) = true ↔ c < d := by
  refine ⟨fun hlt => ?_, fun hlt => bytesLt_of_charLt hlt xs ys⟩
  rcases lt_or_gt_of_ne h with hcd | hdc
  · exact hcd
  · rw [bytesLt_asymm (bytesLt_of_charLt hdc ys xs)] at hlt
    exact absurd hlt Bool.false_ne_true

/-- The bytes of a text. -/
def textBytes (s : String) : List UInt8 := s.toByteArray.data.toList

lemma textBytes_eq (s : String) : textBytes s = s.toList.flatMap String.utf8EncodeChar := by
  rw [textBytes, ← String.utf8Encode_toList, List.utf8Encode]
  simp

lemma encodeChar_ne_nil (c : Char) : String.utf8EncodeChar c ≠ [] := by
  intro h
  have hlen := String.length_utf8EncodeChar c
  rw [h, List.length_nil] at hlen
  exact absurd hlen (Nat.ne_of_lt c.utf8Size_pos)

lemma bytesLt_encoded (xs ys : List Char) :
    bytesLt (xs.flatMap String.utf8EncodeChar) (ys.flatMap String.utf8EncodeChar) = true ↔
      xs < ys := by
  induction xs generalizing ys with
  | nil =>
      cases ys with
      | nil => simp [bytesLt]
      | cons d ys =>
          rw [List.flatMap_nil, List.flatMap_cons]
          obtain ⟨b, bs, hb⟩ := List.exists_cons_of_ne_nil (encodeChar_ne_nil d)
          simp [hb, bytesLt]
  | cons c xs ih =>
      cases ys with
      | nil => simp [bytesLt]
      | cons d ys =>
          rw [List.flatMap_cons, List.flatMap_cons, List.cons_lt_cons_iff]
          by_cases heq : c = d
          · subst heq
            rw [bytesLt_append, ih]
            simp
          · rw [bytesLt_encodeChar heq]
            simp [heq]

/-- **Texts are ordered as their bytes.** -/
theorem bytesLt_iff_lt (a b : String) : bytesLt (textBytes a) (textBytes b) = true ↔ a < b := by
  rw [textBytes_eq, textBytes_eq, bytesLt_encoded, String.lt_iff_toList_lt]

/-- The order of texts, decided on their bytes. -/
instance (priority := 1100) decidableTextLt : DecidableLT String :=
  fun a b => decidable_of_iff _ (bytesLt_iff_lt a b)

end Py

import QualityCI.Lib.Bytes

/-!
# Bytes that decode

A text has one encoding: bytes that decode to it are its encoding, so that nothing is lost by keeping
the text in their place.

* **`encodeUtf8_decodeUtf8`** — bytes are the encoding of what they decode to.
-/

namespace Py

lemma toNat_ofNat {code : ℕ} (h : code < 0xD800 ∨ 0xDFFF < code ∧ code < 0x110000) :
    (Char.ofNat code).toNat = code := by
  have hvalid : code.isValidChar := h
  rw [Char.ofNat, dif_pos hvalid]
  rfl

lemma codeChar_eq_some {low code : ℕ} {c : Char} (h : codeChar low code = some c) :
    c.toNat = code ∧ low ≤ code ∧ code < 0x110000 := by
  rw [codeChar] at h
  split_ifs at h with hcode
  obtain rfl := Option.some.inj h
  exact ⟨toNat_ofNat (by omega), hcode.1, hcode.2.2⟩

lemma isTail_iff {b : ℕ} : isTail b = true ↔ 0x80 ≤ b ∧ b ≤ 0xBF := by
  simp [isTail]

/-- The characters decoded have the bytes they were decoded from. -/
lemma utf8_decodeChars {bytes : List ℕ} {cs : List Char} (h : decodeChars bytes = some cs) :
    cs.flatMap utf8Char = bytes := by
  induction bytes using decodeChars.induct generalizing cs with
  | case1 =>
      obtain rfl := Option.some.inj h
      rfl
  | case2 a rest ha ih =>
      rw [decodeChars.eq_def] at h
      simp only [ha, if_true, Option.pure_def, Option.bind_eq_bind, Option.bind_eq_some_iff,
        Option.some.injEq] at h
      obtain ⟨tail, htail, rfl⟩ := h
      have hcode := @toNat_ofNat a (by omega)
      rw [List.flatMap_cons, ih htail, utf8Char]
      simp only [hcode, ha, if_true, List.singleton_append]
  | case3 a ha ha2 b rest ih =>
      rw [decodeChars.eq_def] at h
      simp only [ha, ha2, if_false, if_true, and_self, Option.pure_def, Option.bind_eq_bind,
        Option.bind_eq_some_iff, Option.some.injEq, Option.guard_eq_some', isTail_iff] at h
      obtain ⟨_, htails, c, hc, tail, htail, rfl⟩ := h
      obtain ⟨hcode, hlow, -⟩ := codeChar_eq_some hc
      rw [List.flatMap_cons, ih htail, utf8Char]
      have h1 : 0xC0 + c.toNat / 0x40 = a := by omega
      have h2 : 0x80 + c.toNat % 0x40 = b := by omega
      simp only [if_neg (show ¬c.toNat < 0x80 by omega), if_pos (show c.toNat < 0x800 by omega), h1,
        h2, List.cons_append, List.nil_append]
  | case4 a ha ha2 =>
      rw [decodeChars.eq_def] at h
      simp [ha, ha2] at h
  | case5 a ha ha2 ha3 b c rest ih =>
      rw [decodeChars.eq_def] at h
      simp only [ha, ha2, ha3, if_false, if_true, and_self, Option.pure_def, Option.bind_eq_bind,
        Option.bind_eq_some_iff, Option.some.injEq, Option.guard_eq_some', isTail_iff] at h
      obtain ⟨_, htails, char, hc, tail, htail, rfl⟩ := h
      obtain ⟨hcode, hlow, -⟩ := codeChar_eq_some hc
      rw [List.flatMap_cons, ih htail, utf8Char]
      have h1 : 0xE0 + char.toNat / 0x1000 = a := by omega
      have h2 : 0x80 + char.toNat / 0x40 % 0x40 = b := by omega
      have h3 : 0x80 + char.toNat % 0x40 = c := by omega
      simp only [if_neg (show ¬char.toNat < 0x80 by omega),
        if_neg (show ¬char.toNat < 0x800 by omega), if_pos (show char.toNat < 0x10000 by omega), h1,
        h2, h3, List.cons_append, List.nil_append]
  | case6 a rest ha ha2 ha3 hrest =>
      rw [decodeChars.eq_def] at h
      simp only [ha, ha2, ha3, if_false, if_true, and_self] at h
      cases h
  | case7 a ha ha2 ha3 ha4 b c d rest ih =>
      rw [decodeChars.eq_def] at h
      simp only [ha, ha2, ha3, ha4, if_false, if_true, and_self, Option.pure_def,
        Option.bind_eq_bind, Option.bind_eq_some_iff, Option.some.injEq, Option.guard_eq_some',
        isTail_iff] at h
      obtain ⟨_, htails, char, hc, tail, htail, rfl⟩ := h
      obtain ⟨hcode, hlow, hhigh⟩ := codeChar_eq_some hc
      rw [List.flatMap_cons, ih htail, utf8Char]
      have h1 : 0xF0 + char.toNat / 0x40000 = a := by omega
      have h2 : 0x80 + char.toNat / 0x1000 % 0x40 = b := by omega
      have h3 : 0x80 + char.toNat / 0x40 % 0x40 = c := by omega
      have h4 : 0x80 + char.toNat % 0x40 = d := by omega
      simp only [if_neg (show ¬char.toNat < 0x80 by omega),
        if_neg (show ¬char.toNat < 0x800 by omega),
        if_neg (show ¬char.toNat < 0x10000 by omega), h1, h2, h3, h4, List.cons_append,
        List.nil_append]
  | case8 a rest ha ha2 ha3 ha4 hrest =>
      rw [decodeChars.eq_def] at h
      simp only [ha, ha2, ha3, ha4, if_false, if_true, and_self] at h
      cases h
  | case9 a rest ha ha2 ha3 ha4 =>
      rw [decodeChars.eq_def] at h
      simp [ha, ha2, ha3, ha4] at h

/-- **Bytes are the encoding of the text they decode to.** -/
theorem encodeUtf8_decodeUtf8 {raw : Bytes} {text : String} (h : decodeUtf8 raw = some text) :
    encodeUtf8 text = raw := by
  obtain ⟨cs, hcs, rfl⟩ := Option.map_eq_some_iff.mp h
  rw [encodeUtf8, utf8, String.toList_ofList, utf8_decodeChars hcs, List.map_map]
  refine (List.map_congr_left fun b _ => ?_).trans (List.map_id _)
  exact UInt8.ofNat_toNat

end Py

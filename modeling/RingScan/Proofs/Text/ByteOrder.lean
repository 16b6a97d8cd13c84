import Mathlib
import RingScan.Text.Order
import RingScan.Text.Utf8

set_option autoImplicit false

/-! # UTF-8 keeps the order of texts

Of two characters, the one with the smaller code point has the smaller bytes, whatever comes behind
them (`encodeChar_append_lt`). So texts are in the order of their bytes just as they are in that of
their code points (`encode_lt_encode_iff`), and so are the held texts whose bytes can be asked for
(`encode_lt_iff_ordered_lt`). -/

namespace RingScan.Text

namespace Utf8

/-! ## Characters -/

theorem toNat_lt (c : Char) : c.toNat < 0x110000 := by
  have valid : c.toNat.isValidChar := c.valid
  rcases valid with h | h <;> omega

theorem ofNat_lt_ofNat {m n : ℕ} (hm : m < 256) (hn : n < 256) :
    UInt8.ofNat m < UInt8.ofNat n ↔ m < n := by
  rw [UInt8.lt_iff_toNat_lt, UInt8.toNat_ofNat_of_lt' hm, UInt8.toNat_ofNat_of_lt' hn]

theorem ofNat_inj {m n : ℕ} (hm : m < 256) (hn : n < 256) :
    UInt8.ofNat m = UInt8.ofNat n ↔ m = n := by
  rw [← UInt8.toNat_inj, UInt8.toNat_ofNat_of_lt' hm, UInt8.toNat_ofNat_of_lt' hn]

/-- The bytes of characters tell which one comes first before the shorter ones are at their end. -/
theorem encodeChar_append_lt {c d : Char} (h : c.toNat < d.toNat) (xs ys : List UInt8) :
    encodeChar c ++ xs < encodeChar d ++ ys := by
  have hd := toNat_lt d
  unfold encodeChar
  generalize c.toNat = m at *
  generalize d.toNat = n at *
  dsimp only
  -- one case for each length of both; the lead bytes of two lengths are apart
  split_ifs <;>
    simp (disch := omega) only [List.cons_append, List.nil_append, List.cons_lt_cons_iff,
      ofNat_lt_ofNat, ofNat_inj] <;>
    omega

theorem encodeChar_ne_nil (c : Char) : encodeChar c ≠ [] := by
  unfold encodeChar
  dsimp only
  split_ifs <;> simp

/-! ## Texts -/

theorem append_lt_append_left_iff (bs xs ys : List UInt8) : bs ++ xs < bs ++ ys ↔ xs < ys := by
  induction bs with
  | nil => rfl
  | cons b bs ih => simpa [List.cons_lt_cons_iff] using ih

theorem encode_lt_encode_iff {cs ds : List Char} :
    encode cs < encode ds ↔ cs.map Char.toNat < ds.map Char.toNat := by
  induction cs generalizing ds with
  | nil =>
    cases ds with
    | nil => simp [encode]
    | cons d ds =>
      obtain ⟨b, bs, hb⟩ := List.exists_cons_of_ne_nil (encodeChar_ne_nil d)
      simp [encode, hb]
  | cons c cs ih =>
    cases ds with
    | nil => simp [encode]
    | cons d ds =>
      rw [encode, encode, List.map_cons, List.map_cons, List.cons_lt_cons_iff]
      rcases Nat.lt_trichotomy c.toNat d.toNat with hlt | heq | hlt
      · exact iff_of_true (encodeChar_append_lt hlt _ _) (.inl hlt)
      · obtain rfl := Char.toNat_inj.1 heq
        rw [append_lt_append_left_iff, ih]
        simp
      · refine iff_of_false (List.lt_asymm (encodeChar_append_lt hlt _ _)) ?_
        omega

end Utf8

/-! ## Held texts -/

/-- A text whose bytes can be asked for is held in the only way. -/
theorem eq_held_of_plain {s t : String} (h : Surrogate.plain s = .ok t) : s = Surrogate.held t := by
  unfold Surrogate.plain at h
  split at h
  · next cs hcs =>
    obtain rfl := Except.ok.inj h
    rw [Surrogate.held, String.toList_ofList, ← Surrogate.plain?_eq_some_iff.1 hcs,
      String.ofList_toList]
  · simp at h

theorem codePoints_of_plain {s t : String} (h : Surrogate.plain s = .ok t) :
    codePoints s = t.toList.map Char.toNat := by
  rw [eq_held_of_plain h, codePoints_held]

/-- **The order of the bytes is that of the texts.** -/
theorem encode_lt_iff_ordered_lt {s t u v : String} (hs : Surrogate.plain s = .ok u)
    (ht : Surrogate.plain t = .ok v) :
    Utf8.encode u.toList < Utf8.encode v.toList ↔ ordered s < ordered t := by
  have horder : ordered s < ordered t ↔ codePoints s < codePoints t := Iff.rfl
  rw [horder, codePoints_of_plain hs, codePoints_of_plain ht, Utf8.encode_lt_encode_iff]

end RingScan.Text

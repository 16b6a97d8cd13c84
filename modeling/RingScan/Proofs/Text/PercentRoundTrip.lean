import RingScan.Text.Percent
import RingScan.Proofs.Text.Utf8RoundTrip

set_option autoImplicit false

/-! # Segments are read as they were written

A segment is read byte by byte: a percent sign and the two digits behind it are the byte that they
spell, and every other character stands for the bytes of its own UTF-8 form. The bytes of all its
characters are then read as UTF-8. So every text is read back from its segment (`decode_encode`),
and in a segment there are only percent signs and characters that stand for themselves, since digits
do (`mem_encode`); a slash is none of them. -/

namespace RingScan.Text.Percent

/-! ## Reading -/

/-- The bytes that a segment stands for, if there are two digits behind each percent sign. -/
def decodeBytes : List Char → Option (List UInt8)
  | [] => some []
  | c :: rest =>
      if c = '%' then
        match rest with
        | high :: low :: tail =>
            match Hex.value? high, Hex.value? low with
            | some h, some l => (decodeBytes tail).map (UInt8.ofNat (16 * h + l) :: ·)
            | _, _ => none
        | _ => none
      else (decodeBytes rest).map (Utf8.encodeChar c ++ ·)

/-- The text that a segment stands for. -/
def decode (cs : List Char) : Option (List Char) := (decodeBytes cs).bind Utf8.decode

/-! ## Written digits -/

theorem isUnreserved_digit {n : ℕ} (h : n < 16) : isUnreserved (Hex.digit n).toUpper = true := by
  have all : ∀ n : Fin 16, isUnreserved (Hex.digit n).toUpper = true := by decide
  exact all ⟨n, h⟩

theorem value?_digit {n : ℕ} (h : n < 16) : Hex.value? (Hex.digit n).toUpper = some n := by
  have all : ∀ n : Fin 16, Hex.value? (Hex.digit n).toUpper = some n.val := by decide
  exact all ⟨n, h⟩

/-! ## From texts to segments and back -/

/-- A written byte is read off the front of what follows it. -/
theorem decodeBytes_encodeByte_append (b : UInt8) (rest : List Char) :
    decodeBytes (encodeByte b ++ rest) = (decodeBytes rest).map (b :: ·) := by
  have hb : b.toNat < 256 := b.toNat_lt
  have hbyte : UInt8.ofNat (16 * (b.toNat / 16) + b.toNat % 16) = b := by
    rw [Nat.div_add_mod, UInt8.ofNat_toNat]
  simp only [encodeByte, List.cons_append, List.nil_append]
  rw [decodeBytes, if_pos rfl, value?_digit (by omega), value?_digit (by omega)]
  dsimp only
  rw [hbyte]

theorem decodeBytes_encodeBytes_append (bs : List UInt8) (rest : List Char) :
    decodeBytes (bs.flatMap encodeByte ++ rest) = (decodeBytes rest).map (bs ++ ·) := by
  induction bs with
  | nil => simp
  | cons b bs ih =>
    rw [List.flatMap_cons, List.append_assoc, decodeBytes_encodeByte_append, ih, Option.map_map]
    rfl

theorem decodeBytes_cons {c : Char} (h : c ≠ '%') (rest : List Char) :
    decodeBytes (c :: rest) = (decodeBytes rest).map (Utf8.encodeChar c ++ ·) := by
  rw [decodeBytes.eq_def]
  exact if_neg h

/-- A written character is read off the front of what follows it. -/
theorem decodeBytes_encodeChar_append (c : Char) (rest : List Char) :
    decodeBytes (encodeChar c ++ rest) = (decodeBytes rest).map (Utf8.encodeChar c ++ ·) := by
  rw [encodeChar]
  split_ifs with h
  · have hne : c ≠ '%' := by
      rintro rfl
      cases h
    exact decodeBytes_cons hne rest
  · exact decodeBytes_encodeBytes_append _ _

theorem decodeBytes_encode (cs : List Char) : decodeBytes (encode cs) = some (Utf8.encode cs) := by
  induction cs with
  | nil => rfl
  | cons c cs ih =>
    rw [encode, List.flatMap_cons, decodeBytes_encodeChar_append, ← encode, ih, Utf8.encode,
      Option.map_some]

/-- **What was written is read.** -/
theorem decode_encode (cs : List Char) : decode (encode cs) = some cs := by
  rw [decode, decodeBytes_encode, Option.bind_some, Utf8.decode_encode]

/-! ## What segments are made of -/

theorem mem_encodeByte {b : UInt8} {c : Char} (h : c ∈ encodeByte b) :
    c = '%' ∨ isUnreserved c = true := by
  have hb : b.toNat < 256 := b.toNat_lt
  simp only [encodeByte, List.mem_cons, List.not_mem_nil, or_false] at h
  rcases h with rfl | rfl | rfl
  · exact .inl rfl
  · exact .inr (isUnreserved_digit (by omega))
  · exact .inr (isUnreserved_digit (by omega))

theorem mem_encode {cs : List Char} {c : Char} (h : c ∈ encode cs) :
    c = '%' ∨ isUnreserved c = true := by
  obtain ⟨d, -, h⟩ := List.mem_flatMap.1 h
  rw [encodeChar] at h
  split_ifs at h with hd
  · obtain rfl := List.mem_singleton.1 h
    exact .inr hd
  · obtain ⟨b, -, h⟩ := List.mem_flatMap.1 h
    exact mem_encodeByte h

/-- **A segment is not torn apart.** -/
theorem slash_not_mem_encode (cs : List Char) : '/' ∉ encode cs := by
  intro h
  rcases mem_encode h with h | h
  · exact absurd h (by decide)
  · exact absurd h (by decide)

end RingScan.Text.Percent

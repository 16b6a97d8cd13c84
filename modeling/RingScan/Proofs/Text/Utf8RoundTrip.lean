import RingScan.Proofs.Text.ByteOrder

set_option autoImplicit false

/-! # UTF-8 is read as it was written

The strict decoder takes the bytes of a character off the front of whatever follows them
(`decode_encodeChar_append`), and what it takes off are the bytes of the character that it gives
(`encodeChar_of_two?` and its siblings). So it reads the bytes of texts, and nothing else
(`decode_eq_some_iff`). -/

namespace RingScan.Text.Utf8

/-! ## The four lengths -/

section Lengths

variable {a b c d : UInt8} {tail : List UInt8}

theorem decode_one (h : a.toNat < 0x80) :
    decode (a :: tail) = cons? (char? 0 a.toNat) (decode tail) := by
  rw [decode.eq_def]
  exact if_pos h

theorem decode_two (h : 0x80 ≤ a.toNat) (h' : a.toNat < 0xe0) :
    decode (a :: b :: tail) = cons? (two? a b) (decode tail) := by
  rw [decode.eq_def]
  dsimp only
  rw [if_neg (by omega), if_pos h']

theorem decode_three (h : 0xe0 ≤ a.toNat) (h' : a.toNat < 0xf0) :
    decode (a :: b :: c :: tail) = cons? (three? a b c) (decode tail) := by
  rw [decode.eq_def]
  dsimp only
  rw [if_neg (by omega), if_neg (by omega), if_pos h']

theorem decode_four (h : 0xf0 ≤ a.toNat) :
    decode (a :: b :: c :: d :: tail) = cons? (four? a b c d) (decode tail) := by
  rw [decode.eq_def]
  dsimp only
  rw [if_neg (by omega), if_neg (by omega), if_neg (by omega)]

end Lengths

/-! ## From characters to bytes -/

theorem toNat_ofNat {n : ℕ} (h : n < 256) : (UInt8.ofNat n).toNat = n :=
  UInt8.toNat_ofNat_of_lt' h

theorem continuation?_ofNat {m : ℕ} (h : m < 0x40) :
    continuation? (UInt8.ofNat (0x80 + m)) = some m := by
  have hbyte : (UInt8.ofNat (0x80 + m)).toNat = 0x80 + m := toNat_ofNat (by omega)
  simp only [continuation?, hbyte]
  rw [if_pos (by omega), Nat.add_sub_cancel_left]

theorem char?_toNat {c : Char} {least : ℕ} (h : least ≤ c.toNat) : char? least c.toNat = some c := by
  have valid : c.toNat.isValidChar := c.valid
  rw [char?, if_pos ⟨h, valid⟩, Char.ofNat_toNat]

theorem cons?_some (c : Char) (cs? : Option (List Char)) :
    cons? (some c) cs? = cs?.map (c :: ·) := by
  cases cs? <;> rfl

section Written

variable {c : Char}

/-- The character of two written bytes. -/
theorem two?_ofNat (h : 0x80 ≤ c.toNat) (h' : c.toNat < 0x800) :
    two? (UInt8.ofNat (0xc0 + c.toNat / 0x40)) (UInt8.ofNat (0x80 + c.toNat % 0x40)) = some c := by
  have ha : (UInt8.ofNat (0xc0 + c.toNat / 0x40)).toNat = 0xc0 + c.toNat / 0x40 :=
    toNat_ofNat (by omega)
  have hlead : 0xc0 ≤ 0xc0 + c.toNat / 0x40 := Nat.le_add_right ..
  have hn : (0xc0 + c.toNat / 0x40 - 0xc0) * 0x40 + c.toNat % 0x40 = c.toNat := by omega
  have hw := continuation?_ofNat (m := c.toNat % 0x40) (Nat.mod_lt _ (by decide))
  refine Option.bind_eq_some_iff.2 ⟨(), ?_, Option.bind_eq_some_iff.2 ⟨_, hw, ?_⟩⟩
  · rw [ha]
    exact if_pos hlead
  · rw [ha, hn, char?_toNat h]

/-- The character of three written bytes. -/
theorem three?_ofNat (h : 0x800 ≤ c.toNat) (h' : c.toNat < 0x10000) :
    three? (UInt8.ofNat (0xe0 + c.toNat / 0x1000)) (UInt8.ofNat (0x80 + c.toNat / 0x40 % 0x40))
      (UInt8.ofNat (0x80 + c.toNat % 0x40)) = some c := by
  have ha : (UInt8.ofNat (0xe0 + c.toNat / 0x1000)).toNat = 0xe0 + c.toNat / 0x1000 :=
    toNat_ofNat (by omega)
  have hn : (0xe0 + c.toNat / 0x1000 - 0xe0) * 0x1000 + c.toNat / 0x40 % 0x40 * 0x40 +
      c.toNat % 0x40 = c.toNat := by omega
  have hz := continuation?_ofNat (m := c.toNat / 0x40 % 0x40) (Nat.mod_lt _ (by decide))
  have hw := continuation?_ofNat (m := c.toNat % 0x40) (Nat.mod_lt _ (by decide))
  refine Option.bind_eq_some_iff.2 ⟨_, hz, Option.bind_eq_some_iff.2 ⟨_, hw, ?_⟩⟩
  rw [ha, hn, char?_toNat h]

/-- The character of four written bytes. -/
theorem four?_ofNat (h : 0x10000 ≤ c.toNat) :
    four? (UInt8.ofNat (0xf0 + c.toNat / 0x40000)) (UInt8.ofNat (0x80 + c.toNat / 0x1000 % 0x40))
      (UInt8.ofNat (0x80 + c.toNat / 0x40 % 0x40)) (UInt8.ofNat (0x80 + c.toNat % 0x40)) =
        some c := by
  have hlt := toNat_lt c
  have ha : (UInt8.ofNat (0xf0 + c.toNat / 0x40000)).toNat = 0xf0 + c.toNat / 0x40000 :=
    toNat_ofNat (by omega)
  have hn : (0xf0 + c.toNat / 0x40000 - 0xf0) * 0x40000 + c.toNat / 0x1000 % 0x40 * 0x1000 +
      c.toNat / 0x40 % 0x40 * 0x40 + c.toNat % 0x40 = c.toNat := by omega
  have hy := continuation?_ofNat (m := c.toNat / 0x1000 % 0x40) (Nat.mod_lt _ (by decide))
  have hz := continuation?_ofNat (m := c.toNat / 0x40 % 0x40) (Nat.mod_lt _ (by decide))
  have hw := continuation?_ofNat (m := c.toNat % 0x40) (Nat.mod_lt _ (by decide))
  refine Option.bind_eq_some_iff.2 ⟨_, hy, Option.bind_eq_some_iff.2 ⟨_, hz,
    Option.bind_eq_some_iff.2 ⟨_, hw, ?_⟩⟩⟩
  rw [ha, hn, char?_toNat h]

end Written

/-- The bytes of a character are read off the front of what follows them. -/
theorem decode_encodeChar_append (c : Char) (rest : List UInt8) :
    decode (encodeChar c ++ rest) = (decode rest).map (c :: ·) := by
  have hlt := toNat_lt c
  rw [← cons?_some]
  simp only [encodeChar]
  split_ifs with h1 h2 h3
  · have ha := toNat_ofNat (n := c.toNat) (by omega)
    rw [List.cons_append, List.nil_append, decode_one (by omega), ha,
      char?_toNat (Nat.zero_le _)]
  · have ha := toNat_ofNat (n := 0xc0 + c.toNat / 0x40) (by omega)
    simp only [List.cons_append, List.nil_append]
    rw [decode_two (by omega) (by omega), two?_ofNat (by omega) h2]
  · have ha := toNat_ofNat (n := 0xe0 + c.toNat / 0x1000) (by omega)
    simp only [List.cons_append, List.nil_append]
    rw [decode_three (by omega) (by omega), three?_ofNat (by omega) h3]
  · have ha := toNat_ofNat (n := 0xf0 + c.toNat / 0x40000) (by omega)
    simp only [List.cons_append, List.nil_append]
    rw [decode_four (by omega), four?_ofNat (by omega)]

/-- What was written is read. -/
theorem decode_encode (cs : List Char) : decode (encode cs) = some cs := by
  induction cs with
  | nil => rfl
  | cons c cs ih => rw [encode, decode_encodeChar_append, ih, Option.map_some]

/-! ## From bytes to characters -/

theorem continuation?_eq_some {b : UInt8} {m : ℕ} (h : continuation? b = some m) :
    b.toNat = 0x80 + m ∧ m < 0x40 := by
  unfold continuation? at h
  dsimp only at h
  split_ifs at h with hb
  have := Option.some.inj h
  omega

theorem char?_eq_some {c : Char} {least n : ℕ} (h : char? least n = some c) :
    least ≤ n ∧ c.toNat = n := by
  unfold char? at h
  split_ifs at h with hn
  obtain rfl := Option.some.inj h
  refine ⟨hn.1, ?_⟩
  rw [Char.ofNat, dif_pos hn.2]
  rfl

theorem cons?_eq_some {c? : Option Char} {cs? : Option (List Char)} {cs : List Char}
    (h : cons? c? cs? = some cs) : ∃ c rest, c? = some c ∧ cs? = some rest ∧ cs = c :: rest := by
  unfold cons? at h
  split at h
  · exact ⟨_, _, rfl, rfl, (Option.some.inj h).symm⟩
  · exact absurd h (by simp)

section Sequences

variable {a b d e : UInt8} {c : Char}

theorem encodeChar_of_char? (ha : a.toNat < 0x80) (h : char? 0 a.toNat = some c) :
    encodeChar c = [a] := by
  obtain ⟨-, hc⟩ := char?_eq_some h
  simp only [encodeChar, hc, if_pos ha, UInt8.ofNat_toNat]

/-- A byte with the value of a number. -/
theorem ofNat_eq {n : ℕ} (h : n = a.toNat) : UInt8.ofNat n = a := by
  rw [h, UInt8.ofNat_toNat]

theorem encodeChar_of_two? (ha : a.toNat < 0xe0) (h : two? a b = some c) :
    encodeChar c = [a, b] := by
  simp only [two?, guard, Option.bind_eq_bind, Option.bind_eq_some_iff] at h
  obtain ⟨_, hlead, y, hy, h⟩ := h
  have hlead : 0xc0 ≤ a.toNat := by
    by_contra hlt
    simp [hlt] at hlead
  have hy := continuation?_eq_some hy
  obtain ⟨hleast, hc⟩ := char?_eq_some h
  simp only [encodeChar, hc]
  rw [if_neg (by omega), if_pos (by omega), ofNat_eq (a := a) (by omega),
    ofNat_eq (a := b) (by omega)]

theorem encodeChar_of_three? (ha : 0xe0 ≤ a.toNat) (ha' : a.toNat < 0xf0)
    (h : three? a b d = some c) : encodeChar c = [a, b, d] := by
  simp only [three?, Option.bind_eq_bind, Option.bind_eq_some_iff] at h
  obtain ⟨y, hy, z, hz, h⟩ := h
  have hy := continuation?_eq_some hy
  have hz := continuation?_eq_some hz
  obtain ⟨hleast, hc⟩ := char?_eq_some h
  simp only [encodeChar, hc]
  rw [if_neg (by omega), if_neg (by omega), if_pos (by omega), ofNat_eq (a := a) (by omega),
    ofNat_eq (a := b) (by omega), ofNat_eq (a := d) (by omega)]

theorem encodeChar_of_four? (ha : 0xf0 ≤ a.toNat) (h : four? a b d e = some c) :
    encodeChar c = [a, b, d, e] := by
  simp only [four?, Option.bind_eq_bind, Option.bind_eq_some_iff] at h
  obtain ⟨y, hy, z, hz, w, hw, h⟩ := h
  have hy := continuation?_eq_some hy
  have hz := continuation?_eq_some hz
  have hw := continuation?_eq_some hw
  obtain ⟨hleast, hc⟩ := char?_eq_some h
  simp only [encodeChar, hc]
  rw [if_neg (by omega), if_neg (by omega), if_neg (by omega), ofNat_eq (a := a) (by omega),
    ofNat_eq (a := b) (by omega), ofNat_eq (a := d) (by omega), ofNat_eq (a := e) (by omega)]

end Sequences

/-- What is read is what was written. -/
theorem encode_of_decode {bs : List UInt8} {cs : List Char} (h : decode bs = some cs) :
    encode cs = bs := by
  fun_induction decode bs generalizing cs with
  | case1 =>
    obtain rfl := Option.some.inj h
    rfl
  | case2 a tail ha ih =>
    obtain ⟨c, rest, hc, hrest, rfl⟩ := cons?_eq_some h
    rw [encode, encodeChar_of_char? ha hc, ih hrest]
    rfl
  | case4 a ha b tail hb ih =>
    obtain ⟨c, rest, hc, hrest, rfl⟩ := cons?_eq_some h
    rw [encode, encodeChar_of_two? hb hc, ih hrest]
    rfl
  | case6 a ha b hb d tail hd ih =>
    obtain ⟨c, rest, hc, hrest, rfl⟩ := cons?_eq_some h
    rw [encode, encodeChar_of_three? (Nat.not_lt.1 hb) hd hc, ih hrest]
    rfl
  | case8 a ha b hb d hd e tail ih =>
    obtain ⟨c, rest, hc, hrest, rfl⟩ := cons?_eq_some h
    rw [encode, encodeChar_of_four? (Nat.not_lt.1 hd) hc, ih hrest]
    rfl
  | case3 => cases h
  | case5 => cases h
  | case7 => cases h

/-- **The decoder reads the bytes of texts, and nothing else.** -/
theorem decode_eq_some_iff {bs : List UInt8} {cs : List Char} :
    decode bs = some cs ↔ encode cs = bs := by
  constructor
  · exact encode_of_decode
  · rintro rfl
    exact decode_encode cs

end RingScan.Text.Utf8

import RingScan.Proofs.Ring.Points
import RingScan.Ring.TokenArc

set_option autoImplicit false

/-! # Tokens as texts

The written form of a position is read back as that position: whole numbers in decimal up to
`Integer.maxDigits` digits, bytes in hexadecimal, and texts as they are. All positions between the
bounds of a ring can be written (`Position.isWritable_of_bounds`). -/

namespace RingScan

/-! ## Decimal -/

theorem Text.toNat_of_isDigit {c : Char} (h : c.isDigit = true) :
    48 ≤ c.toNat ∧ c.toNat < 48 + 10 := by
  have hc : 48 ≤ c.toNat ∧ c.toNat ≤ 57 := Char.isDigit_iff_toNat.1 h
  omega

theorem Text.decimalValue?_of_isDigit {c : Char} (h : c.isDigit = true) :
    Text.decimalValue? c = some (c.toNat - 48) := by
  have hc := Text.toNat_of_isDigit h
  rw [Text.decimalValue?, Text.decimalZeros, List.findSome?_cons, if_pos hc]

theorem Text.lt_ten_of_decimalValue? {c : Char} {d : Nat} (h : Text.decimalValue? c = some d) :
    d < 10 := by
  obtain ⟨start, -, hstart⟩ := List.exists_of_findSome?_eq_some h
  split_ifs at hstart with hc
  obtain rfl := Option.some.inj hstart
  omega

theorem Text.isNumeralBlank_of_isDigit {c : Char} (h : c.isDigit = true) :
    Text.isNumeralBlank c = false := by
  have hc := Text.toNat_of_isDigit h
  simp only [Text.isNumeralBlank, Text.isBlank, Bool.and_eq_false_iff, Bool.or_eq_false_iff,
    decide_eq_false_iff_not, beq_eq_false_iff_ne]
  omega

namespace Integer

theorem isDigit_of_mem_digitsOf {n : Nat} {c : Char} (h : c ∈ Decimal.digitsOf n) :
    c.isDigit = true :=
  Nat.isDigit_of_mem_toDigits (by decide) (by decide) h

theorem digitsOf_ne_nil (n : Nat) : Decimal.digitsOf n ≠ [] := Nat.toDigits_ne_nil

theorem isRunChar_of_isDigit {c : Char} (h : c.isDigit = true) : isRunChar c = true := by
  simp [isRunChar, Text.decimalValue?_of_isDigit h]

/-- A run of nothing but digits is well spaced. -/
theorem isSpaced_of_isDigit {cs : List Char} (hne : cs ≠ []) (h : ∀ c ∈ cs, c.isDigit = true) :
    isSpaced cs = true := by
  have hscore : ∀ c ∈ cs, c ≠ '_' := by
    rintro c hc rfl
    exact absurd (h _ hc) (by decide)
  fun_induction isSpaced cs with
  | case1 => exact absurd rfl hne
  | case2 => exact absurd rfl (hscore _ (by simp))
  | case3 => exact absurd rfl (hscore _ (by simp))
  | case4 => rfl
  | case5 c d rest _ _ ih =>
    exact ih (by simp) (fun x hx => h x (List.mem_cons_of_mem _ hx))
      fun x hx => hscore x (List.mem_cons_of_mem _ hx)

theorem filterMap_decimalValue? {cs : List Char} (h : ∀ c ∈ cs, c.isDigit = true) :
    cs.filterMap Text.decimalValue? = cs.map fun c => c.toNat - 48 := by
  induction cs with
  | nil => rfl
  | cons c cs ih =>
    obtain ⟨hc, hcs⟩ := List.forall_mem_cons.1 h
    rw [List.filterMap_cons_some (Text.decimalValue?_of_isDigit hc), ih hcs, List.map_cons]

theorem ofDigits_digitsOf (n : Nat) :
    ofDigits ((Decimal.digitsOf n).map fun c => c.toNat - 48) = n := by
  have h : Nat.ofDigitChars 10 (Decimal.digitsOf n) 0 = n := Nat.ofDigitChars_ten_toDigits
  rw [Nat.ofDigitChars_eq_foldl] at h
  rw [ofDigits, List.foldl_map]
  exact h

theorem length_digitsOf_le {n : Nat} (h : n < 10 ^ maxDigits) :
    (Decimal.digitsOf n).length ≤ maxDigits :=
  (Nat.length_toDigits_le_iff (by decide) (by decide)).2 h

/-- The text of a whole number begins with a digit or a sign. -/
theorem dropWhile_display (n : Int) :
    (display n).dropWhile Text.isNumeralBlank = display n := by
  unfold display
  split
  · rfl
  · cases hd : Decimal.digitsOf n.natAbs with
    | nil => exact absurd hd (digitsOf_ne_nil _)
    | cons c cs =>
      have hc := isDigit_of_mem_digitsOf (hd ▸ List.mem_cons_self : c ∈ _)
      rw [List.dropWhile_cons_of_neg (by simp [Text.isNumeralBlank_of_isDigit hc])]

theorem splitSign_display (n : Int) :
    splitSign (display n) = (decide (n < 0), Decimal.digitsOf n.natAbs) := by
  unfold display
  split
  · next h => simp [splitSign, h]
  · next h =>
    cases hd : Decimal.digitsOf n.natAbs with
    | nil => exact absurd hd (digitsOf_ne_nil _)
    | cons c cs =>
      have hc := isDigit_of_mem_digitsOf (hd ▸ List.mem_cons_self : c ∈ _)
      unfold splitSign
      split
      · exact absurd hc (by simp_all)
      · exact absurd hc (by simp_all)
      · simp [h]

theorem signed_natAbs (n : Int) : Binary64.signed (decide (n < 0)) n.natAbs = n := by
  unfold Binary64.signed
  split
  · next h =>
    have hneg : n < 0 := of_decide_eq_true h
    omega
  · next h =>
    have hpos : ¬ n < 0 := fun hneg => h (decide_eq_true hneg)
    omega

theorem natAbs_signed (negative : Bool) (n : Nat) :
    (Binary64.signed negative n).natAbs = n := by
  cases negative <;> simp [Binary64.signed]

theorem isWritable_iff {n : Int} : isWritable n = true ↔ n.natAbs < 10 ^ maxDigits := by
  rw [isWritable, decide_eq_true_eq, Numeric.tenAbove, Int.toNat_natCast, Nat.pow_eq]

/-- The text of a whole number that is not too long is read as that number. -/
theorem read_display {n : Int} (h : isWritable n = true) : read (display n) = .ok n := by
  have hdigit : ∀ c ∈ Decimal.digitsOf n.natAbs, c.isDigit = true :=
    fun c hc => isDigit_of_mem_digitsOf hc
  have hrun : ∀ c ∈ Decimal.digitsOf n.natAbs, isRunChar c = true :=
    fun c hc => isRunChar_of_isDigit (hdigit c hc)
  -- numerals that are too long are refused before they are read
  have hlength : ¬ maxDigits < (Decimal.digitsOf n.natAbs).length := by
    exact Nat.not_lt.2 (length_digitsOf_le (isWritable_iff.1 h))
  rw [read, dropWhile_display, splitSign_display]
  simp only [List.takeWhile_eq_self_iff.2 hrun, List.dropWhile_eq_nil_iff.2 hrun,
    isSpaced_of_isDigit (digitsOf_ne_nil _) hdigit, filterMap_decimalValue? hdigit,
    List.length_map, if_true, if_neg hlength, List.all_nil, ofDigits_digitsOf, signed_natAbs]

theorem ofDigits_append_singleton (ds : List Nat) (d : Nat) :
    ofDigits (ds ++ [d]) = 10 * ofDigits ds + d := by
  simp [ofDigits, List.foldl_append]

theorem ofDigits_lt {ds : List Nat} (h : ∀ d ∈ ds, d < 10) : ofDigits ds < 10 ^ ds.length := by
  induction ds using List.reverseRecOn with
  | nil => decide
  | append_singleton ds d ih =>
    have hd : d < 10 := h d (by simp)
    have hds := ih fun x hx => h x (List.mem_append_left _ hx)
    rw [ofDigits_append_singleton, List.length_append, List.length_singleton, Nat.pow_succ]
    omega

/-- What is read as a whole number can be written. -/
theorem isWritable_of_read {text : List Char} {n : Int} (h : read text = .ok n) :
    isWritable n = true := by
  unfold read at h
  rcases hsign : splitSign (text.dropWhile Text.isNumeralBlank) with ⟨negative, cs⟩
  simp only [hsign] at h
  split_ifs at h with hspaced hlong hrest
  obtain rfl := Except.ok.inj h
  have hdigit : ∀ d ∈ (cs.takeWhile isRunChar).filterMap Text.decimalValue?, d < 10 := by
    intro d hd
    obtain ⟨c, -, hc⟩ := List.mem_filterMap.1 hd
    exact Text.lt_ten_of_decimalValue? hc
  refine isWritable_iff.2 ?_
  rw [natAbs_signed]
  -- the digits were counted before they were read
  exact (ofDigits_lt hdigit).trans_le (Nat.pow_le_pow_right (by decide) (Nat.not_lt.1 hlong))

end Integer

/-! ## Hexadecimal -/

namespace Text.Hex

theorem value?_digit {n : Nat} (h : n < 16) : value? (digit n) = some n := by
  revert n
  decide

theorem isAsciiBlank_digit {n : Nat} (h : n < 16) : isAsciiBlank (digit n) = false := by
  revert n
  decide

/-- Bytes in hexadecimal are read as those bytes. -/
theorem decode_encode (bs : List UInt8) : decode (encode bs) = some bs := by
  induction bs with
  | nil => rfl
  | cons b rest ih =>
    have hb : b.toNat < 256 := b.toNat_lt
    have hhigh : b.toNat / 16 < 16 := by omega
    have hlow : b.toNat % 16 < 16 := Nat.mod_lt _ (by decide)
    have hbyte : UInt8.ofNat (16 * (b.toNat / 16) + b.toNat % 16) = b := by
      rw [Nat.div_add_mod, UInt8.ofNat_toNat]
    rw [encode, decode, isAsciiBlank_digit hhigh, value?_digit hhigh, value?_digit hlow, ih]
    simp [hbyte]

end Text.Hex

/-! ## Tokens -/

namespace Partitioner

/-- Whether a position can be read back: it may be too long as a number. -/
def Position.isWritable : {p : Partitioner} → p.Position → Bool
  | .murmur3, (x : Int) => Integer.isWritable x
  | .random, (x : Int) => Integer.isWritable x
  | .byteOrdered, _ => true
  | .orderPreserving, _ => true

theorem isWritable_of_natAbs_le {n : Int} (h : n.natAbs ≤ 2 ^ 127) : Integer.isWritable n = true := by
  refine Integer.isWritable_iff.2 ?_
  calc n.natAbs ≤ 2 ^ 127 := h
    _ < 10 ^ 39 := by decide
    _ ≤ 10 ^ Integer.maxDigits := Nat.pow_le_pow_right (by decide) (by decide)

/-- All positions between the bounds of a ring can be written. -/
theorem Position.isWritable_of_bounds {p : Partitioner} {x : p.Position} (h : p.ring.Bounds x) :
    x.isWritable = true := by
  cases p with
  | murmur3 =>
    obtain ⟨n, rfl⟩ : ∃ n : Int, n = x := ⟨x, rfl⟩
    have hl : -0x8000000000000000 ≤ n := h.1
    have hu : n ≤ 0x7fffffffffffffff := h.2 _ rfl
    exact isWritable_of_natAbs_le (by omega)
  | random =>
    obtain ⟨n, rfl⟩ : ∃ n : Int, n = x := ⟨x, rfl⟩
    have hl : -1 ≤ n := h.1
    have hu : n ≤ 0x80000000000000000000000000000000 := h.2 _ rfl
    exact isWritable_of_natAbs_le (by omega)
  | byteOrdered => rfl
  | orderPreserving => rfl

/-- Every position is behind the minimum of a ring without an end. -/
theorem minimum_le {p : Partitioner} (h : p.preservesOrder = true) (x : p.Position) :
    p.ring.minimum ≤ x := by
  cases p with
  | murmur3 => simp [preservesOrder] at h
  | random => simp [preservesOrder] at h
  | byteOrdered => exact List.nil_le (x : List UInt8)
  | orderPreserving => exact List.nil_le (Text.codePoints x)

theorem bounds_of_preservesOrder {p : Partitioner} (h : p.preservesOrder = true)
    (x : p.Position) : p.ring.Bounds x := by
  refine ⟨minimum_le h x, fun m hm => ?_⟩
  cases p <;> simp [preservesOrder, ring] at h hm

end Partitioner

/-- The written form of a position is read as that position. -/
theorem Token.read_render {p : Partitioner} {x : p.Position} (h : x.isWritable = true) :
    Token.read p (.str x.render) = .ok (.position x) := by
  cases p with
  | murmur3 =>
    have hread : Integer.read (Integer.display x) = .ok x := Integer.read_display h
    simp [read, readInteger, readNumeral, Partitioner.Position.render, Integer.toText, hread]
    rfl
  | random =>
    have hread : Integer.read (Integer.display x) = .ok x := Integer.read_display h
    simp [read, readInteger, readNumeral, Partitioner.Position.render, Integer.toText, hread]
    rfl
  | byteOrdered =>
    have hread := Text.Hex.decode_encode x
    simp [read, readHex, Partitioner.Position.render, hread]
    rfl
  | orderPreserving => rfl

/-- A text is only read as a position, and as one that can be written. -/
theorem Token.exists_position_of_ofText {p : Partitioner} {s : String} {t : Token p}
    (h : Token.ofText p s = .ok t) : ∃ x : p.Position, t = .position x ∧ x.isWritable = true := by
  have hint {p : Partitioner} {f : Int → Token p} {t : Token p}
      (h : (readInteger (.str s)).map f = .ok t) : ∃ n, t = f n ∧ Integer.isWritable n = true := by
    simp only [readInteger, readNumeral] at h
    cases hread : Integer.read s.toList with
    | error e => simp [hread, Except.map] at h
    | ok n =>
      simp only [hread, Except.map, Except.ok.injEq] at h
      exact ⟨n, h.symm, Integer.isWritable_of_read hread⟩
  cases p with
  | murmur3 =>
    obtain ⟨n, hn, hwritable⟩ := hint h
    exact ⟨n, hn, hwritable⟩
  | random =>
    obtain ⟨n, hn, hwritable⟩ := hint h
    exact ⟨n, hn, hwritable⟩
  | byteOrdered =>
    simp only [ofText, read, readHex] at h
    cases hread : Text.Hex.decode s.toList with
    | none => simp [hread, Except.map] at h
    | some bs =>
      simp only [hread, Except.map, Except.ok.injEq] at h
      exact ⟨bs, h.symm, rfl⟩
  | orderPreserving =>
    simp only [ofText, read, Except.ok.injEq] at h
    exact ⟨s, h.symm, rfl⟩

end RingScan

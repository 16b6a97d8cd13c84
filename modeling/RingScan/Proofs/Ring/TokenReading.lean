import RingScan.Proofs.Numeric.Numerals

set_option autoImplicit false

/-! # What tokens are read from

Nodes send tokens as values of any kind. What a value denotes is told here without the reader: a
text by the grammar of numerals or of hexadecimal, a number by comparing it as it is
(`Token.Denotes`). Most values are read as the position that they denote, or refused as invalid if
they denote none. A few are mistaken for something else (`Token.IsMistaken`): where positions are
whole numbers, truth values count as numbers, fractions lose what is behind the point and
infinities overflow; where positions are texts, anything but a text is passed on as it is. These are
all (`Token.exact_or_refused_iff`). -/

namespace RingScan

/-! ## Hexadecimal -/

namespace Text.Hex

/-- Whether a text spells bytes: a pair of digits for each, and ASCII blanks around the pairs. -/
inductive Spells : List Char → List UInt8 → Prop where
  | nil : Spells [] []
  | blank {c : Char} {cs : List Char} {bs : List UInt8} :
      isAsciiBlank c = true → Spells cs bs → Spells (c :: cs) bs
  | pair {high low : Char} {h l : ℕ} {cs : List Char} {bs : List UInt8} :
      value? high = some h → value? low = some l → Spells cs bs →
        Spells (high :: low :: cs) (UInt8.ofNat (16 * h + l) :: bs)

theorem isAsciiBlank_of_value? {c : Char} {n : ℕ} (h : value? c = some n) :
    isAsciiBlank c = false := by
  have hne : c ≠ ' ' := by
    rintro rfl
    cases h
  rw [value?] at h
  simp only [isAsciiBlank, Bool.or_eq_false_iff, Bool.and_eq_false_iff, beq_eq_false_iff_ne,
    decide_eq_false_iff_not]
  refine ⟨hne, ?_⟩
  split_ifs at h <;> omega

/-- **The reader takes the texts that spell bytes, and no others.** -/
theorem decode_eq_some_iff {cs : List Char} {bs : List UInt8} :
    decode cs = some bs ↔ Spells cs bs := by
  constructor
  · intro h
    fun_induction decode cs generalizing bs with
    | case1 =>
      obtain rfl := Option.some.inj h
      exact .nil
    | case2 c hblank =>
      obtain rfl := Option.some.inj h
      exact .blank hblank .nil
    | case3 => cases h
    | case4 high low rest hblank ih => exact .blank hblank (ih h)
    | case5 high low rest _ _ _ bytes hbytes hlow hhigh ih =>
      obtain rfl := Option.some.inj h
      exact .pair hhigh hlow (ih hbytes)
    | case6 => cases h
  · intro h
    induction h with
    | nil => rfl
    | @blank c cs bs hblank _ ih =>
      cases cs with
      | nil => simpa [decode, hblank] using ih
      | cons d cs => rw [decode, if_pos hblank, ih]
    | pair hh hl _ ih =>
      rw [decode, isAsciiBlank_of_value? hh, if_neg Bool.false_ne_true, hh, hl, ih]

end Text.Hex

/-! ## Fractions -/

namespace Binary64

variable {x : Binary64} {n : ℤ}

theorem compareInt?_finite_eq_iff {negative : Bool} {significand unit : ℕ} :
    (finite negative significand unit).compareInt? n = some .eq ↔
      signed negative (scaled significand unit) = n * denominator := by
  rw [compareInt?, Option.some.injEq, compare_eq_iff_eq]
  rfl

/-- A number that is a whole one is cut off nowhere. -/
theorem truncate_of_compareInt? (h : x.compareInt? n = some .eq) : x.truncate = .ok n := by
  cases x with
  | nan => cases h
  | infinite negative => cases negative <;> cases h
  | finite negative significand unit =>
    rw [compareInt?_finite_eq_iff] at h
    have hpos : (denominator : ℤ) ≠ 0 := by
      rw [denominator, Nat.one_shiftLeft]
      positivity
    have hquotient {m : ℤ} (hm : (scaled significand unit : ℤ) = m * denominator) :
        ((scaled significand unit / denominator : ℕ) : ℤ) = m := by
      rw [Int.natCast_ediv, hm, Int.mul_ediv_cancel _ hpos]
    rw [truncate]
    cases negative with
    | false => exact congrArg Except.ok (hquotient h)
    | true =>
      have hneg : (scaled significand unit : ℤ) = -n * denominator := by
        rw [Int.neg_mul, ← h]
        exact (Int.neg_neg _).symm
      have hcut := hquotient hneg
      simp only [signed, if_true, hcut, Int.neg_neg]

end Binary64

/-! ## What values denote -/

namespace Token

variable {p : Partitioner}

/-- Whether a value denotes a whole number: it is that number, a fraction that equals it, or a
    numeral of it. -/
def DenotesInteger : Value → ℤ → Prop
  | .int m, n => m = n
  | .float x, n => x.compareInt? n = some .eq
  | .str s, n => Integer.IsNumeral s.toList n
  | .bytes bs, n => (∀ b ∈ bs, b.toNat < 0x80) ∧
      Integer.IsNumeral (bs.map fun b => Char.ofNat b.toNat) n
  | _, _ => False

/-- Whether a value denotes a position. -/
def Denotes : {p : Partitioner} → Value → p.Position → Prop
  | .murmur3, v, (n : ℤ) => DenotesInteger v n
  | .random, v, (n : ℤ) => DenotesInteger v n
  | .byteOrdered, v, bs => ∃ s, v = .str s ∧ Text.Hex.Spells s.toList bs
  | .orderPreserving, v, s => v = .str s

/-- Whether a value that is no numeral is read as a whole number all the same, or should be. -/
def IsMistakenInteger : Value → Prop
  | .bool _ => True
  | .float x => (∀ payload, x ≠ .nan payload) ∧ ∀ n : ℤ, x.compareInt? n ≠ some .eq
  | _ => False

/-- Whether a value is mistaken for something else. -/
def IsMistaken : Partitioner → Value → Prop
  | .murmur3, v => IsMistakenInteger v
  | .random, v => IsMistakenInteger v
  | .byteOrdered, _ => False
  | .orderPreserving, v => v ≠ .null ∧ ∀ s, v ≠ .str s

/-! ## Whole numbers -/

theorem readNumeral_ok_iff {v : Value} {cs : List Char} {n : ℤ} :
    readNumeral v cs = .ok n ↔ Integer.IsNumeral cs n := by
  rw [← Integer.read_eq_ok_iff, readNumeral]
  cases Integer.read cs <;> simp

theorem readNumeral_error {v : Value} {cs : List Char} {e : TokenError}
    (h : readNumeral v cs = .error e) : e = .badInteger v := by
  rw [readNumeral] at h
  split at h
  · cases h
  · exact (Except.error.inj h).symm

/-- Only an infinity is refused otherwise than as invalid. -/
theorem readInteger_error {v : Value} {e : TokenError} (h : readInteger v = .error e) :
    e = .badInteger v ∨ ∃ negative, v = .float (.infinite negative) := by
  cases v with
  | str s => exact .inl (readNumeral_error h)
  | bytes bs =>
    rw [readInteger] at h
    split_ifs at h
    · exact .inl (readNumeral_error h)
    · exact .inl (Except.error.inj h).symm
  | float x =>
    cases x with
    | infinite negative => exact .inr ⟨negative, rfl⟩
    | finite => cases h
    | nan => exact .inl (Except.error.inj h).symm
  | int | bool => cases h
  | _ => exact .inl (Except.error.inj h).symm

/-- A value is read as the whole number that it denotes. -/
theorem readInteger_of_denotes {v : Value} {n : ℤ} (h : DenotesInteger v n) :
    readInteger v = .ok n := by
  cases v with
  | str s => exact readNumeral_ok_iff.2 h
  | int m => exact congrArg Except.ok h
  | bytes bs =>
    have hascii : (bs.all fun b => b.toNat < 0x80) = true := by simpa using h.1
    rw [readInteger, if_pos hascii]
    exact readNumeral_ok_iff.2 h.2
  | float x =>
    rw [readInteger, Binary64.truncate_of_compareInt? h]
  | _ => exact h.elim

/-- What is read as a whole number denotes it, unless it is mistaken for one. -/
theorem denotes_of_readInteger {v : Value} {n : ℤ} (hv : ¬ IsMistakenInteger v)
    (h : readInteger v = .ok n) : DenotesInteger v n := by
  cases v with
  | str s => exact readNumeral_ok_iff.1 h
  | int m => exact Except.ok.inj h
  | bool b => exact absurd trivial hv
  | bytes bs =>
    rw [readInteger] at h
    split_ifs at h with hascii
    · exact ⟨by simpa using hascii, readNumeral_ok_iff.1 h⟩
  | float x =>
    by_cases hwhole : ∃ m : ℤ, x.compareInt? m = some .eq
    · obtain ⟨m, hm⟩ := hwhole
      have hread : readInteger (.float x) = .ok m := readInteger_of_denotes hm
      obtain rfl := Except.ok.inj (h.symm.trans hread)
      exact hm
    · -- what is no number is not read at all
      refine absurd ⟨?_, fun m hm => hwhole ⟨m, hm⟩⟩ hv
      rintro payload rfl
      cases h
  | _ => cases h

/-- **Values for whole numbers** are read as the number that they denote or refused as invalid, just
    if they are not mistaken for one. -/
theorem readInteger_exact_or_refused_iff (v : Value) :
    ((∃ e message, readInteger v = .error e ∧ e.toFault = .invalid message) ∨
        ∃ n, readInteger v = .ok n ∧ DenotesInteger v n) ↔ ¬ IsMistakenInteger v := by
  constructor
  · rintro (⟨e, message, hread, hfault⟩ | ⟨n, -, hn⟩) hv
    · cases v with
      | bool => cases hread
      | float x =>
        cases x with
        | infinite =>
          obtain rfl := Except.error.inj hread
          cases hfault
        | finite => cases hread
        | nan payload => exact hv.1 payload rfl
      | _ => exact hv
    · cases v with
      | bool => exact hn
      | float x => exact hv.2 n hn
      | _ => exact hv
  · intro hv
    cases hread : readInteger v with
    | ok n => exact .inr ⟨n, rfl, denotes_of_readInteger hv hread⟩
    | error e =>
      rcases readInteger_error hread with rfl | ⟨negative, rfl⟩
      · exact .inl ⟨_, _, rfl, rfl⟩
      · refine absurd ⟨by simp, fun n hn => ?_⟩ hv
        cases negative <;> cases hn

/-! ## Tokens -/

/-- Whether a value is refused as invalid. -/
def IsRefused (p : Partitioner) (v : Value) : Prop :=
  ∃ e message, read p v = .error e ∧ e.toFault = .invalid message

/-- Whether a value is read as a position that it denotes. -/
def IsExact (p : Partitioner) (v : Value) : Prop :=
  ∃ x : p.Position, read p v = .ok (.position x) ∧ Denotes v x

/-- Where positions are whole numbers, tokens are read as these are. -/
theorem exact_or_refused_of_integers (place : ℤ → p.Position)
    (hplace : ∀ x, ∃ n, place n = x) (v : Value)
    (hread : read p v = (readInteger v).map fun n => .position (place n))
    (hdenotes : ∀ n, Denotes v (place n) ↔ DenotesInteger v n) :
    (∀ x : p.Position, Denotes v x → read p v = .ok (.position x)) ∧
      (IsRefused p v ∨ IsExact p v ↔ ¬ IsMistakenInteger v) := by
  constructor
  · intro x hx
    obtain ⟨n, rfl⟩ := hplace x
    rw [hread, readInteger_of_denotes ((hdenotes n).1 hx)]
    rfl
  · rw [← readInteger_exact_or_refused_iff, IsRefused, IsExact, hread]
    cases hv : readInteger v with
    | error e => simp [Except.map]
    | ok n =>
      simp only [Except.map, reduceCtorEq, false_and, exists_false, false_or, Except.ok.injEq,
        position.injEq, exists_eq_left']
      exact hdenotes n

theorem readHex_ok_iff {v : Value} {bs : List UInt8} :
    readHex v = .ok bs ↔ ∃ s, v = .str s ∧ Text.Hex.Spells s.toList bs := by
  cases v with
  | str s =>
    simp only [readHex, Value.str.injEq, exists_eq_left', ← Text.Hex.decode_eq_some_iff]
    cases Text.Hex.decode s.toList <;> simp
  | _ => simp [readHex]

theorem readHex_error {v : Value} {e : TokenError} (h : readHex v = .error e) : e = .badHex v := by
  cases v with
  | str s =>
    simp only [readHex] at h
    split at h
    · cases h
    · exact (Except.error.inj h).symm
  | _ => exact (Except.error.inj h).symm

/-- Values are read as the positions that they denote, and refused as invalid if they denote none,
    just if they are not mistaken for something else. -/
theorem exact_or_refused (p : Partitioner) (v : Value) :
    (∀ x : p.Position, Denotes v x → read p v = .ok (.position x)) ∧
      (IsRefused p v ∨ IsExact p v ↔ ¬ IsMistaken p v) := by
  cases p with
  | murmur3 =>
    exact exact_or_refused_of_integers (p := .murmur3) (fun n => n)
      (fun x => ⟨x, rfl⟩) v rfl fun _ => Iff.rfl
  | random =>
    exact exact_or_refused_of_integers (p := .random) (fun n => n)
      (fun x => ⟨x, rfl⟩) v rfl fun _ => Iff.rfl
  | byteOrdered =>
    have hread : read .byteOrdered v =
        (readHex v).map fun bs => (.position bs : Token .byteOrdered) := rfl
    have hdenotes (bs : List UInt8) (h : Denotes (p := .byteOrdered) v bs) :
        read .byteOrdered v = .ok (.position bs) := by
      rw [hread, readHex_ok_iff.2 h]
      rfl
    refine ⟨hdenotes, iff_of_true ?_ not_false⟩
    cases hhex : readHex v with
    | ok bs =>
      have hbs := readHex_ok_iff.1 hhex
      exact .inr ⟨bs, hdenotes bs hbs, hbs⟩
    | error e =>
      obtain rfl := readHex_error hhex
      exact .inl ⟨_, _, by rw [hread, hhex]; rfl, rfl⟩
  | orderPreserving =>
    refine ⟨?_, ?_⟩
    · rintro x rfl
      rfl
    · cases v with
      | str s => exact iff_of_true (.inr ⟨s, rfl, rfl⟩) fun h => h.2 s rfl
      | null => exact iff_of_true (.inl ⟨_, _, rfl, rfl⟩) fun h => h.1 rfl
      | _ =>
        refine iff_of_false ?_ (not_not_intro ⟨by simp, by simp⟩)
        rintro (⟨e, message, h, -⟩ | ⟨x, h, -⟩) <;> cases h

/-- A text is not mistaken for anything. -/
theorem not_isMistaken_str (p : Partitioner) (s : String) : ¬ IsMistaken p (.str s) := by
  cases p with
  | orderPreserving => exact fun h => h.2 s rfl
  | _ => exact not_false

/-- A text that is not read as a token is refused as invalid. -/
theorem exists_invalid_of_ofText {s : String} {e : TokenError} (h : ofText p s = .error e) :
    ∃ message, e.toFault = .invalid message := by
  rcases (exact_or_refused p (.str s)).2.2 (not_isMistaken_str p s) with
    ⟨e', message, hread, he⟩ | ⟨x, hread, -⟩
  · obtain rfl := Except.error.inj (h.symm.trans hread)
    exact ⟨message, he⟩
  · cases h.symm.trans hread

/-- **Tokens are exact or refused**, but for the values that are mistaken for something else. A
    value that denotes a position is read as that position. All others are refused as invalid or
    mistaken: an infinity is then refused otherwise, and the rest is read as a token that it does
    not denote. -/
theorem exact_or_refused_iff (p : Partitioner) (v : Value) :
    (∀ x : p.Position, Denotes v x → read p v = .ok (.position x)) ∧
      (IsRefused p v ∨ IsExact p v ↔ ¬ IsMistaken p v) ∧
      (IsMistaken p v → read p v = .error .overflow ∨
        ∃ t, read p v = .ok t ∧ ∀ x : p.Position, t = .position x → ¬ Denotes v x) := by
  refine ⟨(exact_or_refused p v).1, (exact_or_refused p v).2, fun hv => ?_⟩
  have hnot : ¬ (IsRefused p v ∨ IsExact p v) := fun h => (exact_or_refused p v).2.1 h hv
  cases hread : read p v with
  | error e =>
    left
    cases e with
    | overflow => rfl
    | _ => exact absurd (.inl ⟨_, _, hread, rfl⟩) hnot
  | ok t => exact .inr ⟨t, rfl, fun x ht hx => hnot (.inr ⟨x, ht ▸ hread, hx⟩)⟩

/-- A fraction that equals a whole number. -/
def wholeFraction : Binary64 := .ofFraction true 12 4

/-- A fraction that equals no whole number. -/
def brokenFraction : Binary64 := .ofFraction false 3 2

theorem exact_or_refused_iff_wholeFraction :
    Denotes (p := .murmur3) (.float wholeFraction) (-3 : ℤ) ∧
      read .murmur3 (.float wholeFraction) = .ok (.position (-3 : ℤ)) := by
  have hdenotes : wholeFraction.compareInt? (-3) = some .eq := by decide +kernel
  exact ⟨hdenotes, (exact_or_refused_iff .murmur3 (.float wholeFraction)).1 (-3 : ℤ) hdenotes⟩

/-- A fraction loses what is behind the point, an infinity is refused as an overflow, a truth value
    counts as a number, and a number stays one where texts are the positions. -/
theorem mistaken_not_exact_or_refused :
    read .murmur3 (.float brokenFraction) = .ok (.position (1 : ℤ)) ∧
      ¬ Denotes (p := .murmur3) (.float brokenFraction) (1 : ℤ) ∧
      (read .murmur3 (.float (.infinite false))).mapError TokenError.toFault = .error .overflow ∧
      read .random (.bool true) = .ok (.position (1 : ℤ)) ∧
      read .orderPreserving (.int 5) = .ok (.foreign (.int 5)) := by
  have hcut : brokenFraction.truncate = .ok 1 := by decide +kernel
  have hne : brokenFraction.compareInt? 1 ≠ some .eq := by decide +kernel
  refine ⟨?_, hne, rfl, rfl, rfl⟩
  rw [read, readInteger, hcut]
  rfl

end Token

end RingScan

import RingScan.Proofs.Numeric.Rounding
import RingScan.Text.Template

set_option autoImplicit false

/-! # What the letters of templates ask for

Each letter of a directive asks for one of four things (`Template.conversion?`): a text of the
value, a whole number to a base, a binary fraction, or a single character. Which values give it, and
what is written then, is `Conversion.Writes`; which values are beyond what can be written is
`Conversion.Exceeds`. All other values do not suit the letter (`Conversion.run_eq_ok_iff`,
`Conversion.run_eq_error_iff`). -/

namespace RingScan.Text.Template

variable {f : Directive} {v : Value} {n : ℤ} {e : Failure} {text : List Char}

/-! ## What values give -/

/-- Whether a value counts as a whole number; truth values do. -/
inductive IsWhole : Value → ℤ → Prop where
  | int (n : ℤ) : IsWhole (.int n) n
  | bool (b : Bool) : IsWhole (.bool b) (if b then 1 else 0)

/-- Whether a value gives a whole number. If it may be cut, a fraction gives its whole part. -/
inductive HasNumber : Bool → Value → ℤ → Prop where
  | whole {cuts : Bool} {v : Value} {n : ℤ} : IsWhole v n → HasNumber cuts v n
  | part {x : Binary64} {n : ℤ} : x.truncate = .ok n → HasNumber true (.float x) n

/-- Whether a value gives a binary fraction; whole numbers below the bound are rounded to one. -/
inductive HasFraction : Value → Binary64 → Prop where
  | fraction (x : Binary64) : HasFraction (.float x) x
  | whole {v : Value} {n : ℤ} :
      IsWhole v n → n.natAbs < Binary64.bound → HasFraction v (Binary64.ofInt n)

/-- Whether a value gives a single character: it is a text of one symbol, or a code point. -/
inductive HasCharacter : Value → List Char → Prop where
  | symbol {s : String} : Surrogate.length s.toList = 1 → HasCharacter (.str s) s.toList
  | codePoint {v : Value} {n : ℤ} :
      IsWhole v n → 0 ≤ n ∧ n < 0x110000 → HasCharacter v (Surrogate.ofCodePoint n.toNat)

theorem exactNumber_of_isWhole (h : IsWhole v n) : exactNumber v = .ok n := by
  cases h <;> rfl

/-- A value is a whole number, or does not suit where one is wanted. -/
theorem exactNumber_cases (v : Value) : (∃ n, IsWhole v n) ∨ exactNumber v = .error .unfit := by
  cases v with
  | int n => exact .inl ⟨n, .int n⟩
  | bool b => exact .inl ⟨_, .bool b⟩
  | _ => exact .inr rfl

/-- A value as a whole number, cut if it may be. -/
def numberOf (cuts : Bool) (v : Value) : Except Failure ℤ :=
  if cuts then wholeNumber v else exactNumber v

theorem numberOf_of_hasNumber {cuts : Bool} (h : HasNumber cuts v n) : numberOf cuts v = .ok n := by
  cases h with
  | whole hn => cases hn <;> cases cuts <;> rfl
  | part hx =>
    rw [numberOf, if_pos rfl, wholeNumber, hx]

theorem numberOf_cases (cuts : Bool) (v : Value) :
    (∃ n, HasNumber cuts v n) ∨ (cuts = true ∧ ∃ negative, v = .float (.infinite negative)) ∨
      numberOf cuts v = .error .unfit := by
  cases v with
  | int n => exact .inl ⟨n, .whole (.int n)⟩
  | bool b => exact .inl ⟨_, .whole (.bool b)⟩
  | float x =>
    cases cuts with
    | false => exact .inr (.inr rfl)
    | true =>
      cases x with
      | finite => exact .inl ⟨_, .part rfl⟩
      | infinite negative => exact .inr (.inl ⟨rfl, negative, rfl⟩)
      | nan => exact .inr (.inr rfl)
  | _ => cases cuts <;> exact .inr (.inr rfl)

theorem unlessInfinite_of_ne {x : Binary64} (h : ∀ negative, x ≠ .infinite negative) :
    unlessInfinite x = .ok x := by
  cases x with
  | infinite negative => exact absurd rfl (h negative)
  | _ => rfl

theorem binaryFraction_of_isWhole (h : IsWhole v n) :
    binaryFraction v = unlessInfinite (Binary64.ofInt n) := by
  unfold binaryFraction
  split
  · cases h
  · rw [exactNumber_of_isWhole h, Except.bind]

/-- Whole numbers below the bound are rounded to a binary fraction. -/
theorem binaryFraction_of_lt (h : IsWhole v n) (hn : n.natAbs < Binary64.bound) :
    binaryFraction v = .ok (Binary64.ofInt n) := by
  rw [binaryFraction_of_isWhole h, unlessInfinite_of_ne]
  exact fun negative hinf => not_le.2 hn (Binary64.ofInt_eq_infinite_iff.1 ⟨negative, hinf⟩)

/-- Whole numbers from the bound on are not. -/
theorem binaryFraction_of_le (h : IsWhole v n) (hn : Binary64.bound ≤ n.natAbs) :
    binaryFraction v = .error .overflow := by
  obtain ⟨negative, hinf⟩ := Binary64.ofInt_eq_infinite_iff.2 hn
  rw [binaryFraction_of_isWhole h, hinf, unlessInfinite]

theorem binaryFraction_cases (v : Value) :
    (∃ x, v = .float x) ∨ (∃ n, IsWhole v n) ∨ binaryFraction v = .error .unfit := by
  cases v with
  | float x => exact .inl ⟨x, rfl⟩
  | int n => exact .inr (.inl ⟨n, .int n⟩)
  | bool b => exact .inr (.inl ⟨_, .bool b⟩)
  | _ => exact .inr (.inr rfl)

theorem singleChar_of_isWhole (h : IsWhole v n) :
    singleChar v = if 0 ≤ n ∧ n < 0x110000 then .ok (Surrogate.ofCodePoint n.toNat)
      else .error .overflow := by
  cases h <;> rfl

theorem singleChar_cases (v : Value) :
    (∃ s, v = .str s ∧ Surrogate.length s.toList = 1) ∨ (∃ n, IsWhole v n) ∨
      singleChar v = .error .unfit := by
  cases v with
  | str s =>
    by_cases hs : Surrogate.length s.toList = 1
    · exact .inl ⟨s, rfl, hs⟩
    · exact .inr (.inr (if_neg hs))
  | int n => exact .inr (.inl ⟨n, .int n⟩)
  | bool b => exact .inr (.inl ⟨_, .bool b⟩)
  | _ => exact .inr (.inr rfl)

/-! ## Letters -/

/-- What a letter asks for. -/
inductive Conversion where
  /-- A text of the value. -/
  | text (ofValue : Value → List Char)
  /-- A whole number to a base, with a mark of the base if so wanted. -/
  | whole (base : ℕ) (mark : List Char) (upper cuts : Bool)
  /-- A binary fraction in a style. -/
  | fraction (style : Char) (upper : Bool)
  /-- A single character. -/
  | character

/-- What letters ask for. -/
def conversion? : Char → Option Conversion
  | 's' => some (.text Value.display)
  | 'r' => some (.text Value.literal)
  | 'a' => some (.text fun v => Quoted.toAscii v.literal)
  | 'd' | 'i' | 'u' => some (.whole 10 [] false true)
  | 'o' => some (.whole 8 ['0', 'o'] false false)
  | 'x' => some (.whole 16 ['0', 'x'] false false)
  | 'X' => some (.whole 16 ['0', 'x'] true false)
  | 'e' => some (.fraction 'e' false)
  | 'E' => some (.fraction 'e' true)
  | 'f' => some (.fraction 'f' false)
  | 'F' => some (.fraction 'f' true)
  | 'g' => some (.fraction 'g' false)
  | 'G' => some (.fraction 'g' true)
  | 'c' => some .character
  | _ => none

namespace Conversion

variable {k : Conversion}

/-- What a directive writes if it asks for this. -/
def run (f : Directive) (v : Value) : Conversion → Except Failure (List Char)
  | .text ofValue => .ok (f.text (ofValue v))
  | .whole base mark upper cuts =>
      (numberOf cuts v).bind (f.whole base mark upper)
  | .fraction style upper => (binaryFraction v).map (f.fraction style upper)
  | .character => (singleChar v).map f.align

/-- What is written for a value that gives what is asked for. -/
inductive Writes (f : Directive) : Conversion → Value → List Char → Prop where
  | text {ofValue : Value → List Char} {v : Value} : Writes f (.text ofValue) v (f.text (ofValue v))
  | whole {base : ℕ} {mark : List Char} {upper cuts : Bool} {v : Value} {n : ℤ} :
      HasNumber cuts v n → f.precision?.getD 1 ≤ maxDigits →
        Writes f (.whole base mark upper cuts) v
          (f.alignNumber (f.sign (n < 0) ++ cased upper (if f.alternate then mark else []))
            (cased upper
              (Decimal.padZeros (f.precision?.getD 1) (Nat.toDigits base n.natAbs))))
  | fraction {style : Char} {upper : Bool} {v : Value} {x : Binary64} :
      HasFraction v x → Writes f (.fraction style upper) v (f.fraction style upper x)
  | character {v : Value} {cs : List Char} :
      HasCharacter v cs → Writes f .character v (f.align cs)

/-- Whether a value is beyond what can be written: an infinity has no whole part, a whole number
    has no more than so many digits, a binary fraction ends at the bound, and so do code points. -/
inductive Exceeds (f : Directive) : Conversion → Value → Prop where
  | infinite {base : ℕ} {mark : List Char} {upper negative : Bool} :
      Exceeds f (.whole base mark upper true) (.float (.infinite negative))
  | digits {base : ℕ} {mark : List Char} {upper cuts : Bool} {v : Value} {n : ℤ} :
      HasNumber cuts v n → maxDigits < f.precision?.getD 1 →
        Exceeds f (.whole base mark upper cuts) v
  | fraction {style : Char} {upper : Bool} {v : Value} {n : ℤ} :
      IsWhole v n → Binary64.bound ≤ n.natAbs → Exceeds f (.fraction style upper) v
  | codePoint {v : Value} {n : ℤ} :
      IsWhole v n → ¬ (0 ≤ n ∧ n < 0x110000) → Exceeds f .character v

theorem run_of_writes (h : k.Writes f v text) : k.run f v = .ok text := by
  cases h with
  | text => rfl
  | whole hn hlength =>
    rw [run, numberOf_of_hasNumber hn, Except.bind, Directive.whole, if_neg (not_lt.2 hlength)]
  | fraction hx =>
    cases hx with
    | fraction x => rfl
    | whole hn hbelow => rw [run, binaryFraction_of_lt hn hbelow, Except.map]
  | character hcs =>
    cases hcs with
    | symbol hs => rw [run, singleChar, if_pos hs, Except.map]
    | codePoint hn hrange => rw [run, singleChar_of_isWhole hn, if_pos hrange, Except.map]

theorem run_of_exceeds (h : k.Exceeds f v) : k.run f v = .error .overflow := by
  cases h with
  | infinite => rfl
  | digits hn hlength =>
    rw [run, numberOf_of_hasNumber hn, Except.bind, Directive.whole, if_pos hlength]
  | fraction hn hbeyond => rw [run, binaryFraction_of_le hn hbeyond, Except.map]
  | codePoint hn hrange => rw [run, singleChar_of_isWhole hn, if_neg hrange, Except.map]

/-- What is asked for is written, or it exceeds, or the value does not suit. -/
theorem run_cases (k : Conversion) (f : Directive) (v : Value) :
    (∃ text, k.Writes f v text) ∨ k.Exceeds f v ∨ k.run f v = .error .unfit := by
  cases k with
  | text ofValue => exact .inl ⟨_, .text⟩
  | whole base mark upper cuts =>
    rcases numberOf_cases cuts v with ⟨n, hn⟩ | ⟨rfl, negative, rfl⟩ | hunfit
    · rcases le_or_gt (f.precision?.getD 1) maxDigits with hlength | hlength
      · exact .inl ⟨_, .whole hn hlength⟩
      · exact .inr (.inl (.digits hn hlength))
    · exact .inr (.inl .infinite)
    · exact .inr (.inr (by rw [run, hunfit, Except.bind]))
  | fraction style upper =>
    rcases binaryFraction_cases v with ⟨x, rfl⟩ | ⟨n, hn⟩ | hunfit
    · exact .inl ⟨_, .fraction (.fraction x)⟩
    · rcases lt_or_ge n.natAbs Binary64.bound with hbelow | hbeyond
      · exact .inl ⟨_, .fraction (.whole hn hbelow)⟩
      · exact .inr (.inl (.fraction hn hbeyond))
    · exact .inr (.inr (by rw [run, hunfit, Except.map]))
  | character =>
    rcases singleChar_cases v with ⟨s, rfl, hs⟩ | ⟨n, hn⟩ | hunfit
    · exact .inl ⟨_, .character (.symbol hs)⟩
    · by_cases hrange : 0 ≤ n ∧ n < 0x110000
      · exact .inl ⟨_, .character (.codePoint hn hrange)⟩
      · exact .inr (.inl (.codePoint hn hrange))
    · exact .inr (.inr (by rw [run, hunfit, Except.map]))

/-- **What is written is told by what the value gives.** -/
theorem run_eq_ok_iff : k.run f v = .ok text ↔ k.Writes f v text := by
  refine ⟨fun h => ?_, run_of_writes⟩
  rcases run_cases k f v with ⟨text', hwrites⟩ | hexceeds | hunfit
  · obtain rfl := Except.ok.inj ((run_of_writes hwrites).symm.trans h)
    exact hwrites
  · cases (run_of_exceeds hexceeds).symm.trans h
  · cases hunfit.symm.trans h

/-- What fails, and not because the value does not suit, is beyond what can be written. -/
theorem run_eq_error_iff (he : e ≠ .unfit) :
    k.run f v = .error e ↔ e = .overflow ∧ k.Exceeds f v := by
  constructor
  · intro h
    rcases run_cases k f v with ⟨text', hwrites⟩ | hexceeds | hunfit
    · cases (run_of_writes hwrites).symm.trans h
    · exact ⟨(Except.error.inj ((run_of_exceeds hexceeds).symm.trans h)).symm, hexceeds⟩
    · exact absurd (Except.error.inj (hunfit.symm.trans h)).symm he
  · rintro ⟨rfl, hexceeds⟩
    exact run_of_exceeds hexceeds

/-- Whether something can be written does not depend on the width. -/
theorem Writes.resize (h : k.Writes f v text) (width : ℕ) :
    ∃ text', k.Writes { f with width := width } v text' := by
  cases h with
  | text => exact ⟨_, .text⟩
  | whole hn hlength => exact ⟨_, .whole hn hlength⟩
  | fraction hx => exact ⟨_, .fraction hx⟩
  | character hcs => exact ⟨_, .character hcs⟩

theorem Exceeds.resize (h : k.Exceeds f v) (width : ℕ) :
    k.Exceeds { f with width := width } v := by
  cases h with
  | infinite => exact .infinite
  | digits hn hlength => exact .digits hn hlength
  | fraction hn hbeyond => exact .fraction hn hbeyond
  | codePoint hn hrange => exact .codePoint hn hrange

theorem run_resize (h : k.run f v = .error .unfit) (width : ℕ) :
    k.run { f with width := width } v = .error .unfit := by
  rcases run_cases k { f with width := width } v with ⟨text, hwrites⟩ | hexceeds | hunfit
  · obtain ⟨text', hsame⟩ := hwrites.resize f.width
    cases (run_of_writes hsame).symm.trans h
  · cases (run_of_exceeds (hexceeds.resize f.width)).symm.trans h
  · exact hunfit

end Conversion

/-- A directive writes what its letter asks for; other letters do not suit. -/
theorem write_eq (letter : Char) :
    f.write letter v = (conversion? letter).elim (.error .unfit) fun k => k.run f v := by
  unfold Directive.write
  split
  case h_17 =>
    have hnone : conversion? letter = none := by
      unfold conversion?
      split <;> first | rfl | contradiction
    rw [hnone, Option.elim_none]
  all_goals rfl

end RingScan.Text.Template

import RingScan.Fault

set_option autoImplicit false

/-! # Halves of pairs

Characters beyond the first plane can be written as a pair of numbers, and what writes pairs can
write a half alone. A lone half is no character, yet texts with one in them are passed on and shown
like all others; only their bytes cannot be asked for.

A *held* text can have halves in it. A half is held by a mark and a stand-in behind it, and the
character that serves as the mark is held by two of them. So plain texts, those without halves, are
the held texts in which marks come in twos (`plain?_eq_some_iff`), and what a held text is made of
are its *symbols*, each of which is a character or a half. -/

namespace RingScan.Text.Surrogate

/-! ## Halves -/

/-- Whether a number is that of a half. -/
def isHalf (n : Nat) : Bool := 0xd800 ≤ n && n < 0xe000

/-- The code point of a pair, if the two numbers form one. -/
def join? (high low : Nat) : Option Nat :=
  if 0xd800 ≤ high ∧ high < 0xdc00 ∧ 0xdc00 ≤ low ∧ low < 0xe000 then
    some (0x10000 + (high - 0xd800) * 0x400 + (low - 0xdc00))
  else none

/-- No character has the number of a half. -/
theorem not_isHalf_toNat (c : Char) : ¬ isHalf c.toNat = true := by
  have valid : c.toNat.isValidChar := c.valid
  simp only [isHalf, Bool.and_eq_true, decide_eq_true_eq]
  rcases valid with h | h <;> omega

/-! ## Holding -/

/-- The mark in front of a stand-in. -/
def mark : Char := Char.ofNat 0x10fffe

/-- How far the stand-ins are from the halves. -/
def distance : Nat := 0x100000

/-- The stand-in for a half. -/
def standIn (n : Nat) : Char := Char.ofNat (distance + n)

/-- The half that a character stands in for behind a mark. -/
def half? (c : Char) : Option Nat :=
  if isHalf (c.toNat - distance) then some (c.toNat - distance) else none

/-- Every half is known by its stand-in. -/
theorem half?_standIn {n : Nat} (h : isHalf n = true) : half? (standIn n) = some n := by
  have bounds : 0xd800 ≤ n ∧ n < 0xe000 := by simpa [isHalf] using h
  have valid : (distance + n).isValidChar := Or.inr (by simp only [distance]; omega)
  have place : (standIn n).toNat = distance + n := by
    rw [standIn, Char.ofNat, dif_pos valid]
    rfl
  simp [half?, place, h]

/-- A character as texts hold it. -/
def hold (c : Char) : List Char := if c = mark then [mark, mark] else [c]

/-- A code point as texts hold it, whether it is that of a character or a half. -/
def ofCodePoint (n : Nat) : List Char :=
  if isHalf n then [mark, standIn n] else hold (Char.ofNat n)

/-- The characters of a held text, if there are no halves in it. -/
def plain? : List Char → Option (List Char)
  | [] => some []
  | [c] => if c = mark then none else some [c]
  | c :: d :: rest =>
      if c = mark then if d = mark then (plain? rest).map (c :: ·) else none
      else (plain? (d :: rest)).map (c :: ·)

theorem plain?_hold (c : Char) (cs : List Char) :
    plain? (hold c ++ cs) = (plain? cs).map (c :: ·) := by
  by_cases h : c = mark
  · subst h
    simp [hold, plain?]
  · cases cs <;> simp [hold, h, plain?]

/-- What is plain is held in one way. -/
theorem plain?_eq_some_iff {t s : List Char} : plain? t = some s ↔ t = s.flatMap hold := by
  constructor
  · intro h
    fun_induction plain? t generalizing s with
    | case1 => simp_all
    | case2 => simp at h
    | case3 c hc =>
      obtain rfl := Option.some.inj h
      simp [hold, hc]
    | case4 rest ih =>
      obtain ⟨u, hu, rfl⟩ := Option.map_eq_some_iff.1 h
      simp [hold, ih hu]
    | case5 => simp at h
    | case6 c d rest hc ih =>
      obtain ⟨u, hu, rfl⟩ := Option.map_eq_some_iff.1 h
      simp [hold, hc, ih hu]
  · rintro rfl
    induction s with
    | nil => rfl
    | cons c cs ih => rw [List.flatMap_cons, plain?_hold, ih, Option.map_some]

/-- A text as it is held. -/
def held (s : String) : String := String.ofList (s.toList.flatMap hold)

/-- Whether there are no halves in a text. -/
def isPlain (s : String) : Bool := (plain? s.toList).isSome

/-- A held text without its marks, if its bytes can be asked for. -/
def plain (s : String) : Except Fault String :=
  match plain? s.toList with
  | some cs => .ok (String.ofList cs)
  | none => .error .unencodable

/-! ## Symbols -/

/-- The code point that a character stands for behind a mark. -/
def marked? (c : Char) : Option Nat := if c = mark then some mark.toNat else half? c

/-- The symbols of a held text. A mark that stands before nothing is one as well. -/
def symbols : List Char → List (List Char)
  | [] => []
  | [c] => [[c]]
  | c :: d :: rest =>
      if c = mark ∧ (marked? d).isSome then [c, d] :: symbols rest else [c] :: symbols (d :: rest)

/-- The code point of a symbol. A mark that stands before nothing comes behind all of them. -/
def codePoint : List Char → Nat
  | [c] => if c = mark then 0x110000 else c.toNat
  | [_, d] => (marked? d).getD 0
  | _ => 0

/-- Nothing of a text is lost among its symbols. -/
theorem flatten_symbols (cs : List Char) : (symbols cs).flatten = cs := by
  fun_induction symbols cs <;> simp_all

/-- A character that is held is one symbol. -/
theorem symbols_hold (c : Char) (cs : List Char) : symbols (hold c ++ cs) = hold c :: symbols cs := by
  by_cases h : c = mark
  · subst h
    simp [hold, symbols, marked?]
  · cases cs <;> simp [hold, h, symbols]

/-- A code point that is held is one symbol, whether it is that of a character or a half. -/
theorem symbols_ofCodePoint (n : Nat) (cs : List Char) :
    symbols (ofCodePoint n ++ cs) = ofCodePoint n :: symbols cs := by
  by_cases h : isHalf n = true
  · simp only [ofCodePoint, if_pos h, List.cons_append, List.nil_append, symbols]
    rw [if_pos ⟨trivial, by by_cases hm : standIn n = mark <;> simp [marked?, hm, half?_standIn h]⟩]
  · simp only [ofCodePoint, if_neg h, symbols_hold]

/-- How many symbols a text has. -/
def length (cs : List Char) : Nat := (symbols cs).length

/-- The first symbols of a text. -/
def take (n : Nat) (cs : List Char) : List Char := ((symbols cs).take n).flatten

end RingScan.Text.Surrogate

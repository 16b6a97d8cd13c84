set_option autoImplicit false

/-! # UTF-8

Characters as one to four bytes, and the strict decoder: no overlong form, no surrogate, nothing
above the last code point, no torn sequence. -/

namespace RingScan.Text.Utf8

/-- The bytes of a character. -/
def encodeChar (c : Char) : List UInt8 :=
  let n := c.toNat
  if n < 0x80 then [UInt8.ofNat n]
  else if n < 0x800 then [UInt8.ofNat (0xc0 + n / 0x40), UInt8.ofNat (0x80 + n % 0x40)]
  else if n < 0x10000 then
    [UInt8.ofNat (0xe0 + n / 0x1000), UInt8.ofNat (0x80 + n / 0x40 % 0x40),
      UInt8.ofNat (0x80 + n % 0x40)]
  else
    [UInt8.ofNat (0xf0 + n / 0x40000), UInt8.ofNat (0x80 + n / 0x1000 % 0x40),
      UInt8.ofNat (0x80 + n / 0x40 % 0x40), UInt8.ofNat (0x80 + n % 0x40)]

/-- The bytes of a text. -/
def encode : List Char → List UInt8
  | [] => []
  | c :: rest => encodeChar c ++ encode rest

/-- The six bits that a continuation byte carries. -/
def continuation? (b : UInt8) : Option Nat :=
  let n := b.toNat
  if 0x80 ≤ n ∧ n < 0xc0 then some (n - 0x80) else none

/-- The character with the given code point, if there is one and if no shorter sequence could have
    told it: `least` is the first code point that needs a sequence of this length. -/
def char? (least n : Nat) : Option Char :=
  if least ≤ n ∧ n.isValidChar then some (Char.ofNat n) else none

/-- The character of a two-byte sequence. -/
def two? (a b : UInt8) : Option Char := do
  guard (0xc0 ≤ a.toNat)
  let y ← continuation? b
  char? 0x80 ((a.toNat - 0xc0) * 0x40 + y)

/-- The character of a three-byte sequence. -/
def three? (a b c : UInt8) : Option Char := do
  let y ← continuation? b
  let z ← continuation? c
  char? 0x800 ((a.toNat - 0xe0) * 0x1000 + y * 0x40 + z)

/-- The character of a four-byte sequence. -/
def four? (a b c d : UInt8) : Option Char := do
  let y ← continuation? b
  let z ← continuation? c
  let w ← continuation? d
  char? 0x10000 ((a.toNat - 0xf0) * 0x40000 + y * 0x1000 + z * 0x40 + w)

/-- A character in front of a text, if both are there. -/
def cons? : Option Char → Option (List Char) → Option (List Char)
  | some c, some cs => some (c :: cs)
  | _, _ => none

/-- The text of a sequence of bytes, if it is one. The first byte of a character tells how many
    belong to it. -/
def decode : List UInt8 → Option (List Char)
  | [] => some []
  | a :: tail =>
      if a.toNat < 0x80 then cons? (char? 0 a.toNat) (decode tail)
      else match tail with
        | [] => none
        | b :: tail =>
            if a.toNat < 0xe0 then cons? (two? a b) (decode tail)
            else match tail with
              | [] => none
              | c :: tail =>
                  if a.toNat < 0xf0 then cons? (three? a b c) (decode tail)
                  else match tail with
                    | [] => none
                    | d :: tail => cons? (four? a b c d) (decode tail)

end RingScan.Text.Utf8

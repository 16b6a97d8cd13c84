import RingScan.Text.Blank

set_option autoImplicit false

/-! # Hexadecimal

Digits, bytes as pairs of lower-case digits, and the reader of such texts, which takes either case
and lets ASCII white space stand between the pairs. -/

namespace RingScan.Text.Hex

/-- The digit of a value below sixteen, in lower case. -/
def digit (n : Nat) : Char :=
  if n < 10 then Char.ofNat (48 + n) else Char.ofNat (87 + n)

/-- The value of a digit of either case. -/
def value? (c : Char) : Option Nat :=
  let n := c.toNat
  if 48 ≤ n ∧ n ≤ 57 then some (n - 48)
  else if 97 ≤ n ∧ n ≤ 102 then some (n - 87)
  else if 65 ≤ n ∧ n ≤ 70 then some (n - 55)
  else none

/-- The lowest `width` digits of a number, the most significant one first. -/
def fixed : (width : Nat) → Nat → List Char
  | 0, _ => []
  | width + 1, n => fixed width (n / 16) ++ [digit (n % 16)]

/-- Two lower-case digits for every byte. -/
def encode : List UInt8 → List Char
  | [] => []
  | b :: rest => digit (b.toNat / 16) :: digit (b.toNat % 16) :: encode rest

/-- The bytes of a hexadecimal text; a pair of digits must not be torn apart. -/
def decode : List Char → Option (List UInt8)
  | [] => some []
  | [c] => if isAsciiBlank c then some [] else none
  | high :: low :: rest =>
      if isAsciiBlank high then decode (low :: rest)
      else
        match value? high, value? low, decode rest with
        | some h, some l, some bytes => some (UInt8.ofNat (16 * h + l) :: bytes)
        | _, _, _ => none

/-- The value of a text of digits, read as one number. -/
def number? (cs : List Char) : Option Nat :=
  cs.foldlM (fun n c => (value? c).map (16 * n + ·)) 0

end RingScan.Text.Hex

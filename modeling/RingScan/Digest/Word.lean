set_option autoImplicit false

/-! # Bytes and numbers

Byte strings as numbers, in both byte orders, and cut into blocks. -/

namespace RingScan.Digest

/-- The number whose bytes these are, the least significant one first. -/
def littleEndian : List UInt8 → Nat
  | [] => 0
  | b :: rest => b.toNat + 256 * littleEndian rest

/-- The lowest `count` bytes of a number, the least significant one first. -/
def littleEndianBytes : (count : Nat) → Nat → List UInt8
  | 0, _ => []
  | count + 1, n => UInt8.ofNat n :: littleEndianBytes count (n / 256)

/-- The number whose bytes these are, the most significant one first. -/
def bigEndian (bytes : List UInt8) : Nat := littleEndian bytes.reverse

/-- A number of that many bits as a signed one in two's complement. -/
def twosComplement (bits n : Nat) : Int := (n : Int).bmod (1 <<< bits)

/-- A list cut into `count` blocks of `size` items from its front. -/
def blocks {α : Type} (size : Nat) : (count : Nat) → List α → List (List α)
  | 0, _ => []
  | count + 1, items => items.take size :: blocks size count (items.drop size)

end RingScan.Digest

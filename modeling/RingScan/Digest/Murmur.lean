import RingScan.Digest.Word

set_option autoImplicit false

/-! # The Murmur3 hash

The 128-bit variant for 64-bit words with seed zero. Blocks of two words go through the state; a
last block that is not full is filled up with zeros and only its words are mixed in. The hash of a
key is taken from the package `mmh3`, whose `hash64` this follows as it is documented; of the two
words that it returns the first one is given. -/

namespace RingScan.Digest.Murmur

/-- The two words that every block changes. -/
structure State where
  h : UInt64
  k : UInt64

/-- A word rotated to the left. -/
def rotateLeft (x n : UInt64) : UInt64 := (x <<< n) ||| (x >>> (64 - n))

/-- The factor that the first word of a block meets first. -/
def firstFactor : UInt64 := 0x87c37b91114253d5

/-- The factor that the second word of a block meets first. -/
def secondFactor : UInt64 := 0x4cf5ad432745937f

/-- The first word of a block as it enters the state. -/
def scrambleFirst (x : UInt64) : UInt64 := rotateLeft (x * firstFactor) 31 * secondFactor

/-- The second word of a block as it enters the state. -/
def scrambleSecond (x : UInt64) : UInt64 := rotateLeft (x * secondFactor) 33 * firstFactor

/-- The word in the first eight bytes of a block. -/
def firstWord (block : List UInt8) : UInt64 := UInt64.ofNat (littleEndian (block.take 8))

/-- The word in the last eight bytes of a block. -/
def secondWord (block : List UInt8) : UInt64 := UInt64.ofNat (littleEndian (block.drop 8))

/-- The state after a full block of sixteen bytes. -/
def absorb (s : State) (block : List UInt8) : State :=
  let h := (rotateLeft (s.h ^^^ scrambleFirst (firstWord block)) 27 + s.k) * 5 + 0x52dce729
  let k := (rotateLeft (s.k ^^^ scrambleSecond (secondWord block)) 31 + h) * 5 + 0x38495ab5
  ⟨h, k⟩

/-- The state after what is left behind the last full block. -/
def absorbTail (s : State) (tail : List UInt8) : State :=
  ⟨s.h ^^^ scrambleFirst (firstWord tail), s.k ^^^ scrambleSecond (secondWord tail)⟩

/-- A word with its bits spread all over it. -/
def avalanche (x : UInt64) : UInt64 :=
  let x := (x ^^^ (x >>> 33)) * 0xff51afd7ed558ccd
  let x := (x ^^^ (x >>> 33)) * 0xc4ceb9fe1a85ec53
  x ^^^ (x >>> 33)

/-- The state after the length of the message is mixed in and all bits are spread. -/
def finish (s : State) (length : UInt64) : State :=
  let h := s.h ^^^ length
  let k := s.k ^^^ length
  let h := h + k
  let k := k + h
  let h := avalanche h
  let k := avalanche k
  let h := h + k
  ⟨h, k + h⟩

/-- The first word of the hash of a message, as an unsigned number. -/
def hash (message : List UInt8) : UInt64 :=
  let count := message.length / 16
  let s := (blocks 16 count message).foldl absorb ⟨0, 0⟩
  (finish (absorbTail s (message.drop (16 * count))) (UInt64.ofNat message.length)).h

end RingScan.Digest.Murmur

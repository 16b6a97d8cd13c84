import RingScan.Digest.Word

set_option autoImplicit false

/-! # The MD5 digest

Blocks of sixteen little-endian words go through four rounds of sixteen steps on a state of four
words. -/

namespace RingScan.Digest.Md5

/-- The four words that every block changes. -/
structure State where
  a : UInt32
  b : UInt32
  c : UInt32
  d : UInt32

/-- The state before the first block. -/
def State.initial : State := ⟨0x67452301, 0xefcdab89, 0x98badcfe, 0x10325476⟩

/-- The whole parts of `2 ^ 32 * |sin (i + 1)|`, one for every step. -/
def sines : List UInt32 := [
  0xd76aa478, 0xe8c7b756, 0x242070db, 0xc1bdceee, 0xf57c0faf, 0x4787c62a, 0xa8304613, 0xfd469501,
  0x698098d8, 0x8b44f7af, 0xffff5bb1, 0x895cd7be, 0x6b901122, 0xfd987193, 0xa679438e, 0x49b40821,
  0xf61e2562, 0xc040b340, 0x265e5a51, 0xe9b6c7aa, 0xd62f105d, 0x02441453, 0xd8a1e681, 0xe7d3fbc8,
  0x21e1cde6, 0xc33707d6, 0xf4d50d87, 0x455a14ed, 0xa9e3e905, 0xfcefa3f8, 0x676f02d9, 0x8d2a4c8a,
  0xfffa3942, 0x8771f681, 0x6d9d6122, 0xfde5380c, 0xa4beea44, 0x4bdecfa9, 0xf6bb4b60, 0xbebfbc70,
  0x289b7ec6, 0xeaa127fa, 0xd4ef3085, 0x04881d05, 0xd9d4d039, 0xe6db99e5, 0x1fa27cf8, 0xc4ac5665,
  0xf4292244, 0x432aff97, 0xab9423a7, 0xfc93a039, 0x655b59c3, 0x8f0ccc92, 0xffeff47d, 0x85845dd1,
  0x6fa87e4f, 0xfe2ce6e0, 0xa3014314, 0x4e0811a1, 0xf7537e82, 0xbd3af235, 0x2ad7d2bb, 0xeb86d391]

/-- How far the steps of a round rotate, over and over. -/
def rotations : Nat → List UInt32
  | 0 => [7, 12, 17, 22]
  | 1 => [5, 9, 14, 20]
  | 2 => [4, 11, 16, 23]
  | _ => [6, 10, 15, 21]

/-- The way in which a round mixes three words. -/
def mix (round : Nat) (x y z : UInt32) : UInt32 :=
  match round with
  | 0 => (x &&& y) ||| (~~~x &&& z)
  | 1 => (x &&& z) ||| (y &&& ~~~z)
  | 2 => x ^^^ y ^^^ z
  | _ => y ^^^ (x ||| ~~~z)

/-- The word of the block that a step reads. -/
def wordIndex (round step : Nat) : Nat :=
  match round with
  | 0 => step % 16
  | 1 => (5 * step + 1) % 16
  | 2 => (3 * step + 5) % 16
  | _ => 7 * step % 16

/-- A word rotated to the left. -/
def rotateLeft (x n : UInt32) : UInt32 := (x <<< n) ||| (x >>> (32 - n))

/-- One step of sixty-four. -/
def step (words : List UInt32) (s : State) (i : Nat) (sine : UInt32) : State :=
  let round := i / 16
  let word := words.getD (wordIndex round i) 0
  let sum := s.a + mix round s.b s.c s.d + word + sine
  ⟨s.d, s.b + rotateLeft sum ((rotations round).getD (i % 4) 0), s.b, s.c⟩

/-- The steps from one step on. -/
def steps (words : List UInt32) (s : State) (i : Nat) : List UInt32 → State
  | [] => s
  | sine :: rest => steps words (step words s i sine) (i + 1) rest

/-- The state after a block of sixty-four bytes. -/
def absorb (s : State) (block : List UInt8) : State :=
  let words := (blocks 4 16 block).map fun bytes => UInt32.ofNat (littleEndian bytes)
  let t := steps words s 0 sines
  ⟨s.a + t.a, s.b + t.b, s.c + t.c, s.d + t.d⟩

/-- A message filled up to whole blocks: a one bit, zeros, and the length in bits. -/
def pad (message : List UInt8) : List UInt8 :=
  let zeros := (119 - message.length % 64) % 64
  message ++ 0x80 :: List.replicate zeros 0 ++ littleEndianBytes 8 (8 * message.length)

/-- The sixteen bytes of a state. -/
def State.bytes (s : State) : List UInt8 :=
  [s.a, s.b, s.c, s.d].flatMap fun word => littleEndianBytes 4 word.toNat

/-- The digest of a message: sixteen bytes. -/
def digest (message : List UInt8) : List UInt8 :=
  let padded := pad message
  ((blocks 64 (padded.length / 64) padded).foldl absorb .initial).bytes

end RingScan.Digest.Md5

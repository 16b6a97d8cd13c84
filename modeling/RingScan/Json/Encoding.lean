import RingScan.Text.Surrogate
import RingScan.Text.Utf8

set_option autoImplicit false

/-! # The encodings of JSON texts

The bytes of a JSON text are in one of the Unicode encodings, with or without a byte-order mark.
Without a mark the zeros among the first bytes tell which one it is, since a JSON text starts with
an ASCII character. In all encodings halves of pairs are let through. -/

namespace RingScan.Json

/-- An encoding of texts. -/
inductive Encoding where
  | utf8
  | utf16 (bigEndian : Bool)
  | utf32 (bigEndian : Bool)
  deriving DecidableEq

namespace Encoding

/-- The encoding of a text without a mark, by its first bytes. -/
def ofZeros : List UInt8 → Encoding
  | 0 :: 0 :: _ :: _ :: _ => .utf32 true
  | 0 :: _ :: _ :: _ :: _ => .utf16 true
  | _ :: 0 :: 0 :: 0 :: _ => .utf32 false
  | _ :: 0 :: _ :: _ :: _ => .utf16 false
  | [0, _] => .utf16 true
  | [_, 0] => .utf16 false
  | _ => .utf8

/-- The encoding of a text, and its bytes without a mark. -/
def detect : List UInt8 → Encoding × List UInt8
  | 0x00 :: 0x00 :: 0xfe :: 0xff :: rest => (.utf32 true, rest)
  | 0xff :: 0xfe :: 0x00 :: 0x00 :: rest => (.utf32 false, rest)
  | 0xfe :: 0xff :: rest => (.utf16 true, rest)
  | 0xff :: 0xfe :: rest => (.utf16 false, rest)
  | 0xef :: 0xbb :: 0xbf :: rest => (.utf8, rest)
  | bs => (ofZeros bs, bs)

/-! ## Reading -/

/-- The number that two bytes denote. -/
def pairOf (bigEndian : Bool) (a b : UInt8) : Nat :=
  if bigEndian then 256 * a.toNat + b.toNat else 256 * b.toNat + a.toNat

/-- The code units of a text, two bytes each. -/
def units (bigEndian : Bool) : List UInt8 → Option (List Nat)
  | [] => some []
  | [_] => none
  | a :: b :: rest => (units bigEndian rest).map (pairOf bigEndian a b :: ·)

/-- The characters of code units. -/
def joinUnits : List Nat → List Char
  | [] => []
  | [n] => Text.Surrogate.ofCodePoint n
  | n :: m :: rest =>
      match Text.Surrogate.join? n m with
      | some code => Text.Surrogate.ofCodePoint code ++ joinUnits rest
      | none => Text.Surrogate.ofCodePoint n ++ joinUnits (m :: rest)

/-- The characters of a text, four bytes each. -/
def wideChars (bigEndian : Bool) : List UInt8 → Option (List Char)
  | [] => some []
  | a :: b :: c :: d :: rest =>
      let first := pairOf bigEndian a b
      let second := pairOf bigEndian c d
      let n := if bigEndian then 0x10000 * first + second else 0x10000 * second + first
      if n < 0x110000 then (wideChars bigEndian rest).map (Text.Surrogate.ofCodePoint n ++ ·)
      else none
  | _ => none

/-- The half that three bytes denote in UTF-8, were halves characters. -/
def tripleHalf? (a b c : UInt8) : Option Nat :=
  if a = 0xed ∧ 0xa0 ≤ b.toNat ∧ b.toNat < 0xc0 ∧ 0x80 ≤ c.toNat ∧ c.toNat < 0xc0 then
    some (0xd000 + (b.toNat - 0x80) * 0x40 + (c.toNat - 0x80))
  else none

/-- The characters of bytes in UTF-8 that hold no halves. -/
def plainChars (bs : List UInt8) : Option (List Char) :=
  (Text.Utf8.decode bs).map (List.flatMap Text.Surrogate.hold)

/-- The characters of a text in UTF-8, behind bytes that were read in reverse. -/
def narrowChars (done : List UInt8) : List UInt8 → Option (List Char)
  | a :: b :: c :: rest =>
      match tripleHalf? a b c with
      | some n => do
          let before ← plainChars done.reverse
          let behind ← narrowChars [] rest
          return before ++ Text.Surrogate.ofCodePoint n ++ behind
      | none => narrowChars (a :: done) (b :: c :: rest)
  | rest => plainChars (done.reverse ++ rest)

/-- The characters of a text in an encoding, if the bytes are those of a text. -/
def decode : Encoding → List UInt8 → Option (List Char)
  | .utf8, bs => narrowChars [] bs
  | .utf16 bigEndian, bs => (units bigEndian bs).map joinUnits
  | .utf32 bigEndian, bs => wideChars bigEndian bs

end Encoding

/-- The characters of a JSON text that is given by its bytes. -/
def decodeText (bs : List UInt8) : Option (List Char) :=
  let (encoding, bs) := Encoding.detect bs
  encoding.decode bs

end RingScan.Json

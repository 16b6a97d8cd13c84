import RingScan.Text.Hex
import RingScan.Text.Utf8

set_option autoImplicit false

/-! # Percent-encoding

Segments of a path and members of a query, written with letters, digits and four marks; every
other character is written as the bytes of its UTF-8 form, a percent sign and two upper-case
digits for each. A query writes the space as a plus sign. -/

namespace RingScan.Text.Percent

/-- The characters that stand for themselves. -/
def isUnreserved (c : Char) : Bool :=
  c.isAlphanum || c == '-' || c == '.' || c == '_' || c == '~'

/-- A byte as a percent sign and two upper-case digits. -/
def encodeByte (b : UInt8) : List Char :=
  ['%', (Hex.digit (b.toNat / 16)).toUpper, (Hex.digit (b.toNat % 16)).toUpper]

/-- A character of a segment. -/
def encodeChar (c : Char) : List Char :=
  if isUnreserved c then [c] else (Utf8.encodeChar c).flatMap encodeByte

/-- A segment. -/
def encode (cs : List Char) : List Char := cs.flatMap encodeChar

/-- A byte of a segment; a byte of a character that stands for itself is that character. -/
def encodePlain (b : UInt8) : List Char :=
  let c := Char.ofNat b.toNat
  if isUnreserved c then [c] else encodeByte b

/-- A segment that is given by its bytes. -/
def encodeBytes (bs : List UInt8) : List Char := bs.flatMap encodePlain

/-- A name or a value of a query that is given by its bytes. -/
def encodeQueryBytes (bs : List UInt8) : List Char :=
  bs.flatMap fun b => if b == 0x20 then ['+'] else encodePlain b

/-- A name or a value of a query. -/
def encodeQuery (cs : List Char) : List Char :=
  cs.flatMap fun c => if c == ' ' then ['+'] else encodeChar c

end RingScan.Text.Percent

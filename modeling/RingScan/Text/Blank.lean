set_option autoImplicit false

/-! # Blank characters

White space in the Unicode sense, the four information separators included, and stripping a text
of it at both ends. -/

namespace RingScan.Text

/-- A white-space character. -/
def isBlank (c : Char) : Bool :=
  let n := c.toNat
  (0x9 ≤ n && n ≤ 0xd) || (0x1c ≤ n && n ≤ 0x20) || n == 0x85 || n == 0xa0 || n == 0x1680 ||
    (0x2000 ≤ n && n ≤ 0x200a) || n == 0x2028 || n == 0x2029 || n == 0x202f || n == 0x205f ||
    n == 0x3000

/-- The white space that may surround a numeral: all of it but the information separators. -/
def isNumeralBlank (c : Char) : Bool :=
  isBlank c && !(0x1c ≤ c.toNat && c.toNat ≤ 0x1f)

/-- The white space that may stand between the pairs of a hexadecimal text: the ASCII part without
    the information separators. -/
def isAsciiBlank (c : Char) : Bool :=
  c == ' ' || (0x9 ≤ c.toNat && c.toNat ≤ 0xd)

/-- A text without the blank characters at its ends. -/
def strip (cs : List Char) : List Char :=
  ((cs.dropWhile isBlank).reverse.dropWhile isBlank).reverse

/-- A string without the blank characters at its ends. -/
def stripString (s : String) : String := String.ofList (strip s.toList)

/-- Whether a string holds nothing but blank characters. -/
def isBlankString (s : String) : Bool := s.toList.all isBlank

end RingScan.Text

import RingScan.Text.Hex
import RingScan.Text.Printable
import RingScan.Text.Surrogate

set_option autoImplicit false

/-! # Quoted text

Texts and byte strings as they are shown in messages: between quotes, on one line, with every
character that cannot be shown written as an escape. -/

namespace RingScan.Text.Quoted

/-- Single quotes stand around a text, unless it holds single quotes and no double ones. -/
def quoteFor (cs : List Char) : Char :=
  if cs.contains '\'' && !cs.contains '"' then '"' else '\''

/-- A character by its code point, in the shortest of the three escapes that can hold it. -/
def escapeCode (n : Nat) : List Char :=
  if n < 0x100 then '\\' :: 'x' :: Hex.fixed 2 n
  else if n < 0x10000 then '\\' :: 'u' :: Hex.fixed 4 n
  else '\\' :: 'U' :: Hex.fixed 8 n

/-- The escapes that quoted texts and quoted bytes have in common. -/
def common? (quote c : Char) : Option (List Char) :=
  if c == quote || c == '\\' then some ['\\', c]
  else if c == '\t' then some ['\\', 't']
  else if c == '\n' then some ['\\', 'n']
  else if c == '\r' then some ['\\', 'r']
  else if c.toNat < 0x20 || c.toNat == 0x7f then some (escapeCode c.toNat)
  else none

/-- A character inside quotes. -/
def escapeChar (quote c : Char) : List Char :=
  match common? quote c with
  | some text => text
  | none => if c.toNat < 0x80 || isPrintable c then [c] else escapeCode c.toNat

/-- A symbol inside quotes. -/
def escapeSymbol (quote : Char) : List Char → List Char
  | [c] => escapeChar quote c
  | symbol => escapeCode (Surrogate.codePoint symbol)

/-- A text between quotes. -/
def encode (cs : List Char) : List Char :=
  let quote := quoteFor cs
  quote :: ((Surrogate.symbols cs).flatMap (escapeSymbol quote) ++ [quote])

/-- A byte inside quotes; only ASCII bytes stand for characters. -/
def escapeByte (quote : Char) (b : UInt8) : List Char :=
  let c := Char.ofNat b.toNat
  match common? quote c with
  | some text => text
  | none => if b.toNat < 0x80 then [c] else escapeCode b.toNat

/-- A byte string between quotes, marked by the letter `b`. -/
def encodeBytes (bytes : List UInt8) : List Char :=
  let quote := quoteFor (bytes.map fun b => Char.ofNat b.toNat)
  'b' :: quote :: (bytes.flatMap (escapeByte quote) ++ [quote])

/-- A text with everything outside ASCII escaped. -/
def toAscii (cs : List Char) : List Char :=
  cs.flatMap fun c => if c.toNat < 0x80 then [c] else escapeCode c.toNat

end RingScan.Text.Quoted

import RingScan.Ring.Partitioner
import RingScan.Value.Comparison

set_option autoImplicit false

/-! # Tokens

A token is the written form of a position. Nodes send tokens as values of any kind, and each
partitioner reads them in its own way: as whole numbers, as bytes in hexadecimal, or as they are.
Where tokens are taken as they are, a value that is no text becomes a *foreign* token, which has
no position on the ring. -/

namespace RingScan

namespace Partitioner.Position

/-- What a position is, whatever ring it lies on. -/
def value : {p : Partitioner} → p.Position → Value
  | .murmur3, (x : Int) => .int x
  | .random, (x : Int) => .int x
  | .byteOrdered, x => .bytes x
  | .orderPreserving, x => .str x

/-- The token at a position. -/
def render : {p : Partitioner} → p.Position → String
  | .murmur3, x => Integer.toText x
  | .random, x => Integer.toText x
  | .byteOrdered, x => String.ofList (Text.Hex.encode x)
  | .orderPreserving, x => x

end Partitioner.Position

/-- A token as a partitioner reads it. -/
inductive Token (p : Partitioner) where
  /-- The token at a position of the ring. -/
  | position (x : p.Position)
  /-- A value that is no position. -/
  | foreign (v : Value)

/-- Why a value is not read as a token. -/
inductive TokenError where
  | badInteger (v : Value)
  | badHex (v : Value)
  | missing
  /-- The value is a number that is not finite. -/
  | overflow
  deriving DecidableEq

namespace TokenError

/-- The message of an error. -/
def message : TokenError → String
  | .badInteger v => "Invalid integer token: " ++ v.literalText
  | .badHex v => "Invalid hex token: " ++ v.literalText
  | .missing => "Token string must not be None"
  | .overflow => "The token is a number beyond all integers"

/-- The fault of a value that is not read as a token. -/
def toFault : TokenError → Fault
  | .overflow => .overflow
  | e => .invalid e.message

end TokenError

namespace Token

/-! ## Reading -/

/-- The whole number that a text denotes, where `v` is the value that the text stands in. -/
def readNumeral (v : Value) (cs : List Char) : Except TokenError Int :=
  match Integer.read cs with
  | .ok n => .ok n
  | .error _ => .error (.badInteger v)

/-- A value as a whole number. Fractions lose what is behind the point, and byte strings are
    numerals in ASCII. -/
def readInteger (v : Value) : Except TokenError Int :=
  match v with
  | .str s => readNumeral v s.toList
  | .bytes bs =>
      if bs.all fun b => b.toNat < 0x80 then readNumeral v (bs.map fun b => Char.ofNat b.toNat)
      else .error (.badInteger v)
  | .int n => .ok n
  | .bool b => .ok (if b then 1 else 0)
  | .float x =>
      match x.truncate with
      | .ok n => .ok n
      | .error .infinite => .error .overflow
      | .error .nan => .error (.badInteger v)
  | _ => .error (.badInteger v)

/-- A value as bytes in hexadecimal. -/
def readHex (v : Value) : Except TokenError (List UInt8) :=
  match v with
  | .str s =>
      match Text.Hex.decode s.toList with
      | some bs => .ok bs
      | none => .error (.badHex v)
  | _ => .error (.badHex v)

/-- The token that a value stands for. -/
def read : (p : Partitioner) → Value → Except TokenError (Token p)
  | .murmur3, v => (readInteger v).map .position
  | .random, v => (readInteger v).map .position
  | .byteOrdered, v => (readHex v).map .position
  | .orderPreserving, .str s => .ok (.position s)
  | .orderPreserving, .null => .error .missing
  | .orderPreserving, v => .ok (.foreign v)

/-- The token that a text stands for. -/
def ofText (p : Partitioner) (s : String) : Except TokenError (Token p) := read p (.str s)

/-! ## Writing -/

/-- What a token is, whatever ring it lies on. -/
def value {p : Partitioner} : Token p → Value
  | .position x => x.value
  | .foreign v => v

/-- The written form of a token; a foreign token stays the value that it is. -/
def render {p : Partitioner} : Token p → Value
  | .position x => .str x.render
  | .foreign v => v

/-- A token in messages. -/
def describe {p : Partitioner} (t : Token p) : String := "Token(" ++ t.value.literalText ++ ")"

/-! ## Order -/

/-- How two tokens compare. Nothing is known of a position and a foreign token. -/
def relate {p : Partitioner} : Token p → Token p → Value.Comparison
  | .position x, .position y => .ordered (if x < y then .lt else if x = y then .eq else .gt)
  | .foreign v, .foreign w => v.relate w
  | _, _ => .incomparable

/-- Whether the first token is below the second, if they have an order. -/
def below? {p : Partitioner} (t u : Token p) : Option Bool := (t.relate u).below?

end Token

end RingScan

import RingScan.Ring.Token

set_option autoImplicit false

/-! # The tokens of keys

A key should be a text or a byte string. Where it is hashed, or taken as its bytes, other values
stand for bytes as well; where keys are texts, any other value is a token of its own. -/

namespace RingScan

/-- The most bytes that are counted at all: the 33 bytes around them are counted as well. -/
def countLimit : Int := 0x8000000000000000 - 34

/-- The most bytes that are tried to be held in memory. -/
def memoryLimit : Int := 0x1000000000

/-- The bytes of so many zeros. A count below zero is none, and one beyond 64 bits is no count. -/
def zeroBytes (n : Int) : Except Fault (List UInt8) :=
  if n < -0x8000000000000000 ∨ countLimit < n then .error .overflow
  else if n < 0 then .error (.invalid "negative count")
  else if memoryLimit < n then .error .tooLarge
  else .ok (List.replicate n.toNat 0)

/-- A value as a single byte. -/
def toByte : Value → Except Fault UInt8
  | .int n =>
      if 0 ≤ n ∧ n < 256 then .ok (UInt8.ofNat n.toNat)
      else .error (.invalid "bytes must be in range(0, 256)")
  | .bool b => .ok (if b then 1 else 0)
  | _ => .error .mismatch

/-- The bytes that a value stands for which is neither a text nor bytes. A number counts zeros, and
    a list holds the bytes one by one. -/
def bytesFor : Value → Except Fault (List UInt8)
  | .bool b => zeroBytes (if b then 1 else 0)
  | .int n => zeroBytes n
  | .arr items => items.mapM toByte
  | .obj [] => .ok []
  | _ => .error .mismatch

/-- The position of a key, or why it has none. -/
def Partitioner.position (p : Partitioner) (key : Key) : Except Fault p.Position :=
  match p.position? key with
  | some x => .ok x
  | none => .error .undecodable

/-- The position of a text. Where texts are the positions it need not be plain. -/
def Partitioner.positionOfText : (p : Partitioner) → String → Except Fault p.Position
  | .orderPreserving, s => .ok (Text.ordered s)
  | p, s => (Text.Surrogate.plain s).bind fun s => p.position (.text s)

/-- The token of a value that is used as a key. -/
def Token.ofValue : (p : Partitioner) → Value → Except Fault (Token p)
  | p, .str s => (p.positionOfText s).map .position
  | p, .bytes bs => (p.position (.bytes bs)).map .position
  | .orderPreserving, v => .ok (.foreign v)
  | p, v => (bytesFor v).bind fun bs => (p.position (.bytes bs)).map .position

end RingScan

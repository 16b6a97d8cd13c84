import RingScan.Digest.Md5
import RingScan.Digest.Murmur
import RingScan.Ring.Segment
import RingScan.Text.Order
import RingScan.Text.Utf8
import RingScan.Value.Display

set_option autoImplicit false

/-! # Partitioners

A partitioner gives every key a position on its ring. Two hash the keys onto rings of whole
numbers; two keep the keys in their order, on rings that have no end. -/

namespace RingScan

/-- The ways to place keys on a ring. -/
inductive Partitioner where
  | murmur3
  | random
  | byteOrdered
  | orderPreserving
  deriving DecidableEq

/-- A key of a row: a plain text, or bytes. -/
inductive Key where
  | text (s : String)
  | bytes (bs : List UInt8)
  deriving DecidableEq

/-- The bytes of a key; those of a text are its UTF-8 form. -/
def Key.toBytes : Key → List UInt8
  | .text s => Text.Utf8.encode s.toList
  | .bytes bs => bs

namespace Partitioner

/-- The positions on the ring of a partitioner. -/
def Position : Partitioner → Type
  | .murmur3 => Int
  | .random => Int
  | .byteOrdered => List UInt8
  | .orderPreserving => Text.Ordered

instance (p : Partitioner) : LE p.Position :=
  match p with
  | .murmur3 => inferInstanceAs (LE Int)
  | .random => inferInstanceAs (LE Int)
  | .byteOrdered => inferInstanceAs (LE (List UInt8))
  | .orderPreserving => inferInstanceAs (LE Text.Ordered)

instance (p : Partitioner) : LT p.Position :=
  match p with
  | .murmur3 => inferInstanceAs (LT Int)
  | .random => inferInstanceAs (LT Int)
  | .byteOrdered => inferInstanceAs (LT (List UInt8))
  | .orderPreserving => inferInstanceAs (LT Text.Ordered)

instance (p : Partitioner) : DecidableLE p.Position :=
  match p with
  | .murmur3 => inferInstanceAs (DecidableLE Int)
  | .random => inferInstanceAs (DecidableLE Int)
  | .byteOrdered => inferInstanceAs (DecidableLE (List UInt8))
  | .orderPreserving => inferInstanceAs (DecidableLE Text.Ordered)

instance (p : Partitioner) : DecidableLT p.Position :=
  match p with
  | .murmur3 => inferInstanceAs (DecidableLT Int)
  | .random => inferInstanceAs (DecidableLT Int)
  | .byteOrdered => inferInstanceAs (DecidableLT (List UInt8))
  | .orderPreserving => inferInstanceAs (DecidableLT Text.Ordered)

instance (p : Partitioner) : DecidableEq p.Position :=
  match p with
  | .murmur3 => inferInstanceAs (DecidableEq Int)
  | .random => inferInstanceAs (DecidableEq Int)
  | .byteOrdered => inferInstanceAs (DecidableEq (List UInt8))
  | .orderPreserving => inferInstanceAs (DecidableEq Text.Ordered)

/-- The positions of every partitioner are in a linear order. -/
instance (p : Partitioner) : Std.IsLinearOrder p.Position :=
  match p with
  | .murmur3 => inferInstanceAs (Std.IsLinearOrder Int)
  | .random => inferInstanceAs (Std.IsLinearOrder Int)
  | .byteOrdered => inferInstanceAs (Std.IsLinearOrder (List UInt8))
  | .orderPreserving => inferInstanceAs (Std.IsLinearOrder Text.Ordered)

instance (p : Partitioner) : Std.LawfulOrderLT p.Position :=
  match p with
  | .murmur3 => inferInstanceAs (Std.LawfulOrderLT Int)
  | .random => inferInstanceAs (Std.LawfulOrderLT Int)
  | .byteOrdered => inferInstanceAs (Std.LawfulOrderLT (List UInt8))
  | .orderPreserving => inferInstanceAs (Std.LawfulOrderLT Text.Ordered)

/-- The ring of a partitioner. -/
def ring : (p : Partitioner) → Ring p.Position
  | .murmur3 => ⟨(-0x8000000000000000 : Int), some (0x7fffffffffffffff : Int)⟩
  | .random => ⟨(-1 : Int), some (0x80000000000000000000000000000000 : Int)⟩
  | .byteOrdered => ⟨([] : List UInt8), none⟩
  | .orderPreserving => ⟨Text.ordered "", none⟩

/-- Whether keys lie on the ring in their own order. -/
def preservesOrder : Partitioner → Bool
  | .murmur3 => false
  | .random => false
  | .byteOrdered => true
  | .orderPreserving => true

/-- The position of a hashed key, as a signed number. The least one is moved off the minimum of the
    ring. -/
def murmurPosition (key : List UInt8) : Int :=
  let x := Digest.twosComplement 64 (Digest.Murmur.hash key).toNat
  if x = -0x8000000000000000 then 0x7fffffffffffffff else x

/-- The position of a digested key: the magnitude of the digest as a signed number. -/
def digestPosition (key : List UInt8) : Int :=
  (Digest.twosComplement 128 (Digest.bigEndian (Digest.Md5.digest key))).natAbs

/-- The position of a key. There is none for bytes that are no text, where texts are the
    positions. -/
def position? : (p : Partitioner) → Key → Option p.Position
  | .murmur3, key => some (murmurPosition key.toBytes)
  | .random, key => some (digestPosition key.toBytes)
  | .byteOrdered, key => some key.toBytes
  | .orderPreserving, .text s => some (Text.ordered (Text.Surrogate.held s))
  | .orderPreserving, .bytes bs =>
      (Text.Utf8.decode bs).map fun cs =>
        Text.ordered (Text.Surrogate.held (String.ofList cs))

/-! ## Names -/

/-- The short name of a partitioner. -/
def name : Partitioner → String
  | .murmur3 => "murmur3"
  | .random => "random"
  | .byteOrdered => "byte-ordered"
  | .orderPreserving => "order-preserving"

/-- The name of the class that places keys in the store. -/
def className : Partitioner → String
  | .murmur3 => "Murmur3Partitioner"
  | .random => "RandomPartitioner"
  | .byteOrdered => "ByteOrderedPartitioner"
  | .orderPreserving => "OrderPreservingPartitioner"

/-- That class with the package that it lives in. -/
def qualifiedName (p : Partitioner) : String := "org.apache.cassandra.dht." ++ p.className

/-- A partitioner in messages. -/
def toText (p : Partitioner) : String := p.className ++ "()"

/-- All partitioners, by their short names. -/
def all : List Partitioner := [.byteOrdered, .murmur3, .orderPreserving, .random]

/-- The names that a partitioner is known by, in lower case. -/
def aliases (p : Partitioner) : List (List Char) :=
  [p.name.toList, Text.lower p.className.toList, Text.lower p.qualifiedName.toList]

/-- Why a name does not denote a partitioner. -/
inductive NameError where
  | empty
  | unknown (name : String)
  deriving DecidableEq

/-- The message of an error. -/
def NameError.message : NameError → String
  | .empty => "Partitioner name must not be empty"
  | .unknown name =>
      s!"Unknown partitioner '{name}'. Supported: " ++ ", ".intercalate (all.map Partitioner.name)

/-- The partitioner with a name of any kind, whatever its case and the blanks around it. -/
def ofName (name : String) : Except NameError Partitioner :=
  let key := Text.strip name.toList
  if key.isEmpty then .error .empty
  else
    match all.find? fun p => p.aliases.contains (Text.lower key) with
    | some p => .ok p
    | none => .error (.unknown name)

/-- The fault of a name that does not denote a partitioner. -/
def NameError.toFault (e : NameError) : Fault := .invalid e.message

/-- The partitioner that a value names. No byte string is the name of one. -/
def ofValue (v : Value) : Except Fault Partitioner :=
  if !v.isTruthy then .error NameError.empty.toFault
  else
    match v with
    | .str name => (ofName name).mapError NameError.toFault
    | .bytes bs =>
        if bs.all fun b => Text.isAsciiBlank (Char.ofNat b.toNat) then
          .error NameError.empty.toFault
        else .error (NameError.unknown v.displayText).toFault
    | _ => .error .noOperation

end Partitioner

end RingScan

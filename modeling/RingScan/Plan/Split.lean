import RingScan.Value.Comparison
import RingScan.Wire.Messages

set_option autoImplicit false

/-! # Splits

A split is a unit of work: a range that does not go over the end of the ring, its size, and the
hosts that hold it. Before that it is a part of a range, as a node describes it. -/

namespace RingScan.Plan

/-- A part of a range. -/
structure SubSplit where
  startToken : Value
  endToken : Value
  rowCount : Value
  deriving DecidableEq

/-- The part of a range that a node reports. -/
def SubSplit.ofEntry (e : Wire.SplitEntry) : SubSplit := ⟨e.startToken, e.endToken, e.rowCount⟩

/-- The parts between neighbours in a list of tokens, all of the same size. -/
def SubSplit.between (size : Value) : List Value → List SubSplit
  | start :: stop :: rest => ⟨start, stop, size⟩ :: between size (stop :: rest)
  | _ => []

/-- The parts between the tokens that a node sends. An object counts as a list of its members, and
    these are not found by their places. -/
def SubSplit.ofTokens (tokens size : Value) : Except Fault (List SubSplit) :=
  match tokens with
  | .obj members => if members.length < 2 then .ok [] else .error .noMember
  | tokens => tokens.items.map (between size)

/-- A unit of work. -/
structure Split where
  startToken : Value
  endToken : Value
  length : Value
  locations : List Value
  deriving DecidableEq

namespace Split

/-- A split in messages. -/
def describe (s : Split) : String :=
  "Split((" ++ s.startToken.displayText ++ ", " ++ s.endToken.displayText ++ "], length=" ++
    s.length.displayText ++ ", locations=" ++ Value.listText s.locations ++ ")"

/-- Whether two splits are the same. -/
def same (s t : Split) : Bool :=
  s.startToken.same t.startToken && s.endToken.same t.endToken && s.length.same t.length &&
    Value.sameItems s.locations t.locations

/-- A split as a message. -/
def record (s : Split) : Wire.Record :=
  [("startToken", s.startToken), ("endToken", s.endToken), ("length", s.length),
    ("locations", .arr s.locations)]

/-- The text of a split, if all of its values can be written. -/
def toText (s : Split) : Except Fault String := s.record.toText

/-- The split in a message. -/
def ofRecord (r : Wire.Record) : Split :=
  ⟨r.value "startToken", r.value "endToken", r.value "length",
    match r.value "locations" with
    | .arr items => items
    | _ => []⟩

/-- The split that a text holds. -/
def ofText (text : String) : Except Fault Split := (Wire.split.readText text).map ofRecord

/-- The split with these values, the locations being optional. -/
def ofValues (values : List Value) : Except Fault Split := (Wire.split.ofValues values).map ofRecord

end Split

end RingScan.Plan

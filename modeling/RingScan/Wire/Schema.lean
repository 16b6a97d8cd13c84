import RingScan.Json.Encoding
import RingScan.Json.Parser
import RingScan.Json.Printer

set_option autoImplicit false

/-! # Messages

What the objects in messages hold. A message has named members, some of them with a default;
members that it does not know are passed over, and the values of members are not looked into
unless they are messages themselves. A message that was read is held in its canonical form: all
members, in the order in which they are declared. -/

namespace RingScan.Wire

/-- The members of an object. -/
abbrev Record := List (String × Value)

/-- The value of a member, or the null value. -/
def Record.value (r : Record) (name : String) : Value := (Value.lookup? name r).getD .null

/-- A member: its name, and its value if it is not given. Without a default it must be given. -/
structure Field where
  name : String
  default? : Option Value

/-- A member that must be given. -/
def Field.required (name : String) : Field := ⟨name, none⟩

/-- A member with a default. -/
def Field.optional (name : String) (default : Value) : Field := ⟨name, some default⟩

/-- What is done with the value of a member. -/
inductive Content where
  /-- It is taken as it is. -/
  | plain
  /-- It is taken as a list of the items that it is made of. -/
  | sequence
  /-- It is an object with these members, or null. -/
  | record (fields : List Field)
  /-- It is a list of objects with these members, or null. -/
  | records (fields : List Field)

/-- A member of a message. -/
structure Member where
  field : Field
  content : Content

/-- The members of a message, in their order. -/
abbrev Schema := List Member

/-- A member that is taken as it is. -/
def Field.plain (f : Field) : Member := ⟨f, .plain⟩

/-- All members in their order, from those that are given. -/
def fill (fields : List Field) (given : Record) : Except Fault Record :=
  fields.mapM fun f =>
    match Value.lookup? f.name given with
    | some v => .ok (f.name, v)
    | none =>
        match f.default? with
        | some v => .ok (f.name, v)
        | none => .error .mismatch

/-- An object whose members are taken as they are. -/
def readFlat (fields : List Field) : Value → Except Fault Value
  | .obj members => (fill fields members).map .obj
  | _ => .error .noOperation

/-- The value of a member. -/
def Content.read (content : Content) (v : Value) : Except Fault Value :=
  match content, v with
  | .plain, v => .ok v
  | .sequence, v => v.items.map .arr
  | .record _, .null => .ok .null
  | .records _, .null => .ok .null
  | .record fields, v => readFlat fields v
  | .records fields, v =>
      match v.items with
      | .error e => .error e
      | .ok items => (items.mapM (readFlat fields)).map .arr

namespace Schema

/-- The member of a name. -/
def find? (s : Schema) (name : String) : Option Member := List.find? (fun m => m.field.name == name) s

/-- The known ones of the given members, each with its value read. -/
def readMembers (s : Schema) : List (String × Value) → Except Fault Record
  | [] => .ok []
  | (name, v) :: rest =>
      match s.find? name with
      | none => readMembers s rest
      | some m =>
          match m.content.read v with
          | .error e => .error e
          | .ok v => (readMembers s rest).map ((name, v) :: ·)

/-- The fields of the members. -/
def fields (s : Schema) : List Field := s.map Member.field

/-- The message that a value holds. -/
def read (s : Schema) : Value → Except Fault Record
  | .obj members =>
      match s.readMembers members with
      | .error e => .error e
      | .ok given => fill s.fields given
  | _ => .error .noOperation

/-- The message that a text holds. -/
def readText (s : Schema) (text : String) : Except Fault Record :=
  match Json.ofText text with
  | .error e => .error e.toFault
  | .ok v => s.read v

/-- The message in a value that should be a text. The bytes of a text will do. -/
def readSource (s : Schema) : Value → Except Fault Record
  | .str text => s.readText text
  | .bytes bs =>
      match Json.decodeText bs with
      | some cs => s.readText (String.ofList cs)
      | none => .error .undecodable
  | _ => .error .mismatch

/-- A value given for a member without reading it as a message. -/
def give (m : Member) (v : Value) : Except Fault (String × Value) :=
  match m.content with
  | .sequence => v.items.map fun items => (m.field.name, .arr items)
  | _ => .ok (m.field.name, v)

/-- The message with these values for its members, from the first one on. -/
def ofValues (s : Schema) (values : List Value) : Except Fault Record :=
  if s.length < values.length then .error .mismatch
  else
    match (s.zip values).mapM fun (m, v) => give m v with
    | .error e => .error e
    | .ok given => fill s.fields given

end Schema

/-- The text of a message, if all of its values can be written. -/
def Record.toText (r : Record) : Except Fault String := Json.toText (.obj r)

end RingScan.Wire

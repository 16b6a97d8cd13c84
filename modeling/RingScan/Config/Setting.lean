import RingScan.Config.Conversion

set_option autoImplicit false

/-! # Settings

A configuration is a list of named values. A setting says under which name a value is found, what
it is converted to, and what counts if nothing is set: neither no value nor the empty text is. -/

namespace RingScan.Config

/-- Named values, each name at most once. -/
abbrev Options := List (String × Value)

namespace Options

/-- The value under a name. -/
def find? (o : Options) (key : String) : Option Value := Value.lookup? key o

/-- Whether a value counts as not set. -/
def isUnset : Value → Bool
  | .null => true
  | .str s => s.isEmpty
  | _ => false

/-- The value under a name, if it is set. -/
def raw? (o : Options) (key : String) : Option Value :=
  match o.find? key with
  | some v => if isUnset v then none else some v
  | none => none

/-- A value put under a name. -/
def insert (o : Options) (key : String) (v : Value) : Options := Value.put key v o

/-- A value put under a name as a text. -/
def set (o : Options) (key : String) (v : Value) : Options := o.insert key (.str (asText v))

theorem find?_insert (o : Options) (key name : String) (v : Value) :
    (o.insert key v).find? name = if name = key then some v else o.find? name :=
  Value.lookup?_put key name v o

end Options

/-! ## Settings of one kind -/

/-- The types that settings have: how they are read, and how they are shown as values again. -/
class SettingType (α : Type) where
  kind : Kind
  read : Value → Except ConvertError α
  toValue : α → Value

instance : SettingType Int where
  kind := .integer
  read := asInteger
  toValue := .int

instance : SettingType (Option String) where
  kind := .text
  read v := .ok (some (asText v))
  toValue := Value.ofText?

instance : SettingType Duration where
  kind := .duration
  read := asDuration
  toValue := .duration

/-- A setting: its name, what it is for, and what counts if it is not set. -/
structure Setting (α : Type) where
  key : String
  description : String
  default : α

/-- The value of a setting in a configuration. -/
def Options.get {α : Type} [SettingType α] (o : Options) (s : Setting α) :
    Except ConvertError α :=
  match o.raw? s.key with
  | some v => SettingType.read v
  | none => .ok s.default

/-! ## Settings of any kind -/

/-- A setting of a kind that is only known when the program runs. What it is called and what is
    said of it need not be texts. -/
structure Entry where
  key : Value
  kind : Kind
  description : Value
  default : Value

/-- A setting of one kind as one of any kind. -/
def Setting.entry {α : Type} [SettingType α] (s : Setting α) : Entry where
  key := .str s.key
  kind := SettingType.kind α
  description := .str s.description
  default := SettingType.toValue s.default

namespace Entry

/-- Why there is no such setting. -/
inductive BuildError where
  /-- A name was asked for and is missing. -/
  | noKey
  /-- A setting was to be made without a name. -/
  | nullKey
  deriving DecidableEq

/-- The message of an error. -/
def BuildError.message : BuildError → String
  | .noKey => "Key must not be None or empty."
  | .nullKey => "Key must not be null."

/-- The setting with a name and a kind, without a description or a default. -/
def named (key : Value) (kind : Kind) : Except BuildError Entry :=
  if key.isTruthy then .ok ⟨key, kind, .str "", .null⟩ else .error .noKey

/-- The same, made without asking for the name first. -/
def raw (key : Value) (kind : Kind) : Except BuildError Entry :=
  if key.isTruthy then .ok ⟨key, kind, .str "", .null⟩ else .error .nullKey

/-- Whether a setting can be put into a set. -/
def isHashable (e : Entry) : Bool := e.key.isHashable && e.default.isHashable

/-- Settings are equal if their names and their defaults are. -/
def equals (e f : Entry) : Bool := e.key.equals f.key && e.default.equals f.default

/-- A setting in messages. -/
def toText (e : Entry) : String :=
  "key: '" ++ e.key.displayText ++ "'; default_value: " ++ e.default.displayText

/-- The value of a setting in a configuration; a default given here goes before its own. -/
def get (e : Entry) (o : Options) (default : Value) : Except ConvertError Value :=
  let raw? :=
    match e.key with
    | .str key => o.raw? key
    | _ => none
  match raw? with
  | some v => convert e.kind v
  | none => .ok (if default.isNull then e.default else default)

end Entry

end RingScan.Config

import RingScan.Value.Comparison
import RingScan.Value.Display

set_option autoImplicit false

/-! # Converting values

Settings ask for values of some kind. Whatever a value is, it can be turned into a text; numbers
and durations are also read from texts. -/

namespace RingScan.Config

/-- The kinds that a value may be converted to. -/
inductive Kind where
  | integer
  | text
  | duration
  /-- Binary fractions are passed on as they are; nothing is converted to one. -/
  | fraction
  deriving DecidableEq

/-- The name of a kind. -/
def Kind.label : Kind → String
  | .integer => "int"
  | .text => "str"
  | .duration => "timedelta"
  | .fraction => "float"

/-- Why a value cannot be converted. -/
inductive ConvertError where
  /-- A truth value was to become a whole number. -/
  | flag (b : Bool)
  /-- A value of the named class was to become a value of the kind. -/
  | unsuitable (className : String) (kind : Kind)
  /-- Nothing is converted to the kind. -/
  | unsupported (kind : Kind)
  | badInteger (e : Integer.ReadError)
  | badDuration (e : Duration.ReadError)
  | notANumber
  | overflow
  deriving DecidableEq

/-- The message of an error. -/
def ConvertError.message : ConvertError → String
  | .flag b => "Cannot convert " ++ (Value.bool b).literalText ++ " to int"
  | .unsuitable className kind => s!"Cannot convert <class '{className}'> to " ++ kind.label
  | .unsupported kind => "Unsupported type: <class '" ++ kind.label ++ "'>"
  | .badInteger e => e.message
  | .badDuration e => e.message
  | .notANumber => "cannot convert float NaN to integer"
  | .overflow => "a number is too large"

/-- The error of a fraction without a whole part. -/
def ConvertError.ofNotFinite : Binary64.NotFinite → ConvertError
  | .infinite => .overflow
  | .nan => .notANumber

/-- The class of a value, as messages name it. -/
def className : Value → String
  | .null => "NoneType"
  | .bool _ => "bool"
  | .int _ => "int"
  | .float _ => "float"
  | .str _ => "str"
  | .bytes _ => "bytes"
  | .duration _ => "datetime.timedelta"
  | .arr _ => "list"
  | .obj _ => "dict"

/-- A value as a text. A duration is written in milliseconds, as it can be read back. -/
def asText : Value → String
  | .duration d => d.toText
  | v => v.displayText

/-- A value as a whole number. -/
def asInteger : Value → Except ConvertError Int
  | .bool b => .error (.flag b)
  | .int n => .ok n
  | .float x => x.truncate.mapError .ofNotFinite
  | .str s => (Integer.read (Text.strip s.toList)).mapError .badInteger
  | v => .error (.unsuitable (className v) .integer)

/-- So many microseconds as a duration. -/
def ofMicros (micros : Int) : Except ConvertError Duration :=
  match Duration.ofMicros? micros with
  | some d => .ok d
  | none => .error .overflow

/-- A value as a duration; numbers count milliseconds. -/
def asDuration : Value → Except ConvertError Duration
  | .duration d => .ok d
  | .bool b => ofMicros (if b then 1000 else 0)
  | .int n => ofMicros (1000 * n)
  | .float x =>
      match Duration.microsOfFraction x with
      | .ok micros => ofMicros micros
      | .error e => .error (.ofNotFinite e)
  | .str s =>
      match Duration.readMillis s.toList with
      | .ok millis => ofMicros (1000 * millis)
      | .error e => .error (.badDuration e)
  | v => .error (.unsuitable (className v) .duration)

/-- A value converted to a kind. No value stays no value. -/
def convert (kind : Kind) (v : Value) : Except ConvertError Value :=
  if v.isNull then .ok v
  else
    match kind with
    | .integer => (asInteger v).map .int
    | .text => .ok (.str (asText v))
    | .duration => (asDuration v).map .duration
    | .fraction =>
        match v with
        | .float _ => .ok v
        | _ => .error (.unsupported .fraction)

/-- The milliseconds that a value denotes, which should be a text. Of byte strings it is only told
    whether they are blank. -/
def readMillis : Value → Except Fault Int
  | .null => .error (.invalid Duration.ReadError.missing.message)
  | .str s => (Duration.readMillis s.toList).mapError fun e => .invalid e.message
  | .bytes bs =>
      if bs.all fun b => Text.isAsciiBlank (Char.ofNat b.toNat) then
        .error (.invalid Duration.ReadError.blank.message)
      else .error .noOperation
  | _ => .error .noOperation

end RingScan.Config

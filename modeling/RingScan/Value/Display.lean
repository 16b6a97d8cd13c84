import RingScan.Value.Basic

set_option autoImplicit false

/-! # Values in messages

A value has two texts: its *literal* shows what kind of value it is, with texts in quotes; its
*display* is the text itself for a text, days and a time of the day for a duration, and the literal
for everything else. Inside lists and objects there are literals only. -/

namespace RingScan.Value

/-- Texts with a comma and a space between them. -/
def commaSeparated (texts : List (List Char)) : List Char := [',', ' '].intercalate texts

mutual

/-- The literal of a value. -/
def literal : Value → List Char
  | .null => ['N', 'o', 'n', 'e']
  | .bool true => ['T', 'r', 'u', 'e']
  | .bool false => ['F', 'a', 'l', 's', 'e']
  | .int n => Integer.display n
  | .float x => x.display
  | .str s => Text.Quoted.encode s.toList
  | .bytes bs => Text.Quoted.encodeBytes bs
  | .duration d => d.literal
  | .arr items => '[' :: (commaSeparated (literals items) ++ [']'])
  | .obj members => '{' :: (commaSeparated (memberLiterals members) ++ ['}'])

/-- The literals of several values. -/
def literals : List Value → List (List Char)
  | [] => []
  | item :: rest => literal item :: literals rest

/-- The literals of the members of an object, each behind its name. -/
def memberLiterals : List (String × Value) → List (List Char)
  | [] => []
  | (name, value) :: rest =>
      (Text.Quoted.encode name.toList ++ ':' :: ' ' :: literal value) :: memberLiterals rest

end

/-- The display of a value. -/
def display : Value → List Char
  | .str s => s.toList
  | .duration d => d.display
  | value => literal value

/-- The literal of a value, as a string. -/
def literalText (value : Value) : String := String.ofList (literal value)

/-- The display of a value, as a string. -/
def displayText (value : Value) : String := String.ofList (display value)

theorem displayText_int (n : Int) : (Value.int n).displayText = Integer.toText n := rfl

/-- The literal of a list of values. -/
def listText (values : List Value) : String := literalText (.arr values)

/-- The literal of several values that belong together: in parentheses, and with a comma behind a
    single one. -/
def groupText (values : List Value) : String :=
  match values with
  | [value] => "(" ++ literalText value ++ ",)"
  | values => String.ofList ('(' :: (commaSeparated (literals values) ++ [')']))

end RingScan.Value

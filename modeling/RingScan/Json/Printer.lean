import RingScan.Value.Display

set_option autoImplicit false

/-! # Writing JSON texts

Values as JSON texts on one line, with a space behind every comma and colon. Only quotes,
backslashes and control characters are escaped. Byte strings, durations and whole numbers of very
many digits have no such form: a value that holds one is refused as a whole. -/

namespace RingScan.Json

/-- A character inside a text. -/
def printChar (c : Char) : List Char :=
  if c == '"' then ['\\', '"']
  else if c == '\\' then ['\\', '\\']
  else if c == '\n' then ['\\', 'n']
  else if c == '\r' then ['\\', 'r']
  else if c == '\t' then ['\\', 't']
  else if c == '\x08' then ['\\', 'b']
  else if c == '\x0c' then ['\\', 'f']
  else if c.toNat < 0x20 then '\\' :: 'u' :: Text.Hex.fixed 4 c.toNat
  else [c]

/-- A text between quotes. -/
def printText (cs : List Char) : List Char := '"' :: (cs.flatMap printChar ++ ['"'])

/-- A binary fraction; numbers that are not finite have names of their own. -/
def printFloat : Binary64 → List Char
  | .nan _ => ['N', 'a', 'N']
  | .infinite false => "Infinity".toList
  | .infinite true => "-Infinity".toList
  | x => x.display

mutual

/-- The text of a value that can be written. -/
def print : Value → List Char
  | .null => ['n', 'u', 'l', 'l']
  | .bool true => ['t', 'r', 'u', 'e']
  | .bool false => ['f', 'a', 'l', 's', 'e']
  | .int n => Integer.display n
  | .float x => printFloat x
  | .str s => printText s.toList
  | .bytes _ => []
  | .duration _ => []
  | .arr items => '[' :: (Value.commaSeparated (printItems items) ++ [']'])
  | .obj members => '{' :: (Value.commaSeparated (printMembers members) ++ ['}'])

/-- The texts of several values. -/
def printItems : List Value → List (List Char)
  | [] => []
  | item :: rest => print item :: printItems rest

/-- The texts of the members of an object, each behind its name. -/
def printMembers : List (String × Value) → List (List Char)
  | [] => []
  | (name, v) :: rest =>
      (printText name.toList ++ ':' :: ' ' :: print v) :: printMembers rest

end

mutual

/-- Why a value cannot be written, if it cannot: what comes first in it counts. -/
def refusal? : Value → Option Fault
  | .bytes _ => some .mismatch
  | .duration _ => some .mismatch
  | .int n => if Integer.isWritable n then none else some (.invalid Integer.unwritableMessage)
  | .arr items => firstRefusal? items
  | .obj members => firstMemberRefusal? members
  | _ => none

/-- Why the values of a list cannot be written, if they cannot. -/
def firstRefusal? : List Value → Option Fault
  | [] => none
  | item :: rest => (refusal? item).or (firstRefusal? rest)

/-- Why the values of the members of an object cannot be written, if they cannot. -/
def firstMemberRefusal? : List (String × Value) → Option Fault
  | [] => none
  | (_, v) :: rest => (refusal? v).or (firstMemberRefusal? rest)

end

/-- A symbol of a JSON text that is written without marks: a half by its number. -/
def plainSymbol : List Char → List Char
  | [c] => [c]
  | symbol =>
      let n := Text.Surrogate.codePoint symbol
      if Text.Surrogate.isHalf n then '\\' :: 'u' :: Text.Hex.fixed 4 n else [Char.ofNat n]

/-- A JSON text with every lone half of a pair written by its number, so that it is plain. -/
def escapeHalves (cs : List Char) : List Char :=
  (Text.Surrogate.symbols cs).flatMap plainSymbol

/-- The text of a value, as a string. -/
def toText (v : Value) : Except Fault String :=
  match refusal? v with
  | none => .ok (String.ofList (print v))
  | some f => .error f

end RingScan.Json

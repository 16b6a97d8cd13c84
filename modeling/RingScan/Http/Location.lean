import RingScan.Text.Blank
import RingScan.Text.Percent
import RingScan.Value.Display

set_option autoImplicit false

/-! # Locations

The address of a server in its normal form, and the addresses of what is on it. -/

namespace RingScan.Http

/-- Whether a text starts with another one. -/
def startsWith (start cs : List Char) : Bool := start.isPrefixOf cs

/-- The normal form of an address without blanks around it: no slash at the end, and a scheme in
    front. Only one slash is taken away. -/
def normalized (cs : List Char) : List Char :=
  let cs := if cs.getLast? = some '/' then cs.dropLast else cs
  if startsWith "http://".toList cs || startsWith "https://".toList cs then cs
  else "http://".toList ++ cs

/-- The address of a server, if there is one. -/
def serverOf (uri : String) : Option String :=
  let cs := Text.strip uri.toList
  if cs.isEmpty then none else some (String.ofList (normalized cs))

/-- The message for an address that is missing. -/
def noServerMessage : String := "uri is empty which must be defined."

/-- The address of the server that a value names. -/
def serverAt (uri : Value) : Except Fault String :=
  if !uri.isTruthy then .error (.invalid noServerMessage)
  else
    match uri with
    | .str s =>
        match serverOf s with
        | some server => .ok server
        | none => .error (.invalid noServerMessage)
    | .bytes _ => .error .mismatch
    | _ => .error .noOperation

/-- A name or a value in a query. The bytes of a byte string are written as they are. -/
def queryText : Value → List Char
  | .bytes bs => Text.Percent.encodeQueryBytes bs
  | v => Text.Percent.encodeQuery v.display

/-- The parameters of a query: names and values, each written with an equals sign. -/
def query (parameters : List (String × Value)) : List Char :=
  ['&'].intercalate (parameters.map fun (name, value) =>
    Text.Percent.encodeQuery name.toList ++ '=' :: queryText value)

/-- The parameter with a name and a value, if both are plain. -/
def parameterOf (name : String) (v : Value) : Except Fault (String × Value) := do
  let name ← Text.Surrogate.plain name
  match v with
  | .str s => (Text.Surrogate.plain s).map fun s => (name, .str s)
  | v => return (name, v)

/-- The parameters that a value holds. -/
def parametersOf (v : Value) : Except Fault (List (String × Value)) :=
  if !v.isTruthy then .ok []
  else
    match v with
    | .obj parameters => parameters.mapM fun (name, v) => parameterOf name v
    | _ => .error .mismatch

/-- The path that a value names; what says nothing names none. -/
def pathOf (v : Value) : Except Fault String :=
  if !v.isTruthy then .ok ""
  else
    match v with
    | .str s => .ok s
    | .bytes _ => .error .mismatch
    | _ => .error .noOperation

/-- The address of a path on a server. A blank path is the server itself. -/
def locate (server path : String) (parameters : List (String × Value)) : String :=
  let base := if Text.isBlankString path then server else server ++ path
  if parameters.isEmpty then base else base ++ "?" ++ String.ofList (query parameters)

end RingScan.Http

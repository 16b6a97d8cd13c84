import RingScan.Value.Comparison

set_option autoImplicit false

/-! # Sending a request again

Requests that can be repeated without harm are sent again when a server says that it has too much
to do. Connections are never tried again: whoever asks can go to another server. -/

namespace RingScan.Http

/-- When a request is sent again, and how often. -/
structure RetryPolicy where
  total : Value
  connect : Nat
  read : Value
  /-- The factor of the time between two tries, in seconds. -/
  backoff : Nat
  statuses : List Nat
  methods : List String

namespace RetryPolicy

/-- The policy with a limit. The limit is passed on as it is. -/
def limitedTo (maxRetries : Value) : RetryPolicy where
  total := maxRetries
  connect := 0
  read := maxRetries
  backoff := 1
  statuses := [429, 502, 503, 504]
  methods := ["DELETE", "GET", "HEAD", "OPTIONS", "PUT", "TRACE"]

/-- The limit if none is given. -/
def defaultLimit : Int := 3

/-- A letter in upper case. The dotless i and the long s are the only small letters beyond ASCII
    with a capital within it. -/
def capital (c : Char) : Char := if c = 'ı' then 'I' else if c = 'ſ' then 'S' else c.toUpper

/-- Whether a request with a method and a status is one to be sent again. -/
def covers (p : RetryPolicy) (method : String) (status : Value) : Bool :=
  p.methods.contains (String.ofList (method.toList.map capital)) &&
    p.statuses.any fun s => (Value.int s).equals status

/-- The same for a method that may be no text. No byte string is one of the methods. -/
def asks (p : RetryPolicy) (method status : Value) : Except Fault Bool :=
  match method with
  | .str method => .ok (p.covers method status)
  | .bytes _ => .ok false
  | _ => .error .noOperation

end RetryPolicy

end RingScan.Http

import RingScan.Http.Location
import RingScan.Http.RestError

set_option autoImplicit false

/-! # Requests to a server

A client sends messages to one server and reads the messages that it answers with. -/

namespace RingScan.Http

/-- Headers: names with values, each name once. -/
abbrev Headers := List (String × Value)

/-- A header put among others. -/
def Headers.put (name : String) (value : Value) (hs : Headers) : Headers := Value.put name value hs

/-- Headers put among others. -/
def Headers.overlay (base added : Headers) : Headers :=
  added.foldl (fun hs (name, value) => hs.put name value) base

/-- The value of a header, whatever the case of its name; the last one counts. -/
def Headers.find? (name : String) (hs : Headers) : Option Value :=
  (List.find? (fun (key, _) => Text.lower key.toList == Text.lower name.toList) hs.reverse).map
    Prod.snd

/-- The headers that a value holds. -/
def Headers.ofValue (v : Value) : Except Fault Headers :=
  if !v.isTruthy then .ok []
  else
    match v with
    | .obj members => .ok members
    | .arr _ => .error .mismatch
    | _ => .error .noOperation

/-! ## Authorization -/

/-- How requests are authorized. -/
inductive Authorization where
  | none
  /-- By the token that a login gave. -/
  | bearer (token : String)
  deriving DecidableEq

/-- Headers with an authorization. -/
def Authorization.apply (a : Authorization) (hs : Headers) : Headers :=
  match a with
  | .none => hs
  | .bearer token => hs.put "Authorization" (.str ("Bearer " ++ token))

/-! ## Clients -/

/-- A client of one server. Timeouts are in seconds. -/
structure Client where
  server : String
  connectTimeout? : Option Binary64
  requestTimeout? : Option Binary64

namespace Client

/-- A timeout as it is used: none at all lets a request take for ever. -/
def timeout (d? : Option Duration) : Option Binary64 :=
  (d?.filter (·.micros ≠ 0)).map Duration.toSeconds

/-- The timeout that a value gives; what says nothing gives none. -/
def timeoutOf (v : Value) : Except Fault (Option Duration) :=
  if !v.isTruthy then .ok none
  else
    match v with
    | .duration d => .ok (some d)
    | _ => .error .noOperation

/-- The client of the server at an address. -/
def ofServer (server : String) (connectTimeout? requestTimeout? : Option Duration) : Client :=
  ⟨server, timeout connectTimeout?, timeout requestTimeout?⟩

/-- The headers of every request. -/
def baseHeaders : Headers :=
  [("Accept", .str "application/json"), ("Content-Type", .str "application/json")]

/-- The request for a path. -/
def request (c : Client) (method : Method) (path : String) (body? : Option String)
    (headers : Headers) : Request where
  method := method
  url := locate c.server path []
  body? := body?
  headers := baseHeaders.overlay headers
  connectTimeout? := c.connectTimeout?
  requestTimeout? := c.requestTimeout?

/-- Whether a status tells of a rejection. -/
def isRejection (status : Nat) : Bool := 400 ≤ status && status < 600

/-- What an answer holds: a rejection, or the message that is hoped for, or nothing if none is. -/
def interpret (expected? : Option Wire.Schema) (r : Reply) :
    Except RestError (Option Wire.Record) :=
  if isRejection r.status then
    let requestId := (Headers.find? RestError.requestIdHeader r.headers).getD
      (.str RestError.unknownRequest)
    .error (.ofBody (RestError.parseBody (.str r.body) (.int r.status)) requestId)
  else
    match expected? with
    | none => .ok none
    | some schema =>
        if r.body.isEmpty then .error .noBody
        else
          match schema.readText r.body with
          | .ok record => .ok (some record)
          | .error f => .error (.ofFault f)

/-- A request sent, and what comes of it. -/
def execute (request : Request) (expected? : Option Wire.Schema) :
    Dialogue RestError (Option Wire.Record) :=
  .send request fun
    | .reply r => .done (interpret expected? r)
    | .failure f => .done (.error (.ofTransport request.url f))

/-- A message asked for. -/
def get (c : Client) (path : String) (expected? : Option Wire.Schema) (headers : Headers) :
    Dialogue RestError (Option Wire.Record) :=
  execute (c.request .get path none headers) expected?

/-- A message sent, by its text, and a message asked for. Nothing is sent if the text has no
    encoding. -/
def post (c : Client) (path body : String) (expected? : Option Wire.Schema)
    (headers : Headers) : Dialogue RestError (Option Wire.Record) :=
  if Text.Surrogate.isPlain body then execute (c.request .post path (some body) headers) expected?
  else .fail (.ofFault .unencodable)

end Client

end RingScan.Http

import RingScan.Http.Client
import RingScan.Node.Paths

set_option autoImplicit false

/-! # Calls of a node

A node of the store answers a handful of calls. What a node knows of its caller is held on this
side: the token of the last login, and the keyspace that was selected. A call that fails changes
neither. -/

namespace RingScan

open Http (Authorization Client RestError)

/-- Why a call of a node failed. -/
inductive NodeError where
  /-- The node could not be reached. -/
  | unavailable (address : String) (cause : RestError)
  /-- The node does not know the call. -/
  | unsupported (address : String) (cause : RestError)
  /-- The node rejected the call, or its answer made no sense. -/
  | rejected (address : String) (cause : RestError)
  /-- The call needs a keyspace, and none is selected. -/
  | noKeyspace (address : String)
  /-- The call was made with a value that cannot be used, and nothing was sent. -/
  | fault (f : Fault)

namespace NodeError

/-- The message of an error. -/
def message : NodeError → String
  | .unavailable address cause =>
      if cause.message.isEmpty then "Failed to connect to " ++ address else cause.message
  | .unsupported address cause => address ++ ": " ++ cause.message
  | .rejected address cause => address ++ ": " ++ cause.message
  | .noKeyspace address => "No keyspace selected on " ++ address
  | .fault f => f.message

/-- The error that led to an error. -/
def cause? : NodeError → Option RestError
  | .unavailable _ cause => some cause
  | .unsupported _ cause => some cause
  | .rejected _ cause => some cause
  | .noKeyspace _ => none
  | .fault _ => none

/-- The error of a call, by the error of its request. -/
def ofRest (address : String) (e : RestError) : NodeError :=
  match e.kind with
  | .connectionFailed => .unavailable address e
  | .notImplemented => .unsupported address e
  | _ => .rejected address e

end NodeError

/-- A node, and what it knows of its caller. -/
structure Node where
  address : String
  client : Client
  authorization : Authorization := .none
  keyspace? : Option Node.Name := none

namespace Node

/-- The address of a host and a port. -/
def addressOf (host port : Value) : String := host.displayText ++ ":" ++ port.displayText

/-- A node at an address, which knows nothing yet. -/
def atAddress (address : String) (connectTimeout? requestTimeout? : Option Duration) : Node where
  address := address
  client := .ofServer (String.ofList (Http.normalized (Text.strip address.toList)))
    connectTimeout? requestTimeout?

/-- The paths of a node. -/
def paths : Paths := .usual

/-- The headers of the calls of a node. -/
def headers (n : Node) : Http.Headers := n.authorization.apply []

/-! ## Sending -/

/-- The message that a call asks for. -/
def call (n : Node) (d : Dialogue RestError (Option Wire.Record)) :
    Dialogue NodeError Wire.Record :=
  (d.andThen fun
    | .ok record? => .done (.ok (record?.getD []))
    | .error e => .done (.error (.ofRest n.address e)))

/-- A message asked for. -/
def get (n : Node) (path : String) (expected : Wire.Schema) : Dialogue NodeError Wire.Record :=
  n.call (n.client.get path (some expected) n.headers)

/-- A message sent, if it can be written, and a message asked for. -/
def post (n : Node) (path : String) (body : Wire.Record) (expected : Wire.Schema) :
    Dialogue NodeError Wire.Record :=
  match body.toText with
  | .ok text => n.call (n.client.post path text (some expected) n.headers)
  | .error f => .fail (.fault f)

/-! ## Calls -/

/-- A keyspace selected for the calls that follow. -/
def selectKeyspace (n : Node) (keyspace : Name) : Dialogue NodeError Node :=
  (n.get (paths.keyspace keyspace) Wire.keyspaceResponse).bind
    fun _ => pure { n with keyspace? := some keyspace }

/-- A user logged in for the calls that follow. -/
def login (n : Node) (username password : Value) : Dialogue NodeError Node :=
  (n.post paths.login (Wire.loginBody username password) Wire.loginResponse).bind fun r =>
    pure { n with authorization := .bearer (r.value "token").displayText }

/-- The ranges of the ring of a keyspace, if the node sends any list of them. -/
def describeRing (n : Node) (keyspace : Name) :
    Dialogue NodeError (Option (List Wire.RingEntry)) :=
  (n.get (paths.ring keyspace) Wire.ringResponse).bind
    fun r => pure ((Wire.entries r "ranges").map (·.map Wire.RingEntry.ofValue))

/-- A dialogue that needs the keyspace that is selected. -/
def withKeyspace {α : Type} (n : Node) (f : Name → Dialogue NodeError α) : Dialogue NodeError α :=
  match n.keyspace? with
  | some keyspace => f keyspace
  | none => .fail (.noKeyspace n.address)

/-- The parts of a range with their sizes, if the node sends any list of them. -/
def describeSizedSplits (n : Node) (table : Name) (start stop keysPerSplit : Value) :
    Dialogue NodeError (Option (List Wire.SplitEntry)) :=
  n.withKeyspace fun keyspace =>
    (n.post (paths.splits keyspace table) (Wire.splitsBody start stop keysPerSplit)
      Wire.splitsResponse).bind
      fun r => pure ((Wire.entries r "splits").map (·.map Wire.SplitEntry.ofValue))

/-- The tokens between the parts of a range, both ends of the range included. They are passed on
    as the node sends them. -/
def describeSplitTokens (n : Node) (table : Name) (start stop keysPerSplit : Value) :
    Dialogue NodeError Value :=
  n.withKeyspace fun keyspace =>
    (n.post (paths.splitTokens keyspace table) (Wire.splitsBody start stop keysPerSplit)
      Wire.splitTokensResponse).bind fun r => pure (r.value "tokens")

/-- A call that needs a name, made with a value that should be one. -/
def withName {α : Type} (v : Value) (f : Name → Dialogue NodeError α) : Dialogue NodeError α :=
  match Name.ofValue v with
  | .ok name => f name
  | .error e => .fail (.fault e)

end Node

end RingScan

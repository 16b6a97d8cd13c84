import RingScan.Wire.Schema

set_option autoImplicit false

/-! # The messages of the nodes

What is sent to a node and what it answers, with views of the answers that are looked into. -/

namespace RingScan.Wire

open RingScan.Wire.Field (required optional)

/-! ## Sent -/

/-- A user who logs in. -/
def loginRequest : Schema := [(required "username").plain, (required "password").plain]

/-- A range that is to be cut into parts of about so many keys. -/
def splitsRequest : Schema :=
  [(required "startToken").plain, (required "endToken").plain, (required "keysPerSplit").plain]

/-- The message of a user who logs in. -/
def loginBody (username password : Value) : Record :=
  [("username", username), ("password", password)]

/-- The message of a range that is to be cut. -/
def splitsBody (start stop keysPerSplit : Value) : Record :=
  [("startToken", start), ("endToken", stop), ("keysPerSplit", keysPerSplit)]

/-- The message of a user in logs, which do not show the password. -/
def describeLogin (r : Record) : String :=
  "LoginRequest(username=" ++ (r.value "username").literalText ++ ", password='***')"

/-! ## Answered -/

/-- Why a node rejects a request. -/
def errorResponse : Schema :=
  [(optional "resourceType" .null).plain, (optional "resourceName" .null).plain,
    (optional "message" .null).plain, (optional "code" .null).plain]

/-- The keyspace that was asked for. -/
def keyspaceResponse : Schema := [(optional "name" .null).plain]

/-- The token that a login gives. -/
def loginResponse : Schema := [(optional "token" .null).plain]

/-- The members of a range of the ring. -/
def ringEntryFields : List Field :=
  [optional "startToken" .null, optional "endToken" .null, optional "endpoints" (.arr []),
    optional "rpcEndpoints" (.arr [])]

/-- One range of the ring. -/
def ringEntry : Schema := ringEntryFields.map Field.plain

/-- All ranges of the ring. -/
def ringResponse : Schema := [⟨optional "ranges" (.arr []), .records ringEntryFields⟩]

/-- The members of a part of a range. -/
def splitEntryFields : List Field :=
  [optional "startToken" .null, optional "endToken" .null, optional "rowCount" (.int 0)]

/-- One part of a range. -/
def splitEntry : Schema := splitEntryFields.map Field.plain

/-- The parts of a range, with their sizes. -/
def splitsResponse : Schema := [⟨optional "splits" (.arr []), .records splitEntryFields⟩]

/-- The tokens between the parts of a range. -/
def splitTokensResponse : Schema := [(optional "tokens" (.arr [])).plain]

/-! ## Kept -/

/-- The members of the name of a table. -/
def identifierFields : List Field := [optional "keyspace" .null, optional "table" .null]

/-- The name of a table. -/
def identifier : Schema := identifierFields.map Field.plain

/-- A unit of work. -/
def split : Schema :=
  [(required "startToken").plain, (required "endToken").plain, (required "length").plain,
    ⟨optional "locations" (.arr []), .sequence⟩]

/-! ## Views -/

/-- Why a node rejects a request, member by member. -/
structure ErrorBody where
  resourceType : Value
  resourceName : Value
  message : Value
  code : Value

/-- The view of an error response. -/
def ErrorBody.ofRecord (r : Record) : ErrorBody where
  resourceType := r.value "resourceType"
  resourceName := r.value "resourceName"
  message := r.value "message"
  code := r.value "code"

/-- A range of the ring as a node reports it. -/
structure RingEntry where
  startToken : Value
  endToken : Value
  endpoints : Value
  rpcEndpoints : Value
  deriving DecidableEq

/-- The members of an object; other values have none. -/
def membersOf : Value → Record
  | .obj members => members
  | _ => []

/-- The view of a range of the ring. -/
def RingEntry.ofValue (v : Value) : RingEntry :=
  let r := membersOf v
  ⟨r.value "startToken", r.value "endToken", r.value "endpoints", r.value "rpcEndpoints"⟩

/-- A range of the ring as a message. -/
def RingEntry.record (e : RingEntry) : Record :=
  [("startToken", e.startToken), ("endToken", e.endToken), ("endpoints", e.endpoints),
    ("rpcEndpoints", e.rpcEndpoints)]

/-- A part of a range as a node reports it. -/
structure SplitEntry where
  startToken : Value
  endToken : Value
  rowCount : Value
  deriving DecidableEq

/-- The view of a part of a range. -/
def SplitEntry.ofValue (v : Value) : SplitEntry :=
  let r := membersOf v
  ⟨r.value "startToken", r.value "endToken", r.value "rowCount"⟩

/-- A part of a range as a message. -/
def SplitEntry.record (e : SplitEntry) : Record :=
  [("startToken", e.startToken), ("endToken", e.endToken), ("rowCount", e.rowCount)]

/-- The entries in a member of a message; a node may send null for the list. -/
def entries (r : Record) (name : String) : Option (List Value) :=
  match r.value name with
  | .arr items => some items
  | _ => none

end RingScan.Wire

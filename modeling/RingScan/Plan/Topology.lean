import RingScan.Plan.Error

set_option autoImplicit false

/-! # The ring as the nodes see it

A connection to a node starts with a handshake: the user logs in, if there is one, and the keyspace
is selected. The ring is asked of the first seed that can be reached. -/

namespace RingScan.Plan

/-- The user of a context logged in, if there is one. -/
def logIn (c : Context) (n : Node) : Dialogue NodeError Node :=
  match c.username? with
  | none => pure n
  | some username => n.login (.str username) (.str (c.password?.getD ""))

/-- A connection to a host, ready for use. -/
def connect (c : Context) (host : Value) : Dialogue NodeError Node :=
  let address := Node.addressOf host (.int c.rpcPort)
  .note (.connecting address)
    ((logIn c (Node.atAddress address c.connectTimeout c.requestTimeout)).bind fun n =>
      Node.withName (.str c.keyspace) n.selectKeyspace)

/-- A connection to the first of some seeds that can be reached. -/
def connectToSeed (c : Context) : List String → Dialogue PlanningError Node
  | [] => .fail (.seedsUnavailable c.seeds)
  | seed :: rest =>
      (connect c (.str seed)).andThen fun
        | .ok n => .done (.ok n)
        | .error (.unavailable ..) => connectToSeed c rest
        | .error e => .fail (.ofNode e)

/-- The ranges that a node reports. -/
def readRanges (entries? : Option (List Wire.RingEntry)) : Except PlanningError (List TokenRange) :=
  match entries? with
  | none => .error (.fault .mismatch)
  | some entries => (entries.mapM TokenRange.ofEntry).mapError .fault

/-- The ranges of the ring. -/
def describeRing (c : Context) : Dialogue PlanningError (List TokenRange) :=
  (connectToSeed c c.seeds).bind fun n =>
    ((Node.withName (.str c.keyspace) n.describeRing).mapError .ofNode).bind
      fun entries? => .done (readRanges entries?)

end RingScan.Plan

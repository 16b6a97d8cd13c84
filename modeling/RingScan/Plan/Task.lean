import RingScan.Wire.Messages

set_option autoImplicit false

/-! # Ranges and planning tasks

A range of the ring comes with its replicas, each of which has an internal address and one that
clients may use. A planning task is a range that is to be cut into splits of about some size. -/

namespace RingScan.Plan

/-- A range with its replicas. The items at one place of both lists are one replica. -/
structure TokenRange where
  startToken : Value
  endToken : Value
  endpoints : List Value
  rpcEndpoints : List Value
  deriving DecidableEq

namespace TokenRange

/-- The range that a node reports. -/
def ofEntry (e : Wire.RingEntry) : Except Fault TokenRange :=
  match e.endpoints.items, e.rpcEndpoints.items with
  | .ok endpoints, .ok rpcEndpoints => .ok ⟨e.startToken, e.endToken, endpoints, rpcEndpoints⟩
  | .error f, _ => .error f
  | _, .error f => .error f

/-- The same replicas with other bounds. -/
def withBounds (r : TokenRange) (start stop : Value) : TokenRange :=
  { r with startToken := start, endToken := stop }

/-- The bounds of a range in messages. -/
def bounds (r : TokenRange) : String :=
  "(" ++ r.startToken.displayText ++ ", " ++ r.endToken.displayText ++ "]"

/-- The addresses that stand for every address of a machine. -/
def wildcards : List String := ["", "0.0.0.0", "::"]

/-- Whether an address for clients leads nowhere. Lists and objects are no addresses at all. -/
def isUnusable : Value → Except Fault Bool
  | .null => .ok true
  | .str s => .ok (wildcards.contains s)
  | v => if v.isHashable then .ok false else .error .mismatch

/-- The addresses to use, where `endpoints` are the internal ones: the address for clients if it
    leads somewhere, else the internal one at the same place. -/
def resolveAddresses : List Value → List Value → Except Fault (List Value)
  | _, [] => .ok []
  | endpoints, address :: rest =>
      match isUnusable address with
      | .error f => .error f
      | .ok false => (resolveAddresses endpoints.tail rest).map (address :: ·)
      | .ok true =>
          match endpoints with
          | [] => .error .outOfRange
          | endpoint :: others => (resolveAddresses others rest).map (endpoint :: ·)

/-- The addresses at which the replicas of a range are reached. -/
def effectiveEndpoints (r : TokenRange) : Except Fault (List Value) :=
  resolveAddresses r.endpoints r.rpcEndpoints

end TokenRange

/-- A range that is to be cut into splits. -/
structure Task where
  range : TokenRange
  splitSize : Value
  deriving DecidableEq

/-- A task in messages. -/
def Task.describe (t : Task) : String :=
  "PlanningTask(range=" ++ t.range.bounds ++ ", endpoints=" ++ Value.listText t.range.endpoints ++
    ", split_size=" ++ t.splitSize.displayText ++ ")"

end RingScan.Plan

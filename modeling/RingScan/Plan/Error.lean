import RingScan.Node.Basic
import RingScan.Plan.Context
import RingScan.Plan.Task

set_option autoImplicit false

/-! # Errors of planning

What a planning pass, or a step of it, can end with instead of splits. -/

namespace RingScan.Plan

/-- The kinds of errors that callers tell apart. -/
inductive Category where
  | planning
  | configuration
  | unavailable
  | unsupported
  | protocol
  | endpointsExhausted
  | planningExhausted
  | invariant
  deriving DecidableEq

/-- Why planning failed. -/
inductive PlanningError where
  /-- The configuration cannot be used. -/
  | configuration (e : ConfigError)
  /-- A call of a node failed. -/
  | node (e : NodeError)
  /-- No seed could be reached. -/
  | seedsUnavailable (seeds : List String)
  /-- No replica of a range could be reached. -/
  | endpointsExhausted (addresses : List String)
  /-- A task failed, and no failure more is made good. -/
  | exhausted (retries : Nat) (task : Task) (cause : PlanningError)
  /-- The two address lists of a range are not of one length. -/
  | unevenReplicas (range : TokenRange)
  /-- A whole pass came to nothing. -/
  | noSplits (table : Identifier) (ranges : Nat)
  /-- An error of a category that its finder describes. -/
  | stated (category : Category) (details : List Value)
  /-- A value could not be used. -/
  | fault (f : Fault)

namespace PlanningError

/-- The kind of an error. Faults are outside all categories. -/
def category? : PlanningError → Option Category
  | .configuration _ => some .configuration
  | .node (.unavailable ..) => some .unavailable
  | .node (.unsupported ..) => some .unsupported
  | .node (.rejected ..) => some .protocol
  | .node (.noKeyspace _) => some .protocol
  | .node (.fault _) => none
  | .seedsUnavailable _ => some .unavailable
  | .endpointsExhausted _ => some .endpointsExhausted
  | .exhausted .. => some .planningExhausted
  | .unevenReplicas _ => some .invariant
  | .noSplits .. => some .invariant
  | .stated category _ => some category
  | .fault _ => none

/-- Whether something that must always hold does not. -/
def isInvariant (e : PlanningError) : Bool := e.category? == some .invariant

/-- Addresses in messages. -/
def addressList (addresses : List String) : String := ",".intercalate addresses

/-- The message for a task that failed once too often, with the reason of its last failure. -/
def exhaustedMessage (retries : Nat) (task : Task) (reason : String) : String :=
  s!"Could not get input splits after {retries} retries, last failure in " ++ task.describe ++
    ": " ++ reason

/-- The message for replicas that could not be reached. -/
def endpointsMessage (addresses : List String) : String :=
  "Failed connecting to all endpoints " ++ addressList addresses

/-- The message of details that are given: none, one, or a group of them. -/
def detailsMessage : List Value → String
  | [] => ""
  | [detail] => detail.displayText
  | details => Value.groupText details

/-- The message of a stated error. A node that cannot be reached is named if nothing else is said
    of it. -/
def statedMessage : Category → List Value → String
  | .unavailable, address :: details =>
      match details.filter Value.isTruthy with
      | detail :: _ => detail.displayText
      | [] => "Failed to connect to " ++ address.displayText
  | _, details => detailsMessage details

/-- The message of an error. -/
def message : PlanningError → String
  | .configuration e => e.message
  | .node e => e.message
  | .seedsUnavailable seeds => "Failed to connect to any seed of " ++ addressList seeds
  | .endpointsExhausted addresses => endpointsMessage addresses
  | .exhausted retries task cause => exhaustedMessage retries task cause.message
  | .unevenReplicas range =>
      s!"rpc_endpoints size {range.rpcEndpoints.length} must match endpoints size " ++
        s!"{range.endpoints.length} for range " ++ range.bounds
  | .noSplits table ranges =>
      "Planning " ++ table.fullName ++ s!" over {ranges} ranges produced no splits"
  | .stated category details => statedMessage category details
  | .fault f => f.message

/-- The texts among values, if all of them are texts. -/
def texts? (values : List Value) : Option (List String) :=
  values.mapM fun
    | .str s => some s
    | _ => none

/-- The error for replicas at these addresses, all of which must be texts. -/
def ofAddresses (addresses : List Value) : PlanningError :=
  match texts? addresses with
  | some addresses => .endpointsExhausted addresses
  | none => .fault .mismatch

/-- The error of a category with details. Two categories ask for details of their own. -/
def state (category : Category) (details : List Value) : PlanningError :=
  match category, details with
  | .unavailable, [_] => .stated .unavailable details
  | .unavailable, [_, _] => .stated .unavailable details
  | .unavailable, _ => .fault .mismatch
  | .endpointsExhausted, [addresses] =>
      match addresses.items with
      | .ok items => ofAddresses items
      | .error f => .fault f
  | .endpointsExhausted, _ => .fault .mismatch
  | category, details => .stated category details

/-- The error of a call that failed. -/
def ofNode : NodeError → PlanningError
  | .fault f => .fault f
  | e => .node e

/-- The error of a setup that failed. -/
def ofSetup : SetupError → PlanningError
  | .configuration e => .configuration e
  | .fault f => .fault f

end PlanningError

end RingScan.Plan

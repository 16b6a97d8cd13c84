import RingScan.Plan.Error
import RingScan.Plan.Split
import RingScan.Ring.TokenArc

set_option autoImplicit false

/-! # From parts of a range to splits

Every part that goes over the end of the ring becomes two splits. All splits of a range have the
hosts of the range, in the order of its replicas. -/

namespace RingScan.Plan

/-- How the name of a host is found by its address. -/
abbrev Resolver := Value → Except Fault Value

/-- The splits of a part of a range. -/
def SubSplit.splits (p : Partitioner) (locations : List Value) (s : SubSplit) :
    Except Fault (List Split) := do
  let pieces ← (← TokenArc.read p s.startToken s.endToken).unwrap
  return pieces.map fun a => ⟨a.left.render, a.right.render, s.rowCount, locations⟩

/-- The splits of the parts of a range behind those that are there already. If a part fails, those
    of the parts before it are kept. -/
def appendSplits (p : Partitioner) (locations : List Value) :
    List Split → List SubSplit → List Split × Except Fault Unit
  | output, [] => (output, .ok ())
  | output, s :: rest =>
      match s.splits p locations with
      | .ok splits => appendSplits p locations (output ++ splits) rest
      | .error f => (output, .error f)

/-- The hosts of a range. -/
def TokenRange.hosts (resolve : Resolver) (r : TokenRange) : Except Fault (List Value) :=
  match r.effectiveEndpoints with
  | .ok addresses => addresses.mapM resolve
  | .error f => .error f

/-- The splits of a range behind those that are there already, and whether all of them are. -/
def assemble (p : Partitioner) (resolve : Resolver) (r : TokenRange) (parts : List SubSplit)
    (output : List Split) : List Split × Except PlanningError Unit :=
  if r.rpcEndpoints.length ≠ r.endpoints.length then (output, .error (.unevenReplicas r))
  else
    match r.hosts resolve with
    | .error f => (output, .error (.fault f))
    | .ok locations =>
        let (splits, result) := appendSplits p locations output parts
        (splits, result.mapError .fault)

/-- The splits of a range. -/
def assembleAll (p : Partitioner) (resolve : Resolver) (r : TokenRange) (parts : List SubSplit) :
    Except PlanningError (List Split) :=
  let (splits, result) := assemble p resolve r parts []
  result.map fun _ => splits

end RingScan.Plan

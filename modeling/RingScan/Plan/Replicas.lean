import RingScan.Plan.Split
import RingScan.Plan.Topology

set_option autoImplicit false

/-! # Asking the replicas of a range

The replicas of a range are asked in their order how the range is to be cut; the first one that
can be reached answers for all. Nodes that do not know the sizes of parts only tell where to cut,
and the size that was asked for stands for the sizes of the parts. -/

namespace RingScan.Plan

/-- The parts of a range with their sizes. -/
def sizedParts (c : Context) (n : Node) (t : Task) : Dialogue NodeError (Option (List SubSplit)) :=
  (Node.withName (.str c.table) fun table =>
    n.describeSizedSplits table t.range.startToken t.range.endToken t.splitSize).bind
    fun entries? => pure (entries?.map (·.map SubSplit.ofEntry))

/-- The parts of a range by the tokens between them. -/
def pairedParts (c : Context) (n : Node) (t : Task) : Dialogue PlanningError (List SubSplit) :=
  ((Node.withName (.str c.table) fun table =>
    n.describeSplitTokens table t.range.startToken t.range.endToken t.splitSize).mapError
    .ofNode).bind fun tokens => .done ((SubSplit.ofTokens tokens t.splitSize).mapError .fault)

/-- The parts of a range as a node describes it. -/
def describeParts (c : Context) (n : Node) (t : Task) : Dialogue PlanningError (List SubSplit) :=
  (sizedParts c n t).andThen fun
    | .ok (some parts) => .done (.ok parts)
    | .ok none => .fail (.fault .mismatch)
    | .error (.unsupported ..) => pairedParts c n t
    | .error e => .fail (.ofNode e)

/-- The parts of a range as a host describes it. -/
def askHost (c : Context) (t : Task) (host : Value) : Dialogue PlanningError (List SubSplit) :=
  ((connect c host).mapError .ofNode).bind fun n => describeParts c n t

/-- The parts of a range as the first of some hosts that can be reached describes it, where `asked`
    are the hosts of the range. -/
def askHosts (c : Context) (t : Task) (asked : List Value) :
    List Value → Dialogue PlanningError (List SubSplit)
  | [] => .fail (.ofAddresses asked)
  | host :: rest =>
      (askHost c t host).andThen fun
        | .ok parts => .done (.ok parts)
        | .error (.node (.unavailable ..)) => askHosts c t asked rest
        | .error e => .fail e

/-- The parts of the range of a task. -/
def subSplits (c : Context) (t : Task) : Dialogue PlanningError (List SubSplit) :=
  match t.range.effectiveEndpoints with
  | .error f => .fail (.fault f)
  | .ok hosts => askHosts c t hosts hosts

end RingScan.Plan

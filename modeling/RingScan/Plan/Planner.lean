import RingScan.Plan.Collection
import RingScan.Plan.Restrict

set_option autoImplicit false

/-! # Planning the splits of a table

A pass checks its restriction, asks a seed for the ring, cuts its ranges to the restriction, and
collects the splits of all that is left. -/

namespace RingScan.Plan

/-- An attempt at a task. -/
def attempt (c : Context) (resolve : Resolver) (t : Task) : Dialogue PlanningError (List Split) :=
  (subSplits c t).bind fun parts => .done (assembleAll c.partitioner resolve t.range parts)

/-- The number of workers for so many tasks. -/
def workersFor (c : Context) (tasks : Nat) : Nat :=
  if c.maxThreads = 0 then max tasks 1 else c.maxThreads

/-- The splits of tasks. There must be some. -/
def collect (c : Context) (resolve : Resolver) (ranges : Nat) (tasks : List Task) :
    Dialogue PlanningError (List Split) :=
  (Collection.run c.maxRetries (workersFor c tasks.length) (attempt c resolve) tasks).bind
    fun splits =>
      if splits.isEmpty then .fail (.noSplits c.identifier ranges) else pure splits

/-- The splits of the table of a context. -/
def plan (c : Context) (resolve : Resolver) : Dialogue PlanningError (List Split) :=
  match jobArc c.partitioner c.keyRestriction? with
  | .error e => .fail (.ofSetup e)
  | .ok job? =>
      (describeRing c).bind fun ranges =>
        match restrict (.int c.splitSize) job? ranges with
        | .error f => .fail (.fault f)
        | .ok tasks => collect c resolve ranges.length tasks

/-! ## Entry points -/

/-- The ways in which a framework asks for splits. -/
inductive InputFormat where
  /-- A configuration goes in and a list of splits comes out. -/
  | current
  /-- A number of splits goes in besides, which counts for nothing, and an array comes out. -/
  | legacy (numSplits : Int)
  deriving DecidableEq

/-- The splits of the table that a configuration describes. All input formats give the same ones,
    in the same order. -/
def InputFormat.splits (_ : InputFormat) (o : Config.Options) (resolve : Resolver) :
    Dialogue PlanningError (List Split) :=
  match Context.ofOptions o with
  | .error e => .fail (.ofSetup e)
  | .ok c => plan c resolve

end RingScan.Plan

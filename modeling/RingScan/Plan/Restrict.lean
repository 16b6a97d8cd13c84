import RingScan.Plan.Error
import RingScan.Ring.Key
import RingScan.Ring.TokenArc

set_option autoImplicit false

/-! # Restricting a pass to a range of keys

On a ring where keys are in order, a range of keys is an arc. A restricted pass plans only what
its ranges have in common with that arc. Whether the restriction can be used is known before any
node is asked. -/

namespace RingScan.Plan

/-- The position of the first or the last key of a restriction. -/
def keyPosition (p : Partitioner) (key : String) : Except SetupError p.Position :=
  (p.positionOfText key).mapError .fault

/-- The arc that a pass is restricted to, if it is restricted. A restriction without a start key is
    none, and one without an end key goes to the end of the ring. -/
def jobArc (p : Partitioner) (restriction? : Option KeyRestriction) :
    Except SetupError (Option (Arc p.Position)) :=
  match restriction? with
  | none => .ok none
  | some r =>
      match r.startKey? with
      | none => .ok none
      | some startKey =>
          if !p.preservesOrder then .error (.configuration (.unordered p))
          else if r.startToken?.isSome || r.endToken?.isSome then
            .error (.configuration .tokenBound)
          else do
            let left ← keyPosition p startKey
            let right ←
              match r.endKey? with
              | none => .ok p.ring.minimum
              | some endKey => keyPosition p endKey
            return some ⟨left, right⟩

/-- The arc of a range. -/
def TokenRange.arc (p : Partitioner) (r : TokenRange) : Except Fault (TokenArc p) :=
  TokenArc.read p r.startToken r.endToken

/-- What a range has in common with an arc, with the replicas of the range. -/
def TokenRange.narrow {p : Partitioner} (r : TokenRange) (job : Arc p.Position) :
    Except Fault (List TokenRange) := do
  let common ← (← r.arc p).intersection (.ofArc job)
  return common.map fun a => r.withBounds a.left.render a.right.render

/-- The tasks of ranges, range by range. -/
def restrict {p : Partitioner} (splitSize : Value) (job? : Option (Arc p.Position))
    (ranges : List TokenRange) : Except Fault (List Task) :=
  match job? with
  | none => .ok (ranges.map fun r => ⟨r, splitSize⟩)
  | some job =>
      (ranges.mapM fun r : TokenRange => r.narrow job).map fun narrowed =>
        narrowed.flatten.map fun r => ⟨r, splitSize⟩

end RingScan.Plan

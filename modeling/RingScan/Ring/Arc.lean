set_option autoImplicit false

/-! # Arcs of a ring

Positions in a linear order are closed to a ring: behind the last position comes the first one.
An *arc* leaves its left bound out and takes its right bound in. The minimum of a ring is a
position that nothing lies at; as a right bound it means the end of the ring. -/

namespace RingScan

/-- The bounds of a ring. A ring without a maximum goes on for ever. -/
structure Ring (α : Type) where
  minimum : α
  maximum? : Option α

/-- The right bound of an arc that goes to the end of the ring. -/
def Ring.last {α : Type} (ring : Ring α) : α := ring.maximum?.getD ring.minimum

/-- The arc from `left`, exclusive, to `right`, inclusive. -/
structure Arc (α : Type) where
  left : α
  right : α
  deriving DecidableEq

namespace Arc

variable {α : Type} [LE α] [LT α] [DecidableLE α] [DecidableLT α] [DecidableEq α]

/-- Whether an arc goes over the end of the ring. An arc with equal bounds does: it is the whole
    ring. -/
def wraps (ring : Ring α) (a : Arc α) : Bool := a.right ≤ a.left && a.right ≠ ring.minimum

/-- An arc cut at the end of the ring, if it goes over it. Nothing lies behind the last position. -/
def unwrap (ring : Ring α) (a : Arc α) : List (Arc α) :=
  if a.wraps ring then
    if a.left = ring.last then [⟨ring.minimum, a.right⟩]
    else [⟨a.left, ring.last⟩, ⟨ring.minimum, a.right⟩]
  else [a]

end Arc

end RingScan

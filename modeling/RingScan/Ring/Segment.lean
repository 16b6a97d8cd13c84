import RingScan.Ring.Arc

set_option autoImplicit false

/-! # Arcs as segments of a line

An arc is at most two segments of the line that the ring was closed from. Segments leave their
lower bound out and take their upper bound in. A list of segments is *canonical* if none of them
is empty and each ends before the next one starts; that is how sets of positions are compared and
intersected.

Such lists stand for the intervals of the package `portion`, and union and intersection follow its
documented behaviour: atomic intervals are kept in order, empty ones are dropped, and a union merges
those that meet or touch. -/

namespace RingScan

/-- The positions above `lower` up to `upper?`, or all of them above `lower`. -/
structure Segment (α : Type) where
  lower : α
  upper? : Option α
  deriving DecidableEq

namespace Segment

variable {α : Type} [LE α] [LT α] [DecidableLE α] [DecidableLT α] [DecidableEq α]

/-- Whether a segment holds no position whatever the order. -/
def isEmpty (s : Segment α) : Bool :=
  match s.upper? with
  | none => false
  | some u => u ≤ s.lower

/-- Whether there is a gap between the end of a segment and the start of another. -/
def endsBefore (s t : Segment α) : Bool :=
  match s.upper? with
  | none => false
  | some u => u < t.lower

/-- The greater of two positions. -/
def later (x y : α) : α := if x ≤ y then y else x

/-- The smaller of two positions. -/
def earlier (x y : α) : α := if x ≤ y then x else y

/-- The segment from the start of the first to the end of the last of two segments. -/
def span (s t : Segment α) : Segment α where
  lower := earlier s.lower t.lower
  upper? :=
    match s.upper?, t.upper? with
    | some u, some v => some (later u v)
    | _, _ => none

/-- A segment put into a canonical list; those that it meets or touches are merged with it. -/
def insert (s : Segment α) : List (Segment α) → List (Segment α)
  | [] => [s]
  | t :: rest =>
      if s.endsBefore t then s :: t :: rest
      else if t.endsBefore s then t :: insert s rest
      else insert (span s t) rest

/-- The canonical list for the union of segments. -/
def join : List (Segment α) → List (Segment α)
  | [] => []
  | s :: rest => if s.isEmpty then join rest else insert s (join rest)

/-- What two segments have in common. -/
def meet (s t : Segment α) : Segment α where
  lower := later s.lower t.lower
  upper? :=
    match s.upper?, t.upper? with
    | some u, some v => some (earlier u v)
    | some u, none => some u
    | none, v? => v?

/-- What two canonical lists have in common, in order. -/
def meetAll (ss ts : List (Segment α)) : List (Segment α) :=
  ss.flatMap fun s => (ts.map (meet s)).filter (!·.isEmpty)

end Segment

namespace Arc

variable {α : Type} [LE α] [LT α] [DecidableLE α] [DecidableLT α] [DecidableEq α]

/-- The segment from a position to the end of the ring. -/
def toEnd (ring : Ring α) (left : α) : Segment α := ⟨left, ring.maximum?⟩

/-- The segments of an arc, as a canonical list. -/
def segments (ring : Ring α) (a : Arc α) : List (Segment α) :=
  if a.right = ring.minimum then Segment.join [toEnd ring a.left]
  else if a.wraps ring then Segment.join [toEnd ring a.left, ⟨ring.minimum, some a.right⟩]
  else Segment.join [⟨a.left, some a.right⟩]

/-- A segment as an arc; a segment without an end goes to the end of the ring. -/
def ofSegment (ring : Ring α) (s : Segment α) : Arc α := ⟨s.lower, s.upper?.getD ring.minimum⟩

/-- What two arcs have in common, as arcs that do not go over the end of the ring, in order. -/
def intersection (ring : Ring α) (a b : Arc α) : List (Arc α) :=
  (Segment.meetAll (a.segments ring) (b.segments ring)).map (ofSegment ring)

/-- Whether two arcs have a position in common. -/
def intersects (ring : Ring α) (a b : Arc α) : Bool :=
  !(Segment.meetAll (a.segments ring) (b.segments ring)).isEmpty

end Arc

end RingScan

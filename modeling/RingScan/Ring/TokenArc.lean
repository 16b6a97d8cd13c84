import RingScan.Ring.Segment
import RingScan.Ring.Token

set_option autoImplicit false

/-! # Arcs between tokens

Nodes say by two tokens where an arc lies. Between positions it is an arc of the ring, and
everything that is known of those holds. Between foreign tokens there are no positions; but as long
as the two tokens have an order it is known whether the arc goes over the end of the ring, and what
an arc that does not has in common with another one of its kind. An arc between a position and a
foreign token only makes sense if it goes to the end of the ring. -/

namespace RingScan

/-- The arc from the token `left`, exclusive, to the token `right`, inclusive. -/
structure TokenArc (p : Partitioner) where
  left : Token p
  right : Token p

namespace TokenArc

variable {p : Partitioner}

/-- An arc of positions. -/
def ofArc (a : Arc p.Position) : TokenArc p := ⟨.position a.left, .position a.right⟩

/-- The arc of positions that an arc is, if both of its tokens are positions. -/
def arc? (a : TokenArc p) : Option (Arc p.Position) :=
  match a.left, a.right with
  | .position left, .position right => some ⟨left, right⟩
  | _, _ => none

@[simp] theorem arc?_ofArc (a : Arc p.Position) : (ofArc a).arc? = some a := rfl

/-- The arc between the tokens that two values stand for. -/
def read (p : Partitioner) (left right : Value) : Except Fault (TokenArc p) :=
  match Token.read p left, Token.read p right with
  | .ok l, .ok r => .ok ⟨l, r⟩
  | .error e, _ => .error e.toFault
  | _, .error e => .error e.toFault

/-- An arc in messages. -/
def describe (a : TokenArc p) : String :=
  "(" ++ a.left.render.displayText ++ ", " ++ a.right.render.displayText ++ "]"

/-- Whether two arcs have the same bounds, whatever rings they are arcs of. -/
def same {q : Partitioner} (a : TokenArc p) (b : TokenArc q) : Bool :=
  a.left.value.same b.left.value && a.right.value.same b.right.value

/-! ## The end of the ring -/

/-- Whether an arc goes over the end of the ring. -/
def wraps (a : TokenArc p) : Except Fault Bool :=
  match a.arc? with
  | some x => .ok (x.wraps p.ring)
  | none =>
      match (a.left.relate a.right).atLeast? with
      | some b => .ok b
      | none => .error .mismatch

/-- An arc cut at the end of the ring, if it goes over it. -/
def unwrap (a : TokenArc p) : Except Fault (List (TokenArc p)) :=
  match a.arc? with
  | some x => .ok ((x.unwrap p.ring).map ofArc)
  | none =>
      a.wraps.map fun
        | true => [⟨a.left, .position p.ring.last⟩, ⟨.position p.ring.minimum, a.right⟩]
        | false => [a]

/-! ## Segments -/

/-- A segment of positions as one of tokens. -/
def ofSegment (s : Segment p.Position) : Segment (Token p) :=
  ⟨.position s.lower, s.upper?.map .position⟩

/-- The segments of an arc. What goes over the end of the ring, or starts at it, has none between
    foreign tokens. -/
def segments (a : TokenArc p) : Except Fault (List (Segment (Token p))) :=
  match a.left, a.right with
  | .position left, .position right =>
      .ok ((Arc.segments p.ring ⟨left, right⟩).map ofSegment)
  | .foreign _, .position right =>
      if right = p.ring.minimum then .ok [⟨a.left, p.ring.maximum?.map .position⟩]
      else .error .mismatch
  | .position _, .foreign _ => .error .mismatch
  | .foreign v, .foreign w =>
      match v.relate w with
      | .ordered .lt => .ok [⟨a.left, some a.right⟩]
      | .unordered => .ok []
      | _ => .error .mismatch

/-- The greater of two tokens; the first one if they are equal. -/
def later (t u : Token p) : Except Fault (Token p) :=
  match t.below? u with
  | some b => .ok (if b then u else t)
  | none => .error .mismatch

/-- The smaller of two upper bounds; the first one if they are equal. -/
def earlier? : Option (Token p) → Option (Token p) → Except Fault (Option (Token p))
  | some t, some u =>
      match u.below? t with
      | some b => .ok (some (if b then u else t))
      | none => .error .mismatch
  | some t, none => .ok (some t)
  | none, u? => .ok u?

/-- Whether a segment holds anything. -/
def isInhabited (s : Segment (Token p)) : Except Fault Bool :=
  match s.upper? with
  | none => .ok true
  | some u =>
      match s.lower.below? u with
      | some b => .ok b
      | none => .error .mismatch

/-- What two segments have in common: one segment or none. -/
def meet (s t : Segment (Token p)) : Except Fault (List (Segment (Token p))) := do
  let m : Segment (Token p) := ⟨← later s.lower t.lower, ← earlier? s.upper? t.upper?⟩
  return if ← isInhabited m then [m] else []

/-- What two lists of segments have in common, in order. -/
def meetAll (ss ts : List (Segment (Token p))) : Except Fault (List (Segment (Token p))) :=
  ((ss.flatMap fun s => ts.map fun t => (s, t)).mapM fun st => meet st.1 st.2).map List.flatten

/-! ## Intersection -/

/-- A segment as an arc; a segment without an end goes to the end of the ring. -/
def ofTokenSegment (s : Segment (Token p)) : TokenArc p :=
  ⟨s.lower, s.upper?.getD (.position p.ring.minimum)⟩

/-- What two arcs have in common, as arcs that do not go over the end of the ring, in order. -/
def intersection (a b : TokenArc p) : Except Fault (List (TokenArc p)) :=
  match a.arc?, b.arc? with
  | some x, some y => .ok ((x.intersection p.ring y).map ofArc)
  | _, _ =>
      match a.segments, b.segments with
      | .ok ss, .ok ts => (meetAll ss ts).map (·.map ofTokenSegment)
      | .error f, _ => .error f
      | _, .error f => .error f

/-- Whether two arcs have anything in common. -/
def intersects (a b : TokenArc p) : Except Fault Bool :=
  (a.intersection b).map fun common => !common.isEmpty

end TokenArc

end RingScan

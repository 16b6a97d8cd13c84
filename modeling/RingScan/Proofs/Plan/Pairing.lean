import RingScan.Proofs.Plan.Reassembly
import RingScan.Proofs.Ring.Waypoints

set_option autoImplicit false

/-! # Parts between neighbours

A node that does not know sized parts tells the tokens between them, and the parts are those between
neighbours in this list. Tokens that go around the ring, along the range that the node was asked
about, make parts that tile the range, and so do their splits (`paired_tokens_tile`).

A node may also tell parts, or tokens, in the order of their positions, some of them empty. An empty
part has equal bounds, which everywhere else means the whole ring, and it is read that way here,
too: its splits take in all points of the ring. So splits stay within the range just if there is no
such part, or the range is the whole ring (`ordered_parts_within_iff`). -/

namespace RingScan.Plan

variable {p : Partitioner} {a b : Arc p.Position} {r : TokenRange} {resolve : Resolver}
  {locations tokens : List Value} {parts : List SubSplit} {ts : List p.Position}

/-! ## Parts between positions -/

/-- Whether the values of a list are read as positions, one by one. -/
def ReadAs (p : Partitioner) (tokens : List Value) (ts : List p.Position) : Prop :=
  List.Forall₂ (fun v t => Token.read p v = .ok (.position t)) tokens ts

/-- Whether a part lies between the bounds of an arc. -/
def SubSplit.IsAt (p : Partitioner) (s : SubSplit) (a : Arc p.Position) : Prop :=
  TokenArc.read p s.startToken s.endToken = .ok (.ofArc a)

theorem read_of_positions {start stop : Value} {l m : p.Position}
    (hl : Token.read p start = .ok (.position l)) (hm : Token.read p stop = .ok (.position m)) :
    TokenArc.read p start stop = .ok (.ofArc ⟨l, m⟩) := by
  rw [TokenArc.read, hl, hm]
  rfl

/-- The parts between tokens are the steps between their positions. -/
theorem ReadAs.between (h : ReadAs p tokens ts) (size : Value) :
    List.Forall₂ (SubSplit.IsAt p) (SubSplit.between size tokens) (Arc.steps ts) := by
  induction h with
  | nil => exact .nil
  | cons hv hrest ih =>
    cases hrest with
    | nil => exact .nil
    | cons hw _ => exact .cons (read_of_positions hv hw) ih

theorem rowCount_of_mem_between {size : Value} {part : SubSplit}
    (h : part ∈ SubSplit.between size tokens) : part.rowCount = size := by
  induction tokens with
  | nil => simp [SubSplit.between] at h
  | cons start rest ih =>
    cases rest with
    | nil => simp [SubSplit.between] at h
    | cons stop rest =>
      rcases List.mem_cons.1 h with rfl | h
      · rfl
      · exact ih h

/-- Parts between positions have splits, which come behind those that are there already. Those of
    each part tile it. -/
theorem exists_pieces {arcs : List (Arc p.Position)}
    (heven : r.rpcEndpoints.length = r.endpoints.length) (hhosts : r.hosts resolve = .ok locations)
    (h : List.Forall₂ (SubSplit.IsAt p) parts arcs) (hin : ∀ b ∈ arcs, b.Within p.ring) :
    ∃ pieces : List (List Split),
      (∀ output, assemble p resolve r parts output = (output ++ pieces.flatten, .ok ())) ∧
      List.Forall₂ (fun b xs => Tiles (Split.points p) xs (b.points p.ring)) arcs pieces := by
  have hpositions : ∀ part ∈ parts, ∃ xs, part.splits p locations = .ok xs := by
    intro part hpart
    obtain ⟨b, -, hb⟩ := exists_of_forall₂_of_mem h.flip hpart
    exact ⟨_, SubSplit.splits_of_read locations hb⟩
  obtain ⟨pieces, hpieces⟩ := exists_forall₂ hpositions
  refine ⟨pieces, assemble_of_forall₂ heven hhosts hpieces, ?_⟩
  clear hpositions
  induction h generalizing pieces with
  | nil =>
    cases hpieces
    exact .nil
  | cons hb _ ih =>
    cases hpieces with
    | cons hxs hrest =>
      obtain ⟨hfirst, hin⟩ := List.forall_mem_cons.1 hin
      have htiles := SubSplit.tiles_splits ⟨_, hb, hfirst⟩ hxs
      rw [SubSplit.points, pointsBetween_eq hb] at htiles
      exact .cons htiles (ih hin _ hrest)

/-! ## Around the ring -/

/-- **The parts between tokens that go along a range tile it.** The first and the last token are the
    bounds of the range, and each one between them is a point of what the one before it has left of
    the range, but not its end; so it is not the minimum of the ring either, as nothing lies there.
    Then there is one part less than there are tokens, and each has the size that was asked for. The
    parts tile the range, and so do their splits. -/
theorem paired_tokens_tile {inner : List p.Position}
    (hr : TokenArc.read p r.startToken r.endToken = .ok (.ofArc a)) (ha : a.Within p.ring)
    (hinner : a.GoAlong p.ring inner) (htokens : ReadAs p tokens (a.left :: inner ++ [a.right]))
    (heven : r.rpcEndpoints.length = r.endpoints.length) (hhosts : r.hosts resolve = .ok locations)
    (size : Value) :
    ∃ parts, SubSplit.ofTokens (.arr tokens) size = .ok parts ∧
      parts.length = inner.length + 1 ∧ (∀ part ∈ parts, part.rowCount = size) ∧
      Tiles (SubSplit.points p) parts (r.points p) ∧
      ∃ splits, (∀ output, assemble p resolve r parts output = (output ++ splits, .ok ())) ∧
        Tiles (Split.points p) splits (r.points p) := by
  have hparts := htokens.between size
  have hsteps := Arc.tiles_steps hinner
  have hpoints : r.points p = a.points p.ring := pointsBetween_eq hr
  have hin : ∀ b ∈ Arc.steps (a.left :: inner ++ [a.right]), b.Within p.ring := by
    intro b hb
    exact Arc.within_of_mem_steps ha hinner hb
  obtain ⟨pieces, hassemble, hpieces⟩ := exists_pieces heven hhosts hparts hin
  refine ⟨SubSplit.between size tokens, rfl, ?_, fun part => rowCount_of_mem_between, ?_,
    pieces.flatten, hassemble, ?_⟩
  · rw [hparts.length_eq, Arc.length_steps]
    simp
  · rw [hpoints]
    exact hsteps.forall₂ (hparts.imp fun part b hb => pointsBetween_eq hb)
  · rw [hpoints]
    exact hsteps.flatten hpieces

/-- A range that goes over the end of the ring. -/
def wrappingRange : TokenRange := oneReplica.withBounds (.str "90") (.str "10")

/-- Tokens along it, on both sides of the end. -/
def wrappingTokens : List Value := [.str "90", .str "95", .str "-5", .str "10"]

theorem isWaypoint_around {l m : Int} (hl : 10 ≤ l) (hmin : -0x8000000000000000 < m)
    (hmax : m ≤ 0x7fffffffffffffff) (h : l < m ∨ m < 10) :
    Arc.IsWaypoint (Partitioner.ring .murmur3) (TokenArc.between l 10) m := by
  have hw : (TokenArc.between l 10).wraps (Partitioner.ring .murmur3) = true :=
    Arc.wraps_iff.2 ⟨hl, show (10 : Int) ≠ -0x8000000000000000 by decide⟩
  refine ⟨(Arc.mem_points_of_wraps hw).2 ⟨⟨hmin, ?_⟩, h.imp_right Int.le_of_lt⟩, ?_⟩
  · rintro M ⟨⟩
    exact hmax
  · intro heq
    have heq : m = 10 := heq
    omega

theorem paired_tokens_tile_around :
    (TokenArc.between 90 10).Within (Partitioner.ring .murmur3) ∧
      (TokenArc.between 90 10).GoAlong (Partitioner.ring .murmur3) [(95 : Int), (-5 : Int)] ∧
      wrappingRange.rpcEndpoints.length = wrappingRange.endpoints.length ∧
      wrappingRange.hosts .ok = .ok [.str "a"] ∧
      ∃ parts, SubSplit.ofTokens (.arr wrappingTokens) (.int 500) = .ok parts ∧ parts.length = 3 ∧
        Tiles (SubSplit.points .murmur3) parts (wrappingRange.points .murmur3) := by
  have ha : (TokenArc.between 90 10).Within (Partitioner.ring .murmur3) :=
    TokenArc.within_between (by decide) (by decide) (by decide) (by decide)
  have hbefore : Arc.IsWaypoint (Partitioner.ring .murmur3) (TokenArc.between 90 10) (95 : Int) :=
    isWaypoint_around (by decide) (by decide) (by decide) (by decide)
  have hbehind : Arc.IsWaypoint (Partitioner.ring .murmur3) (TokenArc.between 95 10) (-5 : Int) :=
    isWaypoint_around (by decide) (by decide) (by decide) (by decide)
  have hinner : (TokenArc.between 90 10).GoAlong (Partitioner.ring .murmur3)
      [(95 : Int), (-5 : Int)] := .cons_cons hbefore (.cons_cons hbehind (.singleton _))
  have htokens : ReadAs .murmur3 wrappingTokens [(90 : Int), (95 : Int), (-5 : Int), (10 : Int)] :=
    .cons rfl (.cons rfl (.cons rfl (.cons rfl .nil)))
  have hread : TokenArc.read .murmur3 wrappingRange.startToken wrappingRange.endToken =
      .ok (.ofArc (TokenArc.between 90 10)) := rfl
  have heven : wrappingRange.rpcEndpoints.length = wrappingRange.endpoints.length := rfl
  have hhosts : wrappingRange.hosts .ok = .ok [.str "a"] := rfl
  obtain ⟨parts, hparts, hlength, -, htiles, -⟩ :=
    paired_tokens_tile hread ha hinner htokens heven hhosts (.int 500)
  exact ⟨ha, hinner, heven, hhosts, parts, hparts, hlength, htiles⟩

/-! ## In the order of the positions -/

/-- Whether an arc takes in the whole ring, from its minimum to its maximum. -/
def IsWholeRing (a : Arc p.Position) : Prop :=
  a.left = p.ring.minimum ∧ p.ring.maximum? = some a.right

/-- Parts in order have splits. Those of an empty part take in the whole ring, and those of all
    others stay within the range. -/
theorem exists_splits_within_iff {arcs : List (Arc p.Position)}
    (hr : TokenArc.read p r.startToken r.endToken = .ok (.ofArc a)) (ha : a.Within p.ring)
    (hlt : a.left < a.right) (heven : r.rpcEndpoints.length = r.endpoints.length)
    (hhosts : r.hosts resolve = .ok locations)
    (hparts : List.Forall₂ (SubSplit.IsAt p) parts arcs) (hordered : ∀ b ∈ arcs, a.IsOrderedIn b) :
    ∃ splits, (∀ output, assemble p resolve r parts output = (output ++ splits, .ok ())) ∧
      ((∀ s ∈ splits, s.points p ⊆ r.points p) ↔
        (∀ b ∈ arcs, b.left ≠ b.right) ∨ IsWholeRing a) := by
  have hpoints : r.points p = a.points p.ring := pointsBetween_eq hr
  obtain ⟨pieces, hassemble, hpieces⟩ :=
    exists_pieces heven hhosts hparts fun b hb => (hordered b hb).within ha
  -- the splits of a part make up the part, and so stay within the range just if it does
  have hsplits : (∀ s ∈ pieces.flatten, s.points p ⊆ r.points p) ↔
      ∀ b ∈ arcs, b.points p.ring ⊆ r.points p := by
    refine forall_mem_flatten_iff (hpieces.imp ?_)
    intro b xs hxs
    rw [← hxs.union, Set.iUnion₂_subset_iff]
  have hone : ∀ b ∈ arcs, b.points p.ring ⊆ r.points p ↔ b.left ≠ b.right ∨ IsWholeRing a := by
    intro b hb
    rw [hpoints]
    exact (hordered b hb).points_subset_iff ha hlt p.goesOn_ring
  refine ⟨pieces.flatten, hassemble, ?_⟩
  rw [hsplits, forall₂_congr hone]
  by_cases hwhole : IsWholeRing a <;> simp [hwhole]

/-- **Parts in order widen a range just by those that are empty.** For a range that does not go over
    the end of the ring, let parts be given whose bounds are in order within the bounds of the
    range. Then all points of their splits are points of the range just if no part has equal bounds
    or the range is the whole ring anyway. The same holds of the parts between tokens that go from
    the start to the end of the range in order: none of them must be there twice. -/
theorem ordered_parts_within_iff
    (hr : TokenArc.read p r.startToken r.endToken = .ok (.ofArc a)) (ha : a.Within p.ring)
    (hlt : a.left < a.right) (heven : r.rpcEndpoints.length = r.endpoints.length)
    (hhosts : r.hosts resolve = .ok locations) :
    (∀ parts arcs, List.Forall₂ (SubSplit.IsAt p) parts arcs → (∀ b ∈ arcs, a.IsOrderedIn b) →
      ∃ splits, (∀ output, assemble p resolve r parts output = (output ++ splits, .ok ())) ∧
        ((∀ s ∈ splits, s.points p ⊆ r.points p) ↔
          (∀ b ∈ arcs, b.left ≠ b.right) ∨ IsWholeRing a)) ∧
    (∀ tokens inner size, ReadAs p tokens (a.left :: inner ++ [a.right]) →
      (a.left :: inner ++ [a.right]).Pairwise (· ≤ ·) →
      ∃ parts splits, SubSplit.ofTokens (.arr tokens) size = .ok parts ∧
        (∀ output, assemble p resolve r parts output = (output ++ splits, .ok ())) ∧
        ((∀ s ∈ splits, s.points p ⊆ r.points p) ↔
          (a.left :: inner ++ [a.right]).Nodup ∨ IsWholeRing a)) := by
  constructor
  · intro parts arcs hparts hordered
    exact exists_splits_within_iff hr ha hlt heven hhosts hparts hordered
  · intro tokens inner size htokens hsorted
    have hordered : ∀ b ∈ Arc.steps (a.left :: inner ++ [a.right]), a.IsOrderedIn b := by
      intro b hb
      exact Arc.isOrderedIn_of_mem_steps hsorted hb
    obtain ⟨splits, hassemble, hwithin⟩ :=
      exists_splits_within_iff hr ha hlt heven hhosts (htokens.between size) hordered
    rw [Arc.forall_left_ne_right_iff hsorted] at hwithin
    exact ⟨SubSplit.between size tokens, splits, rfl, hassemble, hwithin⟩

/-- A range of texts. -/
def textRange : TokenRange := oneReplica.withBounds (.str "c") (.str "m")

/-- An arc of texts. -/
def textArc (left right : String) : Arc (Partitioner.Position .orderPreserving) :=
  ⟨Text.ordered left, Text.ordered right⟩

theorem within_textArc (left right : String) :
    (textArc left right).Within (Partitioner.ring .orderPreserving) :=
  within_of_preservesOrder rfl _

theorem ordered_parts_within_iff_text :
    (textArc "c" "m").Within (Partitioner.ring .orderPreserving) ∧
      (textArc "c" "m").left < (textArc "c" "m").right ∧
      textRange.rpcEndpoints.length = textRange.endpoints.length ∧
      textRange.hosts .ok = .ok [.str "a"] ∧
      ∃ parts splits, SubSplit.ofTokens (.arr [.str "c", .str "f", .str "m"]) (.int 5) = .ok parts ∧
        assembleAll .orderPreserving .ok textRange parts = .ok splits ∧
        ∀ s ∈ splits, s.points .orderPreserving ⊆ textRange.points .orderPreserving := by
  have hread : TokenArc.read .orderPreserving textRange.startToken textRange.endToken =
      .ok (.ofArc (textArc "c" "m")) := rfl
  have hlt : (textArc "c" "m").left < (textArc "c" "m").right := by decide
  have heven : textRange.rpcEndpoints.length = textRange.endpoints.length := rfl
  have hhosts : textRange.hosts .ok = .ok [.str "a"] := rfl
  have htokens : ReadAs .orderPreserving [.str "c", .str "f", .str "m"]
      ((textArc "c" "m").left :: [Text.ordered "f"] ++ [(textArc "c" "m").right]) :=
    .cons rfl (.cons rfl (.cons rfl .nil))
  obtain ⟨-, hpaired⟩ :=
    ordered_parts_within_iff hread (within_textArc "c" "m") hlt heven hhosts
  obtain ⟨parts, splits, hparts, hassemble, hwithin⟩ :=
    hpaired _ _ (.int 5) htokens (by decide)
  refine ⟨within_textArc "c" "m", hlt, heven, hhosts, parts, splits, hparts, ?_,
    hwithin.2 (.inl (by decide))⟩
  simp [assembleAll, hassemble, Except.map]

/-- An empty part before one that is the whole range, as a node may tell them or the tokens `c`, `c`
    and `m`. -/
def emptyFirst : List SubSplit := [⟨.str "c", .str "c", .int 5⟩, ⟨.str "c", .str "m", .int 5⟩]

/-- Their splits. -/
def widenedSplits : List Split :=
  [⟨.str "c", .str "", .int 5, [.str "a"]⟩, ⟨.str "", .str "c", .int 5, [.str "a"]⟩,
    ⟨.str "c", .str "m", .int 5, [.str "a"]⟩]

/-- An empty part widens a range: the first split takes in the text `z`, which lies behind the
    range. -/
theorem empty_part_widens :
    TokenArc.read .orderPreserving textRange.startToken textRange.endToken =
        .ok (.ofArc (textArc "c" "m")) ∧
      (textArc "c" "m").left < (textArc "c" "m").right ∧
      List.Forall₂ (SubSplit.IsAt .orderPreserving) emptyFirst [textArc "c" "c", textArc "c" "m"] ∧
      (∀ b ∈ [textArc "c" "c", textArc "c" "m"], (textArc "c" "m").IsOrderedIn b) ∧
      SubSplit.ofTokens (.arr [.str "c", .str "c", .str "m"]) (.int 5) = .ok emptyFirst ∧
      assembleAll .orderPreserving .ok textRange emptyFirst = .ok widenedSplits ∧
      ¬ ∀ s ∈ widenedSplits, s.points .orderPreserving ⊆ textRange.points .orderPreserving := by
  have hrange : TokenArc.read .orderPreserving textRange.startToken textRange.endToken =
      .ok (.ofArc (textArc "c" "m")) := rfl
  have hbehind : TokenArc.read .orderPreserving (.str "c") (.str "") =
      .ok (.ofArc (textArc "c" "")) := rfl
  have hordered : ∀ b ∈ [textArc "c" "c", textArc "c" "m"], (textArc "c" "m").IsOrderedIn b := by
    simp only [List.forall_mem_cons, List.not_mem_nil, false_imp_iff, implies_true, and_true]
    exact ⟨⟨by decide, by decide, by decide⟩, ⟨by decide, by decide, by decide⟩⟩
  refine ⟨hrange, by decide, .cons rfl (.cons rfl .nil), hordered, rfl, by rfl, fun hall => ?_⟩
  have hsubset := hall _ List.mem_cons_self
  rw [Split.points, TokenRange.points, pointsBetween_eq hbehind, pointsBetween_eq hrange] at hsubset
  have hz : (textArc "" "z").right ∈ (textArc "c" "").points (Partitioner.ring .orderPreserving) :=
    (Arc.mem_points_toEnd (within_textArc "c" "").left).2 ⟨⟨by decide, by rintro m ⟨⟩⟩, by decide⟩
  have hle : (textArc "" "z").right ≤ (textArc "c" "m").right :=
    ((Arc.mem_points_of_lt (by decide)).1 (hsubset hz)).2.2
  exact absurd hle (by decide)

end RingScan.Plan

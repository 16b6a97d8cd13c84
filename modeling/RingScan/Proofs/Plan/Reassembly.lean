import RingScan.Proofs.Plan.Points
import RingScan.Proofs.Ring.Pieces

set_option autoImplicit false

/-! # Splits as parts again

The splits of a range can be handed in as its parts. A split that does not go over the end of the
ring is its own only split, and one that does is cut in two (`IsSplitOf.exists_splits`), so that the
same splits come out just if none of them goes over that end. This depends on the parts that the
splits were made of: a part that goes over the end of the ring must be within the ring
(`SubSplit.exists_splits_of_isTokenText`). Tokens are read as they come, be they positions between
the bounds of the ring or not, and a part that goes beyond these bounds is cut once, like all
others. -/

namespace RingScan.Plan

variable {p : Partitioner} {a b : Arc p.Position} {s : Split} {locations : List Value}

/-- A split as a part of a range. -/
def Split.part (s : Split) : SubSplit := ⟨s.startToken, s.endToken, s.length⟩

/-- Whether a split is a range that does not go over the end of the ring. -/
def Split.IsUnwrapped (p : Partitioner) (s : Split) : Prop :=
  ∃ a : TokenArc p, TokenArc.read p s.startToken s.endToken = .ok a ∧ a.wraps = .ok false

/-- Whether a part of a range is within the ring, should it go over the end of it. -/
def SubSplit.IsCuttable (p : Partitioner) (part : SubSplit) : Prop :=
  ∃ a : Arc p.Position, TokenArc.read p part.startToken part.endToken = .ok (.ofArc a) ∧
    (a.wraps p.ring = true → a.Within p.ring)

/-! ## The splits of a part -/

theorem Split.isUnwrapped_iff (h : TokenArc.read p s.startToken s.endToken = .ok (.ofArc b)) :
    s.IsUnwrapped p ↔ b.wraps p.ring = false := by
  constructor
  · rintro ⟨c, hc, hw⟩
    obtain rfl := Except.ok.inj (h.symm.trans hc)
    exact Except.ok.inj hw
  · intro hw
    exact ⟨.ofArc b, h, congrArg Except.ok hw⟩

theorem SubSplit.isCuttable_iff {part : SubSplit}
    (h : TokenArc.read p part.startToken part.endToken = .ok (.ofArc a)) :
    part.IsCuttable p ↔ (a.wraps p.ring = true → a.Within p.ring) := by
  constructor
  · rintro ⟨c, hc, hin⟩
    obtain rfl := ofArc_injective (Except.ok.inj (h.symm.trans hc))
    exact hin
  · intro hin
    exact ⟨a, h, hin⟩

/-- Where keys are in order, the ring takes in all positions, and every part is within it. -/
theorem SubSplit.isCuttable_of_preservesOrder {part : SubSplit} (h : p.preservesOrder = true)
    (hstart : IsTokenText p part.startToken) (hstop : IsTokenText p part.endToken) :
    part.IsCuttable p := by
  obtain ⟨a, ha, -, -⟩ := exists_arc_of_isTokenText hstart hstop
  exact (SubSplit.isCuttable_iff ha).2 fun _ => within_of_preservesOrder h a

/-- What a part is cut into can be written if the bounds of the part can: the bounds that are added
    are those of the ring. -/
theorem isWritable_of_mem_unwrap (hl : a.left.isWritable = true) (hr : a.right.isWritable = true)
    (hb : b ∈ a.unwrap p.ring) : b.left.isWritable = true ∧ b.right.isWritable = true := by
  have hminimum : p.ring.Bounds p.ring.minimum :=
    ⟨Std.le_refl _, fun M hM => Std.le_of_lt (p.isProper_ring.minimum_lt M hM)⟩
  have hmin := Partitioner.Position.isWritable_of_bounds hminimum
  have hlast := Partitioner.Position.isWritable_of_bounds hminimum.last
  rcases Arc.unwrap_cases p.ring a with ⟨-, h⟩ | ⟨-, -, h⟩ | ⟨-, -, h⟩ <;> rw [h] at hb
  · obtain rfl := List.mem_singleton.1 hb
    exact ⟨hl, hr⟩
  · obtain rfl := List.mem_singleton.1 hb
    exact ⟨hmin, hr⟩
  · rcases List.mem_pair.1 hb with rfl | rfl
    · exact ⟨hl, hlast⟩
    · exact ⟨hmin, hr⟩

/-- Whether a split is made of a piece of a part: its tokens are the bounds of the piece, as they
    are written, and are read as these bounds. -/
structure IsSplitOf (p : Partitioner) (part : SubSplit) (s : Split) (b : Arc p.Position) : Prop where
  piece : ∃ a : Arc p.Position,
    TokenArc.read p part.startToken part.endToken = .ok (.ofArc a) ∧ b ∈ a.unwrap p.ring
  startToken : s.startToken = .str b.left.render
  endToken : s.endToken = .str b.right.render
  read : TokenArc.read p s.startToken s.endToken = .ok (.ofArc b)

/-- **A part between two texts that are read as tokens has splits**, which are made of its pieces.
    None of them goes over the end of the ring just if the part does not or is within the ring. -/
theorem SubSplit.exists_splits_of_isTokenText {part : SubSplit}
    (hstart : IsTokenText p part.startToken) (hstop : IsTokenText p part.endToken)
    (locations : List Value) :
    ∃ splits, part.splits p locations = .ok splits ∧
      (∀ s ∈ splits, s.locations = locations ∧ ∃ b, IsSplitOf p part s b) ∧
      ((∀ s ∈ splits, s.IsUnwrapped p) ↔ part.IsCuttable p) := by
  obtain ⟨a, ha, hl, hr⟩ := exists_arc_of_isTokenText hstart hstop
  have hread : ∀ b ∈ a.unwrap p.ring,
      TokenArc.read p (.str b.left.render) (.str b.right.render) = .ok (.ofArc b) := by
    intro b hb
    obtain ⟨hl, hr⟩ := isWritable_of_mem_unwrap hl hr hb
    exact read_render_of_isWritable hl hr
  refine ⟨_, SubSplit.splits_of_read locations ha, ?_, ?_⟩
  · intro s hs
    obtain ⟨b, hb, rfl⟩ := List.mem_map.1 hs
    exact ⟨rfl, b, ⟨a, ha, hb⟩, rfl, rfl, hread b hb⟩
  · rw [SubSplit.isCuttable_iff ha, ← Arc.forall_not_wraps_unwrap_iff p.isProper_ring,
      List.forall_mem_map]
    exact forall₂_congr fun b hb => Split.isUnwrapped_iff (hread b hb)

/-! ## The splits of a split -/

/-- **A split that is handed in as a part** comes out as it is unless it goes over the end of the
    ring, which makes two of it. -/
theorem IsSplitOf.exists_splits {part : SubSplit} (h : IsSplitOf p part s b) :
    ∃ splits, s.part.splits p s.locations = .ok splits ∧ splits ≠ [] ∧
      (s.IsUnwrapped p → splits = [s]) ∧ (¬ s.IsUnwrapped p → splits.length = 2) := by
  obtain ⟨⟨a, -, hb⟩, hstart, hstop, hread⟩ := h
  refine ⟨_, SubSplit.splits_of_read (s := s.part) s.locations hread, ?_, ?_, ?_⟩
  · rcases Arc.unwrap_cases p.ring b with ⟨-, hcut⟩ | ⟨-, -, hcut⟩ | ⟨-, -, hcut⟩ <;> simp [hcut]
  · intro hs
    have hw := (Split.isUnwrapped_iff hread).1 hs
    rw [Arc.unwrap, hw, if_neg Bool.false_ne_true, List.map_singleton, ← hstart, ← hstop]
    rfl
  · intro hs
    rw [Split.isUnwrapped_iff hread, Bool.not_eq_false] at hs
    have hl := Arc.left_ne_last_of_mem_unwrap p.isProper_ring hb hs
    rw [List.length_map, Arc.length_unwrap, if_pos ⟨hs, hl⟩]

/-! ## The splits of a range -/

section Flatten

variable {α β : Type} {R : α → Prop} {xs : List α} {yss : List (List β)}

theorem length_le_length_flatten (h : List.Forall₂ (fun _ ys => ys ≠ []) xs yss) :
    xs.length ≤ yss.flatten.length := by
  induction h with
  | nil => simp
  | cons hys _ ih =>
    have hpos := List.length_pos_iff.2 hys
    rw [List.length_cons, List.flatten_cons, List.length_append]
    omega

/-- If items that lack a property give more than one item each, and all others one at least, then
    all have it once there are no more items than before. -/
theorem forall_of_length_flatten_le
    (h : List.Forall₂ (fun x ys => ys ≠ [] ∧ (¬ R x → 1 < ys.length)) xs yss)
    (hle : yss.flatten.length ≤ xs.length) : ∀ x ∈ xs, R x := by
  induction h with
  | nil => simp
  | @cons x ys xs yss hys hrest ih =>
    have hpos := List.length_pos_iff.2 hys.1
    have hrest := length_le_length_flatten (hrest.imp fun _ _ hzs => hzs.1)
    rw [List.flatten_cons, List.length_append, List.length_cons] at hle
    refine List.forall_mem_cons.2 ⟨?_, ih (by omega)⟩
    by_contra hx
    have hlong := hys.2 hx
    omega

theorem flatten_eq_of_forall₂ {yss : List (List α)}
    (h : List.Forall₂ (fun x ys => ys = [x]) xs yss) : yss.flatten = xs := by
  induction h with
  | nil => rfl
  | cons hys _ ih => rw [List.flatten_cons, hys, ih, List.singleton_append]

/-- The items of lists have a property just if those of each list have it. -/
theorem forall_mem_flatten_iff {P : β → Prop}
    (h : List.Forall₂ (fun x ys => (∀ y ∈ ys, P y) ↔ R x) xs yss) :
    (∀ y ∈ yss.flatten, P y) ↔ ∀ x ∈ xs, R x := by
  induction h with
  | nil => simp
  | cons hys _ ih => rw [List.flatten_cons, List.forall_mem_append, hys, ih, List.forall_mem_cons]

end Flatten

/-- Splits that are handed in as parts have splits, and these are the same ones just if none of them
    goes over the end of the ring. -/
theorem exists_splits_again {splits : List Split}
    (hsplits : ∀ s ∈ splits, s.locations = locations ∧
      ∃ part, ∃ b : Arc p.Position, IsSplitOf p part s b) :
    ∃ again, List.Forall₂ (fun part xs => SubSplit.splits p locations part = .ok xs)
        (splits.map Split.part) again ∧
      (again.flatten = splits ↔ ∀ s ∈ splits, s.IsUnwrapped p) := by
  have hone : ∀ s ∈ splits, ∃ xs, s.part.splits p locations = .ok xs ∧ xs ≠ [] ∧
      (s.IsUnwrapped p → xs = [s]) ∧ (¬ s.IsUnwrapped p → xs.length = 2) := by
    intro s hs
    obtain ⟨rfl, part, b, hb⟩ := hsplits s hs
    exact hb.exists_splits
  obtain ⟨again, hagain⟩ := exists_forall₂ hone
  refine ⟨again, List.forall₂_map_left_iff.2 (hagain.imp fun _ _ h => h.1), ?_, ?_⟩
  · -- a split that is cut in two makes more splits of them than they are
    intro hsame
    have hlong : List.Forall₂ (fun (s : Split) (xs : List Split) =>
        xs ≠ [] ∧ (¬ s.IsUnwrapped p → 1 < xs.length)) splits again := by
      refine hagain.imp fun s xs h => ⟨h.2.1, fun hs => ?_⟩
      have htwo := h.2.2.2 hs
      omega
    exact forall_of_length_flatten_le hlong (hsame ▸ Nat.le_refl _)
  · intro hall
    have hself := (List.forall₂_and_left splits again).2 ⟨hall, hagain⟩
    exact flatten_eq_of_forall₂ (hself.imp fun s xs h => h.2.2.2.1 h.1)

/-- **Splits go over the end of the ring just if their parts lie beyond the ring.** Parts whose
    tokens are texts that are read as tokens have splits. None of the splits goes over the end of
    the ring just if every part that goes over that end is within the ring, and this is also just
    when the splits come out as they are once they are handed in as parts. -/
theorem splits_assembled_again_iff {resolve : Resolver} {r : TokenRange} {parts : List SubSplit}
    (heven : r.rpcEndpoints.length = r.endpoints.length) (hhosts : r.hosts resolve = .ok locations)
    (hparts : ∀ part ∈ parts, IsTokenText p part.startToken ∧ IsTokenText p part.endToken) :
    ∃ splits : List Split,
      (∀ output, assemble p resolve r parts output = (output ++ splits, .ok ())) ∧
      ((∀ s ∈ splits, s.IsUnwrapped p) ↔ ∀ part ∈ parts, part.IsCuttable p) ∧
      ((∀ output, assemble p resolve r (splits.map Split.part) output =
          (output ++ splits, .ok ())) ↔ ∀ part ∈ parts, part.IsCuttable p) := by
  obtain ⟨pieces, hpieces⟩ := exists_forall₂ fun part hpart =>
    SubSplit.exists_splits_of_isTokenText (hparts part hpart).1 (hparts part hpart).2 locations
  have hunwrapped : (∀ s ∈ pieces.flatten, s.IsUnwrapped p) ↔ ∀ part ∈ parts, part.IsCuttable p :=
    forall_mem_flatten_iff (hpieces.imp fun _ _ h => h.2.2)
  have hsplits : ∀ s ∈ pieces.flatten, s.locations = locations ∧
      ∃ part, ∃ b : Arc p.Position, IsSplitOf p part s b := by
    intro s hs
    obtain ⟨xs, hxs, hs⟩ := List.mem_flatten.1 hs
    obtain ⟨part, hpart, -, hxs, -⟩ := exists_of_forall₂_of_mem hpieces hxs
    obtain ⟨hlocations, b, hb⟩ := hxs s hs
    exact ⟨hlocations, part, b, hb⟩
  obtain ⟨again, hagain, hsame⟩ := exists_splits_again hsplits
  refine ⟨pieces.flatten, ?_, hunwrapped, ?_⟩
  · exact assemble_of_forall₂ heven hhosts (hpieces.imp fun _ _ h => h.1)
  · rw [← hunwrapped, ← hsame]
    have hassemble := assemble_of_forall₂ heven hhosts hagain
    constructor
    · intro h
      simpa using (hassemble []).symm.trans (h [])
    · intro h output
      rw [hassemble, h]

/-- A range with one replica. -/
def oneReplica : TokenRange := ⟨.str "0", .str "0", [.str "a"], [.null]⟩

/-- A part that goes over the end of a ring, and is within it. -/
def aroundPart : SubSplit := ⟨.str "10", .str "5", .int 3⟩

theorem splits_assembled_again_around :
    oneReplica.rpcEndpoints.length = oneReplica.endpoints.length ∧
      oneReplica.hosts .ok = .ok [.str "a"] ∧
      IsTokenText .murmur3 aroundPart.startToken ∧ IsTokenText .murmur3 aroundPart.endToken ∧
      ∃ splits : List Split,
        (∀ output, assemble .murmur3 .ok oneReplica [aroundPart] output =
          (output ++ splits, .ok ())) ∧
        (∀ s ∈ splits, s.IsUnwrapped .murmur3) ∧
        ∀ output, assemble .murmur3 .ok oneReplica (splits.map Split.part) output =
          (output ++ splits, .ok ()) := by
  have heven : oneReplica.rpcEndpoints.length = oneReplica.endpoints.length := rfl
  have hhosts : oneReplica.hosts .ok = .ok [.str "a"] := rfl
  have hstart : IsTokenText .murmur3 aroundPart.startToken := ⟨"10", _, rfl, rfl⟩
  have hstop : IsTokenText .murmur3 aroundPart.endToken := ⟨"5", _, rfl, rfl⟩
  have hread : TokenArc.read .murmur3 aroundPart.startToken aroundPart.endToken =
      .ok (.ofArc (TokenArc.between 10 5)) := rfl
  have hcuttable : aroundPart.IsCuttable .murmur3 :=
    (SubSplit.isCuttable_iff hread).2 fun _ =>
      TokenArc.within_between (by decide) (by decide) (by decide) (by decide)
  obtain ⟨splits, hsplits, hunwrapped, hagain⟩ :=
    splits_assembled_again_iff heven hhosts (List.forall_mem_singleton.2 ⟨hstart, hstop⟩)
  have hall := List.forall_mem_singleton.2 hcuttable
  exact ⟨heven, hhosts, hstart, hstop, splits, hsplits, hunwrapped.2 hall, hagain.2 hall⟩

/-- A part that starts behind the end of a ring. -/
def beyondPart : SubSplit := ⟨.str "9223372036854775812", .str "0", .int 7⟩

/-- Its splits: the first one still goes over the end of the ring. -/
def beyondSplits : List Split :=
  [⟨.str "9223372036854775812", .str "9223372036854775807", .int 7, [.str "a"]⟩,
    ⟨.str "-9223372036854775808", .str "0", .int 7, [.str "a"]⟩]

/-- What is cut at the end of the ring may still go over that end, and is cut again once it is
    handed in as a part. -/
theorem beyond_splits_not_unwrapped :
    assembleAll .murmur3 .ok oneReplica [beyondPart] = .ok beyondSplits ∧
      (¬ ∀ s ∈ beyondSplits, s.IsUnwrapped .murmur3) ∧
      assembleAll .murmur3 .ok oneReplica (beyondSplits.map Split.part) ≠ .ok beyondSplits := by
  have hread : TokenArc.read .murmur3 (.str "9223372036854775812") (.str "9223372036854775807") =
      .ok (.ofArc (TokenArc.between 9223372036854775812 9223372036854775807)) := rfl
  have hthree : (assembleAll .murmur3 .ok oneReplica (beyondSplits.map Split.part)).map
      List.length = .ok 3 := by rfl
  refine ⟨by rfl, fun hall => ?_, fun hsame => ?_⟩
  · have hw := (Split.isUnwrapped_iff hread).1 (hall _ List.mem_cons_self)
    exact absurd hw (by decide)
  · rw [hsame] at hthree
    cases hthree

end RingScan.Plan

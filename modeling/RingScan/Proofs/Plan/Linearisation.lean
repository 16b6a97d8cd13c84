import RingScan.Proofs.Plan.Points
import RingScan.Proofs.Ring.Pieces

set_option autoImplicit false

/-! # Cut at the end, or laid out on the line

A pass reads two tokens in two ways. Assembling cuts the arc between them at the end of the ring,
where the last position is a bound; narrowing lays the arc out on the line that the ring was closed
from, where the end of an endless ring is none. Both stand for the same points
(`SubSplit.union_splits`, `TokenRange.union_narrow`), as the segments of the pieces are those of the
arc. -/

namespace RingScan.Plan

variable {p : Partitioner} {a job : Arc p.Position}

/-- What the splits of a part read is what the part is on the line. -/
theorem SubSplit.union_splits {s : SubSplit} (ha : a.Within p.ring)
    (hs : TokenArc.read p s.startToken s.endToken = .ok (.ofArc a)) (locations : List Value) :
    ∃ splits, s.splits p locations = .ok splits ∧
      ⋃ x ∈ splits, x.points p = Segment.union (a.segments p.ring) := by
  have hsplits := SubSplit.splits_of_read locations hs
  refine ⟨_, hsplits, ?_⟩
  rw [(SubSplit.tiles_splits ⟨a, hs, ha⟩ hsplits).union, SubSplit.points, pointsBetween_eq hs,
    Arc.union_segments ha]

/-- What is left of a range that is narrowed to an arc is what the range is on the line, as far as
    it is within the arc. -/
theorem TokenRange.union_narrow {r : TokenRange} (ha : a.Within p.ring) (hjob : job.Within p.ring)
    (hr : TokenArc.read p r.startToken r.endToken = .ok (.ofArc a)) :
    ∃ rs, r.narrow job = .ok rs ∧
      ⋃ x ∈ rs, x.points p = Segment.union (a.segments p.ring) ∩ job.points p.ring := by
  obtain ⟨rs, hrs⟩ := TokenRange.exists_narrow hr job
  refine ⟨rs, hrs, ?_⟩
  rw [(TokenRange.tiles_narrow ⟨a, hr, ha⟩ hjob hrs).union, TokenRange.points, pointsBetween_eq hr,
    Arc.union_segments ha]

/-- **Cutting an arc agrees with laying it out on the line.** Between bounds of the ring, the pieces
    of an arc have no segments in common, and together their segments are those of the arc. There
    are two pieces just if the arc goes over the end of the ring and does not start there, and else
    there is one. So the splits of every part between two tokens read what the part is on the line,
    and every range between these tokens is narrowed to just that much of an arc. -/
theorem unwrap_agrees_with_segments (ha : a.Within p.ring) :
    ∃ pieces : List (Arc p.Position),
      (TokenArc.ofArc a).unwrap = .ok (pieces.map .ofArc) ∧
      (∀ b ∈ a :: pieces,
        (TokenArc.ofArc b).segments = .ok ((b.segments p.ring).map TokenArc.ofSegment)) ∧
      (pieces.Pairwise fun b c => (TokenArc.ofArc b).intersects (.ofArc c) = .ok false) ∧
      Segment.join (pieces.flatMap (Arc.segments p.ring)) = a.segments p.ring ∧
      (pieces.length = 2 ↔ (TokenArc.ofArc a).wraps = .ok true ∧ a.left ≠ p.ring.last) ∧
      (pieces.length = 1 ↔ ¬ ((TokenArc.ofArc a).wraps = .ok true ∧ a.left ≠ p.ring.last)) ∧
      (∀ (s : SubSplit) (locations : List Value),
        TokenArc.read p s.startToken s.endToken = .ok (.ofArc a) →
        ∃ splits, s.splits p locations = .ok splits ∧
          ⋃ x ∈ splits, x.points p = Segment.union (a.segments p.ring)) ∧
      ∀ (r : TokenRange) (job : Arc p.Position), job.Within p.ring →
        TokenArc.read p r.startToken r.endToken = .ok (.ofArc a) →
        ∃ rs, r.narrow job = .ok rs ∧
          ⋃ x ∈ rs, x.points p = Segment.union (a.segments p.ring) ∩ job.points p.ring := by
  have hwraps : (TokenArc.ofArc a).wraps = .ok true ↔ a.wraps p.ring = true :=
    ⟨fun h => Except.ok.inj h, fun h => congrArg Except.ok h⟩
  have hlength := Arc.length_unwrap p.ring a
  rw [hwraps]
  refine ⟨a.unwrap p.ring, rfl, fun b _ => rfl, ?_, Arc.join_segments_unwrap ha, ?_, ?_,
    fun s locations hs => SubSplit.union_splits ha hs locations,
    fun r job hjob hr => TokenRange.union_narrow ha hjob hr⟩
  · refine (Arc.pairwise_unwrap ha p.goesOn_ring).imp fun {b c} hapart => ?_
    rw [TokenArc.intersects_ofArc, hapart]
  · rw [hlength]
    split <;> simp_all
  · rw [hlength]
    split <;> simp_all

/-- An arc over the end of the ring in two pieces. -/
theorem unwrap_agrees_with_segments_around :
    (TokenArc.between 90 10).Within (Partitioner.ring .murmur3) ∧
      ∃ pieces : List (Arc (Partitioner.Position .murmur3)),
        (TokenArc.ofArc (TokenArc.between 90 10)).unwrap = .ok (pieces.map .ofArc) ∧
        Segment.join (pieces.flatMap (Arc.segments (Partitioner.ring .murmur3))) =
          (TokenArc.between 90 10).segments (Partitioner.ring .murmur3) ∧
        pieces.length = 2 := by
  have ha : (TokenArc.between 90 10).Within (Partitioner.ring .murmur3) :=
    TokenArc.within_between (by decide) (by decide) (by decide) (by decide)
  obtain ⟨pieces, hpieces, -, -, hjoin, htwo, -⟩ := unwrap_agrees_with_segments ha
  exact ⟨ha, pieces, hpieces, hjoin, htwo.2 ⟨rfl, by decide⟩⟩

end RingScan.Plan

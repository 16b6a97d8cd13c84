import RingScan.Proofs.Ring.Overlap
import RingScan.Proofs.Ring.TokenText

set_option autoImplicit false
set_option linter.unusedSectionVars false

/-! # Arcs in pieces

On the line that the ring was closed from, an arc is one segment, or two if it goes over the end of
the ring and leaves out a *gap* between its bounds (`HasGap`). Two arcs with gaps have the positions
in common that are in neither gap. So they overlap in two arcs if the gaps meet or touch, and in a
third one if positions lie between the gaps (`length_intersection_of_hasGap`); all other arcs
overlap in two arcs at most.

Cutting an arc at the end of the ring and writing it as segments say the same thing: the segments of
the pieces are those of the arc (`join_segments_unwrap`). -/

namespace RingScan

namespace Segment

variable {α : Type} [LE α] [LT α] [DecidableLE α] [DecidableLT α]

theorem join_singleton (s : Segment α) : join [s] = if s.isEmpty then [] else [s] := by
  simp only [join, insert]

theorem length_join_singleton_le (s : Segment α) : (join [s]).length ≤ 1 := by
  rw [join_singleton]
  split <;> simp

/-- Each two segments have one segment in common at most. -/
theorem length_meetAll_le (ss ts : List (Segment α)) :
    (meetAll ss ts).length ≤ ss.length * ts.length := by
  induction ss with
  | nil => simp [meetAll]
  | cons s rest ih =>
    have hfirst : ((ts.map (meet s)).filter (!·.isEmpty)).length ≤ ts.length :=
      (List.length_filter_le _ _).trans_eq (List.length_map _)
    have hlength : (meetAll (s :: rest) ts).length =
        ((ts.map (meet s)).filter (!·.isEmpty)).length + (meetAll rest ts).length := by
      simp [meetAll]
    rw [hlength, List.length_cons, Nat.succ_mul]
    omega

variable [Std.IsLinearOrder α] [Std.LawfulOrderLT α]

/-- Two segments that hold something have nothing in common just if one of them ends where the other
    one starts, or before. -/
theorem isEmpty_meet_iff {s t : Segment α} (hs : s.isEmpty = false) (ht : t.isEmpty = false) :
    (meet s t).isEmpty = true ↔ (∃ u ∈ s.upper?, u ≤ t.lower) ∨ ∃ u ∈ t.upper?, u ≤ s.lower := by
  obtain ⟨l, u?⟩ := s
  obtain ⟨m, v?⟩ := t
  cases u? <;> cases v? <;>
    simp only [isEmpty, meet, earlier, later, decide_eq_true_eq, decide_eq_false_iff_not,
      Option.mem_def, Option.some.injEq, reduceCtorEq, exists_eq_left', false_and, exists_false,
      or_false, false_or] at hs ht ⊢ <;>
    grind

/-- A canonical list stays as it is. -/
theorem Canonical.join_eq {ss : List (Segment α)} (h : Canonical ss) : join ss = ss := by
  induction ss with
  | nil => rfl
  | cons s rest ih =>
    have hs : s.isEmpty = false := h.inhabited s (by simp)
    rw [join, if_neg (by simp [hs]), ih h.tail]
    cases rest with
    | nil => rfl
    | cons t rest =>
      have hst : s.endsBefore t = true := (List.pairwise_cons.1 h.ordered).1 t (by simp)
      rw [Segment.insert, if_pos hst]

end Segment

/-- Whether the bounds of a ring are apart, and nothing lies before the minimum if the ring goes on
    for ever. -/
structure Ring.IsProper {α : Type} [LE α] [LT α] (ring : Ring α) : Prop where
  minimum_lt : ∀ M ∈ ring.maximum?, ring.minimum < M
  minimum_le : ring.maximum? = none → ∀ x, ring.minimum ≤ x

namespace Arc

variable {α : Type} [LE α] [LT α] [DecidableLE α] [DecidableLT α] [DecidableEq α]

/-- Whether an arc goes over the end of the ring, with positions on both sides of it, and leaves out
    positions between its right and its left bound. -/
structure HasGap (ring : Ring α) (a : Arc α) : Prop where
  wraps : a.wraps ring = true
  apart : a.right < a.left
  behind : a.left ≠ ring.last

variable [Std.IsLinearOrder α] [Std.LawfulOrderLT α] {ring : Ring α} {a b : Arc α} {l : α}

/-! ## Up to the end of the ring -/

/-- An arc that goes over the end of the ring has positions behind that end. -/
theorem minimum_lt_of_wraps (ha : a.Within ring) (hw : a.wraps ring = true) :
    ring.minimum < a.right := by
  have hmin := ha.right.1
  have hne := (wraps_iff.1 hw).2
  grind

theorem isEmpty_from_minimum (ha : a.Within ring) (hw : a.wraps ring = true) :
    Segment.isEmpty (⟨ring.minimum, some a.right⟩ : Segment α) = false := by
  have hlt := minimum_lt_of_wraps ha hw
  simp only [Segment.isEmpty, decide_eq_false_iff_not]
  grind

/-- It has none before that end just if it starts there. -/
theorem isEmpty_toEnd_iff (ha : a.Within ring) (hw : a.wraps ring = true) :
    (toEnd ring a.left).isEmpty = true ↔ a.left = ring.last := by
  have hlt := minimum_lt_of_wraps ha hw
  have hle := (wraps_iff.1 hw).1
  have hmax := ha.left.2
  obtain ⟨m, M⟩ := ring
  cases M with
  | none =>
    -- without an end, the last position is the minimum, which lies before the right bound
    have hne : a.left ≠ m := by
      intro hl
      have hlt : m < a.right := hlt
      grind
    simp [toEnd, Segment.isEmpty, Ring.last, hne]
  | some M =>
    have hleM : a.left ≤ M := hmax M rfl
    show decide (M ≤ a.left) = true ↔ a.left = M
    rw [decide_eq_true_eq]
    constructor
    · intro h
      exact Std.le_antisymm hleM h
    · intro hl
      exact hl ▸ Std.le_refl a.left

theorem isEmpty_toEnd (ha : a.Within ring) (hw : a.wraps ring = true) (hl : a.left ≠ ring.last) :
    (toEnd ring a.left).isEmpty = false := by
  rw [Bool.eq_false_iff, ne_eq, isEmpty_toEnd_iff ha hw]
  exact hl

/-! ## One segment or two -/

/-- The segments of an arc that goes over the end of the ring: one behind that end, and one before
    it unless the arc starts there. -/
theorem segments_of_wraps (ha : a.Within ring) (hw : a.wraps ring = true) :
    a.segments ring =
      if a.left = ring.last then [⟨ring.minimum, some a.right⟩]
      else Segment.insert (toEnd ring a.left) [⟨ring.minimum, some a.right⟩] := by
  have hfront : Segment.join [(⟨ring.minimum, some a.right⟩ : Segment α)] =
      [⟨ring.minimum, some a.right⟩] := by
    rw [Segment.join_singleton, isEmpty_from_minimum ha hw]
    rfl
  rw [segments, if_neg (wraps_iff.1 hw).2, if_pos hw, Segment.join, hfront]
  simp only [isEmpty_toEnd_iff ha hw]

/-- Behind the end of the ring is not before it. -/
theorem not_toEnd_endsBefore (ha : a.Within ring) :
    ¬ (toEnd ring a.left).endsBefore (⟨ring.minimum, some a.right⟩ : Segment α) = true := by
  intro h
  obtain ⟨M, hM, hlt⟩ := Segment.endsBefore_iff.1 h
  have hlt : M < ring.minimum := hlt
  have hle : ring.minimum ≤ M := Std.le_trans ha.left.1 (ha.left.2 M hM)
  grind

/-- An arc with a gap is what lies before the gap and what lies behind it. -/
theorem HasGap.segments_eq (h : a.HasGap ring) (ha : a.Within ring) :
    a.segments ring = [⟨ring.minimum, some a.right⟩, toEnd ring a.left] := by
  have happart : Segment.endsBefore (⟨ring.minimum, some a.right⟩ : Segment α)
      (toEnd ring a.left) = true := decide_eq_true h.apart
  rw [segments_of_wraps ha h.wraps, if_neg h.behind, Segment.insert,
    if_neg (not_toEnd_endsBefore ha), if_pos happart, Segment.insert]

/-- An arc without a gap is one segment at most. -/
theorem length_segments_le_one (ha : a.Within ring) (h : ¬ a.HasGap ring) :
    (a.segments ring).length ≤ 1 := by
  rcases segments_cases ring a with ⟨-, hs⟩ | ⟨hw, -⟩ | ⟨-, hs⟩
  · rw [hs]
    exact Segment.length_join_singleton_le _
  · rw [segments_of_wraps ha hw]
    split
    · simp
    · next hl =>
      -- both bounds are one position, so that the two segments touch
      have hle := (wraps_iff.1 hw).1
      have happart : ¬ Segment.endsBefore (⟨ring.minimum, some a.right⟩ : Segment α)
          (toEnd ring a.left) = true := by
        intro hlt
        exact h ⟨hw, of_decide_eq_true hlt, hl⟩
      rw [Segment.insert, if_neg (not_toEnd_endsBefore ha), if_neg happart, Segment.insert]
      simp
  · rw [hs]
    exact Segment.length_join_singleton_le _

/-! ## How many arcs an overlap has -/

theorem length_intersection (ring : Ring α) (a b : Arc α) :
    (a.intersection ring b).length =
      (Segment.meetAll (a.segments ring) (b.segments ring)).length := by
  rw [intersection, List.length_map]

theorem length_segments_le_two (ha : a.Within ring) : (a.segments ring).length ≤ 2 := by
  by_cases h : a.HasGap ring
  · simp [h.segments_eq ha]
  · exact (length_segments_le_one ha h).trans (by decide)

/-- Two arcs overlap in two arcs at most if one of them has no gap. -/
theorem length_intersection_le_two (ha : a.Within ring) (hb : b.Within ring)
    (h : ¬ a.HasGap ring ∨ ¬ b.HasGap ring) : (a.intersection ring b).length ≤ 2 := by
  have hone {a b : Arc α} (ha : a.Within ring) (hb : b.Within ring) (h : ¬ a.HasGap ring) :
      (a.intersection ring b).length ≤ 2 := by
    calc (a.intersection ring b).length
        ≤ (a.segments ring).length * (b.segments ring).length := by
          rw [length_intersection]
          exact Segment.length_meetAll_le _ _
      _ ≤ 1 * 2 := Nat.mul_le_mul (length_segments_le_one ha h) (length_segments_le_two hb)
  rcases h with h | h
  · exact hone ha hb h
  · rw [intersection_comm]
    exact hone hb ha h

section Gaps

variable (hga : a.HasGap ring) (hgb : b.HasGap ring)
include hga hgb

theorem isEmpty_meet_before (ha : a.Within ring) (hb : b.Within ring) :
    (Segment.meet ⟨ring.minimum, some a.right⟩ ⟨ring.minimum, some b.right⟩).isEmpty = false := by
  have hlt := minimum_lt_of_wraps ha hga.wraps
  have hlt' := minimum_lt_of_wraps hb hgb.wraps
  rw [Bool.eq_false_iff, ne_eq, Segment.isEmpty_meet_iff (isEmpty_from_minimum ha hga.wraps)
    (isEmpty_from_minimum hb hgb.wraps)]
  simp only [Option.mem_def, Option.some.injEq, exists_eq_left']
  grind

theorem isEmpty_meet_behind (ha : a.Within ring) (hb : b.Within ring) :
    (Segment.meet (toEnd ring a.left) (toEnd ring b.left)).isEmpty = false := by
  have hbehind := isEmpty_toEnd ha hga.wraps hga.behind
  have hbehind' := isEmpty_toEnd hb hgb.wraps hgb.behind
  rw [Bool.eq_false_iff, ne_eq, Segment.isEmpty_meet_iff hbehind hbehind']
  -- both go to the end of the ring, so that each would start there
  rintro (h | h)
  · have hempty : (toEnd ring b.left).isEmpty = true := Segment.isEmpty_iff.2 h
    exact Bool.false_ne_true (hbehind'.symm.trans hempty)
  · have hempty : (toEnd ring a.left).isEmpty = true := Segment.isEmpty_iff.2 h
    exact Bool.false_ne_true (hbehind.symm.trans hempty)

/-- Between the gaps is something if the second one ends before the first one starts. -/
theorem isEmpty_meet_between (ha : a.Within ring) (hb : b.Within ring) :
    (Segment.meet ⟨ring.minimum, some a.right⟩ (toEnd ring b.left)).isEmpty =
      decide (a.right ≤ b.left) := by
  have hmax : ¬ ∃ M ∈ ring.maximum?, M ≤ ring.minimum := by
    rintro ⟨M, hM, hle⟩
    have hlt := minimum_lt_of_wraps ha hga.wraps
    have hle' : a.right ≤ M := ha.right.2 M hM
    grind
  rw [Bool.eq_iff_iff, Segment.isEmpty_meet_iff (isEmpty_from_minimum ha hga.wraps)
    (isEmpty_toEnd hb hgb.wraps hgb.behind), decide_eq_true_eq]
  exact (or_iff_left hmax).trans (by simp [toEnd])

/-- **Two arcs with gaps overlap before, behind and between the gaps**, where between them is
    nothing if they meet or touch. -/
theorem length_intersection_of_hasGap (ha : a.Within ring) (hb : b.Within ring) :
    (a.intersection ring b).length = if a.left < b.right ∨ b.left < a.right then 3 else 2 := by
  have hbefore := isEmpty_meet_before hga hgb ha hb
  have hbehind := isEmpty_meet_behind hga hgb ha hb
  have hbetween := isEmpty_meet_between hga hgb ha hb
  have hbetween' := isEmpty_meet_between hgb hga hb ha
  rw [Segment.meet_comm] at hbetween'
  have happart := hga.apart
  have happart' := hgb.apart
  rw [length_intersection, hga.segments_eq ha, hgb.segments_eq hb]
  simp only [Segment.meetAll, List.flatMap_cons, List.flatMap_nil, List.map_cons, List.map_nil,
    List.filter_cons, List.filter_nil, hbefore, hbehind, hbetween, hbetween', List.append_nil]
  by_cases h : a.left < b.right
  · -- one gap lies behind the other one, and not the other way round as well
    have h' : ¬ b.left < a.right := by grind
    simp [h, h', Std.not_le]
  · by_cases h' : b.left < a.right <;> simp [h, h', Std.not_le]

end Gaps

/-- **Two arcs overlap in three arcs at most**, and in three just if both have gaps, with positions
    between these. -/
theorem length_intersection_eq_three_iff (ha : a.Within ring) (hb : b.Within ring) :
    (a.intersection ring b).length ≤ 3 ∧
      ((a.intersection ring b).length = 3 ↔
        a.HasGap ring ∧ b.HasGap ring ∧ (a.left < b.right ∨ b.left < a.right)) := by
  by_cases h : a.HasGap ring ∧ b.HasGap ring
  · obtain ⟨hga, hgb⟩ := h
    rw [length_intersection_of_hasGap hga hgb ha hb]
    split <;> simp_all
  · have hle := length_intersection_le_two ha hb (not_and_or.1 h)
    refine ⟨hle.trans (by decide), fun hlength => ?_, fun ⟨hga, hgb, _⟩ => absurd ⟨hga, hgb⟩ h⟩
    omega

/-! ## Cut arcs as segments -/

/-- The arc from the minimum on is one segment. -/
theorem segments_from_minimum (ha : a.Within ring) (hw : a.wraps ring = true) :
    segments ring ⟨ring.minimum, a.right⟩ = [⟨ring.minimum, some a.right⟩] := by
  have hlt := minimum_lt_of_wraps ha hw
  have hwraps : wraps ring ⟨ring.minimum, a.right⟩ = false := by
    rw [Bool.eq_false_iff, ne_eq, wraps_iff]
    grind
  rw [segments, if_neg (wraps_iff.1 hw).2, hwraps, if_neg Bool.false_ne_true,
    Segment.join_singleton, isEmpty_from_minimum ha hw]
  rfl

/-- The arc up to the last position is the segment to the end of the ring. -/
theorem segments_to_last (ha : a.Within ring) (hw : a.wraps ring = true) (hl : a.left ≠ ring.last) :
    segments ring ⟨a.left, ring.last⟩ = [toEnd ring a.left] := by
  have hbehind : Segment.join [toEnd ring a.left] = [toEnd ring a.left] := by
    rw [Segment.join_singleton, isEmpty_toEnd ha hw hl]
    rfl
  rw [← hbehind]
  obtain ⟨m, M⟩ := ring
  cases M with
  | none => simp [segments, Ring.last]
  | some M =>
    have hle : a.left ≤ M := ha.left.2 M rfl
    have hne : a.left ≠ M := hl
    have hmin : m ≤ a.left := ha.left.1
    have hM : M ≠ m := by grind
    have hwraps : wraps ⟨m, some M⟩ ⟨a.left, M⟩ = false := by
      rw [Bool.eq_false_iff, ne_eq, wraps_iff]
      grind
    simp [segments, Ring.last, hM, hwraps, toEnd]

/-- **The segments of the pieces of an arc are the segments of the arc.** -/
theorem join_segments_unwrap (ha : a.Within ring) :
    Segment.join ((a.unwrap ring).flatMap (segments ring)) = a.segments ring := by
  rcases unwrap_cases ring a with ⟨-, h⟩ | ⟨hw, hl, h⟩ | ⟨hw, hl, h⟩
  · rw [h, List.flatMap_singleton, (canonical_segments ring a).join_eq]
  · have hfront := segments_from_minimum ha hw
    have hcanonical := canonical_segments ring ⟨ring.minimum, a.right⟩
    rw [h, List.flatMap_singleton, hcanonical.join_eq, hfront, segments_of_wraps ha hw, if_pos hl]
  · rw [h, List.flatMap_cons, List.flatMap_singleton, segments_from_minimum ha hw,
      segments_to_last ha hw hl, List.singleton_append]
    rw [segments, if_neg (wraps_iff.1 hw).2, if_pos hw]

/-- No two pieces of an arc have a segment in common. -/
theorem pairwise_unwrap (ha : a.Within ring) (hring : ring.GoesOn) :
    (a.unwrap ring).Pairwise fun b c => b.intersects ring c = false := by
  refine (tiles_unwrap ha).apart.imp_of_mem fun {b c} hb hc hapart => ?_
  have hb := within_of_mem_unwrap ha hb
  have hc := within_of_mem_unwrap ha hc
  rw [Bool.eq_false_iff, ne_eq, intersects_iff hb hc hring, Set.not_nonempty_iff_eq_empty]
  exact Set.disjoint_iff_inter_eq_empty.1 hapart

/-- There are two pieces if an arc goes over the end of the ring and does not start there. -/
theorem length_unwrap (ring : Ring α) (a : Arc α) :
    (a.unwrap ring).length = if a.wraps ring = true ∧ a.left ≠ ring.last then 2 else 1 := by
  rcases unwrap_cases ring a with ⟨hw, h⟩ | ⟨hw, hl, h⟩ | ⟨hw, hl, h⟩
  · simp [h, hw]
  · simp [h, hw, hl]
  · simp [h, hw, hl]

/-! ## Cutting twice -/

/-- Over the end of the ring go arcs from its minimum that end before it. -/
theorem wraps_from_minimum_iff (ring : Ring α) (r : α) :
    wraps ring ⟨ring.minimum, r⟩ = true ↔ r < ring.minimum := by
  rw [wraps_iff]
  grind

/-- Over the end of the ring go arcs to its last position that start behind it. -/
theorem wraps_to_last_iff (hring : ring.IsProper) (hl : l ≠ ring.last) :
    wraps ring ⟨l, ring.last⟩ = true ↔ ∃ M ∈ ring.maximum?, M < l := by
  rw [wraps_iff]
  have hapart := hring.minimum_lt
  obtain ⟨m, M⟩ := ring
  cases M with
  | none => simp [Ring.last]
  | some M =>
    have hM : m < M := hapart M rfl
    have hl : l ≠ M := hl
    simp only [Ring.last, Option.getD_some, Option.mem_def, Option.some.injEq, exists_eq_left']
    grind

/-- An arc that goes over the end of the ring is within the ring if it neither starts behind that
    end nor ends before its beginning. -/
theorem within_iff_of_wraps (hw : a.wraps ring = true) :
    a.Within ring ↔ ring.minimum ≤ a.right ∧ ∀ M ∈ ring.maximum?, a.left ≤ M := by
  have hle := (wraps_iff.1 hw).1
  constructor
  · intro ha
    exact ⟨ha.right.1, ha.left.2⟩
  · rintro ⟨hmin, hmax⟩
    exact ⟨⟨Std.le_trans hmin hle, hmax⟩, hmin, fun M hM => Std.le_trans hle (hmax M hM)⟩

/-- **The pieces of an arc do not go over the end of the ring** just if the arc does not or is
    within the ring. What an arc has beyond the bounds of the ring is left in its pieces. -/
theorem forall_not_wraps_unwrap_iff (hring : ring.IsProper) :
    (∀ b ∈ a.unwrap ring, b.wraps ring = false) ↔ (a.wraps ring = true → a.Within ring) := by
  have hfront : wraps ring ⟨ring.minimum, a.right⟩ = false ↔ ring.minimum ≤ a.right := by
    rw [Bool.eq_false_iff, ne_eq, wraps_from_minimum_iff, Std.not_lt]
  rcases unwrap_cases ring a with ⟨hw, h⟩ | ⟨hw, hl, h⟩ | ⟨hw, hl, h⟩
  · simp [h, hw]
  · -- an arc from the last position on only starts behind it if it is no position of the ring
    have hmax : ∀ M ∈ ring.maximum?, a.left ≤ M := by
      intro M hM
      rw [hl, Ring.last, Option.mem_def.1 hM]
      exact Std.le_refl M
    rw [h, List.forall_mem_singleton, hfront, within_iff_of_wraps hw]
    exact ⟨fun hle _ => ⟨hle, hmax⟩, fun ha => (ha hw).1⟩
  · have hback : wraps ring ⟨a.left, ring.last⟩ = false ↔ ∀ M ∈ ring.maximum?, a.left ≤ M := by
      rw [Bool.eq_false_iff, ne_eq, wraps_to_last_iff hring hl]
      simp [Std.not_lt]
    rw [h, List.forall_mem_cons, List.forall_mem_singleton, hfront, hback, within_iff_of_wraps hw]
    exact ⟨fun hle _ => hle.symm, fun ha => (ha hw).symm⟩

/-- A piece that goes over the end of the ring does not start there, so that it is cut in two. -/
theorem left_ne_last_of_mem_unwrap (hring : ring.IsProper) (hb : b ∈ a.unwrap ring)
    (hw : b.wraps ring = true) : b.left ≠ ring.last := by
  have hfront {r : α} (hw : wraps ring ⟨ring.minimum, r⟩ = true) : ring.minimum ≠ ring.last := by
    have hlt := (wraps_from_minimum_iff ring r).1 hw
    intro hlast
    cases hM : ring.maximum? with
    | none =>
      have hle := hring.minimum_le hM r
      grind
    | some M =>
      have hapart := hring.minimum_lt M hM
      rw [Ring.last, hM, Option.getD_some] at hlast
      grind
  rcases unwrap_cases ring a with ⟨hw', h⟩ | ⟨-, -, h⟩ | ⟨-, hl, h⟩ <;> rw [h] at hb
  · obtain rfl := List.mem_singleton.1 hb
    simp [hw'] at hw
  · obtain rfl := List.mem_singleton.1 hb
    exact hfront hw
  · rcases List.mem_pair.1 hb with rfl | rfl
    · exact hl
    · exact hfront hw

end Arc

theorem Partitioner.isProper_ring (p : Partitioner) : p.ring.IsProper := by
  constructor
  · intro M hM
    cases p with
    | murmur3 =>
      obtain rfl := Option.some.inj hM
      exact show (-0x8000000000000000 : Int) < 0x7fffffffffffffff by decide
    | random =>
      obtain rfl := Option.some.inj hM
      exact show (-1 : Int) < 0x80000000000000000000000000000000 by decide
    | byteOrdered => simp [ring] at hM
    | orderPreserving => simp [ring] at hM
  · intro hend x
    cases p with
    | murmur3 => simp [ring] at hend
    | random => simp [ring] at hend
    | byteOrdered => exact minimum_le rfl x
    | orderPreserving => exact minimum_le rfl x

/-! ## Arcs between tokens -/

namespace TokenArc

variable {p : Partitioner}

/-- **How many arcs two arcs have in common**: three at most. There are three of them just if both
    arcs go over the end of the ring and leave out gaps with positions between the two, so that
    there are two at most in all other cases. -/
theorem common_arcs_le_three {a b : Arc p.Position} (ha : a.Within p.ring) (hb : b.Within p.ring) :
    ∃ common : List (Arc p.Position), (ofArc a).intersection (ofArc b) = .ok (common.map ofArc) ∧
      common.length ≤ 3 ∧
      (common.length = 3 ↔
        a.HasGap p.ring ∧ b.HasGap p.ring ∧ (a.left < b.right ∨ b.left < a.right)) :=
  ⟨a.intersection p.ring b, intersection_ofArc a b, Arc.length_intersection_eq_three_iff ha hb⟩

theorem within_gaps :
    (between 10 5).Within (Partitioner.ring .murmur3) ∧
      (between 20 15).Within (Partitioner.ring .murmur3) :=
  ⟨within_between (by decide) (by decide) (by decide) (by decide),
    within_between (by decide) (by decide) (by decide) (by decide)⟩

theorem common_arcs_le_three_gaps :
    (between 10 5).Within (Partitioner.ring .murmur3) ∧
      (between 20 15).Within (Partitioner.ring .murmur3) ∧
      ∃ common : List (Arc (Partitioner.Position .murmur3)),
        (ofArc (between 10 5)).intersection (ofArc (between 20 15)) = .ok (common.map ofArc) ∧
          common.length = 3 := by
  obtain ⟨ha, hb⟩ := within_gaps
  obtain ⟨common, hcommon, -, hthree⟩ := common_arcs_le_three ha hb
  refine ⟨ha, hb, common, hcommon, hthree.2 ⟨⟨?_, ?_, ?_⟩, ⟨?_, ?_, ?_⟩, ?_⟩⟩ <;> decide

/-- Two arcs do not always overlap in two arcs or less: what is neither between 5 and 10 nor between
    15 and 20 is in three pieces. -/
theorem not_common_arcs_le_two :
    ¬ ∀ (p : Partitioner) (a b : Arc p.Position), a.Within p.ring → b.Within p.ring →
      ∃ common : List (Arc p.Position),
        (ofArc a).intersection (ofArc b) = .ok (common.map ofArc) ∧ common.length ≤ 2 := by
  intro h
  obtain ⟨ha, hb⟩ := within_gaps
  obtain ⟨common, hcommon, hle⟩ := h .murmur3 (between 10 5) (between 20 15) ha hb
  have hthree : ((between 10 5).intersection (Partitioner.ring .murmur3)
      (between 20 15)).length = 3 := by decide
  have hsame := congrArg List.length (Except.ok.inj (hcommon.symm.trans (intersection_ofArc _ _)))
  rw [List.length_map, List.length_map, hthree] at hsame
  omega

end TokenArc

end RingScan

import RingScan.Proofs.Ring.Points

set_option autoImplicit false
set_option linter.unusedSectionVars false

/-! # What two arcs have in common

The intersection of two arcs is found with canonical lists of segments. Here a segment stands for
the set of its points; putting segments into a canonical list keeps the list canonical and adds
their points (`Canonical.insert`, `union_insert`), and meeting two canonical lists gives one for
what they have in common. As the segments of an arc within the ring are its points, the intersection
of two such arcs tiles the points that they share (`Arc.tiles_intersection`). -/

namespace RingScan

namespace Segment

/-! ## Points -/

/-- The points of a segment. -/
def points {α : Type} [LE α] [LT α] (s : Segment α) : Set α :=
  {t | s.lower < t ∧ ∀ u ∈ s.upper?, t ≤ u}

/-- The points of segments. -/
def union {α : Type} [LE α] [LT α] (ss : List (Segment α)) : Set α := ⋃ s ∈ ss, s.points

section Union

variable {α : Type} [LE α] [LT α]

@[simp] theorem union_nil : union ([] : List (Segment α)) = ∅ := by simp [union]

@[simp] theorem union_cons (s : Segment α) (ss : List (Segment α)) :
    union (s :: ss) = s.points ∪ union ss := by
  simp [union]

theorem mem_union {ss : List (Segment α)} {t : α} : t ∈ union ss ↔ ∃ s ∈ ss, t ∈ s.points := by
  simp [union]

end Union

variable {α : Type} [LE α] [LT α] [DecidableLE α] [DecidableLT α]
  {r s t u v : Segment α}

theorem endsBefore_iff : s.endsBefore t = true ↔ ∃ x ∈ s.upper?, x < t.lower := by
  unfold endsBefore
  cases s.upper? <;> simp

theorem isEmpty_iff : s.isEmpty = true ↔ ∃ x ∈ s.upper?, x ≤ s.lower := by
  unfold isEmpty
  cases s.upper? <;> simp

variable [Std.IsLinearOrder α] [Std.LawfulOrderLT α]

theorem points_of_isEmpty (h : s.isEmpty = true) : s.points = ∅ := by
  obtain ⟨x, hx, hle⟩ := isEmpty_iff.1 h
  refine Set.eq_empty_iff_forall_notMem.2 fun y hy => ?_
  have hlower := hy.1
  have hupper := hy.2 x hx
  grind

theorem disjoint_points (h : s.endsBefore t = true) : Disjoint s.points t.points := by
  obtain ⟨x, hx, hlt⟩ := endsBefore_iff.1 h
  refine Set.disjoint_left.2 fun y hs ht => ?_
  have hupper := hs.2 x hx
  have hlower := ht.1
  grind

/-- One segment ends before another one that has points, and that before a third one. -/
theorem endsBefore_trans (hs : s.endsBefore t = true) (ht : t.endsBefore u = true)
    (hne : t.isEmpty = false) : s.endsBefore u = true := by
  obtain ⟨x, hx, hlt⟩ := endsBefore_iff.1 hs
  obtain ⟨y, hy, hlt'⟩ := endsBefore_iff.1 ht
  have hinhabited : t.lower < y := by
    have hle : ¬ y ≤ t.lower := fun hle => by simp [isEmpty_iff.2 ⟨y, hy, hle⟩] at hne
    grind
  exact endsBefore_iff.2 ⟨x, hx, by grind⟩

/-! ## Spans -/

theorem mem_points_span {x : α} :
    x ∈ (span s t).points ↔
      (s.lower < x ∨ t.lower < x) ∧ ((∀ y ∈ s.upper?, x ≤ y) ∨ ∀ y ∈ t.upper?, x ≤ y) := by
  obtain ⟨l, u?⟩ := s
  obtain ⟨m, v?⟩ := t
  cases u? <;> cases v? <;>
    simp only [span, points, earlier, later, Set.mem_ofPred_eq, Option.mem_def, Option.some.injEq,
      forall_eq', reduceCtorEq, false_imp_iff, implies_true, and_true, true_or, or_true] <;>
    grind

/-- Segments with no gap between them are one segment. -/
theorem points_span (hs : s.endsBefore t = false) (ht : t.endsBefore s = false) :
    (span s t).points = s.points ∪ t.points := by
  obtain ⟨l, u?⟩ := s
  obtain ⟨m, v?⟩ := t
  ext x
  -- the four cases are those of the two upper bounds, which may be missing
  rw [mem_points_span, Set.mem_union]
  cases u? <;> cases v? <;>
    simp only [endsBefore, decide_eq_false_iff_not] at hs ht <;>
    simp only [points, Set.mem_ofPred_eq, Option.mem_def, Option.some.injEq, forall_eq',
      reduceCtorEq, false_imp_iff, implies_true, and_true, true_or, or_true] <;>
    grind

theorem isEmpty_span (h : s.isEmpty = false) : (span s t).isEmpty = false := by
  obtain ⟨l, u?⟩ := s
  obtain ⟨m, v?⟩ := t
  cases u? <;> cases v? <;>
    simp_all only [isEmpty, span, earlier, later, decide_eq_false_iff_not]
  grind

theorem endsBefore_span (hs : r.endsBefore s = true) (ht : r.endsBefore t = true) :
    r.endsBefore (span s t) = true := by
  obtain ⟨x, hx, hlt⟩ := endsBefore_iff.1 hs
  obtain ⟨y, hy, hlt'⟩ := endsBefore_iff.1 ht
  obtain rfl := Option.some.inj (hx.symm.trans hy)
  refine endsBefore_iff.2 ⟨x, hx, ?_⟩
  simp only [span, earlier]
  split <;> assumption

/-! ## Canonical lists -/

/-- Whether no segment of a list is empty, and each ends before those behind it. -/
structure Canonical (ss : List (Segment α)) : Prop where
  inhabited : ∀ s ∈ ss, s.isEmpty = false
  ordered : ss.Pairwise fun s t => s.endsBefore t = true

theorem Canonical.nil : Canonical ([] : List (Segment α)) := ⟨by simp, List.Pairwise.nil⟩

theorem Canonical.cons {ss : List (Segment α)} (h : Canonical ss) (hs : s.isEmpty = false)
    (hlt : ∀ t ∈ ss, s.endsBefore t = true) : Canonical (s :: ss) :=
  ⟨List.forall_mem_cons.2 ⟨hs, h.inhabited⟩, List.pairwise_cons.2 ⟨hlt, h.ordered⟩⟩

theorem Canonical.tail {ss : List (Segment α)} (h : Canonical (s :: ss)) : Canonical ss :=
  ⟨(List.forall_mem_cons.1 h.inhabited).2, (List.pairwise_cons.1 h.ordered).2⟩

theorem Canonical.tiles {ss : List (Segment α)} (h : Canonical ss) : Tiles points ss (union ss) :=
  ⟨h.ordered.imp fun hst => disjoint_points hst, rfl⟩

theorem union_insert (s : Segment α) (ss : List (Segment α)) :
    union (insert s ss) = s.points ∪ union ss := by
  induction ss generalizing s with
  | nil => simp [insert]
  | cons t rest ih =>
    rw [insert]
    split
    · rw [union_cons]
    · next hst =>
      split
      · rw [union_cons, ih, union_cons, Set.union_left_comm]
      · next hts =>
        rw [ih, points_span (by simpa using hst) (by simpa using hts), union_cons, Set.union_assoc]

/-- What ends before a segment and all of a list ends before all of them merged. -/
theorem endsBefore_insert {ss : List (Segment α)} (hs : r.endsBefore s = true)
    (hss : ∀ t ∈ ss, r.endsBefore t = true) : ∀ t ∈ insert s ss, r.endsBefore t = true := by
  induction ss generalizing s with
  | nil => simpa [insert] using hs
  | cons t rest ih =>
    obtain ⟨ht, hrest⟩ := List.forall_mem_cons.1 hss
    rw [insert]
    split
    · exact List.forall_mem_cons.2 ⟨hs, hss⟩
    · split
      · exact List.forall_mem_cons.2 ⟨ht, ih hs hrest⟩
      · exact ih (endsBefore_span hs ht) hrest

theorem Canonical.insert {ss : List (Segment α)} (h : Canonical ss) (hs : s.isEmpty = false) :
    Canonical (Segment.insert s ss) := by
  induction ss generalizing s with
  | nil => exact Canonical.nil.cons hs (by simp)
  | cons t rest ih =>
    have ht := h.inhabited t (by simp)
    have hrest := (List.pairwise_cons.1 h.ordered).1
    rw [Segment.insert]
    split
    · next hst =>
      refine h.cons hs (List.forall_mem_cons.2 ⟨hst, fun u hu => ?_⟩)
      exact endsBefore_trans hst (hrest u hu) ht
    · split
      · next hts => exact (ih h.tail hs).cons ht (endsBefore_insert hts hrest)
      · -- the two are merged, and what they make may touch the next segment
        exact ih h.tail (isEmpty_span hs)

theorem canonical_join (ss : List (Segment α)) : Canonical (join ss) := by
  induction ss with
  | nil => exact Canonical.nil
  | cons s rest ih =>
    rw [join]
    split
    · exact ih
    · next hs => exact ih.insert (by simpa using hs)

theorem union_join (ss : List (Segment α)) : union (join ss) = union ss := by
  induction ss with
  | nil => rfl
  | cons s rest ih =>
    rw [join, union_cons]
    split
    · next hs => rw [points_of_isEmpty hs, Set.empty_union, ih]
    · rw [union_insert, ih]

/-! ## Meeting -/

theorem points_meet (s t : Segment α) : (meet s t).points = s.points ∩ t.points := by
  obtain ⟨l, u?⟩ := s
  obtain ⟨m, v?⟩ := t
  ext x
  cases u? <;> cases v? <;>
    simp only [meet, points, earlier, later, Set.mem_inter_iff, Set.mem_ofPred_eq, Option.mem_def,
      Option.some.injEq, forall_eq', reduceCtorEq, false_imp_iff, implies_true, and_true] <;>
    grind

/-- Common parts are in the order of what they are parts of. -/
theorem endsBefore_meet (h : s.endsBefore u = true ∨ t.endsBefore v = true) :
    (meet s t).endsBefore (meet u v) = true := by
  obtain ⟨l, l?⟩ := s
  obtain ⟨m, m?⟩ := t
  simp only [endsBefore_iff, Option.mem_def] at h ⊢
  cases l? <;> cases m? <;>
    simp only [meet, earlier, later, reduceCtorEq, Option.some.injEq, false_and, exists_false,
      exists_eq_left', or_false, false_or] at h ⊢ <;>
    grind

theorem Canonical.meetAll {ss ts : List (Segment α)} (hs : Canonical ss) (ht : Canonical ts) :
    Canonical (Segment.meetAll ss ts) := by
  constructor
  · intro s hmem
    obtain ⟨t, -, hmem⟩ := List.mem_flatMap.1 hmem
    simpa using (List.mem_filter.1 hmem).2
  · refine List.pairwise_flatMap.2 ⟨fun s _ => ?_, hs.ordered.imp fun hlt => ?_⟩
    · refine List.Pairwise.filter _ (List.pairwise_map.2 ?_)
      exact ht.ordered.imp fun hlt => endsBefore_meet (.inr hlt)
    · intro x hx y hy
      obtain ⟨t, -, rfl⟩ := List.mem_map.1 (List.mem_filter.1 hx).1
      obtain ⟨t', -, rfl⟩ := List.mem_map.1 (List.mem_filter.1 hy).1
      exact endsBefore_meet (.inl hlt)

theorem union_meetAll (ss ts : List (Segment α)) :
    union (meetAll ss ts) = union ss ∩ union ts := by
  ext x
  simp only [mem_union, meetAll, List.mem_flatMap, List.mem_filter, List.mem_map, Set.mem_inter_iff]
  constructor
  · rintro ⟨-, ⟨s, hs, ⟨t, ht, rfl⟩, -⟩, hx⟩
    rw [points_meet] at hx
    exact ⟨⟨s, hs, hx.1⟩, ⟨t, ht, hx.2⟩⟩
  · rintro ⟨⟨s, hs, hxs⟩, ⟨t, ht, hxt⟩⟩
    have hx : x ∈ (meet s t).points := points_meet s t ▸ ⟨hxs, hxt⟩
    refine ⟨meet s t, ⟨s, hs, ⟨t, ht, rfl⟩, ?_⟩, hx⟩
    -- a segment with a point is not empty
    cases hm : (meet s t).isEmpty with
    | false => rfl
    | true => exact absurd (points_of_isEmpty hm ▸ hx) (Set.notMem_empty x)

/-! ## Within a ring -/

/-- Whether the bounds of a segment are bounds of the ring, and the ring has no end if the segment
    has none. -/
structure Within (ring : Ring α) (s : Segment α) : Prop where
  lower : ring.Bounds s.lower
  upper : ∀ u ∈ s.upper?, ring.Bounds u
  endless : s.upper? = none → ring.maximum? = none

variable {ring : Ring α}

theorem Within.holds (h : s.Within ring) {x : α} (hx : x ∈ s.points) : ring.Holds x := by
  have hlower := h.lower.1
  refine ⟨by have := hx.1; grind, fun m hm => ?_⟩
  cases hu : s.upper? with
  | none => simp [h.endless hu] at hm
  | some u => exact Std.le_trans (hx.2 u hu) ((h.upper u hu).2 m hm)

theorem Within.span (hs : s.Within ring) (ht : t.Within ring) : (span s t).Within ring := by
  obtain ⟨l, u?⟩ := s
  obtain ⟨m, v?⟩ := t
  obtain ⟨hl, hu, hu'⟩ := hs
  obtain ⟨hm, hv, hv'⟩ := ht
  refine ⟨?_, ?_, ?_⟩
  · simp only [Segment.span, earlier]
    split <;> assumption
  · cases u? <;> cases v? <;> simp_all [Segment.span, later]
    split <;> assumption
  · cases u? <;> cases v? <;> simp_all [Segment.span]

theorem Within.meet (hs : s.Within ring) (ht : t.Within ring) : (meet s t).Within ring := by
  obtain ⟨l, u?⟩ := s
  obtain ⟨m, v?⟩ := t
  obtain ⟨hl, hu, hu'⟩ := hs
  obtain ⟨hm, hv, hv'⟩ := ht
  refine ⟨?_, ?_, ?_⟩
  · simp only [Segment.meet, later]
    split <;> assumption
  · cases u? <;> cases v? <;> simp_all [Segment.meet, earlier]
    split <;> assumption
  · cases u? <;> cases v? <;> simp_all [Segment.meet]

/-- What holds of segments and of those that span two of them is kept by putting them together. -/
theorem forall_insert {P : Segment α → Prop} (hspan : ∀ s t, P s → P t → P (span s t))
    {ss : List (Segment α)} (hs : P s) (hss : ∀ t ∈ ss, P t) : ∀ t ∈ insert s ss, P t := by
  induction ss generalizing s with
  | nil => simpa [insert] using hs
  | cons t rest ih =>
    obtain ⟨ht, hrest⟩ := List.forall_mem_cons.1 hss
    rw [insert]
    split
    · exact List.forall_mem_cons.2 ⟨hs, hss⟩
    · split
      · exact List.forall_mem_cons.2 ⟨ht, ih hs hrest⟩
      · exact ih (hspan s t hs ht) hrest

theorem forall_join {P : Segment α → Prop} (hspan : ∀ s t, P s → P t → P (span s t))
    {ss : List (Segment α)} (h : ∀ s ∈ ss, P s) : ∀ s ∈ join ss, P s := by
  induction ss with
  | nil => simp [join]
  | cons s rest ih =>
    obtain ⟨hs, hrest⟩ := List.forall_mem_cons.1 h
    rw [join]
    split
    · exact ih hrest
    · exact forall_insert hspan hs (ih hrest)

theorem forall_meetAll {P : Segment α → Prop} (hmeet : ∀ s t, P s → P t → P (meet s t))
    {ss ts : List (Segment α)} (hs : ∀ s ∈ ss, P s) (ht : ∀ t ∈ ts, P t) :
    ∀ u ∈ meetAll ss ts, P u := by
  intro u hu
  obtain ⟨s, hmem, hu⟩ := List.mem_flatMap.1 hu
  obtain ⟨t, hmem', rfl⟩ := List.mem_map.1 (List.mem_filter.1 hu).1
  exact hmeet s t (hs s hmem) (ht t hmem')

theorem within_join {ss : List (Segment α)} (h : ∀ s ∈ ss, s.Within ring) :
    ∀ s ∈ join ss, s.Within ring :=
  forall_join (fun _ _ hs ht => hs.span ht) h

theorem within_meetAll {ss ts : List (Segment α)} (hs : ∀ s ∈ ss, s.Within ring)
    (ht : ∀ t ∈ ts, t.Within ring) : ∀ u ∈ meetAll ss ts, u.Within ring :=
  forall_meetAll (fun _ _ hs ht => hs.meet ht) hs ht

end Segment

namespace Arc

variable {α : Type} [LE α] [LT α] [DecidableLE α] [DecidableLT α] [DecidableEq α]
  [Std.IsLinearOrder α] [Std.LawfulOrderLT α] {ring : Ring α} {a b : Arc α} {t l : α}

/-! ## The segments of an arc -/

theorem within_toEnd (hl : ring.Bounds l) : (toEnd ring l).Within ring :=
  ⟨hl, fun u hu => ⟨Std.le_trans hl.1 (hl.2 u hu), fun m hm => by
    obtain rfl := Option.some.inj (hu.symm.trans hm)
    exact Std.le_refl u⟩, id⟩

theorem mem_points_segment_toEnd (hl : ring.Bounds l) :
    t ∈ (toEnd ring l).points ↔ ring.Holds t ∧ l < t := by
  constructor
  · exact fun h => ⟨(within_toEnd hl).holds h, h.1⟩
  · exact fun h => ⟨h.2, h.1.2⟩

/-- The three ways to make segments of an arc. -/
theorem segments_cases (ring : Ring α) (a : Arc α) :
    a.right = ring.minimum ∧ a.segments ring = Segment.join [toEnd ring a.left] ∨
      a.wraps ring = true ∧
        a.segments ring = Segment.join [toEnd ring a.left, ⟨ring.minimum, some a.right⟩] ∨
      a.left < a.right ∧ a.segments ring = Segment.join [⟨a.left, some a.right⟩] := by
  unfold segments
  split
  · next h => exact .inl ⟨h, rfl⟩
  · next h =>
    split
    · next hw => exact .inr (.inl ⟨hw, rfl⟩)
    · next hw =>
      have hlt : a.left < a.right := by
        rw [wraps_iff] at hw
        grind
      exact .inr (.inr ⟨hlt, rfl⟩)

theorem canonical_segments (ring : Ring α) (a : Arc α) : Segment.Canonical (a.segments ring) := by
  rcases segments_cases ring a with ⟨-, h⟩ | ⟨-, h⟩ | ⟨-, h⟩ <;> rw [h] <;>
    exact Segment.canonical_join _

theorem within_segments (ha : a.Within ring) : ∀ s ∈ a.segments ring, s.Within ring := by
  have hend := within_toEnd ha.left
  have hpart {x : α} (hx : ring.Bounds x) : (⟨x, some a.right⟩ : Segment α).Within ring :=
    ⟨hx, by simpa using ha.right, by simp⟩
  rcases segments_cases ring a with ⟨-, h⟩ | ⟨-, h⟩ | ⟨-, h⟩ <;> rw [h] <;>
    refine Segment.within_join ?_
  · simpa using hend
  · simpa using ⟨hend, hpart ha.left.minimum⟩
  · simpa using hpart ha.left

/-- The segments of an arc are its points. -/
theorem union_segments (ha : a.Within ring) : Segment.union (a.segments ring) = a.points ring := by
  ext t
  rcases segments_cases ring a with ⟨hr, h⟩ | ⟨hw, h⟩ | ⟨hlt, h⟩ <;>
    rw [h, Segment.union_join]
  · obtain ⟨l, r⟩ := a
    obtain rfl : r = ring.minimum := hr
    rw [mem_points_toEnd ha.left, Segment.union_cons, Segment.union_nil, Set.union_empty,
      mem_points_segment_toEnd ha.left]
  · -- over the end of the ring, there is one segment on either side of it
    have hfirst : t ∈ (⟨ring.minimum, some a.right⟩ : Segment α).points ↔
        ring.Holds t ∧ t ≤ a.right := by
      constructor
      · intro ht
        have hle : t ≤ a.right := ht.2 a.right rfl
        exact ⟨⟨ht.1, fun m hm => Std.le_trans hle (ha.right.2 m hm)⟩, hle⟩
      · exact fun ht => ⟨ht.1.1, by simpa using ht.2⟩
    rw [mem_points_of_wraps hw, Segment.union_cons, Segment.union_cons, Segment.union_nil,
      Set.union_empty, Set.mem_union, mem_points_segment_toEnd ha.left, hfirst, ← and_or_left]
  · have hwithin : (⟨a.left, some a.right⟩ : Segment α).Within ring :=
      ⟨ha.left, by simpa using ha.right, by simp⟩
    rw [mem_points_of_lt hlt, Segment.union_cons, Segment.union_nil, Set.union_empty]
    constructor
    · exact fun ht => ⟨hwithin.holds ht, ht.1, ht.2 a.right rfl⟩
    · exact fun ht => ⟨ht.2.1, by simpa using ht.2.2⟩

/-! ## Segments as arcs -/

theorem within_ofSegment {s : Segment α} (hs : s.Within ring) : (ofSegment ring s).Within ring := by
  refine ⟨hs.lower, ?_⟩
  unfold ofSegment
  cases hu : s.upper? with
  | none => exact hs.lower.minimum
  | some u => exact hs.upper u hu

/-- A segment that is not empty has the points of its arc. -/
theorem points_ofSegment {s : Segment α} (hs : s.Within ring) (hne : s.isEmpty = false) :
    (ofSegment ring s).points ring = s.points := by
  obtain ⟨l, u?⟩ := s
  ext t
  cases u? with
  | none =>
    have hend := hs.endless rfl
    rw [ofSegment, Option.getD_none, mem_points_toEnd hs.lower]
    constructor
    · exact fun ht => ⟨ht.2, by simp⟩
    · exact fun ht => ⟨hs.holds ht, ht.1⟩
  | some u =>
    have hlt : l < u := by
      simp only [Segment.isEmpty, decide_eq_false_iff_not] at hne
      grind
    rw [ofSegment, Option.getD_some, mem_points_of_lt hlt]
    constructor
    · exact fun ht => ⟨ht.2.1, by simpa using ht.2.2⟩
    · exact fun ht => ⟨hs.holds ht, ht.1, ht.2 u rfl⟩

/-! ## Intersection -/

theorem within_of_mem_intersection (ha : a.Within ring) (hb : b.Within ring) :
    ∀ c ∈ a.intersection ring b, c.Within ring := by
  intro c hc
  obtain ⟨s, hs, rfl⟩ := List.mem_map.1 hc
  exact within_ofSegment (Segment.within_meetAll (within_segments ha) (within_segments hb) s hs)

/-- **The intersection of two arcs tiles the points that they share.** -/
theorem tiles_intersection (ha : a.Within ring) (hb : b.Within ring) :
    Tiles (points ring) (a.intersection ring b) (a.points ring ∩ b.points ring) := by
  have hwithin := Segment.within_meetAll (within_segments ha) (within_segments hb)
  have hcanonical := (canonical_segments ring a).meetAll (canonical_segments ring b)
  have hunion : Segment.union (Segment.meetAll (a.segments ring) (b.segments ring)) =
      a.points ring ∩ b.points ring := by
    rw [Segment.union_meetAll, union_segments ha, union_segments hb]
  rw [← hunion]
  refine Tiles.map_iff.2 (hcanonical.tiles.congr fun s hs => ?_)
  exact points_ofSegment (hwithin s hs) (hcanonical.inhabited s hs)

end Arc

end RingScan

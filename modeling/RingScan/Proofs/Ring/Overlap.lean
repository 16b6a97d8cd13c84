import Mathlib.Data.List.Lex
import RingScan.Proofs.Ring.Intersection
import RingScan.Ring.TokenArc

set_option autoImplicit false
set_option linter.unusedSectionVars false

/-! # The exact overlap of two arcs

Two arcs overlap in a list of arcs that is the same whichever of the two comes first. A canonical
list is known by what is in it (`Canonical.eq_of_mem_iff`), and two segments meet in one segment in
either order, so that the intersection does not depend on the order of its operands
(`Arc.intersection_comm`). The arcs in it lie behind each other with gaps between them, none of them
goes over the end of the ring, and on the rings of the partitioners none of them is without a point.
Hence two arcs intersect just if they share a point (`Arc.intersects_iff`). -/

namespace RingScan

namespace Segment

variable {α : Type} [LE α] [LT α] [DecidableLE α] [DecidableLT α] [Std.IsLinearOrder α]
  [Std.LawfulOrderLT α] {s t : Segment α}

/-! ## The order of the operands -/

theorem later_comm (x y : α) : later x y = later y x := by
  unfold later
  split <;> split <;> grind

theorem earlier_comm (x y : α) : earlier x y = earlier y x := by
  unfold earlier
  split <;> split <;> grind

theorem meet_comm (s t : Segment α) : meet s t = meet t s := by
  obtain ⟨l, u?⟩ := s
  obtain ⟨m, v?⟩ := t
  cases u? <;> cases v? <;> simp [meet, later_comm l m, earlier_comm]

theorem mem_meetAll {ss ts : List (Segment α)} {s : Segment α} :
    s ∈ meetAll ss ts ↔ (∃ x ∈ ss, ∃ y ∈ ts, meet x y = s) ∧ s.isEmpty = false := by
  simp only [meetAll, List.mem_flatMap, List.mem_filter, List.mem_map, Bool.not_eq_true']
  constructor
  · rintro ⟨x, hx, ⟨y, hy, hs⟩, hne⟩
    exact ⟨⟨x, hx, y, hy, hs⟩, hne⟩
  · rintro ⟨⟨x, hx, y, hy, hs⟩, hne⟩
    exact ⟨x, hx, ⟨y, hy, hs⟩, hne⟩

theorem isEmpty_of_endsBefore_self (h : s.endsBefore s = true) : s.isEmpty = true := by
  obtain ⟨x, hx, hlt⟩ := endsBefore_iff.1 h
  exact isEmpty_iff.2 ⟨x, hx, Std.le_of_lt hlt⟩

/-- Of two segments that are not empty, only one can end before the other. -/
theorem not_endsBefore_of_endsBefore (hst : s.endsBefore t = true) (hs : s.isEmpty = false)
    (ht : t.isEmpty = false) : ¬ t.endsBefore s = true := by
  intro hts
  have hself := isEmpty_of_endsBefore_self (endsBefore_trans hst hts ht)
  simp [hs] at hself

theorem Canonical.nodup {ss : List (Segment α)} (h : Canonical ss) : ss.Nodup := by
  refine h.ordered.imp_of_mem fun {s t} hs _ hst => ?_
  rintro rfl
  have hempty := isEmpty_of_endsBefore_self hst
  simp [h.inhabited s hs] at hempty

/-- **A canonical list is known by what is in it.** -/
theorem Canonical.eq_of_mem_iff {ss ts : List (Segment α)} (hs : Canonical ss) (ht : Canonical ts)
    (h : ∀ s, s ∈ ss ↔ s ∈ ts) : ss = ts := by
  have hperm : ss.Perm ts := (List.perm_ext_iff_of_nodup hs.nodup ht.nodup).2 h
  refine hperm.eq_of_pairwise (fun s t hsmem htmem hst hts => ?_) hs.ordered ht.ordered
  have hinhabited := hs.inhabited s hsmem
  exact absurd hts (not_endsBefore_of_endsBefore hst hinhabited (ht.inhabited t htmem))

theorem meetAll_comm {ss ts : List (Segment α)} (hs : Canonical ss) (ht : Canonical ts) :
    meetAll ss ts = meetAll ts ss := by
  refine (hs.meetAll ht).eq_of_mem_iff (ht.meetAll hs) fun s => ?_
  have hswap {ss ts : List (Segment α)} (h : ∃ x ∈ ss, ∃ y ∈ ts, meet x y = s) :
      ∃ y ∈ ts, ∃ x ∈ ss, meet y x = s := by
    obtain ⟨x, hx, y, hy, hxy⟩ := h
    exact ⟨y, hy, x, hx, (meet_comm y x).trans hxy⟩
  rw [mem_meetAll, mem_meetAll]
  exact and_congr_left' ⟨hswap, hswap⟩

end Segment

/-- Whether something lies behind every position, should the ring have no end. -/
def Ring.GoesOn {α : Type} [LT α] (ring : Ring α) : Prop :=
  ring.maximum? = none → ∀ x : α, ∃ y, x < y

/-- A segment of a ring has a point unless it is empty. -/
theorem Segment.Within.nonempty {α : Type} [LE α] [LT α] [DecidableLE α] [DecidableLT α]
    [Std.IsLinearOrder α] [Std.LawfulOrderLT α] {ring : Ring α} {s : Segment α}
    (h : s.Within ring) (hring : ring.GoesOn) (hs : s.isEmpty = false) : s.points.Nonempty := by
  obtain ⟨l, u?⟩ := s
  cases u? with
  | none =>
    obtain ⟨y, hy⟩ := hring (h.endless rfl) l
    exact ⟨y, hy, by simp⟩
  | some u =>
    -- the upper bound is taken in
    have hlt : l < u := by
      simp only [isEmpty, decide_eq_false_iff_not] at hs
      grind
    exact ⟨u, hlt, by simp [Std.le_refl]⟩

namespace Arc

variable {α : Type} [LE α] [LT α] [DecidableLE α] [DecidableLT α] [DecidableEq α]
  [Std.IsLinearOrder α] [Std.LawfulOrderLT α] {ring : Ring α} {a b c : Arc α}

/-! ## The overlap as a list -/

/-- **The overlap of two arcs does not depend on their order.** -/
theorem intersection_comm (ring : Ring α) (a b : Arc α) :
    a.intersection ring b = b.intersection ring a := by
  rw [intersection, intersection,
    Segment.meetAll_comm (canonical_segments ring a) (canonical_segments ring b)]

theorem canonical_common (ring : Ring α) (a b : Arc α) :
    Segment.Canonical (Segment.meetAll (a.segments ring) (b.segments ring)) :=
  (canonical_segments ring a).meetAll (canonical_segments ring b)

/-- What two arcs have in common does not go over the end of the ring. -/
theorem wraps_of_mem_intersection (hc : c ∈ a.intersection ring b) : c.wraps ring = false := by
  obtain ⟨⟨l, u?⟩, hs, rfl⟩ := List.mem_map.1 hc
  have hne := (canonical_common ring a b).inhabited _ hs
  cases u? with
  | none => simp [wraps, ofSegment]
  | some u => simp_all [wraps, ofSegment, Segment.isEmpty]

/-- **The arcs of an overlap lie behind each other**, each ending below the left bound of those
    behind it. Only the last one can go to the end of a ring that has none. -/
theorem pairwise_intersection (ring : Ring α) (a b : Arc α) :
    (a.intersection ring b).Pairwise fun c d => c.left < c.right ∧ c.right < d.left := by
  have hcommon := canonical_common ring a b
  refine List.pairwise_map.2 (hcommon.ordered.imp_of_mem fun {s t} hs _ hst => ?_)
  obtain ⟨u, hu, hlt⟩ := Segment.endsBefore_iff.1 hst
  have hright : (ofSegment ring s).right = u := by
    rw [ofSegment, Option.mem_def.1 hu, Option.getD_some]
  have hinhabited : s.lower < u := by
    have hle : ¬ u ≤ s.lower := fun hle => by
      have hempty := Segment.isEmpty_iff.2 ⟨u, hu, hle⟩
      rw [hcommon.inhabited s hs] at hempty
      exact Bool.false_ne_true hempty
    grind
  rw [hright]
  exact ⟨hinhabited, hlt⟩

theorem nonempty_of_mem_intersection (ha : a.Within ring) (hb : b.Within ring)
    (hring : ring.GoesOn) (hc : c ∈ a.intersection ring b) : (c.points ring).Nonempty := by
  obtain ⟨s, hs, rfl⟩ := List.mem_map.1 hc
  have hwithin := Segment.within_meetAll (within_segments ha) (within_segments hb) s hs
  have hne := (canonical_common ring a b).inhabited s hs
  rw [points_ofSegment hwithin hne]
  exact hwithin.nonempty hring hne

theorem intersects_eq (ring : Ring α) (a b : Arc α) :
    a.intersects ring b = !(a.intersection ring b).isEmpty := by
  rw [intersects, intersection, List.isEmpty_map]

/-- **Two arcs intersect just if they share a point.** -/
theorem intersects_iff (ha : a.Within ring) (hb : b.Within ring) (hring : ring.GoesOn) :
    a.intersects ring b = true ↔ (a.points ring ∩ b.points ring).Nonempty := by
  rw [intersects_eq, ← (tiles_intersection ha hb).union]
  constructor
  · intro h
    obtain ⟨c, hc⟩ := List.exists_mem_of_ne_nil (a.intersection ring b) (by simpa using h)
    obtain ⟨t, ht⟩ := nonempty_of_mem_intersection ha hb hring hc
    exact ⟨t, Set.mem_biUnion hc ht⟩
  · rintro ⟨t, ht⟩
    obtain ⟨c, hc, -⟩ := Set.mem_iUnion₂.1 ht
    simpa using List.ne_nil_of_mem hc

end Arc

/-! ## The rings of the partitioners -/

/-- A list comes behind its beginnings. -/
theorem lt_append_singleton {α : Type} [LT α] (xs : List α) (x : α) : xs < xs ++ [x] := by
  have hlt := List.Lex.append_left (· < ·) (List.Lex.nil : List.Lex (· < ·) [] [x]) xs
  rwa [List.append_nil] at hlt

namespace Text

/-- The symbols of a text with a character behind it that does not join a mark. -/
theorem Surrogate.symbols_append_nul (cs : List Char) :
    symbols (cs ++ ['\x00']) = symbols cs ++ [['\x00']] := by
  have hnul : (marked? '\x00').isSome = false := by decide
  fun_induction symbols cs with
  | case1 => rfl
  | case2 c => simp [symbols, hnul]
  | case3 c d rest h ih => simp [symbols, h, ih]
  | case4 c d rest h ih => simpa [symbols, h] using ih

theorem ordered_lt_append_nul (s : String) : ordered s < ordered (s ++ "\x00") := by
  have hcodes : codePoints (s ++ "\x00") = codePoints s ++ [0] := by
    have hsymbols := Surrogate.symbols_append_nul s.toList
    have hlist : (s ++ "\x00").toList = s.toList ++ ['\x00'] := by simp
    rw [codePoints, hlist, hsymbols, List.map_append, codePoints]
    rfl
  show codePoints s < codePoints (s ++ "\x00")
  rw [hcodes]
  exact lt_append_singleton _ 0

end Text

namespace Partitioner

/-- Behind every position of a ring without an end there is another one. -/
theorem goesOn_ring (p : Partitioner) : p.ring.GoesOn := by
  intro hend x
  cases p with
  | murmur3 => simp [ring] at hend
  | random => simp [ring] at hend
  | byteOrdered =>
    obtain ⟨bs, rfl⟩ : ∃ bs : List UInt8, bs = x := ⟨x, rfl⟩
    exact ⟨_, lt_append_singleton bs 0⟩
  | orderPreserving => exact ⟨_, Text.ordered_lt_append_nul x⟩

end Partitioner

/-! ## Arcs between tokens -/

namespace TokenArc

variable {p : Partitioner}

theorem intersection_ofArc (a b : Arc p.Position) :
    (ofArc a).intersection (ofArc b) = .ok ((a.intersection p.ring b).map ofArc) := rfl

theorem intersects_ofArc (a b : Arc p.Position) :
    (ofArc a).intersects (ofArc b) = .ok (a.intersects p.ring b) := by
  rw [intersects, intersection_ofArc, Arc.intersects_eq, ← List.isEmpty_map]
  rfl

/-- **The overlap of two arcs is exact.** Two arcs with bounds of the ring overlap in a list of
    arcs, which is the same for either order of the two. Each of the arcs has points and does not go
    over the end of the ring; each ends strictly below the left bound of the next one; together they
    are the points that the two arcs share. There is none of them just if the two do not intersect,
    which is when they share no point. -/
theorem intersection_exact {a b : Arc p.Position} (ha : a.Within p.ring) (hb : b.Within p.ring) :
    ∃ common : List (Arc p.Position),
      (ofArc a).intersection (ofArc b) = .ok (common.map ofArc) ∧
      (ofArc b).intersection (ofArc a) = .ok (common.map ofArc) ∧
      (∀ c ∈ common, (c.points p.ring).Nonempty ∧ (ofArc c).wraps = .ok false) ∧
      (common.Pairwise fun c d => c.left < c.right ∧ c.right < d.left) ∧
      ⋃ c ∈ common, c.points p.ring = a.points p.ring ∩ b.points p.ring ∧
      ∃ meets, (ofArc a).intersects (ofArc b) = .ok meets ∧ (common = [] ↔ meets = false) ∧
        (meets = true ↔ (a.points p.ring ∩ b.points p.ring).Nonempty) := by
  have hgoes := p.goesOn_ring
  refine ⟨a.intersection p.ring b, intersection_ofArc a b, ?_, fun c hc => ⟨?_, ?_⟩,
    Arc.pairwise_intersection p.ring a b, (Arc.tiles_intersection ha hb).union,
    a.intersects p.ring b, intersects_ofArc a b, ?_, Arc.intersects_iff ha hb hgoes⟩
  · rw [intersection_ofArc, Arc.intersection_comm]
  · exact Arc.nonempty_of_mem_intersection ha hb hgoes hc
  · exact congrArg Except.ok (Arc.wraps_of_mem_intersection hc)
  · rw [Arc.intersects_eq]
    simp

/-- An arc between whole numbers. -/
def between (left right : Int) : Arc (Partitioner.Position .murmur3) := ⟨left, right⟩

theorem within_between {left right : Int} (hl : -0x8000000000000000 ≤ left)
    (hl' : left ≤ 0x7fffffffffffffff) (hr : -0x8000000000000000 ≤ right)
    (hr' : right ≤ 0x7fffffffffffffff) :
    (between left right).Within (Partitioner.ring .murmur3) := by
  constructor
  · refine ⟨hl, ?_⟩
    rintro m ⟨⟩
    exact hl'
  · refine ⟨hr, ?_⟩
    rintro m ⟨⟩
    exact hr'

/-- Two arcs that both go over the end of the ring overlap on either side of it. -/
theorem intersection_exact_around :
    (between 90 10).Within (Partitioner.ring .murmur3) ∧
      (between 80 20).Within (Partitioner.ring .murmur3) ∧
      ∃ common : List (Arc (Partitioner.Position .murmur3)),
        (ofArc (between 90 10)).intersection (ofArc (between 80 20)) = .ok (common.map ofArc) ∧
          ⋃ c ∈ common, c.points (Partitioner.ring .murmur3) =
            (between 90 10).points (Partitioner.ring .murmur3) ∩
              (between 80 20).points (Partitioner.ring .murmur3) := by
  have ha : (between 90 10).Within (Partitioner.ring .murmur3) :=
    within_between (by decide) (by decide) (by decide) (by decide)
  have hb : (between 80 20).Within (Partitioner.ring .murmur3) :=
    within_between (by decide) (by decide) (by decide) (by decide)
  obtain ⟨common, hcommon, -, -, -, hunion, -⟩ := intersection_exact ha hb
  exact ⟨ha, hb, common, hcommon, hunion⟩

example : (between 90 10).intersection (Partitioner.ring .murmur3) (between 80 20) =
    [between (-0x8000000000000000) 10, between 90 0x7fffffffffffffff] := by
  decide

end TokenArc

end RingScan

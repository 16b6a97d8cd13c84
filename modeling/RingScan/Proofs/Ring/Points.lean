import RingScan.Proofs.Ring.Tiling
import RingScan.Ring.Segment

set_option autoImplicit false

/-! # The points of an arc

What an arc takes in, said without cutting it: the *points* of an arc are the points of the ring
behind its left bound, up to its right bound, going over the end of the ring if need be. An arc is
*within* a ring if both of its bounds are positions from the minimum to the maximum. Cutting such an
arc at the end of the ring tiles its points (`tiles_unwrap`). -/

namespace RingScan

section Bounds

variable {α : Type} [LE α]

/-- Whether a position can be a bound: it is neither below the minimum nor behind the maximum. -/
def Ring.Bounds (ring : Ring α) (t : α) : Prop := ring.minimum ≤ t ∧ ∀ m ∈ ring.maximum?, t ≤ m

/-- Whether both bounds of an arc are bounds of the ring. -/
structure Arc.Within (ring : Ring α) (a : Arc α) : Prop where
  left : ring.Bounds a.left
  right : ring.Bounds a.right

variable [Std.IsLinearOrder α] {ring : Ring α} {t : α}

theorem Ring.Bounds.minimum (h : ring.Bounds t) : ring.Bounds ring.minimum :=
  ⟨Std.le_refl _, fun m hm => Std.le_trans h.1 (h.2 m hm)⟩

/-- The last position of a ring is a bound of it. -/
theorem Ring.Bounds.last (h : ring.Bounds t) : ring.Bounds ring.last := by
  obtain ⟨m, M⟩ := ring
  cases M with
  | none => exact h.minimum
  | some M =>
    refine ⟨Std.le_trans h.1 (h.2 M rfl), fun m' hm' => ?_⟩
    obtain rfl := Option.some.inj hm'
    exact Std.le_refl M

variable [LT α]

/-- Whether something can lie at a position: nothing lies at the minimum or behind the maximum. -/
def Ring.Holds (ring : Ring α) (t : α) : Prop := ring.minimum < t ∧ ∀ m ∈ ring.maximum?, t ≤ m

/-- The points of a ring. -/
def Ring.points (ring : Ring α) : Set α := {t | ring.Holds t}

/-- Nothing lies behind the last position of a ring. An arc that starts there and goes over the end
    of the ring only exists if the ring has an end. -/
theorem Arc.not_last_lt [Std.LawfulOrderLT α] {a : Arc α} (ha : a.Within ring)
    (hr : a.right ≠ ring.minimum) (hl : a.left = ring.last) (hle : a.right ≤ a.left)
    (ht : ring.Holds t) : ¬ a.left < t := by
  obtain ⟨m, M⟩ := ring
  cases M with
  | none =>
    -- without an end, the last position is the minimum, and the right bound would be it, too
    have hmin : m ≤ a.right := ha.right.1
    have hl : a.left = m := hl
    exact absurd (Std.le_antisymm (hl ▸ hle) hmin) hr
  | some M =>
    have hmax : t ≤ M := ht.2 M rfl
    have hl : a.left = M := hl
    grind

end Bounds

namespace Arc

/-- The points of an arc. A right bound that is the minimum means the end of the ring, and an arc
    whose left bound is not below its right bound goes over that end. -/
def points {α : Type} [LE α] [LT α] [DecidableLT α] [DecidableEq α] (ring : Ring α) (a : Arc α) :
    Set α :=
  {t | ring.Holds t ∧
    if a.left < a.right then a.left < t ∧ t ≤ a.right
    else if a.right = ring.minimum then a.left < t
    else a.left < t ∨ t ≤ a.right}

section Points

variable {α : Type} [LE α] [LT α] [DecidableLT α] [DecidableEq α] {ring : Ring α} {a : Arc α}
  {t l r : α}

theorem points_subset (ring : Ring α) (a : Arc α) : a.points ring ⊆ ring.points := fun _ ht => ht.1

theorem mem_points_of_lt (h : a.left < a.right) :
    t ∈ a.points ring ↔ ring.Holds t ∧ a.left < t ∧ t ≤ a.right := by
  simp [points, h]

variable [Std.IsLinearOrder α] [Std.LawfulOrderLT α]

/-- An arc up to the minimum is everything behind its left bound. -/
theorem mem_points_toEnd (hl : ring.Bounds l) :
    t ∈ points ring ⟨l, ring.minimum⟩ ↔ ring.Holds t ∧ l < t := by
  have hlt : ¬ l < ring.minimum := by
    have := hl.1
    grind
  simp [points, hlt]

/-- An arc from the minimum on is everything up to its right bound. -/
theorem mem_points_from_minimum (hr : ring.Bounds r) (hne : r ≠ ring.minimum) :
    t ∈ points ring ⟨ring.minimum, r⟩ ↔ ring.Holds t ∧ t ≤ r := by
  have hlt : ring.minimum < r := by
    have := hr.1
    grind
  rw [mem_points_of_lt hlt]
  exact ⟨fun h => ⟨h.1, h.2.2⟩, fun h => ⟨h.1, h.1.1, h.2⟩⟩

/-- An arc up to the last position is everything behind its left bound, since nothing lies behind
    that position. -/
theorem mem_points_to_last (hl : ring.Bounds l) (hne : l ≠ ring.last) :
    t ∈ points ring ⟨l, ring.last⟩ ↔ ring.Holds t ∧ l < t := by
  obtain ⟨m, M⟩ := ring
  cases M with
  | none => exact mem_points_toEnd hl
  | some M =>
    have hle : l ≤ M := hl.2 M rfl
    have hlt : l < M := by
      have : l ≠ M := hne
      grind
    rw [Ring.last, Option.getD_some, mem_points_of_lt hlt]
    exact ⟨fun h => ⟨h.1, h.2.1⟩, fun h => ⟨h.1, h.2, h.1.2 M rfl⟩⟩

/-- There and back is all the way around, so that the two ways do not meet. -/
theorem disjoint_points_swap (ring : Ring α) (h : l < r) :
    Disjoint (points ring ⟨l, r⟩) (points ring ⟨r, l⟩) := by
  rw [Set.disjoint_left]
  intro t ht ht'
  obtain ⟨-, hl, hr⟩ := (mem_points_of_lt h).1 ht
  have hswap : ¬ r < l := by grind
  simp only [points, Set.mem_ofPred_eq, if_neg hswap] at ht'
  obtain ⟨-, ht'⟩ := ht'
  split at ht'
  · grind
  · grind

end Points

/-! ## Cutting -/

section Cuts

variable {α : Type} [LE α] [DecidableLE α] [DecidableEq α] {ring : Ring α} {a b : Arc α}

theorem wraps_iff : a.wraps ring = true ↔ a.right ≤ a.left ∧ a.right ≠ ring.minimum := by
  simp [wraps]

/-- The three ways to cut an arc. -/
theorem unwrap_cases (ring : Ring α) (a : Arc α) :
    a.wraps ring = false ∧ a.unwrap ring = [a] ∨
      a.wraps ring = true ∧ a.left = ring.last ∧ a.unwrap ring = [⟨ring.minimum, a.right⟩] ∨
      a.wraps ring = true ∧ a.left ≠ ring.last ∧
        a.unwrap ring = [⟨a.left, ring.last⟩, ⟨ring.minimum, a.right⟩] := by
  unfold unwrap
  cases hw : a.wraps ring with
  | false => simp
  | true => by_cases hl : a.left = ring.last <;> simp [hl]

variable [Std.IsLinearOrder α]

/-- The pieces of an arc are within the ring. -/
theorem within_of_mem_unwrap (ha : a.Within ring) (hb : b ∈ a.unwrap ring) : b.Within ring := by
  have hlast := ha.left.last
  have hmin := ha.left.minimum
  rcases unwrap_cases ring a with ⟨-, h⟩ | ⟨-, -, h⟩ | ⟨-, -, h⟩ <;> rw [h] at hb
  · exact List.mem_singleton.1 hb ▸ ha
  · exact List.mem_singleton.1 hb ▸ ⟨hmin, ha.right⟩
  · rcases List.mem_pair.1 hb with rfl | rfl
    · exact ⟨ha.left, hlast⟩
    · exact ⟨hmin, ha.right⟩

end Cuts

variable {α : Type} [LE α] [LT α] [DecidableLE α] [DecidableLT α] [DecidableEq α]
  [Std.IsLinearOrder α] [Std.LawfulOrderLT α] {ring : Ring α} {a : Arc α} {t : α}

theorem mem_points_of_wraps (h : a.wraps ring = true) :
    t ∈ a.points ring ↔ ring.Holds t ∧ (a.left < t ∨ t ≤ a.right) := by
  obtain ⟨hle, hne⟩ := wraps_iff.1 h
  have hlt : ¬ a.left < a.right := by grind
  simp only [points, Set.mem_ofPred_eq, if_neg hlt, if_neg hne]

/-- **Cutting an arc tiles its points.** -/
theorem tiles_unwrap (ha : a.Within ring) : Tiles (points ring) (a.unwrap ring) (a.points ring) := by
  rcases unwrap_cases ring a with ⟨-, h⟩ | ⟨hw, hl, h⟩ | ⟨hw, hl, h⟩
  · rw [h]
    exact Tiles.singleton a
  · obtain ⟨hle, hne⟩ := wraps_iff.1 hw
    -- nothing lies between the last position and the end of the ring
    have hpoints : a.points ring = points ring ⟨ring.minimum, a.right⟩ := by
      ext t
      rw [mem_points_of_wraps hw, mem_points_from_minimum ha.right hne]
      constructor
      · rintro ⟨ht, hlt | hle'⟩
        · exact absurd hlt (not_last_lt ha hne hl hle ht)
        · exact ⟨ht, hle'⟩
      · exact fun ⟨ht, hle'⟩ => ⟨ht, .inr hle'⟩
    rw [h, hpoints]
    exact Tiles.singleton _
  · obtain ⟨hle, hne⟩ := wraps_iff.1 hw
    have hunion : a.points ring =
        points ring ⟨a.left, ring.last⟩ ∪ points ring ⟨ring.minimum, a.right⟩ := by
      ext t
      rw [Set.mem_union, mem_points_of_wraps hw, mem_points_from_minimum ha.right hne,
        mem_points_to_last ha.left hl]
      exact and_or_left
    rw [h, hunion]
    refine Tiles.pair (Set.disjoint_left.2 fun t ht ht' => ?_)
    have hlt := ((mem_points_to_last ha.left hl).1 ht).2
    have hle' := ((mem_points_from_minimum ha.right hne).1 ht').2
    grind

end Arc

end RingScan

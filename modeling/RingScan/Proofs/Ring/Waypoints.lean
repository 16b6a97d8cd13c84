import RingScan.Proofs.Ring.Overlap
import RingScan.Proofs.Ring.Pieces

set_option autoImplicit false

/-! # Along an arc

A node may tell a list of positions instead of arcs; the arcs are then those from each position to
the next one (`Arc.steps`). Such a list can go along an arc in two ways. It may go around the ring,
each position being a *waypoint* of what is left of the arc: then the steps tile the arc, wherever
the end of the ring lies among them (`tiles_steps`). Or it may be in the order of the positions,
with repetitions. A step between equal positions is the whole ring, so that the steps stay within
the arc just if no position is repeated, or the arc is the whole ring anyway (`points_subset_iff`,
`forall_left_ne_right_iff`). -/

namespace RingScan

/-- The last piece can be tiled in turn. -/
theorem Tiles.cons {α ι : Type} {f : ι → Set α} {x y : ι} {ys : List ι} {S : Set α}
    (h : Tiles f [x, y] S) (hy : Tiles f ys (f y)) : Tiles f (x :: ys) S := by
  have hparts : List.Forall₂ (fun z zs => Tiles f zs (f z)) [x, y] [[x], ys] :=
    .cons (Tiles.singleton x) (.cons hy .nil)
  simpa using h.flatten hparts

/-- Pieces that stand for the same sets, one by one, tile the same. -/
theorem Tiles.forall₂ {α ι κ : Type} {f : ι → Set α} {g : κ → Set α} {xs : List ι} {ys : List κ}
    {S : Set α} (h : Tiles f xs S) (hsame : List.Forall₂ (fun y x => g y = f x) ys xs) :
    Tiles g ys S := by
  have hparts : List.Forall₂ (fun x zs => Tiles g zs (f x)) xs (ys.map fun y => [y]) := by
    rw [List.forall₂_map_right_iff]
    exact hsame.flip.imp fun x y hxy => hxy ▸ Tiles.singleton y
  have hflat : (ys.map fun y => [y]).flatten = ys := by
    rw [← List.flatMap_def, List.flatMap_singleton']
  exact hflat ▸ h.flatten hparts

theorem Ring.Holds.bounds {α : Type} [LE α] [LT α] [Std.IsLinearOrder α] [Std.LawfulOrderLT α]
    {ring : Ring α} {t : α} (h : ring.Holds t) : ring.Bounds t := ⟨Std.le_of_lt h.1, h.2⟩

namespace Arc

/-! ## Steps -/

/-- The arcs from each position of a list to the next one. -/
def steps {α : Type} : List α → List (Arc α)
  | [] => []
  | [_] => []
  | l :: r :: rest => ⟨l, r⟩ :: steps (r :: rest)

section Steps

variable {α : Type} {a : Arc α} {ts : List α}

theorem length_steps (ts : List α) : (steps ts).length = ts.length - 1 := by
  fun_induction steps ts with
  | case1 => rfl
  | case2 => rfl
  | case3 l r rest ih => simp [ih]

theorem mem_of_mem_steps (h : a ∈ steps ts) : a.left ∈ ts ∧ a.right ∈ ts := by
  fun_induction steps ts with
  | case1 => simp at h
  | case2 => simp at h
  | case3 l r rest ih =>
    rcases List.mem_cons.1 h with rfl | h
    · simp
    · exact ⟨List.mem_cons_of_mem l (ih h).1, List.mem_cons_of_mem l (ih h).2⟩

theorem rel_of_mem_steps {R : α → α → Prop} (hts : ts.Pairwise R) (h : a ∈ steps ts) :
    R a.left a.right := by
  fun_induction steps ts with
  | case1 => simp at h
  | case2 => simp at h
  | case3 l r rest ih =>
    obtain ⟨hl, hrest⟩ := List.pairwise_cons.1 hts
    rcases List.mem_cons.1 h with rfl | h
    · exact hl r (by simp)
    · exact ih hrest h

end Steps

/-! ## Steps in the order of the positions -/

section Ordered

variable {α : Type} [LE α] {a b : Arc α} {inner ts : List α}

/-- Whether an arc starts and ends within another one, in the order of the positions. -/
structure IsOrderedIn (a b : Arc α) : Prop where
  left : a.left ≤ b.left
  ordered : b.left ≤ b.right
  right : b.right ≤ a.right

variable [Std.IsLinearOrder α]

theorem IsOrderedIn.within {ring : Ring α} (h : IsOrderedIn a b) (ha : a.Within ring) :
    b.Within ring := by
  constructor
  · exact ⟨Std.le_trans ha.left.1 h.left, fun M hM =>
      Std.le_trans h.ordered (Std.le_trans h.right (ha.right.2 M hM))⟩
  · exact ⟨Std.le_trans ha.left.1 (Std.le_trans h.left h.ordered), fun M hM =>
      Std.le_trans h.right (ha.right.2 M hM)⟩

/-- The steps between ordered positions are in order. -/
theorem isOrderedIn_of_mem_steps (h : (a.left :: inner ++ [a.right]).Pairwise (· ≤ ·))
    (hb : b ∈ steps (a.left :: inner ++ [a.right])) : IsOrderedIn a b := by
  obtain ⟨hleft, hright⟩ := mem_of_mem_steps hb
  have hfirst : ∀ t ∈ a.left :: inner ++ [a.right], a.left ≤ t := by
    rw [List.cons_append] at h ⊢
    exact List.forall_mem_cons.2 ⟨Std.le_refl _, (List.pairwise_cons.1 h).1⟩
  have hlast : ∀ t ∈ a.left :: inner ++ [a.right], t ≤ a.right := by
    intro t ht
    rcases List.mem_append.1 ht with ht | ht
    · exact (List.pairwise_append.1 h).2.2 t ht a.right (by simp)
    · exact List.mem_singleton.1 ht ▸ Std.le_refl _
  exact ⟨hfirst _ hleft, rel_of_mem_steps h hb, hlast _ hright⟩

/-- Ordered positions have no step between equal ones just if none is there twice. -/
theorem forall_left_ne_right_iff (h : ts.Pairwise (· ≤ ·)) :
    (∀ b ∈ steps ts, b.left ≠ b.right) ↔ ts.Nodup := by
  constructor
  · intro hne
    fun_induction steps ts with
    | case1 => exact List.nodup_nil
    | case2 t => exact List.nodup_singleton t
    | case3 l r rest ih =>
      obtain ⟨hl, hrest⟩ := List.pairwise_cons.1 h
      obtain ⟨hlr, hsteps⟩ := List.forall_mem_cons.1 hne
      refine List.nodup_cons.2 ⟨?_, ih hrest hsteps⟩
      intro hmem
      -- if the position came again, then the next one would lie between the two, and be equal to it
      rcases List.mem_cons.1 hmem with heq | hmem
      · exact hlr heq
      · exact hlr (Std.le_antisymm (hl r (by simp)) ((List.pairwise_cons.1 hrest).1 l hmem))
  · intro hnodup b hb
    exact rel_of_mem_steps hnodup hb

end Ordered

variable {α : Type} [LE α] [LT α] [DecidableLT α] [DecidableEq α] {ring : Ring α} {a b : Arc α}
  {l m r t : α} {inner ts : List α}

/-! ## Around the ring -/

/-- Whether a position is a point of an arc before its end. -/
def IsWaypoint (ring : Ring α) (a : Arc α) (m : α) : Prop := m ∈ a.points ring ∧ m ≠ a.right

/-- Whether a list of positions goes along an arc: each of them is a waypoint of what the one before
    it has left of the arc. -/
def GoAlong (ring : Ring α) (a : Arc α) (inner : List α) : Prop :=
  (a.left :: inner).IsChain fun t u => IsWaypoint ring ⟨t, a.right⟩ u

theorem goAlong_cons : GoAlong ring a (m :: inner) ↔
    IsWaypoint ring a m ∧ GoAlong ring ⟨m, a.right⟩ inner := List.isChain_cons_cons

section Order

variable [Std.IsLinearOrder α] [Std.LawfulOrderLT α]

/-- A point of an arc is before or behind a waypoint, and not both. -/
theorem IsWaypoint.mem_points_iff (h : IsWaypoint ring ⟨l, r⟩ m) :
    (t ∈ points ring ⟨l, r⟩ ↔ t ∈ points ring ⟨l, m⟩ ∨ t ∈ points ring ⟨m, r⟩) ∧
      ¬ (t ∈ points ring ⟨l, m⟩ ∧ t ∈ points ring ⟨m, r⟩) := by
  obtain ⟨⟨⟨hmin, hmax⟩, hm⟩, hne⟩ := h
  simp only [points, Ring.Holds, Set.mem_ofPred_eq] at hm hne ⊢
  by_cases hlm : l < m
  · -- the end of the ring lies behind the waypoint, if at all
    grind
  · -- the way from the left bound to the waypoint goes over the end, and the rest does not
    have hle : m ≤ l := by grind
    have hlt : m < r := by grind
    grind

/-- **A waypoint cuts an arc in two.** -/
theorem IsWaypoint.tiles (h : IsWaypoint ring a m) :
    Tiles (points ring) [⟨a.left, m⟩, ⟨m, a.right⟩] (a.points ring) := by
  have hunion : a.points ring = points ring ⟨a.left, m⟩ ∪ points ring ⟨m, a.right⟩ :=
    Set.ext fun t => h.mem_points_iff.1
  rw [hunion]
  refine Tiles.pair (Set.disjoint_left.2 ?_)
  intro t hbefore hbehind
  exact h.mem_points_iff.2 ⟨hbefore, hbehind⟩

/-- **The steps along an arc tile it.** -/
theorem tiles_steps (h : GoAlong ring a inner) :
    Tiles (points ring) (steps (a.left :: inner ++ [a.right])) (a.points ring) := by
  induction inner generalizing a with
  | nil => exact Tiles.singleton a
  | cons m rest ih =>
    obtain ⟨hm, hrest⟩ := goAlong_cons.1 h
    exact hm.tiles.cons (ih hrest)

/-- The steps along an arc within the ring are within it. -/
theorem within_of_mem_steps (ha : a.Within ring) (h : GoAlong ring a inner)
    (hb : b ∈ steps (a.left :: inner ++ [a.right])) : b.Within ring := by
  induction inner generalizing a with
  | nil => exact List.mem_singleton.1 hb ▸ ha
  | cons m rest ih =>
    obtain ⟨hm, hrest⟩ := goAlong_cons.1 h
    have hbounds : ring.Bounds m := hm.1.1.bounds
    rcases List.mem_cons.1 hb with rfl | hb
    · exact ⟨ha.left, hbounds⟩
    · exact ih (a := ⟨m, a.right⟩) ⟨hbounds, ha.right⟩ hrest hb

/-! ## Staying within an arc -/

/-- An arc with equal bounds is the whole ring. -/
theorem points_of_left_eq_right (h : a.left = a.right) : a.points ring = ring.points := by
  obtain ⟨l, r⟩ := a
  obtain rfl : l = r := h
  ext t
  simp only [points, Ring.points, Ring.Holds, Set.mem_ofPred_eq]
  grind

/-- An arc that does not go over the end of the ring is the whole ring just if its bounds are those
    of the ring. -/
theorem points_ring_subset_iff (ha : a.Within ring) (hlt : a.left < a.right) (hring : ring.GoesOn) :
    ring.points ⊆ a.points ring ↔ a.left = ring.minimum ∧ ring.maximum? = some a.right := by
  constructor
  · intro h
    have hbehind : ∀ t, ring.Holds t → a.left < t ∧ t ≤ a.right := by
      intro t ht
      exact ((mem_points_of_lt hlt).1 (h ht)).2
    have hleft : a.left = ring.minimum := by
      -- otherwise the left bound itself is a point that the arc leaves out
      by_contra hne
      have hmin : ring.minimum < a.left := by
        have := ha.left.1
        grind
      have hself := (hbehind a.left ⟨hmin, ha.left.2⟩).1
      grind
    refine ⟨hleft, ?_⟩
    cases hmax : ring.maximum? with
    | none =>
      obtain ⟨y, hy⟩ := hring hmax a.right
      have hle := (hbehind y ⟨by grind, by simp [hmax]⟩).2
      grind
    | some M =>
      have hright : a.right ≤ M := ha.right.2 M hmax
      have hM : ring.Holds M := by
        refine ⟨by grind, fun M' hM' => ?_⟩
        obtain rfl := Option.some.inj (hmax.symm.trans hM')
        exact Std.le_refl M
      have hle := (hbehind M hM).2
      exact congrArg some (Std.le_antisymm hle hright)
  · rintro ⟨hleft, hright⟩ t ht
    exact (mem_points_of_lt hlt).2 ⟨ht, hleft ▸ ht.1, ht.2 a.right hright⟩

/-- **An arc stays within another one that its bounds are in** unless these are equal. -/
theorem IsOrderedIn.points_subset_iff (h : IsOrderedIn a b) (ha : a.Within ring)
    (hlt : a.left < a.right) (hring : ring.GoesOn) :
    b.points ring ⊆ a.points ring ↔
      b.left ≠ b.right ∨ a.left = ring.minimum ∧ ring.maximum? = some a.right := by
  by_cases heq : b.left = b.right
  · rw [points_of_left_eq_right heq, points_ring_subset_iff ha hlt hring]
    simp [heq]
  · refine iff_of_true ?_ (.inl heq)
    intro t ht
    have hltb : b.left < b.right := by
      have := h.ordered
      grind
    obtain ⟨hholds, hleft, hright⟩ := (mem_points_of_lt hltb).1 ht
    have hstart := h.left
    exact (mem_points_of_lt hlt).2 ⟨hholds, by grind, Std.le_trans hright h.right⟩

end Order

end Arc

end RingScan

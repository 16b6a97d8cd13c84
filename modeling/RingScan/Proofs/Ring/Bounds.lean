import RingScan.Proofs.Plan.Points

set_option autoImplicit false
set_option linter.unusedSectionVars false

/-! # Where bounds come from

Arcs are cut at the end of the ring, and met with other arcs. The bounds of what comes out are
bounds of what was put in, or bounds of the ring: whatever holds of all of these
(`Arc.forall_unwrap`, `Arc.forall_intersection`) holds of the bounds of the pieces. This does not
depend on the order, so that it is true of arcs beyond the ring and between foreign tokens, too
(`TokenArc.forall_unwrap`, `TokenArc.forall_intersection`). -/

namespace RingScan

/-! ## Segments -/

namespace Segment

/-- Whether all bounds of a segment are of a kind. -/
structure Bounded {α : Type} (P : α → Prop) (s : Segment α) : Prop where
  lower : P s.lower
  upper : ∀ u ∈ s.upper?, P u

variable {α : Type} [LE α] [LT α] [DecidableLE α] [DecidableLT α] [DecidableEq α]
  {P : α → Prop} {s t : Segment α}

theorem earlier_of {x y : α} (hx : P x) (hy : P y) : P (earlier x y) := by
  unfold earlier
  split <;> assumption

theorem later_of {x y : α} (hx : P x) (hy : P y) : P (later x y) := by
  unfold later
  split <;> assumption

theorem Bounded.span (hs : s.Bounded P) (ht : t.Bounded P) : (span s t).Bounded P := by
  refine ⟨earlier_of hs.lower ht.lower, fun u hu => ?_⟩
  unfold Segment.span at hu
  cases hsu : s.upper? <;> cases htu : t.upper? <;> simp only [hsu, htu] at hu
  case some.some =>
    obtain rfl := Option.mem_some_iff.1 hu
    exact later_of (hs.upper _ hsu) (ht.upper _ htu)
  all_goals exact absurd hu (by simp)

theorem Bounded.meet (hs : s.Bounded P) (ht : t.Bounded P) : (meet s t).Bounded P := by
  refine ⟨later_of hs.lower ht.lower, fun u hu => ?_⟩
  unfold Segment.meet at hu
  cases hsu : s.upper? <;> cases htu : t.upper? <;> simp only [hsu, htu] at hu
  · exact absurd hu (by simp)
  · exact ht.upper u (htu ▸ hu)
  · exact hs.upper u (hsu ▸ hu)
  · obtain rfl := Option.mem_some_iff.1 hu
    exact earlier_of (hs.upper _ hsu) (ht.upper _ htu)

end Segment

/-! ## Arcs -/

/-- Whether the bounds of a ring are of a kind. -/
structure Ring.Bounded {α : Type} (P : α → Prop) (ring : Ring α) : Prop where
  minimum : P ring.minimum
  maximum : ∀ M ∈ ring.maximum?, P M

theorem Ring.Bounded.last {α : Type} {P : α → Prop} {ring : Ring α} (h : ring.Bounded P) :
    P ring.last := by
  unfold Ring.last
  cases hM : ring.maximum? with
  | none => exact h.minimum
  | some M => exact h.maximum M hM

namespace Arc

/-- Whether both bounds of an arc are of a kind. -/
structure Bounded {α : Type} (P : α → Prop) (a : Arc α) : Prop where
  left : P a.left
  right : P a.right

variable {α : Type} [LE α] [LT α] [DecidableLE α] [DecidableLT α] [DecidableEq α]
  [Std.IsLinearOrder α] [Std.LawfulOrderLT α] {P : α → Prop} {ring : Ring α} {a b : Arc α}

theorem forall_unwrap (hring : ring.Bounded P) (ha : a.Bounded P) :
    ∀ x ∈ a.unwrap ring, x.Bounded P := by
  have hstart : (⟨ring.minimum, a.right⟩ : Arc α).Bounded P := ⟨hring.minimum, ha.right⟩
  unfold unwrap
  split_ifs
  · simpa using hstart
  · simpa using ⟨⟨ha.left, hring.last⟩, hstart⟩
  · simpa using ha

theorem forall_segments (hring : ring.Bounded P) (ha : a.Bounded P) :
    ∀ s ∈ a.segments ring, s.Bounded P := by
  have hend : (toEnd ring a.left).Bounded P := ⟨ha.left, hring.maximum⟩
  have hpart {x : α} (hx : P x) : (⟨x, some a.right⟩ : Segment α).Bounded P :=
    ⟨hx, by simpa using ha.right⟩
  unfold segments
  split_ifs <;> refine Segment.forall_join (fun _ _ hs ht => hs.span ht) ?_
  · simpa using hend
  · simpa using ⟨hend, hpart hring.minimum⟩
  · simpa using hpart ha.left

theorem forall_intersection (hring : ring.Bounded P) (ha : a.Bounded P) (hb : b.Bounded P) :
    ∀ x ∈ a.intersection ring b, x.Bounded P := by
  intro x hx
  obtain ⟨s, hs, rfl⟩ := List.mem_map.1 hx
  have hs : s.Bounded P :=
    Segment.forall_meetAll (fun _ _ hs ht => hs.meet ht) (forall_segments hring ha)
      (forall_segments hring hb) s hs
  refine ⟨hs.lower, ?_⟩
  unfold ofSegment
  cases hu : s.upper? with
  | none => exact hring.minimum
  | some u => exact hs.upper u hu

end Arc

/-! ## Arcs between tokens -/

namespace TokenArc

variable {p : Partitioner} {P : Token p → Prop} {a b : TokenArc p}

/-- Whether both tokens of an arc are of a kind. -/
structure Bounded (P : Token p → Prop) (a : TokenArc p) : Prop where
  left : P a.left
  right : P a.right

/-- Whether the tokens at the bounds of the ring are of a kind. -/
abbrev RingBounded (P : Token p → Prop) : Prop := p.ring.Bounded fun x => P (.position x)

theorem eq_ofArc {x : Arc p.Position} (h : a.arc? = some x) : a = ofArc x := by
  obtain ⟨left, right⟩ := a
  cases left <;> cases right <;> simp only [arc?, reduceCtorEq, Option.some.injEq] at h
  subst h
  rfl

theorem bounded_ofArc {x : Arc p.Position} :
    (ofArc x).Bounded P ↔ x.Bounded fun y => P (.position y) :=
  ⟨fun h => ⟨h.left, h.right⟩, fun h => ⟨h.left, h.right⟩⟩

theorem forall_unwrap (hring : RingBounded P) (ha : a.Bounded P) {pieces : List (TokenArc p)}
    (h : a.unwrap = .ok pieces) : ∀ x ∈ pieces, x.Bounded P := by
  unfold unwrap at h
  cases harc : a.arc? with
  | some x =>
    obtain rfl := eq_ofArc harc
    simp only [arc?_ofArc, Except.ok.injEq] at h
    subst h
    intro y hy
    obtain ⟨z, hz, rfl⟩ := List.mem_map.1 hy
    exact bounded_ofArc.2 (Arc.forall_unwrap hring (bounded_ofArc.1 ha) z hz)
  | none =>
    simp only [harc] at h
    cases hwraps : a.wraps with
    | error f => simp [hwraps, Except.map] at h
    | ok b =>
      obtain rfl := Except.ok.inj (hwraps ▸ h)
      cases b
      · simpa using ha
      · simpa using ⟨⟨ha.left, hring.last⟩, ⟨hring.minimum, ha.right⟩⟩

theorem bounded_ofSegment {s : Segment p.Position} (h : s.Bounded fun y => P (.position y)) :
    (ofSegment s).Bounded P := by
  refine ⟨h.lower, fun u hu => ?_⟩
  obtain ⟨x, hx, rfl⟩ := Option.mem_map.1 hu
  exact h.upper x hx

theorem forall_segments (hring : RingBounded P) (ha : a.Bounded P)
    {ss : List (Segment (Token p))} (h : a.segments = .ok ss) : ∀ s ∈ ss, s.Bounded P := by
  obtain ⟨left, right⟩ := a
  unfold segments at h
  cases left with
  | position x =>
    cases right with
    | position y =>
      obtain rfl := Except.ok.inj h
      intro s hs
      obtain ⟨t, ht, rfl⟩ := List.mem_map.1 hs
      exact bounded_ofSegment (Arc.forall_segments hring ⟨ha.left, ha.right⟩ t ht)
    | foreign v => exact absurd h (by simp)
  | foreign v =>
    cases right with
    | position y =>
      simp only at h
      split_ifs at h
      obtain rfl := Except.ok.inj h
      -- what starts at a foreign token goes to the end of the ring
      have hend : ∀ u ∈ p.ring.maximum?.map Token.position, P u := by
        intro u hu
        obtain ⟨M, hM, rfl⟩ := Option.mem_map.1 hu
        exact hring.maximum M hM
      exact List.forall_mem_singleton.2 ⟨ha.left, hend⟩
    | foreign w =>
      simp only at h
      split at h
      · obtain rfl := Except.ok.inj h
        have hpart : ∀ u ∈ some (Token.foreign (p := p) w), P u := by
          simpa using ha.right
        exact List.forall_mem_singleton.2 ⟨ha.left, hpart⟩
      · obtain rfl := Except.ok.inj h
        simp
      · exact absurd h (by simp)

theorem later_of {t u v : Token p} (ht : P t) (hu : P u) (h : later t u = .ok v) : P v := by
  unfold later at h
  split at h
  · obtain rfl := Except.ok.inj h
    split <;> assumption
  · exact absurd h (by simp)

theorem earlier?_of {t? u? v? : Option (Token p)} (ht : ∀ t ∈ t?, P t) (hu : ∀ u ∈ u?, P u)
    (h : earlier? t? u? = .ok v?) : ∀ v ∈ v?, P v := by
  unfold earlier? at h
  split at h
  · split at h
    · obtain rfl := Except.ok.inj h
      split <;> assumption
    · exact absurd h (by simp)
  · obtain rfl := Except.ok.inj h
    exact ht
  · obtain rfl := Except.ok.inj h
    exact hu

theorem forall_meet {s t : Segment (Token p)} (hs : s.Bounded P) (ht : t.Bounded P)
    {ms : List (Segment (Token p))} (h : meet s t = .ok ms) : ∀ m ∈ ms, m.Bounded P := by
  unfold meet at h
  obtain ⟨lower, hlower, h⟩ := bind_eq_ok.1 h
  obtain ⟨upper?, hupper, h⟩ := bind_eq_ok.1 h
  obtain ⟨inhabited, -, h⟩ := bind_eq_ok.1 h
  obtain rfl := Except.ok.inj h
  have hm : (⟨lower, upper?⟩ : Segment (Token p)).Bounded P :=
    ⟨later_of hs.lower ht.lower hlower, earlier?_of hs.upper ht.upper hupper⟩
  split_ifs
  · exact List.forall_mem_singleton.2 hm
  · simp

theorem forall_meetAll {ss ts : List (Segment (Token p))} (hs : ∀ s ∈ ss, s.Bounded P)
    (ht : ∀ t ∈ ts, t.Bounded P) {ms : List (Segment (Token p))} (h : meetAll ss ts = .ok ms) :
    ∀ m ∈ ms, m.Bounded P := by
  unfold meetAll at h
  obtain ⟨mss, hmss, rfl⟩ := map_eq_ok.1 h
  intro m hm
  obtain ⟨found, hfound, hm⟩ := List.mem_flatten.1 hm
  obtain ⟨⟨s, t⟩, hst, hmeet⟩ := exists_of_forall₂_of_mem (forall₂_of_mapM hmss) hfound
  obtain ⟨s', hs', hst⟩ := List.mem_flatMap.1 hst
  obtain ⟨t', ht', heq⟩ := List.mem_map.1 hst
  obtain ⟨rfl, rfl⟩ := Prod.mk.inj heq
  exact forall_meet (hs _ hs') (ht _ ht') hmeet m hm

theorem forall_intersection (hring : RingBounded P) (ha : a.Bounded P) (hb : b.Bounded P)
    {common : List (TokenArc p)} (h : a.intersection b = .ok common) :
    ∀ x ∈ common, x.Bounded P := by
  unfold intersection at h
  split at h
  · next x y hx hy =>
    obtain rfl := eq_ofArc hx
    obtain rfl := eq_ofArc hy
    obtain rfl := Except.ok.inj h
    intro z hz
    obtain ⟨w, hw, rfl⟩ := List.mem_map.1 hz
    exact bounded_ofArc.2
      (Arc.forall_intersection hring (bounded_ofArc.1 ha) (bounded_ofArc.1 hb) w hw)
  · split at h
    · next ss ts hss hts =>
      obtain ⟨ms, hms, rfl⟩ := map_eq_ok.1 h
      intro z hz
      obtain ⟨m, hm, rfl⟩ := List.mem_map.1 hz
      have hm := forall_meetAll (forall_segments hring ha hss) (forall_segments hring hb hts) hms m hm
      refine ⟨hm.lower, ?_⟩
      unfold ofTokenSegment
      cases hu : m.upper? with
      | none => exact hring.minimum
      | some u => exact hm.upper u hu
    · exact absurd h (by simp)
    · exact absurd h (by simp)

end TokenArc

end RingScan

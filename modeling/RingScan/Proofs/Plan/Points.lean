import RingScan.Plan.Planner
import RingScan.Proofs.Ring.Intersection
import RingScan.Proofs.Ring.TokenText

set_option autoImplicit false

/-! # The points of ranges, parts and splits

Ranges, their parts and splits all say where they lie by the written forms of two tokens. Here they
stand for the points of the arc between these tokens. What a pass does with them is followed on the
points: narrowing a range to an arc tiles what both have in common (`TokenRange.tiles_narrow`), and
the splits of a part tile the part (`SubSplit.tiles_splits`), as long as all tokens are bounds of
the ring. -/

namespace RingScan

/-! ## Results of several steps -/

theorem bind_eq_ok {ε α β : Type} {result : Except ε α} {f : α → Except ε β} {b : β} :
    (result >>= f) = .ok b ↔ ∃ a, result = .ok a ∧ f a = .ok b := by
  cases result <;> simp [bind, Except.bind]

theorem map_eq_ok {ε α β : Type} {result : Except ε α} {f : α → β} {b : β} :
    result.map f = .ok b ↔ ∃ a, result = .ok a ∧ f a = b := by
  cases result <;> simp [Except.map]

/-- Reading a list item by item. -/
theorem forall₂_of_mapM {ε α β : Type} {f : α → Except ε β} {xs : List α} {ys : List β}
    (h : xs.mapM f = .ok ys) : List.Forall₂ (fun x y => f x = .ok y) xs ys := by
  induction xs generalizing ys with
  | nil =>
    rw [List.mapM_nil] at h
    obtain rfl := Except.ok.inj h
    exact List.Forall₂.nil
  | cons x xs ih =>
    rw [List.mapM_cons, bind_eq_ok] at h
    obtain ⟨y, hy, h⟩ := h
    obtain ⟨rest, hrest, h⟩ := bind_eq_ok.1 h
    obtain rfl := Except.ok.inj h
    exact List.Forall₂.cons hy (ih hrest)

/-- Every result that is listed beside items is one of an item. -/
theorem exists_of_forall₂_of_mem {α β : Type} {R : α → β → Prop} {xs : List α} {ys : List β}
    (h : List.Forall₂ R xs ys) {y : β} (hy : y ∈ ys) : ∃ x ∈ xs, R x y := by
  induction h with
  | nil => simp at hy
  | @cons x y' xs ys hxy _ ih =>
    rcases List.mem_cons.1 hy with rfl | hy
    · exact ⟨x, List.mem_cons_self, hxy⟩
    · obtain ⟨x', hx', hxy'⟩ := ih hy
      exact ⟨x', List.mem_cons_of_mem _ hx', hxy'⟩

theorem exists_mapM_iff {ε α β : Type} {f : α → Except ε β} {xs : List α} :
    (∃ ys, xs.mapM f = .ok ys) ↔ ∀ x ∈ xs, ∃ y, f x = .ok y := by
  constructor
  · rintro ⟨ys, h⟩ x hx
    obtain ⟨y, -, hy⟩ := exists_of_forall₂_of_mem (forall₂_of_mapM h).flip hx
    exact ⟨y, hy⟩
  · intro h
    induction xs with
    | nil => exact ⟨[], rfl⟩
    | cons x xs ih =>
      obtain ⟨⟨y, hy⟩, hxs⟩ := List.forall_mem_cons.1 h
      obtain ⟨ys, hys⟩ := ih hxs
      refine ⟨y :: ys, ?_⟩
      rw [List.mapM_cons, hy, hys]
      rfl

/-- Results that each item has can be listed beside the items. -/
theorem exists_forall₂ {α β : Type} {R : α → β → Prop} {xs : List α} (h : ∀ x ∈ xs, ∃ y, R x y) :
    ∃ ys, List.Forall₂ R xs ys := by
  induction xs with
  | nil => exact ⟨[], List.Forall₂.nil⟩
  | cons x xs ih =>
    obtain ⟨⟨y, hy⟩, hxs⟩ := List.forall_mem_cons.1 h
    obtain ⟨ys, hys⟩ := ih hxs
    exact ⟨y :: ys, List.Forall₂.cons hy hys⟩

namespace Plan

variable {p : Partitioner} {start stop : Value}

/-! ## Between two tokens -/

/-- Whether two values are read as bounds of the ring. -/
def InRing (p : Partitioner) (start stop : Value) : Prop :=
  ∃ a : Arc p.Position, TokenArc.read p start stop = .ok (.ofArc a) ∧ a.Within p.ring

/-- The points of the arc between two values that are read as positions. -/
def pointsBetween (p : Partitioner) (start stop : Value) : Set p.Position :=
  {t | ∃ a : Arc p.Position, TokenArc.read p start stop = .ok (.ofArc a) ∧ t ∈ a.points p.ring}

theorem ofArc_injective {a b : Arc p.Position} (h : TokenArc.ofArc a = TokenArc.ofArc b) : a = b := by
  have harc := congrArg TokenArc.arc? h
  rwa [TokenArc.arc?_ofArc, TokenArc.arc?_ofArc, Option.some.injEq] at harc

theorem pointsBetween_eq {a : Arc p.Position} (h : TokenArc.read p start stop = .ok (.ofArc a)) :
    pointsBetween p start stop = a.points p.ring := by
  ext t
  constructor
  · rintro ⟨b, hb, ht⟩
    rwa [ofArc_injective (Except.ok.inj (h.symm.trans hb))]
  · exact fun ht => ⟨a, h, ht⟩

theorem pointsBetween_subset (p : Partitioner) (start stop : Value) :
    pointsBetween p start stop ⊆ p.ring.points := by
  rintro t ⟨a, -, ht⟩
  exact a.points_subset p.ring ht

/-- The written forms of two positions are read as these positions. -/
theorem read_render_of_isWritable {a : Arc p.Position} (hl : a.left.isWritable = true)
    (hr : a.right.isWritable = true) :
    TokenArc.read p (.str a.left.render) (.str a.right.render) = .ok (.ofArc a) := by
  rw [TokenArc.read, Token.read_render hl, Token.read_render hr]
  rfl

theorem read_render {a : Arc p.Position} (ha : a.Within p.ring) :
    TokenArc.read p (.str a.left.render) (.str a.right.render) = .ok (.ofArc a) :=
  read_render_of_isWritable (Partitioner.Position.isWritable_of_bounds ha.left)
    (Partitioner.Position.isWritable_of_bounds ha.right)

theorem inRing_render {a : Arc p.Position} (ha : a.Within p.ring) :
    InRing p (.str a.left.render) (.str a.right.render) := ⟨a, read_render ha, ha⟩

theorem pointsBetween_render {a : Arc p.Position} (ha : a.Within p.ring) :
    pointsBetween p (.str a.left.render) (.str a.right.render) = a.points p.ring :=
  pointsBetween_eq (read_render ha)

/-- Whether a value is the written form of a position. -/
def IsPosition (p : Partitioner) (v : Value) : Prop := ∃ y, Token.read p v = .ok (.position y)

theorem exists_arc (hstart : IsPosition p start) (hstop : IsPosition p stop) :
    ∃ a : Arc p.Position, TokenArc.read p start stop = .ok (.ofArc a) := by
  obtain ⟨l, hl⟩ := hstart
  obtain ⟨r, hr⟩ := hstop
  refine ⟨⟨l, r⟩, ?_⟩
  rw [TokenArc.read, hl, hr]
  rfl

/-- Whether a value is a text that is read as a token. -/
def IsTokenText (p : Partitioner) (v : Value) : Prop :=
  ∃ s t, v = .str s ∧ Token.ofText p s = .ok t

/-- Two texts that are read as tokens are read as positions, and as such that can be written. -/
theorem exists_arc_of_isTokenText (hstart : IsTokenText p start) (hstop : IsTokenText p stop) :
    ∃ a : Arc p.Position, TokenArc.read p start stop = .ok (.ofArc a) ∧
      a.left.isWritable = true ∧ a.right.isWritable = true := by
  obtain ⟨s, t, rfl, ht⟩ := hstart
  obtain ⟨s', t', rfl, ht'⟩ := hstop
  obtain ⟨l, rfl, hl⟩ := Token.exists_position_of_ofText ht
  obtain ⟨r, rfl, hr⟩ := Token.exists_position_of_ofText ht'
  refine ⟨⟨l, r⟩, ?_, hl, hr⟩
  rw [Token.ofText] at ht ht'
  rw [TokenArc.read, ht, ht']
  rfl

/-- The points of a range. -/
def TokenRange.points (p : Partitioner) (r : TokenRange) : Set p.Position :=
  pointsBetween p r.startToken r.endToken

/-- The points of a part of a range. -/
def SubSplit.points (p : Partitioner) (s : SubSplit) : Set p.Position :=
  pointsBetween p s.startToken s.endToken

/-- The points of a split. -/
def Split.points (p : Partitioner) (s : Split) : Set p.Position :=
  pointsBetween p s.startToken s.endToken

/-- The points that a pass is restricted to. -/
def jobPoints (job? : Option (Arc p.Position)) : Set p.Position :=
  match job? with
  | none => p.ring.points
  | some job => job.points p.ring

/-! ## From parts to splits -/

/-- What the splits of a part are made of. -/
theorem SubSplit.splits_ok {locations : List Value} {s : SubSplit} {splits : List Split}
    (h : s.splits p locations = .ok splits) :
    ∃ a pieces, TokenArc.read p s.startToken s.endToken = .ok a ∧ a.unwrap = .ok pieces ∧
      splits = pieces.map fun x => ⟨x.left.render, x.right.render, s.rowCount, locations⟩ := by
  unfold SubSplit.splits at h
  obtain ⟨a, ha, h⟩ := bind_eq_ok.1 h
  obtain ⟨pieces, hpieces, h⟩ := bind_eq_ok.1 h
  exact ⟨a, pieces, ha, hpieces, (Except.ok.inj h).symm⟩

/-- The splits of a part between two positions. -/
theorem SubSplit.splits_of_read {s : SubSplit} {a : Arc p.Position} (locations : List Value)
    (ha : TokenArc.read p s.startToken s.endToken = .ok (.ofArc a)) :
    s.splits p locations = .ok ((a.unwrap p.ring).map fun x =>
      ⟨.str x.left.render, .str x.right.render, s.rowCount, locations⟩) := by
  have hpieces : (TokenArc.ofArc a).unwrap = .ok ((a.unwrap p.ring).map TokenArc.ofArc) := rfl
  simp only [SubSplit.splits, ha, hpieces, bind, Except.bind, pure, Except.pure, List.map_map]
  rfl

theorem SubSplit.splits_eq {locations : List Value} {s : SubSplit} {splits : List Split}
    {a : Arc p.Position} (ha : TokenArc.read p s.startToken s.endToken = .ok (.ofArc a))
    (h : s.splits p locations = .ok splits) :
    splits = (a.unwrap p.ring).map fun x =>
      ⟨.str x.left.render, .str x.right.render, s.rowCount, locations⟩ :=
  Except.ok.inj (h.symm.trans (SubSplit.splits_of_read locations ha))

theorem SubSplit.exists_splits {s : SubSplit} (hstart : IsPosition p s.startToken)
    (hstop : IsPosition p s.endToken) (locations : List Value) :
    ∃ splits, s.splits p locations = .ok splits := by
  obtain ⟨a, ha⟩ := exists_arc hstart hstop
  exact ⟨_, SubSplit.splits_of_read locations ha⟩

/-- **The splits of a part tile it.** -/
theorem SubSplit.tiles_splits {locations : List Value} {s : SubSplit} {splits : List Split}
    (hs : InRing p s.startToken s.endToken) (h : s.splits p locations = .ok splits) :
    Tiles (Split.points p) splits (s.points p) := by
  obtain ⟨a, ha, hin⟩ := hs
  rw [SubSplit.splits_eq ha h, SubSplit.points, pointsBetween_eq ha]
  refine Tiles.map_iff.2 ((Arc.tiles_unwrap hin).congr fun x hx => ?_)
  exact pointsBetween_render (Arc.within_of_mem_unwrap hin hx)

theorem SubSplit.inRing_splits {locations : List Value} {s : SubSplit} {splits : List Split}
    (hs : InRing p s.startToken s.endToken) (h : s.splits p locations = .ok splits) :
    ∀ x ∈ splits, InRing p x.startToken x.endToken := by
  obtain ⟨a, ha, hin⟩ := hs
  rw [SubSplit.splits_eq ha h]
  intro x hx
  obtain ⟨b, hb, rfl⟩ := List.mem_map.1 hx
  exact inRing_render (Arc.within_of_mem_unwrap hin hb)

theorem appendSplits_of_forall₂ {locations : List Value} {parts : List SubSplit}
    {pieces : List (List Split)}
    (h : List.Forall₂ (fun s xs => SubSplit.splits p locations s = .ok xs) parts pieces)
    (output : List Split) :
    appendSplits p locations output parts = (output ++ pieces.flatten, .ok ()) := by
  induction h generalizing output with
  | nil => simp [appendSplits]
  | cons hs _ ih =>
    rw [appendSplits, hs, List.flatten_cons, ← List.append_assoc]
    exact ih _

theorem appendSplits_ok {locations : List Value} {parts : List SubSplit}
    {output splits : List Split} (h : appendSplits p locations output parts = (splits, .ok ())) :
    ∃ pieces, List.Forall₂ (fun s xs => SubSplit.splits p locations s = .ok xs) parts pieces ∧
      splits = output ++ pieces.flatten := by
  induction parts generalizing output with
  | nil =>
    obtain ⟨rfl, -⟩ := Prod.mk.inj h
    exact ⟨[], List.Forall₂.nil, by simp⟩
  | cons s rest ih =>
    rw [appendSplits] at h
    cases hs : s.splits p locations with
    | error f => simp [hs] at h
    | ok xs =>
      simp only [hs] at h
      obtain ⟨pieces, hpieces, rfl⟩ := ih h
      exact ⟨xs :: pieces, List.Forall₂.cons hs hpieces, by simp⟩

/-- What the splits of all parts of a range are made of. -/
theorem assembleAll_ok {resolve : Resolver} {r : TokenRange} {parts : List SubSplit}
    {splits : List Split} (h : assembleAll p resolve r parts = .ok splits) :
    r.rpcEndpoints.length = r.endpoints.length ∧
      ∃ locations pieces, r.hosts resolve = .ok locations ∧
        List.Forall₂ (fun s xs => SubSplit.splits p locations s = .ok xs) parts pieces ∧
        splits = pieces.flatten := by
  have heven : r.rpcEndpoints.length = r.endpoints.length := by
    by_contra hne
    simp [assembleAll, assemble, hne, Except.map] at h
  refine ⟨heven, ?_⟩
  cases hhosts : r.hosts resolve with
  | error f => simp [assembleAll, assemble, heven, hhosts, Except.map] at h
  | ok locations =>
    cases happ : appendSplits p locations [] parts with
    | mk output result =>
      cases result with
      | error f =>
        simp [assembleAll, assemble, heven, hhosts, happ, Except.map, Except.mapError] at h
      | ok u =>
        obtain ⟨pieces, hpieces, rfl⟩ := appendSplits_ok happ
        simp only [assembleAll, assemble, heven, hhosts, happ, ne_eq, not_true_eq_false, if_false,
          Except.map, Except.mapError, Except.ok.injEq] at h
        exact ⟨locations, pieces, rfl, hpieces, by simpa using h.symm⟩

/-- The splits of parts that have splits come behind those that are there already. -/
theorem assemble_of_forall₂ {resolve : Resolver} {r : TokenRange} {parts : List SubSplit}
    {locations : List Value} {pieces : List (List Split)}
    (heven : r.rpcEndpoints.length = r.endpoints.length) (hhosts : r.hosts resolve = .ok locations)
    (h : List.Forall₂ (fun s xs => SubSplit.splits p locations s = .ok xs) parts pieces)
    (output : List Split) :
    assemble p resolve r parts output = (output ++ pieces.flatten, .ok ()) := by
  simp only [assemble, heven, ne_eq, not_true_eq_false, if_false, hhosts,
    appendSplits_of_forall₂ h]
  rfl

theorem exists_assembleAll {resolve : Resolver} {r : TokenRange} {parts : List SubSplit}
    {locations : List Value} (heven : r.rpcEndpoints.length = r.endpoints.length)
    (hhosts : r.hosts resolve = .ok locations)
    (h : ∀ s ∈ parts, IsPosition p s.startToken ∧ IsPosition p s.endToken) :
    ∃ splits, assembleAll p resolve r parts = .ok splits := by
  obtain ⟨pieces, hpieces⟩ := exists_forall₂ fun s hs =>
    SubSplit.exists_splits (h s hs).1 (h s hs).2 locations
  have hassemble := assemble_of_forall₂ heven hhosts hpieces []
  exact ⟨pieces.flatten, by simp [assembleAll, hassemble, Except.map]⟩

/-- The splits of parts that tile a set tile it, too. -/
theorem tiles_assembleAll {resolve : Resolver} {r : TokenRange} {parts : List SubSplit}
    {splits : List Split} {S : Set p.Position} (htiles : Tiles (SubSplit.points p) parts S)
    (hin : ∀ s ∈ parts, InRing p s.startToken s.endToken)
    (h : assembleAll p resolve r parts = .ok splits) : Tiles (Split.points p) splits S := by
  obtain ⟨-, locations, pieces, -, hpieces, rfl⟩ := assembleAll_ok h
  have hall := (List.forall₂_and_left parts pieces).2 ⟨hin, hpieces⟩
  exact htiles.flatten (hall.imp fun s xs h => SubSplit.tiles_splits h.1 h.2)

theorem inRing_assembleAll {resolve : Resolver} {r : TokenRange} {parts : List SubSplit}
    {splits : List Split} (hin : ∀ s ∈ parts, InRing p s.startToken s.endToken)
    (h : assembleAll p resolve r parts = .ok splits) :
    ∀ x ∈ splits, InRing p x.startToken x.endToken := by
  obtain ⟨-, locations, pieces, -, hpieces, rfl⟩ := assembleAll_ok h
  intro x hx
  obtain ⟨xs, hxs, hx⟩ := List.mem_flatten.1 hx
  obtain ⟨part, hpart, hsplits⟩ := exists_of_forall₂_of_mem hpieces hxs
  exact SubSplit.inRing_splits (hin part hpart) hsplits x hx

/-! ## From ranges to tasks -/

/-- What the parts of a range are made of that it has in common with an arc. -/
theorem TokenRange.narrow_ok {r : TokenRange} {job : Arc p.Position} {rs : List TokenRange}
    (h : r.narrow job = .ok rs) :
    ∃ a common, TokenArc.read p r.startToken r.endToken = .ok a ∧
      a.intersection (.ofArc job) = .ok common ∧
      rs = common.map fun x => r.withBounds x.left.render x.right.render := by
  unfold TokenRange.narrow at h
  obtain ⟨a, ha, h⟩ := bind_eq_ok.1 h
  obtain ⟨common, hcommon, h⟩ := bind_eq_ok.1 h
  exact ⟨a, common, ha, hcommon, (Except.ok.inj h).symm⟩

/-- What a range has in common with an arc, between bounds of the ring. -/
theorem TokenRange.narrow_eq {r : TokenRange} {a job : Arc p.Position} {rs : List TokenRange}
    (ha : TokenArc.read p r.startToken r.endToken = .ok (.ofArc a)) (h : r.narrow job = .ok rs) :
    rs = (a.intersection p.ring job).map fun x =>
      r.withBounds (.str x.left.render) (.str x.right.render) := by
  obtain ⟨b, common, hb, hcommon, rfl⟩ := TokenRange.narrow_ok h
  obtain rfl := Except.ok.inj (ha.symm.trans hb)
  obtain rfl : (a.intersection p.ring job).map TokenArc.ofArc = common := Except.ok.inj hcommon
  rw [List.map_map]
  rfl

/-- **Narrowing a range to an arc tiles what both have in common.** -/
theorem TokenRange.tiles_narrow {r : TokenRange} {job : Arc p.Position} {rs : List TokenRange}
    (hr : InRing p r.startToken r.endToken) (hjob : job.Within p.ring) (h : r.narrow job = .ok rs) :
    Tiles (TokenRange.points p) rs (r.points p ∩ job.points p.ring) := by
  obtain ⟨a, ha, hin⟩ := hr
  rw [TokenRange.narrow_eq ha h, TokenRange.points, pointsBetween_eq ha]
  refine Tiles.map_iff.2 ((Arc.tiles_intersection hin hjob).congr fun x hx => ?_)
  exact pointsBetween_render (Arc.within_of_mem_intersection hin hjob x hx)

/-- A range between two positions can be narrowed. -/
theorem TokenRange.exists_narrow {r : TokenRange} {a : Arc p.Position}
    (ha : TokenArc.read p r.startToken r.endToken = .ok (.ofArc a)) (job : Arc p.Position) :
    ∃ rs, r.narrow job = .ok rs := by
  have hcommon : (TokenArc.ofArc a).intersection (.ofArc job) =
      .ok ((a.intersection p.ring job).map TokenArc.ofArc) := rfl
  simp only [TokenRange.narrow, TokenRange.arc, ha, hcommon, bind, Except.bind]
  exact ⟨_, rfl⟩

/-- There are tasks if every range can be narrowed. -/
theorem exists_restrict_iff (size : Value) {job? : Option (Arc p.Position)}
    {ranges : List TokenRange} : (∃ tasks, restrict size job? ranges = .ok tasks) ↔
      ∀ job ∈ job?, ∀ r ∈ ranges, ∃ rs, TokenRange.narrow r job = .ok rs := by
  cases job? with
  | none => exact ⟨by simp, fun _ => ⟨_, rfl⟩⟩
  | some job =>
    have htasks : (∃ tasks, restrict size (some job) ranges = .ok tasks) ↔
        ∃ narrowed, (ranges.mapM fun r : TokenRange => r.narrow job) = .ok narrowed := by
      constructor
      · rintro ⟨tasks, h⟩
        obtain ⟨narrowed, hnarrowed, -⟩ := map_eq_ok.1 h
        exact ⟨narrowed, hnarrowed⟩
      · rintro ⟨narrowed, h⟩
        exact ⟨_, map_eq_ok.2 ⟨narrowed, h, rfl⟩⟩
    rw [htasks, exists_mapM_iff]
    simp

/-- A restriction can only be used where keys are in order. -/
theorem preservesOrder_of_jobArc {restriction? : Option KeyRestriction} {job : Arc p.Position}
    (h : jobArc p restriction? = .ok (some job)) : p.preservesOrder = true := by
  by_contra hp
  rw [Bool.not_eq_true] at hp
  -- on other rings a restriction is refused
  unfold jobArc at h
  split at h
  · simp at h
  · split at h
    · simp at h
    · simp [hp] at h

/-- Where keys are in order, every arc is between bounds of the ring. -/
theorem within_of_preservesOrder (h : p.preservesOrder = true) (a : Arc p.Position) :
    a.Within p.ring :=
  ⟨Partitioner.bounds_of_preservesOrder h _, Partitioner.bounds_of_preservesOrder h _⟩

theorem within_jobArc {restriction? : Option KeyRestriction} {job : Arc p.Position}
    (h : jobArc p restriction? = .ok (some job)) : job.Within p.ring :=
  within_of_preservesOrder (preservesOrder_of_jobArc h) job

/-- Whether a range is a piece of another one that is planned: the range itself without a
    restriction, and else one of those that it is narrowed to. -/
def IsPieceOf (job? : Option (Arc p.Position)) (r piece : TokenRange) : Prop :=
  match job? with
  | none => piece = r
  | some job => ∃ rs, r.narrow job = .ok rs ∧ piece ∈ rs

/-- Every task is for a piece of a range. -/
theorem exists_piece_of_mem {size : Value} {job? : Option (Arc p.Position)}
    {ranges : List TokenRange} {tasks : List Task} {t : Task}
    (h : restrict size job? ranges = .ok tasks) (ht : t ∈ tasks) :
    ∃ i : Fin ranges.length, IsPieceOf job? ranges[i] t.range := by
  cases job? with
  | none =>
    obtain rfl := Except.ok.inj h
    obtain ⟨r, hr, rfl⟩ := List.mem_map.1 ht
    obtain ⟨i, hi, rfl⟩ := List.mem_iff_getElem.1 hr
    exact ⟨⟨i, hi⟩, rfl⟩
  | some job =>
    obtain ⟨narrowed, hnarrowed, rfl⟩ := map_eq_ok.1 h
    obtain ⟨piece, hpiece, rfl⟩ := List.mem_map.1 ht
    obtain ⟨rs, hrs, hpiece⟩ := List.mem_flatten.1 hpiece
    obtain ⟨r, hr, hnarrow⟩ := exists_of_forall₂_of_mem (forall₂_of_mapM hnarrowed) hrs
    obtain ⟨i, hi, rfl⟩ := List.mem_iff_getElem.1 hr
    exact ⟨⟨i, hi⟩, rs, hnarrow, hpiece⟩

/-- A piece of a range has its replicas. -/
theorem IsPieceOf.exists_withBounds {job? : Option (Arc p.Position)} {r piece : TokenRange}
    (h : IsPieceOf job? r piece) : ∃ start stop, piece = r.withBounds start stop := by
  cases job? with
  | none =>
    obtain rfl := h
    exact ⟨piece.startToken, piece.endToken, rfl⟩
  | some job =>
    obtain ⟨rs, hrs, hpiece⟩ := h
    obtain ⟨a, common, -, -, rfl⟩ := TokenRange.narrow_ok hrs
    obtain ⟨x, -, rfl⟩ := List.mem_map.1 hpiece
    exact ⟨x.left.render, x.right.render, rfl⟩

/-- A piece of a range stays within it. -/
theorem IsPieceOf.points_subset {job? : Option (Arc p.Position)} {r piece : TokenRange}
    (h : IsPieceOf job? r piece) (hr : InRing p r.startToken r.endToken)
    (hjob : ∀ job ∈ job?, job.Within p.ring) : piece.points p ⊆ r.points p := by
  cases job? with
  | none =>
    obtain rfl := h
    exact subset_rfl
  | some job =>
    obtain ⟨rs, hrs, hpiece⟩ := h
    have htiles := TokenRange.tiles_narrow hr (hjob job rfl) hrs
    exact (htiles.subset hpiece).trans Set.inter_subset_left

/-- **The tasks of ranges tile what the ranges have in common with the restriction.** -/
theorem tiles_restrict {size : Value} {job? : Option (Arc p.Position)} {ranges : List TokenRange}
    {tasks : List Task} {S : Set p.Position} (hjob : ∀ job ∈ job?, job.Within p.ring)
    (hin : ∀ r ∈ ranges, InRing p r.startToken r.endToken)
    (htiles : Tiles (TokenRange.points p) ranges S) (h : restrict size job? ranges = .ok tasks) :
    Tiles (fun t => t.range.points p) tasks (S ∩ jobPoints job?) := by
  cases job? with
  | none =>
    obtain rfl := Except.ok.inj h
    -- all points are points of the ring, so that the ring is no restriction
    have hsubset : S ⊆ p.ring.points := by
      rw [← htiles.union]
      exact Set.iUnion₂_subset fun r _ => pointsBetween_subset p _ _
    rw [jobPoints, Set.inter_eq_left.2 hsubset]
    exact Tiles.map_iff.2 htiles
  | some job =>
    obtain ⟨narrowed, hnarrowed, rfl⟩ := map_eq_ok.1 h
    have hall := (List.forall₂_and_left ranges narrowed).2 ⟨hin, forall₂_of_mapM hnarrowed⟩
    refine Tiles.map_iff.2 ((htiles.inter (job.points p.ring)).flatten (hall.imp ?_))
    exact fun r rs h => TokenRange.tiles_narrow h.1 (hjob job rfl) h.2

end Plan

end RingScan

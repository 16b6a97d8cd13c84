import RingScan.Proofs.Plan.Coverage
import RingScan.Proofs.Ring.Overlap

set_option autoImplicit false

/-! # Narrowing is exact

A restricted pass narrows every range that it is told of to the arc of its restriction. The tasks of
a range are what both have in common (`isNarrowed_of_narrow`): written forms of arcs that have
points and do not go over the end of the ring, which tile the common points and keep the replicas of
the range. All of that holds of each range on its own, whether or not ranges meet, so that nothing
outside the restriction or outside the ranges is asked for (`narrowing_exact`). -/

namespace RingScan.Plan

variable {p : Partitioner} {job : Arc p.Position} {r : TokenRange} {size : Value}

/-- Whether tasks are what a range has in common with an arc. -/
structure IsNarrowed (p : Partitioner) (size : Value) (job : Arc p.Position) (r : TokenRange)
    (tasks : List Task) : Prop where
  /-- The tokens of every task are texts, of an arc that does not go over the end of the ring. -/
  arcs : ∀ t ∈ tasks, IsTokenText p t.range.startToken ∧ IsTokenText p t.range.endToken ∧
    ∃ a : TokenArc p, t.range.arc p = .ok a ∧ a.wraps = .ok false
  /-- No task is without a point. -/
  inhabited : ∀ t ∈ tasks, (t.range.points p).Nonempty
  /-- The tasks tile what is common. -/
  tiles : Tiles (fun t => t.range.points p) tasks (r.points p ∩ job.points p.ring)
  /-- There are none just if nothing is common. -/
  nil_iff : tasks = [] ↔ r.points p ∩ job.points p.ring = ∅
  endpoints : ∀ t ∈ tasks, t.range.endpoints = r.endpoints
  rpcEndpoints : ∀ t ∈ tasks, t.range.rpcEndpoints = r.rpcEndpoints
  splitSize : ∀ t ∈ tasks, t.splitSize = size

theorem isTokenText_render {x : p.Position} (hx : p.ring.Bounds x) :
    IsTokenText p (.str x.render) :=
  ⟨x.render, .position x, rfl, Token.read_render (Partitioner.Position.isWritable_of_bounds hx)⟩

/-- **The tasks of a range are what it has in common with the arc of the restriction.** -/
theorem isNarrowed_of_narrow {rs : List TokenRange} {a : Arc p.Position}
    (ha : TokenArc.read p r.startToken r.endToken = .ok (.ofArc a)) (hin : a.Within p.ring)
    (hjob : job.Within p.ring) (h : r.narrow job = .ok rs) (size : Value) :
    IsNarrowed p size job r (rs.map fun piece => ⟨piece, size⟩) := by
  have htiles : Tiles (fun t : Task => t.range.points p) (rs.map fun piece => ⟨piece, size⟩)
      (r.points p ∩ job.points p.ring) :=
    Tiles.map_iff.2 (TokenRange.tiles_narrow ⟨a, ha, hin⟩ hjob h)
  have hwithin := Arc.within_of_mem_intersection hin hjob
  have hmem : ∀ t ∈ rs.map fun piece => (⟨piece, size⟩ : Task), ∃ x ∈ a.intersection p.ring job,
      t = ⟨r.withBounds (.str x.left.render) (.str x.right.render), size⟩ := by
    intro t ht
    rw [TokenRange.narrow_eq ha h, List.map_map] at ht
    obtain ⟨x, hx, rfl⟩ := List.mem_map.1 ht
    exact ⟨x, hx, rfl⟩
  have hinhabited : ∀ t ∈ rs.map fun piece => (⟨piece, size⟩ : Task),
      (t.range.points p).Nonempty := by
    intro t ht
    obtain ⟨x, hx, rfl⟩ := hmem t ht
    show (pointsBetween p (.str x.left.render) (.str x.right.render)).Nonempty
    rw [pointsBetween_render (hwithin x hx)]
    exact Arc.nonempty_of_mem_intersection hin hjob p.goesOn_ring hx
  refine ⟨?_, hinhabited, htiles, htiles.eq_nil_iff hinhabited, ?_, ?_, ?_⟩
  · intro t ht
    obtain ⟨x, hx, rfl⟩ := hmem t ht
    refine ⟨isTokenText_render (hwithin x hx).left, isTokenText_render (hwithin x hx).right,
      .ofArc x, read_render (hwithin x hx), ?_⟩
    exact congrArg Except.ok (Arc.wraps_of_mem_intersection hx)
  all_goals
    -- what is not a token is taken over
    intro t ht
    obtain ⟨x, -, rfl⟩ := hmem t ht
    rfl

/-- **Narrowing is exact.** A restriction that can be used makes tasks of every list of ranges whose
    tokens are texts that are read as tokens, range by range. The tasks of a range are written
    between such texts again, have points, and do not go over the end of the ring; they tile what
    the range has in common with the arc of the restriction, there is none just if that is nothing,
    and they have the replicas of the range and the configured size. So tasks of ranges that do not
    meet do not meet, and no task reaches beyond the ranges or beyond the restriction. -/
theorem narrowing_exact {c : Context} {job : Arc c.partitioner.Position} {ranges : List TokenRange}
    (hjob : jobArc c.partitioner c.keyRestriction? = .ok (some job))
    (hranges : ∀ r ∈ ranges,
      IsTokenText c.partitioner r.startToken ∧ IsTokenText c.partitioner r.endToken) :
    ∃ tasks : List (List Task),
      restrict (.int c.splitSize) (some job) ranges = .ok tasks.flatten ∧
      List.Forall₂ (IsNarrowed c.partitioner (.int c.splitSize) job) ranges tasks ∧
      (∀ x ∈ ranges.zip tasks, ∀ y ∈ ranges.zip tasks,
        Disjoint (x.1.points c.partitioner) (y.1.points c.partitioner) →
          ∀ t ∈ x.2, ∀ u ∈ y.2,
            Disjoint (t.range.points c.partitioner) (u.range.points c.partitioner)) ∧
      ∀ t ∈ tasks.flatten, t.range.points c.partitioner ⊆
        (⋃ r ∈ ranges, r.points c.partitioner) ∩ job.points c.partitioner.ring := by
  have horder := preservesOrder_of_jobArc hjob
  have harcs : ∀ r ∈ ranges, ∃ a : Arc c.partitioner.Position,
      TokenArc.read c.partitioner r.startToken r.endToken = .ok (.ofArc a) := by
    intro r hr
    obtain ⟨a, ha, -, -⟩ := exists_arc_of_isTokenText (hranges r hr).1 (hranges r hr).2
    exact ⟨a, ha⟩
  have hpieces : ∀ r ∈ ranges, ∃ rs, TokenRange.narrow r job = .ok rs := by
    intro r hr
    obtain ⟨a, ha⟩ := harcs r hr
    exact TokenRange.exists_narrow ha job
  obtain ⟨narrowed, hnarrowed⟩ := exists_mapM_iff.2 hpieces
  have hexact : List.Forall₂ (IsNarrowed c.partitioner (.int c.splitSize) job) ranges
      (narrowed.map fun rs => rs.map fun piece => ⟨piece, .int c.splitSize⟩) := by
    have hall := (List.forall₂_and_left ranges narrowed).2 ⟨harcs, forall₂_of_mapM hnarrowed⟩
    refine List.forall₂_map_right_iff.2 (hall.imp ?_)
    rintro r rs ⟨⟨a, ha⟩, hrs⟩
    exact isNarrowed_of_narrow ha (within_of_preservesOrder horder a)
      (within_of_preservesOrder horder job) hrs _
  refine ⟨_, ?_, hexact, ?_, ?_⟩
  · rw [restrict, hnarrowed, ← List.map_flatten]
    rfl
  · intro x hx y hy hapart t ht u hu
    have hx := (List.forall₂_iff_zip.1 hexact).2 hx
    have hy := (List.forall₂_iff_zip.1 hexact).2 hy
    exact hapart.mono ((hx.tiles.subset ht).trans Set.inter_subset_left)
      ((hy.tiles.subset hu).trans Set.inter_subset_left)
  · intro t ht
    obtain ⟨ts, hts, ht⟩ := List.mem_flatten.1 ht
    obtain ⟨r, hr, hrts⟩ := exists_of_forall₂_of_mem hexact hts
    exact (hrts.tiles.subset ht).trans
      (Set.inter_subset_inter_left _ (Set.subset_biUnion_of_mem hr))

/-- A context whose restriction goes over the end of the ring: the keys behind one byte, and those
    up to a lower one. -/
def aroundKeys : Context :=
  { oneSeed with
    partitioner := .byteOrdered
    keyRestriction? := some ⟨some " ", some "\x10", none, none⟩ }

/-- The arc of that restriction. -/
def aroundKeysArc : Arc (Partitioner.Position .byteOrdered) := ⟨[0x20], [0x10]⟩

/-- A range that goes over the end of the ring as well. -/
def aroundRange : TokenRange := ⟨.str "40", .str "30", [.str "a"], [.null]⟩

theorem narrowing_exact_around :
    jobArc aroundKeys.partitioner aroundKeys.keyRestriction? = .ok (some aroundKeysArc) ∧
      IsTokenText aroundKeys.partitioner (.str "40") ∧
      IsTokenText aroundKeys.partitioner (.str "30") ∧
      ∃ tasks : List (List Task),
        restrict (p := aroundKeys.partitioner) (.int aroundKeys.splitSize) (some aroundKeysArc)
          [aroundRange] = .ok tasks.flatten ∧
        List.Forall₂ (IsNarrowed aroundKeys.partitioner (.int aroundKeys.splitSize) aroundKeysArc)
          [aroundRange] tasks := by
  have hjob : jobArc aroundKeys.partitioner aroundKeys.keyRestriction? =
      .ok (some aroundKeysArc) := by rfl
  have hstart : IsTokenText aroundKeys.partitioner (.str "40") := ⟨"40", .position [0x40], rfl, rfl⟩
  have hstop : IsTokenText aroundKeys.partitioner (.str "30") := ⟨"30", .position [0x30], rfl, rfl⟩
  have hranges : ∀ r ∈ [aroundRange], IsTokenText aroundKeys.partitioner r.startToken ∧
      IsTokenText aroundKeys.partitioner r.endToken :=
    List.forall_mem_singleton.2 ⟨hstart, hstop⟩
  obtain ⟨tasks, htasks, hnarrowed, -⟩ := narrowing_exact hjob hranges
  exact ⟨hjob, hstart, hstop, tasks, htasks, hnarrowed⟩

/-- Both leave out a gap, and the positions between the gaps make a third task. -/
example : (restrict (p := .byteOrdered) (.int 64) (some aroundKeysArc) [aroundRange]).map
      (·.map fun t => (t.range.startToken, t.range.endToken)) =
    .ok [(.str "", .str "10"), (.str "20", .str "30"), (.str "40", .str "")] := by
  decide +kernel

end RingScan.Plan

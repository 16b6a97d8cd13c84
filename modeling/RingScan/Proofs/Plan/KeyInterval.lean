import RingScan.Proofs.Plan.Points
import RingScan.Proofs.Text.ByteOrder

set_option autoImplicit false

/-! # Which keys a restriction plans

Where keys are in order, a restriction names an interval of keys: those from its start key on, up to
its end key if there is one. What a pass plans is an arc of the ring, and an arc leaves its left
bound out. The positions of keys are in the order of the keys (`lt_iff_ordered_lt`), so that the two
only part at the ends of the interval: the start key itself lies outside the arc, and if it is the
end key as well, the arc is the whole ring (`mem_points_keysFrom`). -/

namespace RingScan

open Text (ordered)

variable {p : Partitioner}

/-! ## The positions of keys -/

namespace Partitioner

/-- The text of no characters has the position that nothing lies at. -/
theorem positionOfText_empty (hp : p.preservesOrder = true) :
    p.positionOfText "" = .ok p.ring.minimum := by
  cases p with
  | murmur3 => simp [preservesOrder] at hp
  | random => simp [preservesOrder] at hp
  | byteOrdered => rfl
  | orderPreserving => rfl

/-- **Keys lie on the ring in their own order.** -/
theorem lt_iff_ordered_lt (hp : p.preservesOrder = true) {s t : String} {x y : p.Position}
    (hs : p.positionOfText s = .ok x) (ht : p.positionOfText t = .ok y) :
    x < y ↔ ordered s < ordered t := by
  cases p with
  | murmur3 => simp [preservesOrder] at hp
  | random => simp [preservesOrder] at hp
  | byteOrdered =>
    -- the positions are the bytes of the keys
    have hbytes {s : String} {x : Position .byteOrdered}
        (hs : Partitioner.positionOfText .byteOrdered s = .ok x) :
        ∃ u, Text.Surrogate.plain s = .ok u ∧ x = Text.Utf8.encode u.toList := by
      simp only [positionOfText] at hs
      cases hu : Text.Surrogate.plain s with
      | error f => simp [hu, Except.bind] at hs
      | ok u =>
        simp only [hu, Except.bind, position, position?] at hs
        exact ⟨u, rfl, (Except.ok.inj hs).symm⟩
    obtain ⟨u, hu, rfl⟩ := hbytes hs
    obtain ⟨v, hv, rfl⟩ := hbytes ht
    exact Text.encode_lt_iff_ordered_lt hu hv
  | orderPreserving =>
    obtain rfl : ordered s = x := Except.ok.inj hs
    obtain rfl : ordered t = y := Except.ok.inj ht
    rfl

theorem le_iff_ordered_le (hp : p.preservesOrder = true) {s t : String} {x y : p.Position}
    (hs : p.positionOfText s = .ok x) (ht : p.positionOfText t = .ok y) :
    x ≤ y ↔ ordered s ≤ ordered t := by
  rw [← Std.not_lt, ← Std.not_lt, lt_iff_ordered_lt hp ht hs]

/-- Two keys at one position are one key. -/
theorem eq_of_positionOfText (hp : p.preservesOrder = true) {s t : String} {x : p.Position}
    (hs : p.positionOfText s = .ok x) (ht : p.positionOfText t = .ok x) : s = t :=
  Std.le_antisymm (α := Text.Ordered) ((le_iff_ordered_le hp hs ht).1 (Std.le_refl x))
    ((le_iff_ordered_le hp ht hs).1 (Std.le_refl x))

/-- Something can lie at the position of every key that is not empty. -/
theorem holds_of_positionOfText (hp : p.preservesOrder = true) {s : String} {x : p.Position}
    (hs : p.positionOfText s = .ok x) (hne : s ≠ "") : p.ring.Holds x := by
  have hbounds := bounds_of_preservesOrder hp x
  refine ⟨?_, hbounds.2⟩
  have hminimum : p.ring.minimum ≠ x := by
    rintro rfl
    exact hne (eq_of_positionOfText hp hs (positionOfText_empty hp))
  have hle := hbounds.1
  grind

end Partitioner

namespace Plan

/-! ## The interval and the arc -/

/-- The restriction to the keys from a key on, up to another one if there is one. -/
def keysFrom (start : String) (stop? : Option String) : KeyRestriction where
  startKey? := some start
  endKey? := stop?

/-- Whether a key is one of those from a key on, up to another one if there is one. -/
def IsBetween (start : String) (stop? : Option String) (key : String) : Prop :=
  ordered start ≤ ordered key ∧ ∀ stop ∈ stop?, ordered key ≤ ordered stop

/-- Whether a key has a position. -/
def HasPosition (p : Partitioner) (key : String) : Prop := ∃ x, p.positionOfText key = .ok x

/-- The arc of a restriction to keys that have positions. -/
theorem jobArc_keysFrom (hp : p.preservesOrder = true) {start : String} {l : p.Position}
    (hstart : p.positionOfText start = .ok l) :
    jobArc p (some (keysFrom start none)) = .ok (some ⟨l, p.ring.minimum⟩) ∧
      ∀ {stop : String} {r : p.Position}, p.positionOfText stop = .ok r →
        jobArc p (some (keysFrom start (some stop))) = .ok (some ⟨l, r⟩) := by
  refine ⟨?_, fun hstop => ?_⟩
  · simp [jobArc, keysFrom, hp, keyPosition, hstart, Except.mapError, bind, Except.bind, pure,
      Except.pure]
  · simp [jobArc, keysFrom, hp, keyPosition, hstart, hstop, Except.mapError, bind, Except.bind, pure,
      Except.pure]

/-- **What the arc of a restriction takes in**: all keys but the start key if that is the end key as
    well, and otherwise the keys of the interval without the start key. -/
theorem mem_points_keysFrom (hp : p.preservesOrder = true) {start key : String}
    {stop? : Option String} {x : p.Position} (hstart : HasPosition p start)
    (hstop : ∀ stop ∈ stop?, HasPosition p stop) (hkey : p.positionOfText key = .ok x)
    (hne : start ≠ "") (hne' : key ≠ "") (hle : ∀ stop ∈ stop?, ordered start ≤ ordered stop) :
    ∃ job, jobArc p (some (keysFrom start stop?)) = .ok (some job) ∧
      (x ∈ job.points p.ring ↔ stop? = some start ∨ key ≠ start ∧ IsBetween start stop? key) := by
  obtain ⟨l, hl⟩ := hstart
  have hbounds := Partitioner.bounds_of_preservesOrder hp l
  have hholds := Partitioner.holds_of_positionOfText hp hkey hne'
  -- behind the start key are the other keys from it on
  have hbehind : l < x ↔ key ≠ start ∧ ordered start ≤ ordered key := by
    rw [← Partitioner.le_iff_ordered_le hp hl hkey]
    constructor
    · intro hlt
      refine ⟨?_, Std.le_of_lt hlt⟩
      rintro rfl
      obtain rfl := Except.ok.inj (hl.symm.trans hkey)
      exact Std.lt_irrefl hlt
    · rintro ⟨hother, hle⟩
      have : l ≠ x := by
        rintro rfl
        exact hother (Partitioner.eq_of_positionOfText hp hkey hl)
      grind
  cases stop? with
  | none =>
    refine ⟨_, (jobArc_keysFrom hp hl).1, ?_⟩
    rw [Arc.mem_points_toEnd hbounds, hbehind]
    simp [hholds, IsBetween]
  | some stop =>
    obtain ⟨r, hr⟩ := hstop stop rfl
    have hupto := Partitioner.le_iff_ordered_le hp hkey hr
    refine ⟨_, (jobArc_keysFrom hp hl).2 hr, ?_⟩
    by_cases hsame : stop = start
    · -- the arc goes all around, from the start key to the start key
      subst hsame
      obtain rfl := Except.ok.inj (hl.symm.trans hr)
      have hwraps : (Arc.mk l l).wraps p.ring = true := by
        refine Arc.wraps_iff.2 ⟨Std.le_refl l, ?_⟩
        have := (Partitioner.holds_of_positionOfText hp hl hne).1
        grind
      rw [Arc.mem_points_of_wraps hwraps]
      have htotal : l < x ∨ x ≤ l := by grind
      simp [hholds, htotal]
    · have hlt : l < r := by
        have hle := (Partitioner.le_iff_ordered_le hp hl hr).2 (hle stop rfl)
        have : l ≠ r := by
          rintro rfl
          exact hsame (Partitioner.eq_of_positionOfText hp hr hl)
        grind
      rw [Arc.mem_points_of_lt hlt]
      simp [hholds, hbehind, hupto, hsame, IsBetween, and_assoc]

/-! ## The tasks -/

/-- On a ring that is covered, the tasks of a restriction take in what its arc takes in. -/
theorem exists_task_iff (hp : p.preservesOrder = true) {job : Arc p.Position}
    {ranges : List TokenRange} (hin : ∀ r ∈ ranges, InRing p r.startToken r.endToken)
    (hcover : ⋃ r ∈ ranges, r.points p = p.ring.points) (size : Value) :
    ∃ tasks, restrict size (some job) ranges = .ok tasks ∧
      ∀ x, (∃ t ∈ tasks, x ∈ t.range.points p) ↔ x ∈ job.points p.ring := by
  have hjob : job.Within p.ring := within_of_preservesOrder hp job
  obtain ⟨narrowed, hnarrowed⟩ := exists_mapM_iff.2 fun r hr =>
    (hin r hr).elim fun a ha => TokenRange.exists_narrow ha.1 job
  refine ⟨_, map_eq_ok.2 ⟨narrowed, hnarrowed, rfl⟩, fun x => ?_⟩
  -- the tasks of a range take in what it has in common with the arc
  have hpieces : List.Forall₂ (fun r rs => ⋃ s ∈ rs, TokenRange.points p s =
      r.points p ∩ job.points p.ring) ranges narrowed := by
    have hall := (List.forall₂_and_left ranges narrowed).2 ⟨hin, forall₂_of_mapM hnarrowed⟩
    exact hall.imp fun r rs h => (TokenRange.tiles_narrow h.1 hjob h.2).union
  have hunion := iUnion_flatten hpieces
  rw [← Set.iUnion₂_inter, hcover, Set.inter_eq_right.2 (job.points_subset p.ring)] at hunion
  rw [← hunion, Set.mem_iUnion₂]
  simp only [List.mem_map, exists_exists_and_eq_and, exists_prop]

/-- **What a restriction to keys means.** Take a ring where keys are in order, a restriction to the
    keys from a start key on, up to an end key that does not come before it if there is one, and any
    other key, none of them empty. The restriction names an arc. The key lies in that arc if the end
    key is the start key, whatever the key is; and otherwise if it is in the interval and not the
    start key. So the arc and the interval agree on the key exactly if the key is the start key and
    the end key is, too, or neither is. On a ring that is covered, the tasks take in just the keys
    in the arc. -/
theorem key_planned_iff (hp : p.preservesOrder = true) {start key : String} {stop? : Option String}
    {x : p.Position} (hstart : HasPosition p start) (hstop : ∀ stop ∈ stop?, HasPosition p stop)
    (hkey : p.positionOfText key = .ok x) (hne : start ≠ "") (hne' : key ≠ "")
    (hle : ∀ stop ∈ stop?, ordered start ≤ ordered stop) :
    ∃ job, jobArc p (some (keysFrom start stop?)) = .ok (some job) ∧
      (x ∈ job.points p.ring ↔ stop? = some start ∨ key ≠ start ∧ IsBetween start stop? key) ∧
      ((x ∈ job.points p.ring ↔ IsBetween start stop? key) ↔ (key = start ↔ stop? = some start)) ∧
      ∀ (size : Value) (ranges : List TokenRange),
        (∀ r ∈ ranges, InRing p r.startToken r.endToken) →
        ⋃ r ∈ ranges, r.points p = p.ring.points →
        ∃ tasks, restrict size (some job) ranges = .ok tasks ∧
          ((∃ t ∈ tasks, x ∈ t.range.points p) ↔ x ∈ job.points p.ring) := by
  obtain ⟨job, hjob, hmem⟩ := mem_points_keysFrom hp hstart hstop hkey hne hne' hle
  refine ⟨job, hjob, hmem, ?_, fun size ranges hin hcover => ?_⟩
  · rw [hmem]
    by_cases hsame : stop? = some start
    · -- only the start key is in the interval, and all keys are in the arc
      have honly : IsBetween start stop? key ↔ key = start := by
        subst hsame
        constructor
        · exact fun h => Std.le_antisymm (α := Text.Ordered) (h.2 start rfl) h.1
        · rintro rfl
          exact ⟨Std.le_refl _, hle⟩
      simp [hsame, ← honly]
    · by_cases hstart : key = start
      · have hbetween : IsBetween start stop? key := by
          subst hstart
          exact ⟨Std.le_refl _, hle⟩
        simp [hsame, hstart, hstart ▸ hbetween]
      · simp [hsame, hstart]
  · obtain ⟨tasks, htasks, hpoints⟩ := exists_task_iff hp hin hcover size
    exact ⟨tasks, htasks, hpoints x⟩

/-! ## Keys on a ring of bytes -/

/-- All of a ring whose positions are bytes. -/
def wholeRange : TokenRange := ⟨.str "", .str "", [.str "a"], [.str "a"]⟩

theorem points_wholeRange : InRing .byteOrdered wholeRange.startToken wholeRange.endToken ∧
    wholeRange.points .byteOrdered = (Partitioner.ring .byteOrdered).points := by
  let ring := Partitioner.ring .byteOrdered
  have hbounds := Partitioner.bounds_of_preservesOrder (p := .byteOrdered) rfl ring.minimum
  have hwithin : (Arc.mk ring.minimum ring.minimum).Within ring := ⟨hbounds, hbounds⟩
  have hrender : ring.minimum.render = "" := by decide +kernel
  have hin := inRing_render hwithin
  have hpoints := pointsBetween_render hwithin
  rw [hrender] at hin hpoints
  refine ⟨hin, hpoints.trans ?_⟩
  ext t
  rw [Arc.mem_points_toEnd hbounds]
  exact ⟨fun h => h.1, fun h => ⟨h, h.1⟩⟩

theorem hasPosition_byteOrdered (key : String) (h : Text.Surrogate.isPlain key = true) :
    HasPosition .byteOrdered key := by
  obtain ⟨cs, hcs⟩ := Option.isSome_iff_exists.1 h
  exact ⟨_, by simp only [Partitioner.positionOfText, Text.Surrogate.plain, hcs]; rfl⟩

/-- A key between the first one and the last one is planned. -/
theorem key_planned_iff_between :
    ∃ job x tasks, jobArc .byteOrdered (some (keysFrom "b" (some "d"))) = .ok (some job) ∧
      Partitioner.positionOfText .byteOrdered "c" = .ok x ∧
      restrict (.int 64) (some job) [wholeRange] = .ok tasks ∧
      ∃ t ∈ tasks, x ∈ t.range.points .byteOrdered := by
  obtain ⟨hin, hpoints⟩ := points_wholeRange
  obtain ⟨x, hx⟩ := hasPosition_byteOrdered "c" (by decide +kernel)
  have hstart := hasPosition_byteOrdered "b" (by decide +kernel)
  have hstop : ∀ stop ∈ some "d", HasPosition .byteOrdered stop := by
    rintro stop ⟨⟩
    exact hasPosition_byteOrdered "d" (by decide +kernel)
  have hle : ∀ stop ∈ some "d", ordered "b" ≤ ordered stop := by
    rintro stop ⟨⟩
    decide +kernel
  have hbetween : IsBetween "b" (some "d") "c" := by
    refine ⟨by decide +kernel, ?_⟩
    rintro stop ⟨⟩
    decide +kernel
  obtain ⟨job, hjob, -, hagree, htasks⟩ :=
    key_planned_iff rfl hstart hstop hx (by decide) (by decide) hle
  obtain ⟨tasks, hrestrict, hplanned⟩ := htasks (.int 64) [wholeRange]
    (List.forall_mem_singleton.2 hin) (by simpa using hpoints)
  have hmem := (hagree.2 (by simp)).2 hbetween
  exact ⟨job, x, tasks, hjob, hx, hrestrict, hplanned.2 hmem⟩

/-- A restriction to a single key plans other keys, and one from a key on leaves that key out. -/
theorem single_key_plans_others :
    (∃ job x, jobArc .byteOrdered (some (keysFrom "b" (some "b"))) = .ok (some job) ∧
      Partitioner.positionOfText .byteOrdered "c" = .ok x ∧
      x ∈ job.points (Partitioner.ring .byteOrdered) ∧ ¬ IsBetween "b" (some "b") "c") ∧
    ∃ job x, jobArc .byteOrdered (some (keysFrom "b" none)) = .ok (some job) ∧
      Partitioner.positionOfText .byteOrdered "b" = .ok x ∧
      x ∉ job.points (Partitioner.ring .byteOrdered) ∧ IsBetween "b" none "b" := by
  obtain ⟨x, hx⟩ := hasPosition_byteOrdered "b" (by decide +kernel)
  obtain ⟨y, hy⟩ := hasPosition_byteOrdered "c" (by decide +kernel)
  have hstop : ∀ stop ∈ some "b", HasPosition .byteOrdered stop := by
    rintro stop ⟨⟩
    exact ⟨x, hx⟩
  have hle : ∀ stop ∈ some "b", ordered "b" ≤ ordered stop := by
    rintro stop ⟨⟩
    exact Std.le_refl _
  obtain ⟨job, hjob, hmem⟩ := mem_points_keysFrom rfl ⟨x, hx⟩ hstop hy (by decide) (by decide) hle
  have hnone : ∀ stop ∈ (none : Option String), HasPosition .byteOrdered stop := by simp
  obtain ⟨other, hother, hleft⟩ := mem_points_keysFrom rfl ⟨x, hx⟩ hnone hx (by decide) (by decide)
    (by simp)
  refine ⟨⟨job, y, hjob, hy, hmem.2 (.inl rfl), fun h => ?_⟩, other, x, hother, hx, ?_, ?_⟩
  · have hbehind : ¬ ordered "c" ≤ ordered "b" := by decide +kernel
    exact hbehind (h.2 "b" rfl)
  · simp [hleft]
  · exact ⟨Std.le_refl _, by simp⟩

end Plan

end RingScan

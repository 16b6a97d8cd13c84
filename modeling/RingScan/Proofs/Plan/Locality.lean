import RingScan.Proofs.Dialogue.Transcript
import RingScan.Proofs.Plan.Coverage

set_option autoImplicit false

/-! # Splits keep the hosts of their range

A split is found at the hosts of the range of the ring that it was cut out of. What happens to a
range on the way to its splits changes its tokens only: a task is a range or a piece of it
(`IsPieceOf.hasHostsOf`), an answer is about the tokens between the parts, and the splits of all
parts get the hosts of the task. The hosts are known place by place (`TokenRange.hosts_ok`), so that
none is dropped or moved. As long as the ranges do not meet and the parts stay within their tasks,
no other range has points in common with the split (`splits_local`). -/

namespace RingScan.Plan

open Collection (Attempt Ends Log Reaches Stage)
open Dialogue (Yields)
open TokenArc (between within_between)

variable {p : Partitioner} {resolve : Resolver} {t : Task}

/-! ## The hosts of a range -/

/-- The address at which a replica is found: the one for clients, or the internal one if that is
    null or stands for every address of a machine. -/
def addressOfReplica (endpoint rpcEndpoint : Value) : Value :=
  if rpcEndpoint = .null ∨ ∃ w ∈ TokenRange.wildcards, rpcEndpoint = .str w then endpoint
  else rpcEndpoint

theorem addressOfReplica_of_isUnusable {rpcEndpoint : Value} {unusable : Bool}
    (h : TokenRange.isUnusable rpcEndpoint = .ok unusable) (endpoint : Value) :
    addressOfReplica endpoint rpcEndpoint = if unusable then endpoint else rpcEndpoint := by
  have hiff : (rpcEndpoint = .null ∨ ∃ w ∈ TokenRange.wildcards, rpcEndpoint = .str w) ↔
      unusable = true := by
    cases rpcEndpoint with
    | null =>
      obtain rfl := Except.ok.inj h
      simp
    | str s =>
      obtain rfl := Except.ok.inj h
      simp
    | _ =>
      -- what is neither null nor a text is used, if it is an address at all
      simp only [TokenRange.isUnusable] at h
      split_ifs at h
      obtain rfl := Except.ok.inj h
      simp
  simp only [addressOfReplica, hiff]

/-- The addresses to use are chosen place by place. -/
theorem resolveAddresses_eq {endpoints rpcEndpoints addresses : List Value}
    (h : TokenRange.resolveAddresses endpoints rpcEndpoints = .ok addresses)
    (heven : rpcEndpoints.length = endpoints.length) :
    addresses = List.zipWith addressOfReplica endpoints rpcEndpoints := by
  induction rpcEndpoints generalizing endpoints addresses with
  | nil =>
    rw [TokenRange.resolveAddresses] at h
    simpa using (Except.ok.inj h).symm
  | cons rpcEndpoint rest ih =>
    cases endpoints with
    | nil => simp at heven
    | cons endpoint others =>
      rw [TokenRange.resolveAddresses] at h
      cases hunusable : TokenRange.isUnusable rpcEndpoint with
      | error f => simp [hunusable] at h
      | ok unusable =>
        rw [List.zipWith_cons_cons, addressOfReplica_of_isUnusable hunusable]
        have hrest : ∀ {found}, TokenRange.resolveAddresses others rest = .ok found →
            found = List.zipWith addressOfReplica others rest :=
          fun hfound => ih hfound (by simpa using heven)
        cases unusable with
        | true =>
          simp only [hunusable] at h
          obtain ⟨found, hfound, rfl⟩ := map_eq_ok.1 h
          rw [hrest hfound]
          rfl
        | false =>
          simp only [hunusable, List.tail_cons] at h
          obtain ⟨found, hfound, rfl⟩ := map_eq_ok.1 h
          rw [hrest hfound]
          rfl

/-- Whether a list has the hosts of a range: one for each of its replicas, at the same place, by the
    address at which the replica is found. -/
structure HasHostsOf (resolve : Resolver) (r : TokenRange) (locations : List Value) : Prop where
  length_endpoints : locations.length = r.endpoints.length
  length_rpcEndpoints : locations.length = r.rpcEndpoints.length
  resolved : ∀ (i : ℕ) location endpoint rpcEndpoint, locations[i]? = some location →
    r.endpoints[i]? = some endpoint → r.rpcEndpoints[i]? = some rpcEndpoint →
    resolve (addressOfReplica endpoint rpcEndpoint) = .ok location

theorem TokenRange.hosts_ok {r : TokenRange} {locations : List Value}
    (h : r.hosts resolve = .ok locations)
    (heven : r.rpcEndpoints.length = r.endpoints.length) : HasHostsOf resolve r locations := by
  rw [TokenRange.hosts, TokenRange.effectiveEndpoints] at h
  cases haddresses : TokenRange.resolveAddresses r.endpoints r.rpcEndpoints with
  | error f => simp [haddresses] at h
  | ok addresses =>
    simp only [haddresses] at h
    obtain ⟨hlength, hget⟩ := List.forall₂_iff_get.1 (forall₂_of_mapM h)
    obtain rfl := resolveAddresses_eq haddresses heven
    rw [List.length_zipWith, heven, Nat.min_self] at hlength
    refine ⟨hlength.symm, by rw [← hlength, heven], ?_⟩
    intro i location endpoint rpcEndpoint hlocation hendpoint hrpc
    obtain ⟨hi, rfl⟩ := List.getElem?_eq_some_iff.1 hlocation
    obtain ⟨hi', rfl⟩ := List.getElem?_eq_some_iff.1 hendpoint
    obtain ⟨hi'', rfl⟩ := List.getElem?_eq_some_iff.1 hrpc
    have hzip : i < (List.zipWith addressOfReplica r.endpoints r.rpcEndpoints).length := by
      rw [List.length_zipWith, heven, Nat.min_self]
      exact hi'
    simpa using hget i hzip hi

/-- A list that has the hosts of a piece has those of the range. -/
theorem IsPieceOf.hasHostsOf {job? : Option (Arc p.Position)} {r piece : TokenRange}
    {locations : List Value} (h : IsPieceOf job? r piece)
    (hhosts : HasHostsOf resolve piece locations) : HasHostsOf resolve r locations := by
  obtain ⟨start, stop, rfl⟩ := h.exists_withBounds
  exact ⟨hhosts.length_endpoints, hhosts.length_rpcEndpoints, hhosts.resolved⟩

/-! ## Where a split comes from -/

variable {c : Context} {r : TokenRange} {parts : List SubSplit} {s : Split}

/-- Every split of an answer is one of a part of it, and has the hosts of the range that was asked
    about. -/
theorem mem_assembleAll {splits : List Split} (h : assembleAll p resolve r parts = .ok splits)
    (hs : s ∈ splits) :
    HasHostsOf resolve r s.locations ∧
      ∃ part ∈ parts, ∃ found, part.splits p s.locations = .ok found ∧ s ∈ found := by
  obtain ⟨heven, locations, pieces, hhosts, hpieces, rfl⟩ := assembleAll_ok h
  obtain ⟨found, hfound, hs⟩ := List.mem_flatten.1 hs
  obtain ⟨part, hpart, hsplits⟩ := exists_of_forall₂_of_mem hpieces hfound
  have hlocations : s.locations = locations := by
    obtain ⟨a, arcs, -, -, harcs⟩ := SubSplit.splits_ok hsplits
    rw [harcs] at hs
    obtain ⟨x, -, rfl⟩ := List.mem_map.1 hs
    rfl
  rw [hlocations]
  exact ⟨TokenRange.hosts_ok hhosts heven, part, hpart, found, hsplits, hs⟩

/-- Whether a split comes from a range of the ring, by the parts that a task was cut into. -/
structure ComesFrom (c : Context) (resolve : Resolver) (r : TokenRange) (t : Task)
    (parts : List SubSplit) (s : Split) : Prop where
  /-- The task is the range or a piece of it. -/
  piece : IsPieceOf (job c) r t.range
  /-- The split is what is made of one part, be it all of it or one side of the end of the ring. -/
  part : ∃ part ∈ parts, ∃ splits, part.splits c.partitioner s.locations = .ok splits ∧ s ∈ splits
  /-- The hosts are those of the range. -/
  hosts : HasHostsOf resolve r s.locations

/-- Whether parts are between bounds of the ring, and within the range that was asked about. -/
def StayWithin (p : Partitioner) (r : TokenRange) (parts : List SubSplit) : Prop :=
  ∀ part ∈ parts, InRing p part.startToken part.endToken ∧ part.points p ⊆ r.points p

/-- A split lies within the range that it comes from. -/
theorem ComesFrom.points_subset (h : ComesFrom c resolve r t parts s)
    (hr : InRing c.partitioner r.startToken r.endToken)
    (hparts : StayWithin c.partitioner t.range parts) :
    s.points c.partitioner ⊆ r.points c.partitioner := by
  obtain ⟨part, hpart, splits, hsplits, hs⟩ := h.part
  obtain ⟨hin, hwithin⟩ := hparts part hpart
  calc s.points c.partitioner
      ⊆ part.points c.partitioner := (SubSplit.tiles_splits hin hsplits).subset hs
    _ ⊆ t.range.points c.partitioner := hwithin
    _ ⊆ r.points c.partitioner := h.piece.points_subset hr within_of_mem_job

/-! ## Locality -/

/-- Whether a split is local to one of some ranges, by some answer: it comes from that range, and if
    the ranges are between bounds of the ring and do not meet, and the answer stays within its task,
    it has no points in common with any other range. -/
def IsLocal (c : Context) (resolve : Resolver) (ranges : List TokenRange)
    (told : Task → List SubSplit → Prop) (s : Split) : Prop :=
  ∃ (i : Fin ranges.length) (t : Task) (parts : List SubSplit), told t parts ∧
    ComesFrom c resolve (ranges.get i) t parts s ∧
    ((∀ r ∈ ranges, InRing c.partitioner r.startToken r.endToken) →
      (ranges.Pairwise fun r r' => Disjoint (r.points c.partitioner) (r'.points c.partitioner)) →
      StayWithin c.partitioner t.range parts →
      ∀ j ≠ i, Disjoint ((ranges.get j).points c.partitioner) (s.points c.partitioner))

/-- The splits of an answer about a task are local. -/
theorem isLocal_of_assembled {ranges : List TokenRange} {tasks : List Task} {splits : List Split}
    {told : Task → List SubSplit → Prop}
    (htasks : restrict (.int c.splitSize) (job c) ranges = .ok tasks) (ht : t ∈ tasks)
    (htold : told t parts) (h : assembleAll c.partitioner resolve t.range parts = .ok splits)
    (hs : s ∈ splits) : IsLocal c resolve ranges told s := by
  obtain ⟨i, hpiece⟩ := exists_piece_of_mem htasks ht
  obtain ⟨hhosts, hpart⟩ := mem_assembleAll h hs
  have hfrom : ComesFrom c resolve (ranges.get i) t parts s :=
    ⟨hpiece, hpart, hpiece.hasHostsOf hhosts⟩
  refine ⟨i, t, parts, htold, hfrom, ?_⟩
  intro hin hapart hparts j hj
  have hsubset := hfrom.points_subset (hin _ (List.getElem_mem i.isLt)) hparts
  have hdisjoint :
      Disjoint ((ranges.get j).points c.partitioner) ((ranges.get i).points c.partitioner) := by
    rcases lt_or_gt_of_ne hj with hlt | hlt
    · exact List.pairwise_iff_get.1 hapart j i hlt
    · exact (List.pairwise_iff_get.1 hapart i j hlt).symm
  exact hdisjoint.mono_right hsubset

/-- The splits of a collection of the tasks of some ranges are local, in whatever order its attempts
    are settled and its splits are handed out. -/
theorem IsMadeOf.isLocal {ranges : List TokenRange} {tasks : List Task} {log : Log tasks}
    {left : Stage tasks} {limit : ℕ} {told : Task → List SubSplit → Prop}
    {splits handed : List Split} (h : IsMadeOf c resolve told log)
    (htasks : restrict (.int c.splitSize) (job c) ranges = .ok tasks)
    (hends : Ends limit log left (.ok splits)) (horder : handed.Perm splits) (hs : s ∈ handed) :
    IsLocal c resolve ranges (fun t parts => t ∈ tasks ∧ told t parts) s := by
  obtain ⟨found, hperm, rfl, hfound⟩ := h.exists_answers hends
  obtain ⟨y, hy, hs⟩ := List.mem_flatMap.1 (horder.mem_iff.1 hs)
  obtain ⟨parts, htold, hassemble⟩ := hfound y hy
  have ht : y.1 ∈ tasks := hperm.mem_iff.1 (List.mem_map_of_mem hy)
  exact isLocal_of_assembled htasks ht ⟨ht, htold⟩ hassemble hs

/-- **Locality.** Every split of a pass that returns comes from one range of the ring, through a
    task that is this range or a piece of it, and one of the answers that are used about that task.
    It has as many locations as the range has replicas, and at every place the host of the replica
    at that place, found by the address for clients or else by the internal one. If the ranges do
    not meet and the answer stays within its task, the split has no points in common with any other
    range. Neither the order in which attempts end nor what other attempts were made counts: the
    same holds of the splits of every collection of the tasks of some ranges, as long as its
    successful attempts are attempts at these tasks, whatever they were answered. -/
theorem splits_local (c : Context) (resolve : Resolver) :
    (∀ {σ : Type} (net : Dialogue.Network σ) (x : σ) (splits handed : List Split),
      ((plan c resolve).run net x).result = .ok splits → handed.Perm splits → ∀ s ∈ handed,
        IsLocal c resolve (ringRanges c net x) (fun t parts =>
          t ∈ passTasks c net x ∧ (t, parts) ∈ usedAnswers c resolve net x) s) ∧
    ∀ (ranges : List TokenRange) (tasks : List Task) (log : Collection.Log tasks)
      (left : Collection.Stage tasks) (splits handed : List Split),
      restrict (.int c.splitSize) (job c) ranges = .ok tasks →
      Collection.Ends c.maxRetries log left (.ok splits) →
      (∀ a found, (a, .ok found) ∈ log → ∃ es, Yields (attempt c resolve a.task) es (.ok found)) →
      handed.Perm splits → ∀ s ∈ handed,
        IsLocal c resolve ranges (fun t parts =>
          t ∈ tasks ∧ ∃ es, Yields (subSplits c t) es (.ok parts)) s := by
  constructor
  · intro σ net x splits handed hplan horder s hs
    obtain ⟨-, -, htasks, -⟩ := plan_ok hplan
    obtain ⟨log, left, hends, hmade⟩ := plan_ends hplan
    exact hmade.isLocal htasks hends horder hs
  · intro ranges tasks log left splits handed htasks hends hlog horder s hs
    have hmade : IsMadeOf c resolve (fun t parts => ∃ es, Yields (subSplits c t) es (.ok parts))
        log := by
      intro a found ha
      obtain ⟨es, hyields⟩ := hlog a found ha
      rcases Dialogue.yields_bind.1 hyields with ⟨es₁, parts, es₂, h₁, h₂, rfl⟩ | ⟨e, -, he⟩
      · obtain ⟨rfl, hassemble⟩ := Dialogue.yields_done.1 h₂
        exact ⟨parts, ⟨es₁, h₁⟩, hassemble.symm⟩
      · simp at he
    exact hmade.isLocal htasks hends horder hs

/-! ## A pass over two ranges -/

/-- The answers to a pass over a ring of two ranges. The first replica of one of them has a wildcard
    for clients, and the other range goes over the end of the ring. -/
def twoRanges : List String := [
  "\x7b\x7d",
  "\x7b\"ranges\":[\x7b\"startToken\":\"0\",\"endToken\":\"9\",\"endpoints\":[\"a\",\"b\"]," ++
    "\"rpcEndpoints\":[\"0.0.0.0\",\"c\"]\x7d,\x7b\"startToken\":\"9\",\"endToken\":\"0\"," ++
    "\"endpoints\":[\"d\"],\"rpcEndpoints\":[\"d\"]\x7d]\x7d",
  "\x7b\x7d",
  "\x7b\"splits\":[\x7b\"startToken\":\"0\",\"endToken\":\"9\",\"rowCount\":7\x7d]\x7d",
  "\x7b\x7d",
  "\x7b\"splits\":[\x7b\"startToken\":\"9\",\"endToken\":\"0\",\"rowCount\":7\x7d]\x7d"]

/-- The ranges that are told of there. -/
def bothRanges : List TokenRange := [
  ⟨.str "0", .str "9", [.str "a", .str "b"], [.str "0.0.0.0", .str "c"]⟩,
  ⟨.str "9", .str "0", [.str "d"], [.str "d"]⟩]

/-- The tasks that read them. -/
def bothTasks : List Task := bothRanges.map fun r => ⟨r, .int 64⟩

theorem ringRanges_twoRanges : ringRanges oneSeed replaying twoRanges = bothRanges := by
  decide +kernel

theorem usedAnswers_twoRanges : usedAnswers oneSeed .ok replaying twoRanges =
    bothTasks.map fun t => (t, [⟨t.range.startToken, t.range.endToken, .int 7⟩]) := by
  decide +kernel

theorem restrict_bothRanges :
    restrict (.int oneSeed.splitSize) (job oneSeed) bothRanges = .ok bothTasks := by
  rfl

/-- The two ranges are between bounds of the ring, and they do not meet. -/
theorem bothRanges_apart :
    (∀ r ∈ bothRanges, InRing .murmur3 r.startToken r.endToken) ∧
      bothRanges.Pairwise fun r s => Disjoint (r.points .murmur3) (s.points .murmur3) := by
  have hthere : (between 0 9).Within (Partitioner.ring .murmur3) :=
    within_between (by decide) (by decide) (by decide) (by decide)
  have hback : (between 9 0).Within (Partitioner.ring .murmur3) :=
    within_between (by decide) (by decide) (by decide) (by decide)
  refine ⟨List.forall_mem_cons.2 ⟨inRing_render hthere,
    List.forall_mem_singleton.2 (inRing_render hback)⟩, List.pairwise_pair.2 ?_⟩
  show Disjoint (pointsBetween .murmur3 (.str (between 0 9).left.render)
    (.str (between 0 9).right.render)) (pointsBetween .murmur3 (.str (between 9 0).left.render)
      (.str (between 9 0).right.render))
  rw [pointsBetween_render hthere, pointsBetween_render hback]
  exact Arc.disjoint_points_swap _ (show (0 : Int) < 9 by decide)

theorem splits_local_twoRanges :
    (∃ splits, ((plan oneSeed .ok).run replaying twoRanges).result = .ok splits ∧
      ∀ s ∈ splits, ∃ i : Fin bothRanges.length, HasHostsOf .ok (bothRanges.get i) s.locations ∧
        ∀ j ≠ i, Disjoint ((bothRanges.get j).points .murmur3) (s.points .murmur3)) ∧
    ∃ (log : Log bothTasks) (left : Stage bothTasks) (splits : List Split),
      log.map (fun y => y.1.task) = bothTasks.reverse ∧
      Ends oneSeed.maxRetries log left (.ok splits) ∧
      ∀ s ∈ splits, IsLocal oneSeed .ok bothRanges (fun t parts =>
        t ∈ bothTasks ∧ ∃ es, Yields (subSplits oneSeed t) es (.ok parts)) s := by
  obtain ⟨hin, hapart⟩ := bothRanges_apart
  constructor
  · obtain ⟨splits, hplan⟩ : ∃ splits, ((plan oneSeed .ok).run replaying twoRanges).result =
        .ok splits := exists_ok (by decide +kernel)
    refine ⟨splits, hplan, fun s hs => ?_⟩
    have hlocal := (splits_local oneSeed .ok).1 replaying twoRanges splits splits hplan
      (List.Perm.refl splits) s hs
    rw [ringRanges_twoRanges, usedAnswers_twoRanges] at hlocal
    obtain ⟨i, t, parts, ⟨-, hused⟩, hfrom, hdisjoint⟩ := hlocal
    refine ⟨i, hfrom.hosts, hdisjoint hin hapart ?_⟩
    -- every answer is one part, which goes all over its task
    obtain ⟨t, ht, hparts⟩ := List.mem_map.1 hused
    obtain ⟨rfl, rfl⟩ := Prod.mk.inj hparts
    obtain ⟨r, hr, rfl⟩ := List.mem_map.1 ht
    exact List.forall_mem_singleton.2 ⟨hin r hr, subset_rfl⟩
  · -- the second task is read first
    let later : Attempt bothTasks := ⟨⟨1, by decide⟩, 0⟩
    let earlier : Attempt bothTasks := ⟨⟨0, by decide⟩, 0⟩
    have hlater : ((attempt oneSeed .ok later.task).run replaying (twoRanges.drop 4)).result.isOk =
        true := by decide +kernel
    have hearlier : ((attempt oneSeed .ok earlier.task).run replaying
        (twoRanges.drop 2)).result.isOk = true := by decide +kernel
    obtain ⟨first, hfirst⟩ := exists_ok hlater
    obtain ⟨second, hsecond⟩ := exists_ok hearlier
    have hreach : Reaches oneSeed.maxRetries [(later, .ok first)] ⟨[earlier], first, 0⟩ :=
      .settle .start (show _ = [_] ++ _ :: [] from rfl) (Stage.settle_ok ..)
    have hends : Ends oneSeed.maxRetries [(later, .ok first), (earlier, .ok second)]
        ⟨[], first ++ second, 0⟩ (.ok (first ++ second)) :=
      .returned (.settle hreach (show _ = [] ++ _ :: [] from rfl) (Stage.settle_ok ..)) rfl
    refine ⟨_, _, _, rfl, hends, (splits_local oneSeed .ok).2 bothRanges bothTasks _ _ _ _
      restrict_bothRanges hends ?_ (List.Perm.refl _)⟩
    intro a found ha
    rcases List.mem_pair.1 ha with hsame | hsame
    · obtain ⟨rfl, hfound⟩ := Prod.mk.inj hsame
      rw [hfound, ← hfirst]
      exact ⟨_, Dialogue.yields_transcript replaying _ _⟩
    · obtain ⟨rfl, hfound⟩ := Prod.mk.inj hsame
      rw [hfound, ← hsecond]
      exact ⟨_, Dialogue.yields_transcript replaying _ _⟩

/-- Both sides of the end of the ring have the host of their range. -/
example :
    (((plan oneSeed .ok).run replaying twoRanges).result.toOption.getD []).map
        (fun s => (s.startToken, s.endToken, s.locations)) =
      [(.str "0", .str "9", [.str "a", .str "c"]),
        (.str "9", .str "9223372036854775807", [.str "d"]),
        (.str "-9223372036854775808", .str "0", [.str "d"])] := by
  decide +kernel

end RingScan.Plan

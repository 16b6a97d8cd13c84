import RingScan.Proofs.Plan.ExactlyOnce
import RingScan.Proofs.Plan.Points
import RingScan.Proofs.Ring.Overlap

set_option autoImplicit false

/-! # The splits of a pass cover the ring

A pass asks for the ranges of the ring, narrows them to its restriction, and collects the splits of
what nodes answer for the tasks. If the ranges do not meet and every answer that is used tiles its
task, the splits tile what the ranges have in common with the restriction (`splits_tile_ring`):
every point is read, and it is read once.

That is shown for every collection of the tasks, in whatever order its attempts are settled, as long
as its successes are made of such answers (`tiles_of_ends`). A pass is one of them (`plan_ends`). -/

namespace RingScan.Plan

open Collection (Ends Log Stage made)

variable {σ : Type} {c : Context} {resolve : Resolver} {net : Dialogue.Network σ} {x : σ}
  {splits : List Split}

/-! ## What a pass finds on its way -/

/-- The arc that a pass is restricted to. -/
def job (c : Context) : Option (Arc c.partitioner.Position) :=
  (jobArc c.partitioner c.keyRestriction?).toOption.join

/-- The ranges that a pass is told of. -/
def ringRanges (c : Context) (net : Dialogue.Network σ) (x : σ) : List TokenRange :=
  ((describeRing c).run net x).result.toOption.getD []

/-- The tasks of a pass. -/
def passTasks (c : Context) (net : Dialogue.Network σ) (x : σ) : List Task :=
  (restrict (.int c.splitSize) (job c) (ringRanges c net x)).toOption.getD []

/-- The answers that a pass uses: for every attempt that gives splits, its task and the parts that
    the task is cut into. -/
def usedAnswers (c : Context) (resolve : Resolver) (net : Dialogue.Network σ) (x : σ) :
    List (Task × List SubSplit) :=
  (made c.maxRetries (attempt c resolve) net (.ofTasks (passTasks c net x))
      ((describeRing c).run net x).state).filterMap fun m =>
    match ((subSplits c m.1).run net m.2).result with
    | .ok parts =>
        (assembleAll c.partitioner resolve m.1.range parts).toOption.map fun _ => (m.1, parts)
    | .error _ => none

/-- What a pass did that returned. -/
theorem plan_ok (h : ((plan c resolve).run net x).result = .ok splits) :
    jobArc c.partitioner c.keyRestriction? = .ok (job c) ∧
      ((describeRing c).run net x).result = .ok (ringRanges c net x) ∧
      restrict (.int c.splitSize) (job c) (ringRanges c net x) = .ok (passTasks c net x) ∧
      ((Collection.run c.maxRetries (workersFor c (passTasks c net x).length) (attempt c resolve)
        (passTasks c net x)).run net ((describeRing c).run net x).state).result = .ok splits := by
  unfold plan at h
  cases hjob : jobArc c.partitioner c.keyRestriction? with
  | error e => simp [hjob, Dialogue.fail, Dialogue.run] at h
  | ok job? =>
    have hjob? : job c = job? := by simp [job, hjob, Except.toOption]
    rw [hjob] at h
    simp only [Dialogue.result_bind] at h
    cases hring : ((describeRing c).run net x).result with
    | error e => simp [hring] at h
    | ok ranges =>
      have hranges : ringRanges c net x = ranges := by simp [ringRanges, hring, Except.toOption]
      simp only [hring] at h
      cases htasks : restrict (.int c.splitSize) job? ranges with
      | error f => simp [htasks, Dialogue.fail, Dialogue.run] at h
      | ok tasks =>
        have hpass : passTasks c net x = tasks := by
          simp [passTasks, hjob?, hranges, htasks, Except.toOption]
        simp only [htasks, collect, Dialogue.result_bind] at h
        refine ⟨by rw [hjob?], by rw [hranges], by rw [hjob?, hranges, hpass, htasks], ?_⟩
        rw [hpass]
        revert h
        cases ((Collection.run c.maxRetries (workersFor c tasks.length) (attempt c resolve)
          tasks).run net ((describeRing c).run net x).state).result with
        | error e => simp
        | ok found =>
          intro h
          simp only at h
          split at h
          · simp [Dialogue.fail, Dialogue.run] at h
          · exact h

/-- What an attempt that gives splits did. -/
theorem attempt_ok {t : Task} {y : σ}
    (h : ((attempt c resolve t).run net y).result = .ok splits) :
    ∃ parts, ((subSplits c t).run net y).result = .ok parts ∧
      assembleAll c.partitioner resolve t.range parts = .ok splits := by
  rw [attempt, Dialogue.result_bind] at h
  cases hparts : ((subSplits c t).run net y).result with
  | error e => simp [hparts] at h
  | ok parts => exact ⟨parts, rfl, by simpa [hparts, Dialogue.run] using h⟩

/-! ## Passes as collections -/

/-- Whether the successes of a log are made of answers that tasks were told. -/
def IsMadeOf (c : Context) (resolve : Resolver) (told : Task → List SubSplit → Prop)
    {tasks : List Task} (log : Log tasks) : Prop :=
  ∀ a found, (a, .ok found) ∈ log → ∃ parts, told a.task parts ∧
    assembleAll c.partitioner resolve a.task.range parts = .ok found

/-- A pass that returns is a collection of its tasks, made of the answers that it used. So what
    holds of collections, in whatever order attempts are settled, holds of passes. -/
theorem plan_ends (h : ((plan c resolve).run net x).result = .ok splits) :
    ∃ (log : Log (passTasks c net x)) (left : Stage (passTasks c net x)),
      Ends c.maxRetries log left (.ok splits) ∧
      IsMadeOf c resolve (fun t parts => (t, parts) ∈ usedAnswers c resolve net x) log := by
  obtain ⟨-, -, -, hrun⟩ := plan_ok h
  obtain ⟨log, left, hends, hlog, -⟩ := Collection.run_ends c.maxRetries
    (workersFor c (passTasks c net x).length) (attempt c resolve) net (passTasks c net x)
    ((describeRing c).run net x).state
  rw [hrun] at hends
  refine ⟨log, left, hends, fun a found ha => ?_⟩
  obtain ⟨y, hmade, hresult⟩ := Collection.exists_made hlog ha
  obtain ⟨parts, hparts, hassemble⟩ := attempt_ok hresult
  refine ⟨parts, List.mem_filterMap.2 ⟨_, hmade, ?_⟩, hassemble⟩
  simp [hparts, hassemble, Except.toOption]

/-- The splits of a collection are those of answers, one for every task. -/
theorem IsMadeOf.exists_answers {told : Task → List SubSplit → Prop} {tasks : List Task}
    {log : Log tasks} {left : Stage tasks} {limit : ℕ} (h : IsMadeOf c resolve told log)
    (hends : Ends limit log left (.ok splits)) :
    ∃ found : List (Task × List Split),
      (found.map Prod.fst).Perm tasks ∧ splits = found.flatMap Prod.snd ∧
      ∀ y ∈ found, ∃ parts, told y.1 parts ∧
        assembleAll c.partitioner resolve y.1.range parts = .ok y.2 := by
  obtain ⟨found, hperm, hflat, hfound⟩ := hends.exists_found
  refine ⟨found, hperm, hflat, fun y hy => ?_⟩
  obtain ⟨a, ha, hlog⟩ := hfound y hy
  rw [← ha]
  exact h a y.2 hlog

theorem within_of_mem_job : ∀ a ∈ job c, a.Within c.partitioner.ring := by
  intro a ha
  unfold job at ha
  cases hjob : jobArc c.partitioner c.keyRestriction? with
  | error e => simp [hjob, Except.toOption] at ha
  | ok job? =>
    obtain rfl : job? = some a := by simpa [hjob, Except.toOption] using ha
    exact within_jobArc hjob

/-! ## Coverage -/

/-- The splits of a collection tile what the ranges have in common with the restriction, in whatever
    order its attempts are settled and its splits are handed out, as long as the ranges do not meet
    and its successes are made of answers that tile their tasks. -/
theorem tiles_of_ends {ranges : List TokenRange} {tasks : List Task} {log : Log tasks}
    {left : Stage tasks} {limit : ℕ} {told : Task → List SubSplit → Prop} {handed : List Split}
    (htasks : restrict (.int c.splitSize) (job c) ranges = .ok tasks)
    (hends : Ends limit log left (.ok splits)) (hmade : IsMadeOf c resolve told log)
    (horder : handed.Perm splits)
    (hin : ∀ r ∈ ranges, InRing c.partitioner r.startToken r.endToken)
    (hapart : ranges.Pairwise fun r s => Disjoint (r.points c.partitioner) (s.points c.partitioner))
    (hanswers : ∀ t parts, told t parts →
      (∀ s ∈ parts, InRing c.partitioner s.startToken s.endToken) ∧
        Tiles (SubSplit.points c.partitioner) parts (t.range.points c.partitioner)) :
    (∀ s ∈ handed, InRing c.partitioner s.startToken s.endToken) ∧
      Tiles (Split.points c.partitioner) handed
        ((⋃ r ∈ ranges, r.points c.partitioner) ∩ jobPoints (job c)) := by
  obtain ⟨found, hperm, rfl, hfound⟩ := hmade.exists_answers hends
  have hring : Tiles (TokenRange.points c.partitioner) ranges
      (⋃ r ∈ ranges, r.points c.partitioner) := ⟨hapart, rfl⟩
  have hpass := (tiles_restrict within_of_mem_job hin hring htasks).perm hperm.symm
  -- the tasks tile what is to be read, and the splits of every task tile the task
  have hsplits : ∀ y ∈ found,
      Tiles (Split.points c.partitioner) y.2 (y.1.range.points c.partitioner) := by
    intro y hy
    obtain ⟨parts, htold, hassemble⟩ := hfound y hy
    obtain ⟨hparts, hcut⟩ := hanswers _ _ htold
    exact tiles_assembleAll hcut hparts hassemble
  refine ⟨fun s hs => ?_, ((Tiles.map_iff.1 hpass).flatMap hsplits).perm horder.symm⟩
  obtain ⟨y, hy, hs⟩ := List.mem_flatMap.1 (horder.mem_iff.1 hs)
  obtain ⟨parts, htold, hassemble⟩ := hfound y hy
  exact inRing_assembleAll (hanswers _ _ htold).1 hassemble s hs

/-- **Coverage.** The splits of a pass, in whatever order they are handed out, lie between bounds of
    the ring and tile what the ranges of the ring have in common with the restriction, so that every
    point of these is read by one split and by no other. The ranges may not meet, and every answer
    that is used must tile its task; all of their tokens must be bounds of the ring. -/
theorem splits_tile_ring {handed : List Split}
    (hplan : ((plan c resolve).run net x).result = .ok splits) (horder : handed.Perm splits)
    (hin : ∀ r ∈ ringRanges c net x, InRing c.partitioner r.startToken r.endToken)
    (hapart : (ringRanges c net x).Pairwise fun r s =>
      Disjoint (r.points c.partitioner) (s.points c.partitioner))
    (hanswers : ∀ y ∈ usedAnswers c resolve net x,
      (∀ s ∈ y.2, InRing c.partitioner s.startToken s.endToken) ∧
        Tiles (SubSplit.points c.partitioner) y.2 (y.1.range.points c.partitioner)) :
    (∀ s ∈ handed, InRing c.partitioner s.startToken s.endToken) ∧
      Tiles (Split.points c.partitioner) handed
        ((⋃ r ∈ ringRanges c net x, r.points c.partitioner) ∩ jobPoints (job c)) ∧
      ∀ t ∈ (⋃ r ∈ ringRanges c net x, r.points c.partitioner) ∩ jobPoints (job c),
        ∃! i : Fin handed.length, t ∈ handed[i].points c.partitioner := by
  obtain ⟨-, -, htasks, -⟩ := plan_ok hplan
  obtain ⟨log, left, hends, hmade⟩ := plan_ends hplan
  obtain ⟨hbounds, htiles⟩ := tiles_of_ends htasks hends hmade horder hin hapart
    fun t parts hused => hanswers (t, parts) hused
  exact ⟨hbounds, htiles, fun t ht => htiles.existsUnique ht⟩

/-! ## A pass over one range -/

/-- A context for one seed, without a restriction. -/
def oneSeed : Context where
  keyspace := "k"
  table := "t"
  seeds := ["a"]
  partitioner := .murmur3
  rpcPort := 9160
  splitSize := 64
  maxThreads := 0
  maxRetries := 0
  keyRestriction? := none
  username? := none
  password? := none
  connectTimeout := .seconds 10
  requestTimeout := .seconds 180
  keyspace_ne := by decide
  table_ne := by decide
  seeds_ne := by decide
  splitSize_pos := by decide

/-- A network that answers with texts that were written beforehand, one after the other. -/
def replaying : Dialogue.Network (List String)
  | [], _ => (.failure .connection, [])
  | text :: rest, _ => (.reply ⟨200, text, []⟩, rest)

/-- The answers to a pass over a ring of one range, which goes all around from zero to zero. -/
def allAround : List String := [
  "\x7b\x7d",
  "\x7b\"ranges\":[\x7b\"startToken\":\"0\",\"endToken\":\"0\",\"endpoints\":[\"a\"]," ++
    "\"rpcEndpoints\":[\"\"]\x7d]\x7d",
  "\x7b\x7d",
  "\x7b\"splits\":[\x7b\"startToken\":\"0\",\"endToken\":\"0\",\"rowCount\":7\x7d]\x7d"]

theorem exists_ok {ε α : Type} {result : Except ε α} (h : result.isOk = true) :
    ∃ a, result = .ok a := by
  cases result with
  | error e => simp [Except.isOk, Except.toBool] at h
  | ok a => exact ⟨a, rfl⟩

theorem splits_tile_ring_allAround :
    ∃ splits, ((plan oneSeed .ok).run replaying allAround).result = .ok splits ∧
      Tiles (Split.points oneSeed.partitioner) splits
        ((⋃ r ∈ ringRanges oneSeed replaying allAround, r.points oneSeed.partitioner) ∩
          jobPoints (job oneSeed)) := by
  have hplan : ∃ splits, ((plan oneSeed .ok).run replaying allAround).result = .ok splits :=
    exists_ok (by decide +kernel)
  have hring : (ringRanges oneSeed replaying allAround).map (fun r => (r.startToken, r.endToken)) =
      [(.str "0", .str "0")] := by decide +kernel
  have hanswers : (usedAnswers oneSeed .ok replaying allAround).map (fun y =>
      (y.1.range.startToken, y.1.range.endToken, y.2.map fun s => (s.startToken, s.endToken))) =
      [(.str "0", .str "0", [(.str "0", .str "0")])] := by decide +kernel
  have haround : (TokenArc.between 0 0).Within (Partitioner.ring .murmur3) :=
    TokenArc.within_between (by decide) (by decide) (by decide) (by decide)
  have hzero : InRing oneSeed.partitioner (.str "0") (.str "0") := inRing_render haround
  obtain ⟨splits, hplan⟩ := hplan
  obtain ⟨r, hr, hbounds⟩ := List.map_eq_singleton_iff.1 hring
  obtain ⟨y, hy, hparts⟩ := List.map_eq_singleton_iff.1 hanswers
  obtain ⟨hstart, hstop⟩ := Prod.mk.inj hbounds
  simp only [Prod.mk.injEq, List.map_eq_singleton_iff] at hparts
  obtain ⟨hstart', hstop', s, hs, hstart'', hstop''⟩ := hparts
  have hsame : s.points oneSeed.partitioner = y.1.range.points oneSeed.partitioner := by
    rw [SubSplit.points, TokenRange.points, hstart', hstop', hstart'', hstop'']
  refine ⟨splits, hplan, (splits_tile_ring hplan (List.Perm.refl splits) ?_ ?_ ?_).2.1⟩
  · rw [hr]
    simpa [hstart, hstop] using hzero
  · rw [hr]
    exact List.pairwise_singleton _ r
  · rw [hy]
    refine List.forall_mem_singleton.2 ⟨?_, ?_⟩
    · rw [hs]
      simpa [hstart'', hstop''] using hzero
    · rw [hs, ← hsame]
      exact Tiles.singleton s

end RingScan.Plan

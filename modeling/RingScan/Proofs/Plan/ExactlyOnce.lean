import RingScan.Proofs.Plan.Schedule

set_option autoImplicit false

/-! # Every task is collected exactly once

Whatever attempts end with and in whatever order they are settled, at every place there is one
attempt that is pending or has given its splits. So the splits of a collection that returns are
those of one successful attempt for each task, one task after the other. -/

namespace RingScan.Plan.Collection

variable {tasks : List Task} {log : Log tasks} {s : Stage tasks}

/-- The tasks that are pending and those that gave splits are all tasks, equal ones told apart. -/
theorem Accounts.tasks_perm (h : Accounts log s) :
    (s.pending.map Attempt.task ++ (successes log).map fun x => x.1.task).Perm tasks := by
  have hmap := h.places.map tasks.get
  rw [List.map_get_finRange, ← Attempt.map_task_eq] at hmap
  simpa [latest, Function.comp_def] using hmap

/-- When nothing is pending any more, every place has given splits once. -/
theorem Accounts.places_perm (h : Accounts log s) (hp : s.pending = []) :
    ((successes log).map fun x => x.1.place).Perm (List.finRange tasks.length) := by
  simpa [latest, hp, Function.comp_def] using h.places

/-- Of a list with one item for every place, the items at a place are a single one. -/
theorem exists_filter_place_eq {β : Type} {xs : List (Attempt tasks × β)}
    (h : (xs.map fun x => x.1.place).Perm (List.finRange tasks.length)) (i : Fin tasks.length) :
    ∃ x, xs.filter (fun x => x.1.place = i) = [x] := by
  have hcount : (xs.filter fun x => x.1.place = i).length = 1 := by
    rw [← List.countP_eq_length_filter]
    have := h.count_eq i
    rw [List.count_finRange, List.count, List.countP_map] at this
    rw [← this]
    rfl
  exact List.length_eq_one_iff.1 hcount

/-- The splits of a collection that returns, by the attempts that gave them. -/
theorem Accounts.exists_chosen (h : Accounts log s) (hp : s.pending = []) :
    ∃ chosen : Fin tasks.length → Attempt tasks × List Split,
      (∀ i, (successes log).filter (fun x => x.1.place = i) = [chosen i]) ∧
      ∃ order : List (Fin tasks.length), order.Perm (List.finRange tasks.length) ∧
        s.splits = order.flatMap fun i => (chosen i).2 := by
  have hplaces := h.places_perm hp
  choose chosen hchosen using exists_filter_place_eq hplaces
  refine ⟨chosen, hchosen, _, hplaces, ?_⟩
  -- the order of the splits is that of the successes
  have hself : ∀ x ∈ successes log, chosen x.1.place = x := by
    intro x hx
    have hmem : x ∈ (successes log).filter fun y => y.1.place = x.1.place := by simpa using hx
    rw [hchosen] at hmem
    exact (List.mem_singleton.1 hmem).symm
  rw [h.splits, List.flatMap_map]
  exact List.flatMap_congr fun x hx => by rw [hself x hx]

/-! ## Ends

What holds of a collection that ends does not depend on the order in which its attempts were
settled. -/

/-- What a collection returns is what one successful attempt at every task gave. -/
theorem Ends.exists_found {limit : ℕ} {splits : List Split} (h : Ends limit log s (.ok splits)) :
    ∃ found : List (Task × List Split),
      (found.map Prod.fst).Perm tasks ∧ splits = found.flatMap Prod.snd ∧
      ∀ y ∈ found, ∃ a, a.task = y.1 ∧ (a, .ok y.2) ∈ log := by
  cases h with
  | returned hreach hp =>
    have accounts := hreach.accounts
    refine ⟨(successes log).map fun y => (y.1.task, y.2), ?_, ?_, ?_⟩
    · simpa [hp, Function.comp_def] using accounts.tasks_perm
    · rw [accounts.splits, List.flatMap_map]
    · intro y hy
      obtain ⟨⟨a, found⟩, ha, rfl⟩ := List.mem_map.1 hy
      exact ⟨a, rfl, mem_successes.1 ha⟩

/-- If no attempt fails, a collection returns and has handed in no attempt again. -/
theorem Ends.exists_ok {limit : ℕ} {ending : Ending} (h : Ends limit log s ending)
    (hok : ∀ a e, (a, .error e) ∉ log) :
    (∃ splits, ending = .ok splits) ∧ s.pending = [] ∧ s.retries = 0 := by
  cases h with
  | returned hreach hp =>
    have hfailures : failures log = [] :=
      List.eq_nil_iff_forall_not_mem.2 fun y hy => hok y.1 y.2 (mem_failures.1 hy)
    exact ⟨⟨_, rfl⟩, hp, by rw [hreach.accounts.retries, hfailures, List.length_nil]⟩
  | raised hreach hp he =>
    obtain ⟨e, rfl, -⟩ := Stage.settle_eq_error he
    exact absurd (List.mem_append_right _ (List.mem_singleton_self _)) (hok _ e)

/-! ## Runs -/

/-- Every attempt in the log of a run was made. -/
theorem exists_made {σ : Type} {net : Dialogue.Network σ}
    {attempt : Task → Dialogue PlanningError (List Split)} {ms : List (Task × σ)}
    {a : Attempt tasks} {ending : Ending}
    (hlog : log.map (fun y => (y.1.task, y.2)) = endings attempt net ms) (h : (a, ending) ∈ log) :
    ∃ y, (a.task, y) ∈ ms ∧ ((attempt a.task).run net y).result = ending := by
  have hmem : (a.task, ending) ∈ log.map fun y => (y.1.task, y.2) := List.mem_map.2 ⟨_, h, rfl⟩
  rw [hlog] at hmem
  obtain ⟨⟨t, y⟩, hy, heq⟩ := List.mem_map.1 hmem
  obtain ⟨rfl, rfl⟩ := Prod.mk.inj heq
  exact ⟨y, hy, rfl⟩

/-- **Exactly-once collection.** For any tasks, any endings of attempts and any order in which they
    are settled: the tasks of the pending attempts and those that gave splits are all tasks; a
    failed attempt contributes no splits; and behind the first attempts, exactly one attempt is
    handed in for every failed one, at the very place that failed. A collection that returns gives
    the splits of the one successful attempt of every task, in their own order, one task after the
    other. The collection that is run on a network is one of these. -/
theorem collected_exactly_once (limit : ℕ) (tasks : List Task) :
    (∀ (log : Log tasks) (s : Stage tasks), Reaches limit log s →
      (s.pending.map Attempt.task ++ (successes log).map fun x => x.1.task).Perm tasks ∧
        s.splits = (successes log).flatMap Prod.snd ∧
        (s.pending ++ log.map Prod.fst).Perm
          (Attempt.firsts tasks ++ (failures log).map fun x => x.1.again)) ∧
    (∀ (log : Log tasks) (s : Stage tasks) (splits : List Split), Ends limit log s (.ok splits) →
      ∃ chosen : Fin tasks.length → Attempt tasks × List Split,
        (∀ i, (successes log).filter (fun x => x.1.place = i) = [chosen i]) ∧
        ∃ order : List (Fin tasks.length), order.Perm (List.finRange tasks.length) ∧
          splits = order.flatMap fun i => (chosen i).2) ∧
    ∀ {σ : Type} (net : Dialogue.Network σ) (x : σ) (workers : ℕ)
      (attempt : Task → Dialogue PlanningError (List Split)),
      ∃ (log : Log tasks) (left : Stage tasks),
        Ends limit log left ((Collection.run limit workers attempt tasks).run net x).result ∧
        log.map (fun y => (y.1.task, y.2)) =
          endings attempt net (made limit attempt net (.ofTasks tasks) x) := by
  refine ⟨fun log s h => ?_, fun log s splits h => ?_, fun net x workers attempt => ?_⟩
  · have accounts := h.accounts
    exact ⟨accounts.tasks_perm, accounts.splits, accounts.handedIn⟩
  · cases h with
    | returned h hp => exact h.accounts.exists_chosen hp
  · obtain ⟨log, left, hends, hlog, -⟩ := run_ends limit workers attempt net tasks x
    exact ⟨log, left, hends, hlog⟩

end RingScan.Plan.Collection

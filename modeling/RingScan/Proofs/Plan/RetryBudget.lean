import RingScan.Proofs.Plan.Schedule

set_option autoImplicit false

/-! # The budget of failures

All tasks share one limit of failures. A `Script` fixes what every attempt at every place ends with;
its `failures` are those before the first success at every place, counted over all places. Whether a
collection returns only depends on whether these are more than the limit, and what it returns does
not depend on the order in which attempts are settled (`shared_retry_budget`).

The bridge between a script and the stages of a collection is `Accounts.failed`: the failures that
the standing attempts know of are as many as the retries. Each of them is at most what the script
has in store for its place, and just that once the attempt has succeeded. -/

namespace RingScan.Plan.Collection

variable {tasks : List Task}

/-! ## Scripts -/

/-- What the attempts at every place end with: the first one, the second one, and so on. -/
abbrev Script (tasks : List Task) := Fin tasks.length → ℕ → Ending

namespace Script

/-- The failures at a place before an attempt succeeds; there is no end of them if none does. -/
noncomputable def failuresAt (f : Script tasks) (i : Fin tasks.length) : ℕ∞ :=
  ⨅ k ∈ {k : ℕ | ∃ splits, f i k = .ok splits}, (k : ℕ∞)

/-- The failures at all places. -/
noncomputable def failures (f : Script tasks) : ℕ∞ := ∑ i, f.failuresAt i

/-- The splits of the first success at a place. -/
noncomputable def splitsAt (f : Script tasks) (i : Fin tasks.length) : List Split :=
  match f i (f.failuresAt i).toNat with
  | .ok splits => splits
  | .error _ => []

/-- All failures are ordinary ones. -/
def Ordinary (f : Script tasks) : Prop := ∀ i k e, f i k = .error e → e.isInvariant = false

theorem le_failuresAt {f : Script tasks} {a : Attempt tasks}
    (h : ∀ k < a.failed, ∃ e, f a.place k = .error e) : (a.failed : ℕ∞) ≤ f.failuresAt a.place := by
  refine le_iInf₂ fun k hk => ?_
  obtain ⟨splits, hsplits⟩ := hk
  rw [Nat.cast_le]
  by_contra hlt
  obtain ⟨e, he⟩ := h k (Nat.lt_of_not_le hlt)
  simp [he] at hsplits

theorem failuresAt_le {f : Script tasks} {a : Attempt tasks} {splits : List Split}
    (h : f a.place a.failed = .ok splits) : f.failuresAt a.place ≤ a.failed :=
  iInf₂_le a.failed ⟨splits, h⟩

/-- A log in which every attempt ends as the script has it. -/
def Plays (f : Script tasks) (log : Log tasks) : Prop := ∀ x ∈ log, x.2 = f x.1.place x.1.failed

theorem Plays.append {f : Script tasks} {log : Log tasks} {a : Attempt tasks} (h : f.Plays log) :
    f.Plays (log ++ [(a, f a.place a.failed)]) := by
  intro x hx
  rcases List.mem_append.1 hx with hx | hx
  · exact h x hx
  · rw [List.mem_singleton.1 hx]

theorem Plays.of_append {f : Script tasks} {log : Log tasks} {a : Attempt tasks} {ending : Ending}
    (h : f.Plays (log ++ [(a, ending)])) : f.Plays log ∧ ending = f a.place a.failed :=
  ⟨fun x hx => h x (List.mem_append_left _ hx), h (a, ending) (by simp)⟩

end Script

/-! ## What the accounts say of a script -/

section Accounts

variable {f : Script tasks} {log : Log tasks} {s : Stage tasks}

/-- All attempts at a place before one that was handed in have failed. -/
theorem Accounts.failed_before (h : Accounts log s) {a : Attempt tasks}
    (ha : a ∈ s.pending ++ log.map Prod.fst) :
    ∀ k < a.failed, ∃ e, ((⟨a.place, k⟩ : Attempt tasks), .error e) ∈ log := by
  obtain ⟨i, n⟩ := a
  induction n with
  | zero => simp
  | succ n ih =>
    -- an attempt that is not a first one was handed in for a failure at its place
    obtain ⟨b, e, hb, hagain⟩ : ∃ b e, (b, e) ∈ failures log ∧ b.again = ⟨i, n + 1⟩ := by
      rcases List.mem_append.1 (h.handedIn.mem_iff.1 ha) with hfirst | hmore
      · exact absurd (Attempt.failed_of_mem_firsts hfirst) (Nat.succ_ne_zero n)
      · obtain ⟨⟨b, e⟩, hb, hagain⟩ := List.mem_map.1 hmore
        exact ⟨b, e, hb, hagain⟩
    obtain rfl : b = ⟨i, n⟩ := by
      cases b
      simpa [Attempt.again] using hagain
    have hlog := mem_failures.1 hb
    intro k hk
    rcases Nat.lt_succ_iff_lt_or_eq.1 hk with hlt | rfl
    · exact ih (List.mem_append_right _ (List.mem_map_of_mem hlog)) k hlt
    · exact ⟨e, hlog⟩

theorem Accounts.mem_handedIn {a : Attempt tasks} (ha : a ∈ latest log s) :
    a ∈ s.pending ++ log.map Prod.fst := by
  rcases List.mem_append.1 ha with hp | hs
  · exact List.mem_append_left _ hp
  · obtain ⟨⟨b, splits⟩, hb, rfl⟩ := List.mem_map.1 hs
    exact List.mem_append_right _ (List.mem_map_of_mem (mem_successes.1 hb))

/-- The attempts that stand for their places have not failed more often than the script has it. -/
theorem Accounts.failed_le (h : Accounts log s) (hf : f.Plays log) {a : Attempt tasks}
    (ha : a ∈ latest log s) : (a.failed : ℕ∞) ≤ f.failuresAt a.place := by
  refine Script.le_failuresAt fun k hk => ?_
  obtain ⟨e, he⟩ := h.failed_before (mem_handedIn ha) k hk
  exact ⟨e, (hf _ he).symm⟩

/-- What is added up over the standing attempts is added up over all places. -/
theorem Accounts.sum_latest (h : Accounts log s) (g : Fin tasks.length → ℕ∞) :
    ((latest log s).map fun a => g a.place).sum = ∑ i, g i := by
  have hsum := (h.places.map g).sum_eq
  rw [List.map_map] at hsum
  rw [Fin.sum_univ_def, ← hsum]
  rfl

theorem Accounts.retries_eq (h : Accounts log s) :
    (s.retries : ℕ∞) = ((latest log s).map fun a => (a.failed : ℕ∞)).sum := by
  rw [← h.failed, Nat.cast_list_sum, List.map_map]
  rfl

/-- There are no more retries than the script has failures. -/
theorem Accounts.retries_le_failures (h : Accounts log s) (hf : f.Plays log) :
    (s.retries : ℕ∞) ≤ f.failures := by
  rw [h.retries_eq, Script.failures, ← h.sum_latest]
  exact List.sum_le_sum fun a ha => h.failed_le hf ha

/-- A success comes after all failures that the script has at its place. -/
theorem Accounts.failed_eq (h : Accounts log s) (hf : f.Plays log) {a : Attempt tasks}
    {splits : List Split} (ha : (a, splits) ∈ successes log) :
    f.failuresAt a.place = a.failed := by
  have hlog := mem_successes.1 ha
  have hmem : a ∈ latest log s := List.mem_append_right _ (List.mem_map_of_mem ha)
  exact le_antisymm (Script.failuresAt_le (hf _ hlog).symm) (h.failed_le hf hmem)

/-- When nothing is pending, all failures of the script have been retried. -/
theorem Accounts.retries_eq_failures (h : Accounts log s) (hf : f.Plays log)
    (hp : s.pending = []) : (s.retries : ℕ∞) = f.failures := by
  rw [h.retries_eq, Script.failures, ← h.sum_latest]
  refine congrArg List.sum (List.map_congr_left fun a ha => ?_)
  rw [latest, hp, List.nil_append] at ha
  obtain ⟨⟨b, splits⟩, hb, rfl⟩ := List.mem_map.1 ha
  exact (h.failed_eq hf hb).symm

/-- When nothing is pending, the splits are those of the first success at every place. -/
theorem Accounts.splits_perm (h : Accounts log s) (hf : f.Plays log) (hp : s.pending = []) :
    s.splits.Perm ((List.finRange tasks.length).flatMap f.splitsAt) := by
  have hplaces : ((successes log).map fun x => x.1.place).Perm (List.finRange tasks.length) := by
    simpa [latest, hp, Function.comp_def] using h.places
  have hsplits : ∀ x ∈ successes log, x.2 = f.splitsAt x.1.place := by
    rintro ⟨a, splits⟩ hx
    have hend : f a.place a.failed = .ok splits := (hf _ (mem_successes.1 hx)).symm
    simp [Script.splitsAt, h.failed_eq hf hx, hend]
  have hflat : s.splits = ((successes log).map fun x => x.1.place).flatMap f.splitsAt := by
    rw [h.splits, List.flatMap_map]
    exact List.flatMap_congr hsplits
  rw [hflat]
  exact hplaces.flatMap_right _

/-- Every attempt that was handed in is settled or pending. -/
theorem Accounts.length_eq (h : Accounts log s) :
    log.length + s.pending.length = tasks.length + s.retries := by
  have := h.handedIn.length_eq
  simp only [List.length_append, List.length_map, Attempt.length_firsts] at this
  rw [h.retries]
  omega

end Accounts

/-! ## How collections end -/

section Ends

variable {limit : ℕ} {log : Log tasks}

/-- A collection goes on from ordinary failures only. -/
theorem Reaches.ordinary {s : Stage tasks} (h : Reaches limit log s) :
    ∀ a e, (a, .error e) ∈ log → e.isInvariant = false := by
  induction h with
  | start => simp
  | @settle log s t before after a ending h hp ht ih =>
    intro b e hb
    rcases List.mem_append.1 hb with hb | hb
    · exact ih b e hb
    · obtain ⟨rfl, rfl⟩ := Prod.mk.inj (List.mem_singleton.1 hb)
      rcases Stage.settle_eq_ok ht with ⟨splits, hsplits, -⟩ | ⟨e', he', hinv, -⟩
      · simp at hsplits
      · rwa [Except.error.inj he']

/-- The pending attempts without one of them. -/
theorem exists_settle {s : Stage tasks} (h : Reaches limit log s) {a : Attempt tasks}
    (ha : a ∈ s.pending) (ending : Ending) :
    ∃ rest : Stage tasks, rest.retries = s.retries ∧
      (∀ t, rest.settle limit a ending = .ok t → Reaches limit (log ++ [(a, ending)]) t) ∧
      ∀ e, rest.settle limit a ending = .error e →
        Ends limit (log ++ [(a, ending)]) rest (.error e) := by
  obtain ⟨before, after, hp⟩ := List.append_of_mem ha
  refine ⟨s.withPending (before ++ after), rfl, ?_, ?_⟩
  · exact fun t ht => h.settle hp ht
  · exact fun e he => .raised h hp he

/-- A collection that raises an error does so at the last attempt that was settled: the error is
    that of the attempt if it is an invariant violation, and otherwise no retry was left. -/
theorem Ends.of_error {left : Stage tasks} {g : PlanningError} (h : Ends limit log left (.error g)) :
    ∃ earlier s a e, log = earlier ++ [(a, .error e)] ∧ Reaches limit earlier s ∧ a ∈ s.pending ∧
      left.retries = s.retries ∧ left.pending.length + 1 = s.pending.length ∧
      (e.isInvariant = true ∧ g = e ∨
        e.isInvariant = false ∧ s.retries = limit ∧ g = .exhausted limit a.task e) := by
  cases h with
  | @raised earlier s before after a ending _ h hp he =>
    obtain ⟨e, rfl, hcases⟩ := Stage.settle_eq_error he
    refine ⟨earlier, s, a, e, rfl, h, by simp [hp], rfl, ?_, ?_⟩
    · simp only [hp, Stage.pending_withPending, List.length_append, List.length_cons]
      omega
    · rcases hcases with hinv | ⟨hord, hle, hg⟩
      · exact .inl hinv
      · have hlimit : s.retries = limit := le_antisymm h.retries_le hle
        exact .inr ⟨hord, hlimit, by rw [hg, Stage.retries_withPending, hlimit]⟩

/-- At the end every attempt that was handed in is settled or pending, and they are as many as there
    are tasks and retries. -/
theorem Ends.length_eq {left : Stage tasks} {result : Ending} (h : Ends limit log left result) :
    log.length + left.pending.length = tasks.length + left.retries ∧ left.retries ≤ limit := by
  cases result with
  | ok splits =>
    cases h with
    | returned h hp => exact ⟨h.accounts.length_eq, h.retries_le⟩
  | error g =>
    obtain ⟨earlier, s, a, e, rfl, hs, -, hretries, hpending, -⟩ := h.of_error
    have := hs.accounts.length_eq
    have := hs.retries_le
    simp only [List.length_append, List.length_cons, List.length_nil]
    omega

/-- A failure that is played is one that the script still had in store. -/
theorem Reaches.retries_lt_failures {f : Script tasks} {s : Stage tasks} (h : Reaches limit log s)
    (hf : f.Plays log) {a : Attempt tasks} (ha : a ∈ s.pending) {e : PlanningError}
    (he : f a.place a.failed = .error e) (hord : e.isInvariant = false) :
    (s.retries : ℕ∞) < f.failures := by
  -- with one retry more the failure could be made good, and the accounts would count it
  obtain ⟨before, after, hp⟩ := List.append_of_mem ha
  have hlt : (s.withPending (before ++ after)).retries < limit + 1 :=
    Nat.lt_succ_of_le h.retries_le
  have hnext := h.accounts.settle hp (Stage.settle_retry a hord hlt)
  have hplays : f.Plays (log ++ [(a, .error e)]) := he ▸ hf.append
  have hle := hnext.retries_le_failures hplays
  exact lt_of_lt_of_le (by exact_mod_cast Nat.lt_succ_self _) hle

/-- Within the limit, a collection returns what the script has at every place. -/
theorem Ends.of_failures_le {f : Script tasks} {left : Stage tasks} {result : Ending}
    (h : Ends limit log left result) (hf : f.Plays log) (hord : f.Ordinary)
    (hle : f.failures ≤ limit) :
    left.retries = f.failures ∧
      ∃ splits, result = .ok splits ∧
        splits.Perm ((List.finRange tasks.length).flatMap f.splitsAt) := by
  cases result with
  | ok splits =>
    cases h with
    | returned h hp =>
      exact ⟨h.accounts.retries_eq_failures hf hp, _, rfl, h.accounts.splits_perm hf hp⟩
  | error g =>
    -- all retries are spent, and yet the script has another failure in store
    exfalso
    obtain ⟨earlier, s, a, e, rfl, hs, ha, -, -, hcases⟩ := h.of_error
    obtain ⟨hearlier, he⟩ := hf.of_append
    have hinv := hord a.place a.failed e he.symm
    rcases hcases with ⟨hinv', -⟩ | ⟨-, hlimit, -⟩
    · simp [hinv] at hinv'
    · have hlt := hs.retries_lt_failures hearlier ha he.symm hinv
      rw [hlimit] at hlt
      exact absurd hle (not_le.2 hlt)

/-- Beyond the limit, a collection raises the first failure that is not made good. -/
theorem Ends.of_lt_failures {f : Script tasks} {left : Stage tasks} {result : Ending}
    (h : Ends limit log left result) (hf : f.Plays log) (hord : f.Ordinary)
    (hlt : limit < f.failures) :
    left.retries = limit ∧
      ∃ earlier a e, log = earlier ++ [(a, .error e)] ∧ (failures earlier).length = limit ∧
        result = .error (.exhausted limit a.task e) := by
  cases result with
  | ok splits =>
    -- to return, all failures of the script must have been retried
    exfalso
    cases h with
    | returned h hp =>
      have hle : (left.retries : ℕ∞) ≤ limit := by exact_mod_cast h.retries_le
      rw [h.accounts.retries_eq_failures hf hp] at hle
      exact absurd hlt (not_lt.2 hle)
  | error g =>
    obtain ⟨earlier, s, a, e, rfl, hs, -, hretries, -, hcases⟩ := h.of_error
    have hinv := hord a.place a.failed e hf.of_append.2.symm
    rcases hcases with ⟨hinv', -⟩ | ⟨-, hlimit, rfl⟩
    · simp [hinv] at hinv'
    · refine ⟨hretries.trans hlimit, earlier, a, e, rfl, ?_, rfl⟩
      rw [← hs.accounts.retries, hlimit]

/-- An invariant violation is the last thing that is settled, and it is raised as it is. -/
theorem Ends.of_invariant {left : Stage tasks} {result : Ending} (h : Ends limit log left result)
    {earlier later : Log tasks} {a : Attempt tasks} {e : PlanningError}
    (hlog : log = earlier ++ (a, .error e) :: later) (he : e.isInvariant = true) :
    later = [] ∧ result = .error e ∧ left.retries = (failures earlier).length := by
  have hmem : (a, .error e) ∈ log := by simp [hlog]
  cases result with
  | ok splits =>
    cases h with
    | returned h hp => simp [h.ordinary a e hmem] at he
  | error g =>
    obtain ⟨before, s, b, e', hbefore, hs, -, hretries, -, hcases⟩ := h.of_error
    rcases List.eq_nil_or_concat later with rfl | ⟨init, last, rfl⟩
    · obtain ⟨rfl, hlast⟩ := List.append_inj' (hlog.symm.trans hbefore) rfl
      obtain ⟨rfl, rfl⟩ : a = b ∧ e = e' := by simpa using hlast
      refine ⟨rfl, ?_, hretries.trans hs.accounts.retries⟩
      rcases hcases with ⟨-, rfl⟩ | ⟨hord, -⟩
      · rfl
      · simp [hord] at he
    · -- behind the violation there would be another attempt, but none is settled behind it
      rw [List.concat_eq_append, ← List.cons_append, ← List.append_assoc] at hlog
      obtain ⟨rfl, -⟩ := List.append_inj' (hlog.symm.trans hbefore) rfl
      have hord := hs.ordinary a e (by simp)
      simp [hord] at he

/-- An ordinary failure is made good by another attempt at its task, unless the collection ends with
    it. -/
theorem Ends.of_ordinary {left : Stage tasks} {result : Ending} (h : Ends limit log left result)
    {a : Attempt tasks} {e : PlanningError} (hmem : (a, .error e) ∈ log)
    (he : e.isInvariant = false) :
    a.again ∈ left.pending ++ log.map Prod.fst ∨ result = .error (.exhausted limit a.task e) := by
  -- as long as the collection goes on, an attempt is handed in for every failed one
  have hagain : ∀ {log : Log tasks} {s : Stage tasks}, Reaches limit log s → (a, .error e) ∈ log →
      a.again ∈ s.pending ++ log.map Prod.fst := fun hs hmem =>
    hs.accounts.handedIn.mem_iff.2 <|
      List.mem_append_right _ (List.mem_map.2 ⟨_, mem_failures.2 hmem, rfl⟩)
  cases h with
  | returned hs hp => exact .inl (hagain hs hmem)
  | @raised earlier s before after b ending g hs hp hg =>
    rcases List.mem_append.1 hmem with hmem | hlast
    · have := hagain hs hmem
      simp only [hp, List.mem_append, List.mem_cons, List.map_append, List.map_cons, List.map_nil,
        List.not_mem_nil, or_false, Stage.pending_withPending] at this ⊢
      tauto
    · obtain ⟨rfl, rfl⟩ := Prod.mk.inj (List.mem_singleton.1 hlast)
      obtain ⟨f, hf, hcases⟩ := Stage.settle_eq_error hg
      obtain rfl := Except.error.inj hf
      rcases hcases with ⟨hinv, -⟩ | ⟨-, hle, rfl⟩
      · simp [he] at hinv
      · have hlimit : s.retries = limit := le_antisymm hs.retries_le hle
        exact .inr (by rw [Stage.retries_withPending, hlimit])

end Ends

/-- **A shared budget of retries.** Whatever attempts end with, every order of settling them comes
    to an end: no more attempts are settled than there are tasks and retries, and as long as one is
    pending, any pending one can be settled.

    Let `f` fix what the attempts at every place end with, all failures being ordinary. If its
    failures are within the limit, every order returns, after just as many retries, and all orders
    return the same splits up to their order. If they are more than the limit, every order ends with
    the first failure beyond it, after `limit` retries; the error names the task of that failure and
    has the failure as its cause. In both cases the attempts that were handed in are at most
    `limit` more than the tasks.

    An attempt that violates an invariant ends the collection with its own error, and nothing is
    handed in any more. What a collection that is run on a network ends with, and what its pool
    reports, are those of one of these orders. -/
theorem shared_retry_budget (limit workers : ℕ) (tasks : List Task) :
    (∀ (log : Log tasks) (s : Stage tasks), Reaches limit log s →
      log.length ≤ tasks.length + limit ∧ (s.pending = [] → Ends limit log s (.ok s.splits)) ∧
        ∀ a ∈ s.pending, ∀ ending, (∃ t, Reaches limit (log ++ [(a, ending)]) t) ∨
          ∃ left e, Ends limit (log ++ [(a, ending)]) left (.error e)) ∧
    (∀ f : Script tasks, f.Ordinary →
      ∀ (log : Log tasks) (left : Stage tasks) (result : Ending),
        Ends limit log left result → f.Plays log →
        (f.failures ≤ limit → left.retries = f.failures ∧
          ∃ splits, result = .ok splits ∧
            splits.Perm ((List.finRange tasks.length).flatMap f.splitsAt)) ∧
        (limit < f.failures → left.retries = limit ∧
          ∃ earlier a e, log = earlier ++ [(a, .error e)] ∧ (failures earlier).length = limit ∧
            result = .error (.exhausted limit a.task e)) ∧
        (report workers tasks.length left.collection).submitted =
          log.length + left.pending.length ∧
        (report workers tasks.length left.collection).submitted ≤ tasks.length + limit) ∧
    (∀ (log : Log tasks) (s : Stage tasks), Reaches limit log s →
      ∀ a ∈ s.pending, ∀ e : PlanningError, e.isInvariant = true →
        (∃ left, Ends limit (log ++ [(a, .error e)]) left (.error e)) ∧
        (∀ later t, ¬ Reaches limit (log ++ (a, .error e) :: later) t) ∧
        ∀ later left result, Ends limit (log ++ (a, .error e) :: later) left result →
          later = [] ∧ result = .error e ∧ left.retries = s.retries) ∧
    ∀ {σ : Type} (net : Dialogue.Network σ) (x : σ)
      (attempt : Task → Dialogue PlanningError (List Split)),
      ∃ (log : Log tasks) (left : Stage tasks),
        Ends limit log left ((Collection.run limit workers attempt tasks).run net x).result ∧
        Dialogue.poolReport? ((Collection.run limit workers attempt tasks).run net x).events =
          some (report workers tasks.length left.collection) := by
  refine ⟨fun log s h => ⟨?_, fun hp => .returned h hp, fun a ha ending => ?_⟩,
    fun f hord log left result h hf => ?_, fun log s h a ha e he => ⟨?_, ?_, ?_⟩,
    fun net x attempt => ?_⟩
  · have := h.accounts.length_eq
    have := h.retries_le
    omega
  · obtain ⟨rest, -, hok, herror⟩ := exists_settle h ha ending
    cases ht : rest.settle limit a ending with
    | ok t => exact .inl ⟨t, hok t ht⟩
    | error e => exact .inr ⟨rest, e, herror e ht⟩
  · obtain ⟨hlength, hle⟩ := h.length_eq
    refine ⟨h.of_failures_le hf hord, h.of_lt_failures hf hord, hlength.symm, ?_⟩
    exact Nat.add_le_add_left hle tasks.length
  · obtain ⟨rest, -, -, herror⟩ := exists_settle h ha (.error e)
    exact ⟨rest, herror e (Stage.settle_invariant limit rest a he)⟩
  · intro later t ht
    have hord := ht.ordinary a e (by simp)
    simp [hord] at he
  · intro later left result hends
    obtain ⟨hlater, hresult, hretries⟩ := hends.of_invariant rfl he
    exact ⟨hlater, hresult, hretries.trans h.accounts.retries.symm⟩
  · obtain ⟨log, left, hends, -, events, hevents⟩ := run_ends limit workers attempt net tasks x
    exact ⟨log, left, hends, by simp [hevents, Dialogue.poolReport?, close]⟩

end RingScan.Plan.Collection

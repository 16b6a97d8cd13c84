import Mathlib
import RingScan.Plan.Collection

set_option autoImplicit false

/-! # Attempts in any order

`Collection.drain` always makes the attempt that is pending longest. Here any pending attempt may
be settled next. For that attempts are told apart: an `Attempt` knows the place of its task among
all tasks, and how many attempts at that place have failed before it. A `Stage` is a collection
whose attempts are told apart; what becomes of it when an attempt is settled is decided by
`Collection.settle`.

`Reaches` relates a log of settled attempts to the stage behind it, in whatever order the attempts
were settled, and `Ends` says how a collection ends. `Reaches.accounts` is the invariant that all
that is said of collections rests on, and `run_ends` says that a collection which is run on a
network is one of these. -/

namespace RingScan.Plan.Collection

/-! ## Attempts -/

/-- What an attempt ends with. -/
abbrev Ending := Except PlanningError (List Split)

/-- An attempt at one of the tasks. -/
@[ext]
structure Attempt (tasks : List Task) where
  /-- The place of its task. -/
  place : Fin tasks.length
  /-- How many attempts at this place have failed before. -/
  failed : ℕ
  deriving DecidableEq

/-- What was settled, and what it ended with. -/
abbrev Log (tasks : List Task) := List (Attempt tasks × Ending)

variable {tasks : List Task}

namespace Attempt

/-- The task that an attempt is at. -/
def task (a : Attempt tasks) : Task := tasks.get a.place

/-- The attempt that is handed in when an attempt has failed. -/
def again (a : Attempt tasks) : Attempt tasks := ⟨a.place, a.failed + 1⟩

@[simp] theorem place_again (a : Attempt tasks) : a.again.place = a.place := rfl

@[simp] theorem failed_again (a : Attempt tasks) : a.again.failed = a.failed + 1 := rfl

@[simp] theorem task_again (a : Attempt tasks) : a.again.task = a.task := rfl

/-- The first attempts at all tasks. -/
def firsts (tasks : List Task) : List (Attempt tasks) := (List.finRange tasks.length).map (⟨·, 0⟩)

@[simp] theorem map_place_firsts : (firsts tasks).map place = List.finRange tasks.length := by
  simp [firsts, Function.comp_def]

@[simp] theorem length_firsts : (firsts tasks).length = tasks.length := by simp [firsts]

theorem failed_of_mem_firsts {a : Attempt tasks} (h : a ∈ firsts tasks) : a.failed = 0 := by
  obtain ⟨i, -, rfl⟩ := List.mem_map.1 h
  rfl

/-- The tasks of attempts are known by their places. -/
theorem map_task_eq (as : List (Attempt tasks)) : as.map task = (as.map place).map tasks.get := by
  simp [task, Function.comp_def]

@[simp] theorem map_task_firsts : (firsts tasks).map task = tasks := by
  rw [map_task_eq, map_place_firsts, List.map_get_finRange]

end Attempt

/-! ## Stages -/

/-- Where a collection stands whose attempts are told apart. -/
structure Stage (tasks : List Task) where
  pending : List (Attempt tasks)
  splits : List Split
  retries : ℕ

namespace Stage

/-- The stage before any attempt. -/
def start (tasks : List Task) : Stage tasks := ⟨Attempt.firsts tasks, [], 0⟩

/-- The collection that a stage is when attempts at one task are not told apart. -/
def collection (s : Stage tasks) : Collection := ⟨s.pending.map Attempt.task, s.splits, s.retries⟩

@[simp] theorem collection_start : (start tasks).collection = .ofTasks tasks := by
  simp [collection, start, ofTasks]

/-- A stage with other pending attempts. -/
def withPending (s : Stage tasks) (as : List (Attempt tasks)) : Stage tasks :=
  { s with pending := as }

@[simp] theorem pending_withPending (s : Stage tasks) (as : List (Attempt tasks)) :
    (s.withPending as).pending = as := rfl

@[simp] theorem splits_withPending (s : Stage tasks) (as : List (Attempt tasks)) :
    (s.withPending as).splits = s.splits := rfl

@[simp] theorem retries_withPending (s : Stage tasks) (as : List (Attempt tasks)) :
    (s.withPending as).retries = s.retries := rfl

/-- The attempts that are handed in when an attempt has ended. -/
def handedIn (a : Attempt tasks) : Ending → List (Attempt tasks)
  | .ok _ => []
  | .error _ => [a.again]

/-- The stage after an attempt, where `s` is the stage without the attempt. -/
def settle (limit : ℕ) (s : Stage tasks) (a : Attempt tasks) (ending : Ending) :
    Except PlanningError (Stage tasks) :=
  (Collection.settle limit s.collection a.task ending).map fun c =>
    ⟨s.pending ++ handedIn a ending, c.splits, c.retries⟩

/-- Telling attempts apart changes nothing. -/
theorem map_collection_settle (limit : ℕ) (s : Stage tasks) (a : Attempt tasks) (ending : Ending) :
    (s.settle limit a ending).map collection =
      Collection.settle limit s.collection a.task ending := by
  cases ending with
  | ok splits => simp [settle, Collection.settle, Except.map, collection, handedIn]
  | error e =>
    simp only [settle, Collection.settle]
    split
    · rfl
    · split
      · rfl
      · simp [Except.map, collection, handedIn]

/-! What becomes of a stage, by the ways in which an attempt can end. -/

@[simp] theorem settle_ok (limit : ℕ) (s : Stage tasks) (a : Attempt tasks) (splits : List Split) :
    s.settle limit a (.ok splits) = .ok ⟨s.pending, s.splits ++ splits, s.retries⟩ := by
  simp [settle, Collection.settle, Except.map, collection, handedIn]

theorem settle_invariant (limit : ℕ) (s : Stage tasks) (a : Attempt tasks) {e : PlanningError}
    (he : e.isInvariant = true) : s.settle limit a (.error e) = .error e := by
  simp [settle, Collection.settle, Except.map, he]

theorem settle_exhausted {limit : ℕ} {s : Stage tasks} (a : Attempt tasks) {e : PlanningError}
    (he : e.isInvariant = false) (hl : limit ≤ s.retries) :
    s.settle limit a (.error e) = .error (.exhausted s.retries a.task e) := by
  simp [settle, Collection.settle, Except.map, collection, he, hl]

theorem settle_retry {limit : ℕ} {s : Stage tasks} (a : Attempt tasks) {e : PlanningError}
    (he : e.isInvariant = false) (hl : s.retries < limit) :
    s.settle limit a (.error e) = .ok ⟨s.pending ++ [a.again], s.splits, s.retries + 1⟩ := by
  simp [settle, Collection.settle, Except.map, collection, handedIn, he, Nat.not_le.2 hl]

/-- A collection goes on from an attempt in two ways only. -/
theorem settle_eq_ok {limit : ℕ} {s t : Stage tasks} {a : Attempt tasks} {ending : Ending}
    (h : s.settle limit a ending = .ok t) :
    (∃ splits, ending = .ok splits ∧ t = ⟨s.pending, s.splits ++ splits, s.retries⟩) ∨
      ∃ e, ending = .error e ∧ e.isInvariant = false ∧ s.retries < limit ∧
        t = ⟨s.pending ++ [a.again], s.splits, s.retries + 1⟩ := by
  cases ending with
  | ok splits =>
    rw [settle_ok] at h
    exact .inl ⟨splits, rfl, (Except.ok.inj h).symm⟩
  | error e =>
    refine .inr ⟨e, rfl, ?_⟩
    cases he : e.isInvariant with
    | true => simp [settle_invariant limit s a he] at h
    | false =>
      rcases Nat.lt_or_ge s.retries limit with hl | hl
      · rw [settle_retry a he hl] at h
        exact ⟨rfl, hl, (Except.ok.inj h).symm⟩
      · simp [settle_exhausted a he hl] at h

/-- A collection ends with an attempt in two ways only. -/
theorem settle_eq_error {limit : ℕ} {s : Stage tasks} {a : Attempt tasks} {ending : Ending}
    {f : PlanningError} (h : s.settle limit a ending = .error f) :
    ∃ e, ending = .error e ∧
      (e.isInvariant = true ∧ f = e ∨
        e.isInvariant = false ∧ limit ≤ s.retries ∧ f = .exhausted s.retries a.task e) := by
  cases ending with
  | ok splits => simp at h
  | error e =>
    refine ⟨e, rfl, ?_⟩
    cases he : e.isInvariant with
    | true =>
      rw [settle_invariant limit s a he] at h
      exact .inl ⟨rfl, (Except.error.inj h).symm⟩
    | false =>
      rcases Nat.lt_or_ge s.retries limit with hl | hl
      · simp [settle_retry a he hl] at h
      · rw [settle_exhausted a he hl] at h
        exact .inr ⟨rfl, hl, (Except.error.inj h).symm⟩

end Stage

/-! ## Logs -/

/-- The attempts of a log that gave splits. -/
def successes (log : Log tasks) : List (Attempt tasks × List Split) :=
  log.filterMap fun
    | (a, .ok splits) => some (a, splits)
    | (_, .error _) => none

/-- The attempts of a log that failed. -/
def failures (log : Log tasks) : List (Attempt tasks × PlanningError) :=
  log.filterMap fun
    | (_, .ok _) => none
    | (a, .error e) => some (a, e)

@[simp] theorem successes_nil : successes ([] : Log tasks) = [] := rfl

@[simp] theorem failures_nil : failures ([] : Log tasks) = [] := rfl

@[simp] theorem successes_append (log more : Log tasks) :
    successes (log ++ more) = successes log ++ successes more := List.filterMap_append ..

@[simp] theorem failures_append (log more : Log tasks) :
    failures (log ++ more) = failures log ++ failures more := List.filterMap_append ..

@[simp] theorem successes_ok (a : Attempt tasks) (splits : List Split) :
    successes [(a, .ok splits)] = [(a, splits)] := rfl

@[simp] theorem successes_error (a : Attempt tasks) (e : PlanningError) :
    successes [(a, .error e)] = [] := rfl

@[simp] theorem failures_ok (a : Attempt tasks) (splits : List Split) :
    failures [(a, .ok splits)] = [] := rfl

@[simp] theorem failures_error (a : Attempt tasks) (e : PlanningError) :
    failures [(a, .error e)] = [(a, e)] := rfl

theorem mem_successes {log : Log tasks} {a : Attempt tasks} {splits : List Split} :
    (a, splits) ∈ successes log ↔ (a, .ok splits) ∈ log := by
  rw [successes, List.mem_filterMap]
  constructor
  · rintro ⟨⟨b, ending⟩, hb, hx⟩
    cases ending <;> simp_all
  · exact fun h => ⟨_, h, rfl⟩

theorem mem_failures {log : Log tasks} {a : Attempt tasks} {e : PlanningError} :
    (a, e) ∈ failures log ↔ (a, .error e) ∈ log := by
  rw [failures, List.mem_filterMap]
  constructor
  · rintro ⟨⟨b, ending⟩, hb, hx⟩
    cases ending <;> simp_all
  · exact fun h => ⟨_, h, rfl⟩

/-! ## Reachable stages -/

/-- A stage that is reached when the attempts of a log are settled one after the other, each time
    any of those that are pending. -/
inductive Reaches (limit : ℕ) : Log tasks → Stage tasks → Prop
  | start : Reaches limit [] (.start tasks)
  | settle {log : Log tasks} {s t : Stage tasks} {before after : List (Attempt tasks)}
      {a : Attempt tasks} {ending : Ending} (h : Reaches limit log s)
      (hp : s.pending = before ++ a :: after)
      (ht : (s.withPending (before ++ after)).settle limit a ending = .ok t) :
      Reaches limit (log ++ [(a, ending)]) t

/-- How a collection ends: nothing is pending any more, or an attempt raises an error. The stage is
    the one that the collection is left in. -/
inductive Ends (limit : ℕ) : Log tasks → Stage tasks → Ending → Prop
  | returned {log : Log tasks} {s : Stage tasks} (h : Reaches limit log s) (hp : s.pending = []) :
      Ends limit log s (.ok s.splits)
  | raised {log : Log tasks} {s : Stage tasks} {before after : List (Attempt tasks)}
      {a : Attempt tasks} {ending : Ending} {e : PlanningError} (h : Reaches limit log s)
      (hp : s.pending = before ++ a :: after)
      (he : (s.withPending (before ++ after)).settle limit a ending = .error e) :
      Ends limit (log ++ [(a, ending)]) (s.withPending (before ++ after)) (.error e)

/-! ## Accounts

Every attempt that was handed in is pending or settled, and at every place there is one attempt that
is pending or successful. -/

/-- The attempts that stand for their places: those that are pending, and those that gave splits. -/
def latest (log : Log tasks) (s : Stage tasks) : List (Attempt tasks) :=
  s.pending ++ (successes log).map Prod.fst

/-- What a log says about the stage behind it. -/
structure Accounts (log : Log tasks) (s : Stage tasks) : Prop where
  /-- Behind the first attempts, one attempt is handed in for every failed one. -/
  handedIn : (s.pending ++ log.map Prod.fst).Perm
    (Attempt.firsts tasks ++ (failures log).map fun x => x.1.again)
  /-- Every place has one attempt that stands for it. -/
  places : ((latest log s).map Attempt.place).Perm (List.finRange tasks.length)
  /-- An attempt knows how many failures its place has seen. -/
  failed : ((latest log s).map Attempt.failed).sum = s.retries
  /-- Only successful attempts contribute splits, each all of its own. -/
  splits : s.splits = (successes log).flatMap Prod.snd
  /-- Every failure is counted. -/
  retries : s.retries = (failures log).length

theorem accounts_start : Accounts [] (.start tasks) where
  handedIn := by simp [Stage.start]
  places := by simp [latest, Stage.start]
  failed := by
    have zero : ∀ x ∈ (Attempt.firsts tasks).map Attempt.failed, x = 0 := by
      simpa using fun a ha => Attempt.failed_of_mem_firsts ha
    simpa [latest, Stage.start] using List.sum_eq_zero zero
  splits := rfl
  retries := rfl

/-- What one settled attempt preserves. -/
theorem Accounts.settle {limit : ℕ} {log : Log tasks} {s t : Stage tasks}
    {before after : List (Attempt tasks)} {a : Attempt tasks} {ending : Ending}
    (h : Accounts log s) (hp : s.pending = before ++ a :: after)
    (ht : (s.withPending (before ++ after)).settle limit a ending = .ok t) :
    Accounts (log ++ [(a, ending)]) t := by
  obtain ⟨handedIn, places, failed, splits, retries⟩ := h
  -- as counts, the accounts are equations between numbers, and a step adds one on both sides
  simp only [List.perm_iff_count, latest, hp] at handedIn places failed
  rcases Stage.settle_eq_ok ht with ⟨found, rfl, rfl⟩ | ⟨e, rfl, -, -, rfl⟩
  · refine ⟨?_, ?_, ?_, ?_, ?_⟩
    · refine List.perm_iff_count.2 fun b => ?_
      have := handedIn b
      simp only [List.count_append, List.count_cons, List.map_append, List.map_cons, List.map_nil,
        List.count_nil, failures_append, failures_ok, List.append_nil,
        Stage.pending_withPending] at this ⊢
      omega
    · refine List.perm_iff_count.2 fun i => ?_
      have := places i
      simp only [latest, List.count_append, List.count_cons, List.map_append, List.map_cons,
        List.map_nil, List.count_nil, successes_append, successes_ok,
        Stage.pending_withPending] at this ⊢
      omega
    · simp only [latest, List.map_append, List.map_cons, List.map_nil, List.sum_append,
        List.sum_cons, List.sum_nil, successes_append, successes_ok, Stage.pending_withPending,
        Stage.retries_withPending] at failed ⊢
      omega
    · simp [splits]
    · simp [retries]
  · refine ⟨?_, ?_, ?_, ?_, ?_⟩
    · refine List.perm_iff_count.2 fun b => ?_
      have := handedIn b
      simp only [List.count_append, List.count_cons, List.map_append, List.map_cons, List.map_nil,
        List.count_nil, failures_append, failures_error, Stage.pending_withPending] at this ⊢
      omega
    · refine List.perm_iff_count.2 fun i => ?_
      have := places i
      simp only [latest, List.count_append, List.count_cons, List.map_append, List.map_cons,
        List.map_nil, List.count_nil, successes_append, successes_error, List.append_nil,
        Stage.pending_withPending, Attempt.place_again] at this ⊢
      omega
    · simp only [latest, List.map_append, List.map_cons, List.map_nil, List.sum_append,
        List.sum_cons, List.sum_nil, successes_append, successes_error, List.append_nil,
        Stage.pending_withPending, Stage.retries_withPending, Attempt.failed_again] at failed ⊢
      omega
    · simp [splits]
    · simp [retries]

/-- The accounts are right at every reachable stage, whatever was settled and in whatever order. -/
theorem Reaches.accounts {limit : ℕ} {log : Log tasks} {s : Stage tasks} (h : Reaches limit log s) :
    Accounts log s := by
  induction h with
  | start => exact accounts_start
  | settle _ hp ht ih => exact ih.settle hp ht

/-- No failure beyond the limit is made good. -/
theorem Reaches.retries_le {limit : ℕ} {log : Log tasks} {s : Stage tasks}
    (h : Reaches limit log s) : s.retries ≤ limit := by
  induction h with
  | start => exact Nat.zero_le limit
  | settle _ hp ht ih =>
    rcases Stage.settle_eq_ok ht with ⟨found, rfl, rfl⟩ | ⟨e, rfl, -, hl, rfl⟩
    · exact ih
    · exact hl

/-! ## Running a collection

A collection that is run on a network settles its attempts in the order of the queue, each with what
the network lets it end with. -/

section Run

variable {σ : Type} {limit workers total : ℕ}
  {attempt : Task → Dialogue PlanningError (List Split)} {net : Dialogue.Network σ}

/-- The attempts that are made when a collection is run on a network, each with the state that the
    network is in when it begins. -/
def made (limit : ℕ) (attempt : Task → Dialogue PlanningError (List Split))
    (net : Dialogue.Network σ) (c : Collection) (x : σ) : List (Task × σ) :=
  match _hc : c.pending with
  | [] => []
  | task :: rest =>
      let run := (attempt task).run net x
      (task, x) ::
        match _h : settle limit { c with pending := rest } task run.result with
        | .ok next => made limit attempt net next run.state
        | .error _ => []
termination_by c.budget limit
decreasing_by
  have := budget_settle _h
  simp_all only [budget, List.length_cons]
  omega

/-- What attempts that were made ended with. -/
def endings (attempt : Task → Dialogue PlanningError (List Split)) (net : Dialogue.Network σ)
    (ms : List (Task × σ)) : List (Task × Ending) :=
  ms.map fun m => (m.1, ((attempt m.1).run net m.2).result)

theorem run_drain_nil {c : Collection} (hc : c.pending = []) (x : σ) :
    (drain limit workers total attempt c).run net x =
      ⟨.ok c.splits, [.noted (close workers total c)], x⟩ := by
  rw [drain_nil hc]
  rfl

theorem made_nil {c : Collection} (hc : c.pending = []) (x : σ) :
    made limit attempt net c x = [] := by
  rw [made]
  split
  · rfl
  · simp_all

theorem run_drain_ok {c next : Collection} {task : Task} {rest : List Task} {x : σ}
    (hc : c.pending = task :: rest)
    (h : settle limit { c with pending := rest } task ((attempt task).run net x).result =
      .ok next) :
    (drain limit workers total attempt c).run net x =
      let first := (attempt task).run net x
      let second := (drain limit workers total attempt next).run net first.state
      ⟨second.result, first.events ++ second.events, second.state⟩ := by
  rw [drain_cons hc, Dialogue.run_andThen]
  simp only [h]

theorem made_ok {c next : Collection} {task : Task} {rest : List Task} {x : σ}
    (hc : c.pending = task :: rest)
    (h : settle limit { c with pending := rest } task ((attempt task).run net x).result =
      .ok next) :
    made limit attempt net c x =
      (task, x) :: made limit attempt net next ((attempt task).run net x).state := by
  rw [made]
  split
  · simp_all
  · next task' rest' hc' =>
    obtain ⟨rfl, rfl⟩ := List.cons.inj (hc.symm.trans hc')
    dsimp only
    split
    · next next' h' =>
      obtain rfl := Except.ok.inj (h.symm.trans h')
      rfl
    · simp_all

theorem run_drain_error {c : Collection} {task : Task} {rest : List Task} {x : σ}
    {e : PlanningError} (hc : c.pending = task :: rest)
    (h : settle limit { c with pending := rest } task ((attempt task).run net x).result =
      .error e) :
    (drain limit workers total attempt c).run net x =
      let first := (attempt task).run net x
      ⟨.error e, first.events ++ [.noted (close workers total { c with pending := rest })],
        first.state⟩ := by
  rw [drain_cons hc, Dialogue.run_andThen]
  simp only [h, Dialogue.run, Dialogue.fail, Dialogue.Run.after]

theorem made_error {c : Collection} {task : Task} {rest : List Task} {x : σ}
    {e : PlanningError} (hc : c.pending = task :: rest)
    (h : settle limit { c with pending := rest } task ((attempt task).run net x).result =
      .error e) :
    made limit attempt net c x = [(task, x)] := by
  rw [made]
  split
  · simp_all
  · next task' rest' hc' =>
    obtain ⟨rfl, rfl⟩ := List.cons.inj (hc.symm.trans hc')
    dsimp only
    split
    · simp_all
    · rfl

/-- From any reachable stage on, running the collection settles attempts one by one until the
    collection ends, and each of them ends as the network lets it. -/
theorem drain_ends {log : Log tasks} {s : Stage tasks} (h : Reaches limit log s) (x : σ) :
    ∃ more left,
      Ends limit (log ++ more) left
        ((drain limit workers tasks.length attempt s.collection).run net x).result ∧
      more.map (fun y => (y.1.task, y.2)) =
        endings attempt net (made limit attempt net s.collection x) ∧
      ∃ events, ((drain limit workers tasks.length attempt s.collection).run net x).events =
        events ++ [.noted (close workers tasks.length left.collection)] := by
  -- the budget is what gets smaller: an attempt is settled, and a retry that replaces it is spent
  induction hb : s.collection.budget limit using Nat.strong_induction_on
    generalizing log s x with
  | _ b ih =>
    cases hp : s.pending with
    | nil =>
      have hc : s.collection.pending = [] := by simp [Stage.collection, hp]
      rw [run_drain_nil hc, made_nil hc]
      exact ⟨[], s, by simpa [Stage.collection] using Ends.returned h hp, rfl, [], rfl⟩
    | cons a rest =>
      have hp' : s.pending = [] ++ a :: rest := hp
      have hc : s.collection.pending = a.task :: rest.map Attempt.task := by
        simp [Stage.collection, hp]
      have hleft : { s.collection with pending := rest.map Attempt.task } =
          (s.withPending rest).collection := rfl
      -- the head of the queue is settled in the stage as it is in the collection
      have hsettle := Stage.map_collection_settle limit (s.withPending rest) a
        ((attempt a.task).run net x).result
      cases ht : (s.withPending rest).settle limit a ((attempt a.task).run net x).result with
      | ok t =>
        rw [ht, ← hleft] at hsettle
        have hnext := hsettle.symm
        have hlt : t.collection.budget limit < b := by
          have := budget_settle hnext
          rw [← hb]
          simp only [budget, hc, List.length_cons] at this ⊢
          omega
        obtain ⟨more, left, hends, hmade, events, hevents⟩ :=
          ih _ hlt (h.settle hp' ht) ((attempt a.task).run net x).state rfl
        rw [run_drain_ok hc hnext, made_ok hc hnext]
        refine ⟨(a, ((attempt a.task).run net x).result) :: more, left, ?_, ?_, ?_⟩
        · simpa using hends
        · simp [endings, hmade]
        · exact ⟨((attempt a.task).run net x).events ++ events, by simp [hevents]⟩
      | error e =>
        rw [ht, ← hleft] at hsettle
        have hnext := hsettle.symm
        rw [run_drain_error hc hnext, made_error hc hnext]
        refine ⟨[(a, ((attempt a.task).run net x).result)], s.withPending rest, ?_, ?_, ?_⟩
        · exact .raised h hp' ht
        · simp [endings]
        · exact ⟨_, rfl⟩

/-- A collection that is run on a network is one that settles attempts in some order. -/
theorem run_ends (limit workers : ℕ) (attempt : Task → Dialogue PlanningError (List Split))
    (net : Dialogue.Network σ) (tasks : List Task) (x : σ) :
    ∃ (log : Log tasks) (left : Stage tasks),
      Ends limit log left ((Collection.run limit workers attempt tasks).run net x).result ∧
      log.map (fun y => (y.1.task, y.2)) =
        endings attempt net (made limit attempt net (.ofTasks tasks) x) ∧
      ∃ events, ((Collection.run limit workers attempt tasks).run net x).events =
        events ++ [.noted (close workers tasks.length left.collection)] := by
  have hrun : Collection.run limit workers attempt tasks =
      drain limit workers tasks.length attempt (Stage.start tasks).collection := by
    rw [Stage.collection_start, Collection.run]
  simpa [hrun] using drain_ends (.start : Reaches limit [] (Stage.start tasks)) x

end Run

end RingScan.Plan.Collection

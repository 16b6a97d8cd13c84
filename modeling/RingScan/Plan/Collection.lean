import RingScan.Plan.Assemble
import RingScan.Plan.Replicas

set_option autoImplicit false

/-! # Collecting the splits of all tasks

Attempts at tasks are pending until they are settled. A successful attempt adds its splits to
those that are collected; a failed one is handed in again, as long as the limit of failures, which
all tasks share, is not reached. -/

namespace RingScan.Plan

/-- Where a collection stands. -/
structure Collection where
  pending : List Task
  splits : List Split
  retries : Nat

namespace Collection

/-- The collection of tasks before any attempt. -/
def ofTasks (tasks : List Task) : Collection := ⟨tasks, [], 0⟩

/-- The most attempts that can still be settled. -/
def budget (limit : Nat) (c : Collection) : Nat := c.pending.length + (limit - c.retries)

/-- The collection after an attempt at a task, where `c` is the collection without the attempt. An
    attempt that must not fail, or fails once too often, ends the collection. -/
def settle (limit : Nat) (c : Collection) (task : Task)
    (outcome : Except PlanningError (List Split)) : Except PlanningError Collection :=
  match outcome with
  | .ok splits => .ok { c with splits := c.splits ++ splits }
  | .error e =>
      if e.isInvariant then .error e
      else if limit ≤ c.retries then .error (.exhausted c.retries task e)
      else .ok { c with pending := c.pending ++ [task], retries := c.retries + 1 }

theorem budget_settle {limit : Nat} {c d : Collection} {task : Task}
    {outcome : Except PlanningError (List Split)} (h : settle limit c task outcome = .ok d) :
    d.budget limit ≤ c.budget limit := by
  unfold settle at h
  split at h
  · simp only [Except.ok.injEq] at h
    subst h
    simp [budget]
  · split at h
    · simp at h
    · split at h
      · simp at h
      · simp only [Except.ok.injEq] at h
        subst h
        simp only [budget, List.length_append, List.length_cons, List.length_nil]
        omega

/-- The report of a pool at the end of a collection. -/
def report (workers tasks : Nat) (c : Collection) : PoolReport where
  workers := workers
  submitted := tasks + c.retries
  cancelled := c.pending.length

/-- The note of a pool at the end of a collection. -/
def close (workers tasks : Nat) (c : Collection) : Note := .poolClosed (report workers tasks c)

/-- A collection carried to its end: always the attempt that is pending longest is made. -/
def drain (limit workers tasks : Nat) (attempt : Task → Dialogue PlanningError (List Split))
    (c : Collection) : Dialogue PlanningError (List Split) :=
  match _hc : c.pending with
  | [] => .note (close workers tasks c) (.done (.ok c.splits))
  | task :: rest =>
      (attempt task).andThen fun outcome =>
        let left : Collection := { c with pending := rest }
        match _h : settle limit left task outcome with
        | .ok next => drain limit workers tasks attempt next
        | .error e => .note (close workers tasks left) (.fail e)
termination_by c.budget limit
decreasing_by
  have := budget_settle _h
  simp_all only [budget, left, List.length_cons]
  omega

/-- Nothing is left to be done when nothing is pending. -/
theorem drain_nil {limit workers tasks : Nat}
    {attempt : Task → Dialogue PlanningError (List Split)} {c : Collection}
    (hc : c.pending = []) :
    drain limit workers tasks attempt c = .note (close workers tasks c) (.done (.ok c.splits)) := by
  rw [drain]
  split <;> simp_all

/-- The head of the queue is attempted, and what it ends with is settled. -/
theorem drain_cons {limit workers tasks : Nat}
    {attempt : Task → Dialogue PlanningError (List Split)} {c : Collection} {task : Task}
    {rest : List Task} (hc : c.pending = task :: rest) :
    drain limit workers tasks attempt c =
      (attempt task).andThen fun outcome =>
        match settle limit { c with pending := rest } task outcome with
        | .ok next => drain limit workers tasks attempt next
        | .error e => .note (close workers tasks { c with pending := rest }) (.fail e) := by
  rw [drain]
  split
  · simp_all
  · next found others hfound =>
    obtain ⟨rfl, rfl⟩ := List.cons.inj (hc.symm.trans hfound)
    congr 1
    funext outcome
    dsimp only
    split <;> simp_all

/-- The splits of all tasks. -/
def run (limit workers : Nat) (attempt : Task → Dialogue PlanningError (List Split))
    (tasks : List Task) : Dialogue PlanningError (List Split) :=
  drain limit workers tasks.length attempt (.ofTasks tasks)

end Collection

end RingScan.Plan

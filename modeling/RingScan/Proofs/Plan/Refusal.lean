import RingScan.Proofs.Plan.Coverage
import RingScan.Proofs.Plan.Failures
import RingScan.Proofs.Plan.RetryBudget

set_option autoImplicit false

/-! # Configurations are refused before anything is asked

A configuration that cannot be used is refused when its options are read, or when the arc of its key
restriction is formed. Both come before the first request, and a pass that is refused leaves no
trace. What comes behind fails in other ways, stage by stage: the calls of the ring and of the
replicas have errors of their own, narrowing and assembling fail with faults, and a collection would
not even hand a refusal on that an attempt had ended with (`collect_notRefusal`,
`Collection.Ends.not_isRefusal`). So refusals and requests exclude each other
(`refused_before_requests`). -/

namespace RingScan.Plan

open Collection (Ends Log Stage)

variable {σ : Type} {c : Context} {net : Dialogue.Network σ} {x : σ}

/-- Whether an error says that the configuration cannot be used. -/
def PlanningError.IsRefusal (e : PlanningError) : Prop := e.category? = some .configuration

instance (e : PlanningError) : Decidable e.IsRefusal :=
  inferInstanceAs (Decidable (e.category? = some .configuration))

theorem coversCalls_notRefusal : CoversCalls fun e => ¬ e.IsRefusal where
  ofNode e := by cases e <;> simp [PlanningError.IsRefusal, PlanningError.ofNode,
    PlanningError.category?]
  seedsUnavailable _ := by simp [PlanningError.IsRefusal, PlanningError.category?]
  endpointsExhausted _ := by simp [PlanningError.IsRefusal, PlanningError.category?]

/-- What violates an invariant is no refusal. -/
theorem not_isRefusal_of_isInvariant {e : PlanningError} (h : e.isInvariant = true) :
    ¬ e.IsRefusal := by
  intro he
  rw [PlanningError.isInvariant, he] at h
  exact absurd h (by decide)

theorem not_isRefusal_exhausted (retries : Nat) (task : Task) (cause : PlanningError) :
    ¬ (PlanningError.exhausted retries task cause).IsRefusal := by
  simp [PlanningError.IsRefusal, PlanningError.category?]

/-! ## Before the first request -/

/-- A start key asks for keys in order, and for no token besides it. -/
theorem jobArc_refused {p : Partitioner} {r : KeyRestriction} (hkey : r.startKey?.isSome = true)
    (h : p.preservesOrder = false ∨ r.startToken?.isSome = true ∨ r.endToken?.isSome = true) :
    ∃ e, jobArc p (some r) = .error (.configuration e) := by
  obtain ⟨startKey, hkey⟩ := Option.isSome_iff_exists.1 hkey
  simp only [jobArc, hkey]
  by_cases hordered : p.preservesOrder = true
  · have htokens : (r.startToken?.isSome || r.endToken?.isSome) = true := by
      simpa [hordered] using h
    simp [hordered, htokens]
  · simp [hordered]

/-! ## From the first request on -/

/-- **A collection is not refused**, whatever its attempts end with. -/
theorem collect_notRefusal (c : Context) (resolve : Resolver) (ranges : ℕ) (tasks : List Task) :
    (collect c resolve ranges tasks).FailsWith fun e => ¬ e.IsRefusal := by
  have hdrain : (Collection.run c.maxRetries (workersFor c tasks.length) (attempt c resolve)
      tasks).FailsWith fun e => ¬ e.IsRefusal :=
    Collection.drain_failsWith (fun t => Dialogue.failsWith_true _)
      (fun e _ he => not_isRefusal_of_isInvariant he)
      (fun retries t e _ _ => not_isRefusal_exhausted retries t e) _
  refine hdrain.bind fun splits => ?_
  by_cases hempty : splits.isEmpty = true
  · simp only [hempty, if_true]
    exact .error (not_isRefusal_of_isInvariant rfl)
  · simp only [hempty, Bool.false_eq_true, if_false]
    exact .ok splits

/-- The same for attempts that are settled in any order. -/
theorem Collection.Ends.not_isRefusal {limit : ℕ} {tasks : List Task} {log : Log tasks}
    {left : Stage tasks} {e : PlanningError} (h : Ends limit log left (.error e)) :
    ¬ e.IsRefusal := by
  obtain ⟨_, _, a, cause, -, -, -, -, -, ⟨hinv, rfl⟩ | ⟨-, -, rfl⟩⟩ := h.of_error
  · exact not_isRefusal_of_isInvariant hinv
  · exact not_isRefusal_exhausted _ _ _

/-- A pass is refused by its restriction, or not at all. -/
theorem plan_refused_or (c : Context) (resolve : Resolver) :
    (∃ e, jobArc c.partitioner c.keyRestriction? = .error e ∧
      plan c resolve = .fail (.ofSetup e)) ∨
    (plan c resolve).FailsWith fun e => ¬ e.IsRefusal := by
  unfold plan
  cases hjob : jobArc c.partitioner c.keyRestriction? with
  | error e => exact .inl ⟨e, rfl, rfl⟩
  | ok job? =>
    refine .inr ((coversCalls_notRefusal.describeRing_failsWith c).bind fun ranges => ?_)
    cases restrict (.int c.splitSize) job? ranges with
    | error f => exact .error (coversCalls_notRefusal.fault f)
    | ok tasks => exact collect_notRefusal c resolve ranges.length tasks

/-- A refused pass has neither sent nor noted anything. -/
theorem events_plan_of_isRefusal {resolve : Resolver} {e : PlanningError} (he : e.IsRefusal)
    (h : ((plan c resolve).run net x).result = .error e) :
    ((plan c resolve).run net x).events = [] := by
  rcases plan_refused_or c resolve with ⟨_, -, hfail⟩ | hlater
  · rw [hfail]
    rfl
  · exact absurd he (hlater.of_run h)

theorem events_splits_of_isRefusal {format : InputFormat} {o : Config.Options}
    {resolve : Resolver} {e : PlanningError} (he : e.IsRefusal)
    (h : ((format.splits o resolve).run net x).result = .error e) :
    ((format.splits o resolve).run net x).events = [] := by
  unfold InputFormat.splits at h ⊢
  cases hcontext : Context.ofOptions o with
  | error e => rfl
  | ok c =>
    rw [hcontext] at h
    exact events_plan_of_isRefusal he h

/-- **Configurations are refused before anything is asked.** On every network, whatever the options
    or the context: a pass that ends with a refusal has sent nothing. A pass is refused if it has a
    start key on a ring where keys are not in order, or a start key together with a token. From the
    first request on there is no refusal: asking for the ring, an attempt at a task and a collection
    never end with one, and neither do collections that settle their attempts in other orders,
    whatever the attempts end with. -/
theorem refused_before_requests (resolve : Resolver) :
    (∀ {σ : Type} (net : Dialogue.Network σ) (x : σ) (e : PlanningError), e.IsRefusal →
      (∀ (format : InputFormat) (o : Config.Options),
        ((format.splits o resolve).run net x).result = .error e →
          ((format.splits o resolve).run net x).events = []) ∧
      ∀ c : Context, ((plan c resolve).run net x).result = .error e →
        ((plan c resolve).run net x).events = []) ∧
    (∀ (c : Context) (r : KeyRestriction), c.keyRestriction? = some r → r.startKey?.isSome = true →
      (c.partitioner.preservesOrder = false ∨ r.startToken?.isSome = true ∨
        r.endToken?.isSome = true) →
      ∀ {σ : Type} (net : Dialogue.Network σ) (x : σ),
        ∃ e, (plan c resolve).run net x = ⟨.error (.configuration e), [], x⟩) ∧
    (∀ {σ : Type} (net : Dialogue.Network σ) (x : σ) (c : Context),
      Dialogue.requests ((plan c resolve).run net x).events ≠ [] →
        ∀ e, ((plan c resolve).run net x).result = .error e → ¬ e.IsRefusal) ∧
    (∀ c : Context, (describeRing c).FailsWith (fun e => ¬ e.IsRefusal) ∧
      (∀ t, (attempt c resolve t).FailsWith fun e => ¬ e.IsRefusal) ∧
      ∀ ranges tasks, (collect c resolve ranges tasks).FailsWith fun e => ¬ e.IsRefusal) ∧
    ∀ (limit : ℕ) (tasks : List Task) (log : Log tasks) (left : Stage tasks) (e : PlanningError),
      Ends limit log left (.error e) → ¬ e.IsRefusal := by
  refine ⟨fun net x e he => ⟨fun format o h => events_splits_of_isRefusal he h,
      fun c h => events_plan_of_isRefusal he h⟩,
    fun c r hr hkey h _ net x => ?_, fun net x c hsent e h he => ?_,
    fun c => ⟨coversCalls_notRefusal.describeRing_failsWith c, fun t => ?_,
      collect_notRefusal c resolve⟩,
    fun _ _ _ _ _ h => h.not_isRefusal⟩
  · obtain ⟨e, he⟩ := jobArc_refused hkey h
    refine ⟨e, ?_⟩
    rw [plan, hr, he]
    rfl
  · rw [events_plan_of_isRefusal he h] at hsent
    exact hsent rfl
  · exact coversCalls_notRefusal.attempt_failsWith c resolve
      (not_isRefusal_of_isInvariant rfl)

/-- A context that restricts the keys of a ring where they are not in order. -/
def unorderedKeys : Context :=
  { oneSeed with keyRestriction? := some { startKey? := some "a" } }

theorem unorderedKeys_refused_before_requests :
    ∃ e, (plan unorderedKeys .ok).run replaying [] = ⟨.error (.configuration e), [], []⟩ :=
  (refused_before_requests .ok).2.1 unorderedKeys _ rfl rfl (.inl rfl) replaying []

end RingScan.Plan

import RingScan.Proofs.Dialogue.Errors
import RingScan.Proofs.Plan.Cluster
import RingScan.Proofs.Plan.Coverage
import RingScan.Proofs.Plan.RetryBudget

set_option autoImplicit false

/-! # How a pass ends

A pass should end with splits or with an error of a kind that callers tell apart. Faults are outside
all kinds, and what makes the difference is where a fault turns up. The calls of a node turn what is
wrong with an answer into an error of their own, and whatever an attempt at a task ends with, the
collection does not end with a fault (`collect_endsProperly`). Before the collection nothing is in
between: a key or a keyspace that has no bytes, a report of the ring that is no list of ranges with
lists of replicas, and under a restriction a range that cannot be narrowed end the pass as they are
(`endsProperly_iff`). -/

namespace RingScan.Plan

open Collection (Ending)

variable {σ : Type} {c : Context} {net : Dialogue.Network σ} {x : σ}

/-- Whether an error is of a kind that callers tell apart. -/
def PlanningError.HasCategory (e : PlanningError) : Prop := e.category?.isSome = true

instance (e : PlanningError) : Decidable e.HasCategory :=
  inferInstanceAs (Decidable (e.category?.isSome = true))

/-- Whether something ends as it should: with some splits, or with an error that callers can tell.
    -/
def EndsProperly : Ending → Prop
  | .ok splits => splits ≠ []
  | .error e => e.HasCategory

instance : (ending : Ending) → Decidable (EndsProperly ending)
  | .ok splits => inferInstanceAs (Decidable (splits ≠ []))
  | .error e => inferInstanceAs (Decidable e.HasCategory)

@[simp] theorem endsProperly_ok {splits : List Split} :
    EndsProperly (.ok splits) ↔ splits ≠ [] := Iff.rfl

@[simp] theorem endsProperly_error {e : PlanningError} :
    EndsProperly (.error e) ↔ e.HasCategory := Iff.rfl

theorem not_hasCategory_fault (f : Fault) : ¬ (PlanningError.fault f).HasCategory := by
  simp [PlanningError.HasCategory, PlanningError.category?]

/-! ## Calls -/

/-- Whether the error of a call is of a kind that callers tell apart. -/
def IsCallError (e : NodeError) : Prop := (PlanningError.ofNode e).HasCategory

theorem isCallError_ofRest (address : String) (e : Http.RestError) :
    IsCallError (.ofRest address e) := by
  unfold NodeError.ofRest
  split <;> rfl

/-- A call that is sent turns all that can go wrong with it into an error of its own. -/
theorem call_failsWith (n : Node) (d : Dialogue Http.RestError (Option Wire.Record)) :
    (n.call d).FailsWith IsCallError :=
  (Dialogue.failsWith_true d).andThen (fun record? => .ok (record?.getD []))
    fun e _ => .error (isCallError_ofRest n.address e)

theorem post_failsWith {n : Node} {path : String} {body : Wire.Record} (expected : Wire.Schema)
    (h : ∃ text, body.toText = .ok text) : (n.post path body expected).FailsWith IsCallError := by
  obtain ⟨text, htext⟩ := h
  simp only [Node.post, htext]
  exact call_failsWith n _

theorem logIn_failsWith (c : Context) (n : Node) : (logIn c n).FailsWith IsCallError := by
  unfold logIn
  split
  · exact .ok n
  · next username _ =>
    -- two texts can always be written
    have htext : ∃ text, (Wire.loginBody (.str username)
        (.str (c.password?.getD ""))).toText = .ok text := by
      simp [Wire.Record.toText, Json.toText, Wire.loginBody, Json.refusal?,
        Json.firstMemberRefusal?]
    rw [Node.login]
    exact (post_failsWith Wire.loginResponse htext).bind fun _ => .ok _

/-- With a keyspace that has a name, handshakes fail in ways that callers can tell. -/
theorem connect_failsWith {name : Node.Name} (h : Node.Name.ofValue (.str c.keyspace) = .ok name)
    (host : Value) : (connect c host).FailsWith IsCallError := by
  refine .note ((logIn_failsWith c _).bind fun n => ?_)
  rw [Node.withName_eq h]
  exact (call_failsWith n _).bind fun _ => .ok _

theorem connectToSeed_failsWith {name : Node.Name}
    (h : Node.Name.ofValue (.str c.keyspace) = .ok name) (seeds : List String) :
    (connectToSeed c seeds).FailsWith PlanningError.HasCategory := by
  induction seeds with
  | nil => exact .error rfl
  | cons seed rest ih =>
    refine (connect_failsWith h (.str seed)).andThen (fun n => .ok n) fun e he => ?_
    cases e with
    | unavailable address cause => exact ih
    | _ => exact .error he

/-- A seed is only connected to if the keyspace has a name. -/
theorem exists_name {n : Node} {seeds : List String}
    (h : ((connectToSeed c seeds).run net x).result = .ok n) :
    ∃ name, Node.Name.ofValue (.str c.keyspace) = .ok name := by
  induction seeds generalizing x with
  | nil => simp [connectToSeed, Dialogue.fail, Dialogue.run] at h
  | cons seed rest ih =>
    rw [connectToSeed, Dialogue.run_andThen] at h
    dsimp only at h
    split at h
    · next m hm => exact (connect_ok hm).1.keyspace
    · exact ih h
    · simp [Dialogue.fail, Dialogue.run] at h

/-- What fails before a seed is connected to is a fault or an error that callers can tell. -/
theorem hasCategory_or_fault {e : PlanningError} {seeds : List String}
    (h : ((connectToSeed c seeds).run net x).result = .error e) :
    e.HasCategory ∨ ∃ f, e = .fault f := by
  have hfails (seeds : List String) :
      (connectToSeed c seeds).FailsWith fun e => e.HasCategory ∨ ∃ f, e = .fault f := by
    induction seeds with
    | nil => exact .error (.inl rfl)
    | cons seed rest ih =>
      refine (Dialogue.failsWith_true _).andThen (fun n => .ok n) fun e _ => ?_
      cases e with
      | unavailable address cause => exact ih
      | fault f => exact .error (.inr ⟨f, rfl⟩)
      | _ => exact .error (.inl rfl)
  exact (hfails seeds).of_run h

/-! ## The ring -/

/-- What a seed reports of the ring, before it is looked into. -/
def reportRing (c : Context) : Dialogue PlanningError (Option (List Wire.RingEntry)) :=
  (connectToSeed c c.seeds).bind fun n => (callRing c n).mapError .ofNode

theorem result_describeRing : ((describeRing c).run net x).result =
    match ((reportRing c).run net x).result with
    | .ok report? => readRanges report?
    | .error e => .error e := by
  rw [describeRing, reportRing, Dialogue.result_bind, Dialogue.result_bind]
  cases ((connectToSeed c c.seeds).run net x).result with
  | error e => rfl
  | ok n =>
    simp only [Dialogue.result_bind]
    cases hcall : (((callRing c n).mapError PlanningError.ofNode).run net
      ((connectToSeed c c.seeds).run net x).state).result <;>
      rw [callRing] at hcall <;> simp only [hcall, Dialogue.run]

/-- Once a seed is connected to, asking for the ring fails in ways that callers can tell. -/
theorem reportRing_error {e : PlanningError}
    (h : ((reportRing c).run net x).result = .error e) :
    e.HasCategory ∨ ∃ f, e = .fault f ∧
      ((connectToSeed c c.seeds).run net x).result = .error (.fault f) := by
  rw [reportRing, Dialogue.result_bind] at h
  cases hseed : ((connectToSeed c c.seeds).run net x).result with
  | error e' =>
    simp only [hseed, Except.error.injEq] at h
    obtain rfl := h
    rcases hasCategory_or_fault hseed with he | ⟨f, rfl⟩
    · exact .inl he
    · exact .inr ⟨f, rfl, rfl⟩
  | ok n =>
    obtain ⟨name, hname⟩ := exists_name hseed
    have hcall : ((callRing c n).mapError .ofNode).FailsWith PlanningError.HasCategory := by
      rw [callRing, Node.withName_eq hname]
      refine Dialogue.FailsWith.mapError ?_ fun e he => he
      exact (call_failsWith n _).bind fun _ => .ok _
    simp only [hseed] at h
    exact .inl (hcall.of_run h)

/-- Whether a report of the ring can be planned with: it is a list of ranges, each with lists of
    replicas, and if the pass is restricted, each can be narrowed. -/
def IsPlannable {p : Partitioner} (job? : Option (Arc p.Position))
    (report? : Option (List Wire.RingEntry)) : Prop :=
  ∃ entries, report? = some entries ∧ ∀ entry ∈ entries, ∃ r, TokenRange.ofEntry entry = .ok r ∧
    ∀ job ∈ job?, ∃ rs, TokenRange.narrow r job = .ok rs

/-- A report can be planned with if it gives ranges, and these give tasks. -/
theorem isPlannable_iff {p : Partitioner} {job? : Option (Arc p.Position)}
    {report? : Option (List Wire.RingEntry)} (size : Value) :
    IsPlannable job? report? ↔
      ∃ ranges, readRanges report? = .ok ranges ∧ ∃ tasks, restrict size job? ranges = .ok tasks := by
  cases report? with
  | none => simp [IsPlannable, readRanges]
  | some entries =>
    have hread (ranges : List TokenRange) :
        readRanges (some entries) = .ok ranges ↔ entries.mapM TokenRange.ofEntry = .ok ranges := by
      simp only [readRanges]
      cases entries.mapM TokenRange.ofEntry <;> simp [Except.mapError]
    simp only [hread, exists_restrict_iff size]
    constructor
    · rintro ⟨found, hfound, hentries⟩
      obtain rfl := Option.some.inj hfound
      obtain ⟨ranges, hranges⟩ := exists_mapM_iff.2 fun entry hmem =>
        (hentries entry hmem).imp fun r hr => hr.1
      refine ⟨ranges, hranges, fun job hjob r hr => ?_⟩
      obtain ⟨entry, hmem, hread⟩ := exists_of_forall₂_of_mem (forall₂_of_mapM hranges) hr
      obtain ⟨r, hr, hnarrow⟩ := hentries entry hmem
      obtain rfl := Except.ok.inj (hr.symm.trans hread)
      exact hnarrow job hjob
    · rintro ⟨ranges, hranges, hnarrow⟩
      refine ⟨entries, rfl, fun entry hmem => ?_⟩
      obtain ⟨r, hr, hread⟩ := exists_of_forall₂_of_mem (forall₂_of_mapM hranges).flip hmem
      exact ⟨r, hread, fun job hjob => hnarrow job hjob r hr⟩

/-! ## The collection -/

/-- **A collection of tasks ends properly**, whatever the attempts end with. -/
theorem collect_endsProperly (c : Context) (resolve : Resolver) (ranges : ℕ) (tasks : List Task)
    (net : Dialogue.Network σ) (x : σ) :
    EndsProperly ((collect c resolve ranges tasks).run net x).result := by
  rw [collect, Dialogue.result_bind]
  obtain ⟨log, left, hends, -⟩ := Collection.run_ends c.maxRetries (workersFor c tasks.length)
    (attempt c resolve) net tasks x
  generalize ((Collection.run c.maxRetries (workersFor c tasks.length) (attempt c resolve)
    tasks).run net x).result = result at hends ⊢
  cases result with
  | ok splits =>
    by_cases hempty : splits = []
    · simp only [hempty, List.isEmpty_nil, if_true]
      rfl
    · simp only [List.isEmpty_iff, hempty, if_false]
      exact hempty
  | error e =>
    obtain ⟨_, _, a, cause, -, -, -, -, -, hcases⟩ := hends.of_error
    rcases hcases with ⟨hinv, rfl⟩ | ⟨-, -, rfl⟩
    · -- what violates an invariant has that category
      rw [PlanningError.isInvariant, beq_iff_eq] at hinv
      simp [PlanningError.HasCategory, hinv]
    · rfl

/-! ## The pass -/

/-- A pass ends properly exactly if nothing that it finds before the collection is a fault. -/
theorem plan_endsProperly_iff (c : Context) (resolve : Resolver) (net : Dialogue.Network σ) (x : σ) :
    EndsProperly ((plan c resolve).run net x).result ↔
      (∀ f, jobArc c.partitioner c.keyRestriction? ≠ .error (.fault f)) ∧
        ∀ job?, jobArc c.partitioner c.keyRestriction? = .ok job? →
          (∀ f, ((connectToSeed c c.seeds).run net x).result ≠ .error (.fault f)) ∧
            ∀ report?, ((reportRing c).run net x).result = .ok report? →
              IsPlannable job? report? := by
  unfold plan
  cases hjob : jobArc c.partitioner c.keyRestriction? with
  | error e =>
    cases e with
    | configuration e =>
      simp [PlanningError.ofSetup, Dialogue.fail, Dialogue.run, PlanningError.HasCategory,
        PlanningError.category?]
    | fault f =>
      simp [PlanningError.ofSetup, Dialogue.fail, Dialogue.run, not_hasCategory_fault]
  | ok job? =>
    simp only [Dialogue.result_bind, result_describeRing, ne_eq, reduceCtorEq, not_false_eq_true,
      implies_true, true_and, Except.ok.injEq, forall_eq']
    cases hreport : ((reportRing c).run net x).result with
    | error e =>
      simp only [endsProperly_error, reduceCtorEq, IsEmpty.forall_iff, implies_true, and_true]
      constructor
      · intro he f hseed
        rw [reportRing, Dialogue.result_bind, hseed] at hreport
        obtain rfl := Except.error.inj hreport
        exact not_hasCategory_fault f he
      · intro hseed
        rcases reportRing_error hreport with he | ⟨f, -, hf⟩
        · exact he
        · exact absurd hf (hseed f)
    | ok report? =>
      have hseed : ∀ f, ((connectToSeed c c.seeds).run net x).result ≠ .error (.fault f) := by
        intro f hf
        rw [reportRing, Dialogue.result_bind, hf] at hreport
        simp at hreport
      simp only [Except.ok.injEq, forall_eq', isPlannable_iff (.int c.splitSize)]
      cases hranges : readRanges report? with
      | error e =>
        have hfault : ¬ e.HasCategory := by
          unfold readRanges at hranges
          split at hranges
          · obtain rfl := Except.error.inj hranges
            exact not_hasCategory_fault _
          · next entries =>
            cases hread : entries.mapM TokenRange.ofEntry with
            | ok ranges => simp [hread, Except.mapError] at hranges
            | error f =>
              simp only [hread, Except.mapError, Except.error.injEq] at hranges
              rw [← hranges]
              exact not_hasCategory_fault f
        simp [hfault]
      | ok ranges =>
        cases htasks : restrict (.int c.splitSize) job? ranges with
        | error f =>
          simp [Dialogue.fail, Dialogue.run, not_hasCategory_fault, htasks]
        | ok tasks =>
          have hproper := collect_endsProperly c resolve ranges.length tasks net
            ((describeRing c).run net x).state
          simpa [htasks, hseed] using hproper

/-- **When a pass ends properly.** A pass ends with some splits, or with an error of a kind that
    callers tell apart, exactly if the keys of its restriction have positions, the search for a seed
    does not end with a fault, and the ring that is reported can be planned with. What comes behind,
    the answers of the replicas and the tokens in them, makes no difference, and neither do the
    answers of the seeds but for the ring: with a keyspace that has a name, the search for a seed
    never ends with a fault. A restriction that is refused ends the pass properly before anything is
    asked. -/
theorem endsProperly_iff (c : Context) (resolve : Resolver) :
    (∀ {σ : Type} (net : Dialogue.Network σ) (x : σ),
      EndsProperly ((plan c resolve).run net x).result ↔
        (∀ f, jobArc c.partitioner c.keyRestriction? ≠ .error (.fault f)) ∧
          ∀ job?, jobArc c.partitioner c.keyRestriction? = .ok job? →
            (∀ f, ((connectToSeed c c.seeds).run net x).result ≠ .error (.fault f)) ∧
              ∀ report?, ((reportRing c).run net x).result = .ok report? →
                IsPlannable job? report?) ∧
      ∀ name, Node.Name.ofValue (.str c.keyspace) = .ok name →
        ∀ {σ : Type} (net : Dialogue.Network σ) (x : σ) (f : Fault),
          ((connectToSeed c c.seeds).run net x).result ≠ .error (.fault f) := by
  refine ⟨fun net x => plan_endsProperly_iff c resolve net x, fun name hname σ net x f hf => ?_⟩
  exact not_hasCategory_fault f ((connectToSeed_failsWith hname c.seeds).of_run hf)

/-- A configuration of the context for one seed. -/
def oneSeedOptions : Config.Options := [
  ("input.keyspace", .str "k"),
  ("input.table", .str "t"),
  ("input.initial-address", .str "a"),
  ("input.partitioner", .str "murmur3"),
  ("input.split-size", .int 64),
  ("input.max-retries", .int 0)]

theorem ofOptions_oneSeedOptions : Context.ofOptions oneSeedOptions = .ok oneSeed := by
  have hseeds : splitSeeds "a" = ["a"] := by cbv
  have hdraft : Draft.ofOptions oneSeedOptions =
      .ok { oneSeed.toDraft with seeds := splitSeeds "a" } := rfl
  rw [Context.ofOptions, hdraft, hseeds]
  rfl

/-- A seed that sends null for the ranges of its ring ends the pass with a fault. -/
theorem null_ranges_not_endsProperly :
    Context.ofOptions oneSeedOptions = .ok oneSeed ∧
      ¬ EndsProperly ((plan oneSeed .ok).run replaying
        ["\x7b\x7d", "\x7b\"ranges\": null\x7d"]).result :=
  ⟨ofOptions_oneSeedOptions, by decide +kernel⟩

end RingScan.Plan

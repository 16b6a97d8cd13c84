import RingScan.Proofs.Plan.Coverage
import RingScan.Proofs.Plan.Failures
import RingScan.Proofs.Plan.RetryBudget

set_option autoImplicit false

/-! # Ranges whose replicas do not match

The two address lists of a range have one length, or no split of the range is of any use. Whether an
attempt at a range with uneven lists is seen to break this depends on where it ends: the lists are
compared when the splits are made, so that a replica must have told the parts before
(`attempt_uneven`). Any failure on the way to the parts is an ordinary one, and is made good. On
that way lies the choice of the addresses, which fails by itself if an address for clients cannot be
used and has no internal one at its place (`not_isTold_of_unusableAt`). -/

namespace RingScan.Plan

open Collection (Attempt Ending Ends Log failures)

variable {σ : Type} {c : Context} {resolve : Resolver} {net : Dialogue.Network σ} {x : σ} {t : Task}

/-- Whether the two address lists of a range differ in length. -/
def TokenRange.IsUneven (r : TokenRange) : Prop := r.rpcEndpoints.length ≠ r.endpoints.length

instance (r : TokenRange) : Decidable r.IsUneven :=
  inferInstanceAs (Decidable (r.rpcEndpoints.length ≠ r.endpoints.length))

/-- Whether the parts of a task are told when its replicas are asked from a state of the network on.
    -/
def IsTold (c : Context) (net : Dialogue.Network σ) (t : Task) (x : σ) : Prop :=
  ∃ parts, ((subSplits c t).run net x).result = .ok parts

/-! ## On the way to the parts -/

/-- Whether an address for clients at a place cannot be used. -/
def TokenRange.UnusableAt (r : TokenRange) (i : ℕ) : Prop :=
  ∃ address ∈ r.rpcEndpoints[i]?, TokenRange.isUnusable address = .ok true

theorem lt_of_resolveAddresses {endpoints rpcEndpoints addresses : List Value}
    (h : TokenRange.resolveAddresses endpoints rpcEndpoints = .ok addresses) {i : ℕ} {address : Value}
    (hi : rpcEndpoints[i]? = some address) (hbad : TokenRange.isUnusable address = .ok true) :
    i < endpoints.length := by
  fun_induction TokenRange.resolveAddresses endpoints rpcEndpoints generalizing addresses i with
  | case1 => simp at hi
  | case2 => simp at h
  | case3 endpoints first rest hfirst ih =>
    obtain ⟨others, hothers, -⟩ := map_eq_ok.1 h
    cases i with
    | zero =>
      obtain rfl : first = address := by simpa using hi
      simp [hfirst] at hbad
    | succ i =>
      have := ih hothers (by simpa using hi)
      simp only [List.length_tail] at this
      omega
  | case4 => simp at h
  | case5 first rest hfirst endpoint others ih =>
    obtain ⟨found, hfound, -⟩ := map_eq_ok.1 h
    cases i with
    | zero => simp
    | succ i => simpa using ih hfound (by simpa using hi)

/-- The addresses of a range can only be chosen if every address for clients that cannot be used has
    an internal one at its place. -/
theorem TokenRange.lt_of_effectiveEndpoints {r : TokenRange} {addresses : List Value}
    (h : r.effectiveEndpoints = .ok addresses) {i : ℕ} (hi : r.UnusableAt i) :
    i < r.endpoints.length := by
  obtain ⟨address, hmem, hbad⟩ := hi
  exact lt_of_resolveAddresses h hmem hbad

theorem coversCalls_ordinary : CoversCalls fun e => e.isInvariant = false where
  ofNode e := by cases e <;> rfl
  seedsUnavailable _ := rfl
  endpointsExhausted _ := rfl

/-- **What fails on the way to the parts of a task is ordinary.** -/
theorem subSplits_failsWith (c : Context) (t : Task) :
    (subSplits c t).FailsWith fun e => e.isInvariant = false :=
  coversCalls_ordinary.subSplits_failsWith c t

/-! ## From the parts on -/

theorem assembleAll_uneven {p : Partitioner} {r : TokenRange} (h : r.IsUneven)
    (parts : List SubSplit) : assembleAll p resolve r parts = .error (.unevenReplicas r) := by
  rw [TokenRange.IsUneven] at h
  simp [assembleAll, assemble, h, Except.map]

/-- An attempt at a range with uneven lists fails in one of two ways: as it must if the parts are
    told, and in an ordinary way if they are not. -/
theorem attempt_uneven (c : Context) (resolve : Resolver) (h : t.range.IsUneven)
    (net : Dialogue.Network σ) (x : σ) :
    IsTold c net t x ∧ ((attempt c resolve t).run net x).result = .error (.unevenReplicas t.range) ∨
      ¬ IsTold c net t x ∧ ∃ e, ((attempt c resolve t).run net x).result = .error e ∧
        e.isInvariant = false := by
  rw [attempt, Dialogue.result_bind, IsTold]
  cases hparts : ((subSplits c t).run net x).result with
  | ok parts => exact .inl ⟨⟨parts, rfl⟩, assembleAll_uneven h parts⟩
  | error e => exact .inr ⟨by simp, e, rfl, (subSplits_failsWith c t).of_run hparts⟩

/-- Whatever the replicas do, the parts are not told if an address for clients cannot be used and
    has no internal one at its place. -/
theorem not_isTold_of_unusableAt {i : ℕ} (hbad : t.range.UnusableAt i)
    (hi : t.range.endpoints.length ≤ i) (x : σ) : ¬ IsTold c net t x := by
  rintro ⟨parts, hparts⟩
  unfold subSplits at hparts
  split at hparts
  · simp [Dialogue.fail, Dialogue.run] at hparts
  · next addresses haddresses =>
    exact absurd (TokenRange.lt_of_effectiveEndpoints haddresses hbad) (Nat.not_lt.2 hi)

/-- A pass with such a range among its tasks returns no splits. -/
theorem plan_uneven (h : t.range.IsUneven) (ht : t ∈ passTasks c net x) (splits : List Split) :
    ((plan c resolve).run net x).result ≠ .ok splits := by
  intro hplan
  obtain ⟨log, left, hends, hmade⟩ := plan_ends hplan
  obtain ⟨found, hperm, -, hfound⟩ := hmade.exists_answers hends
  obtain ⟨y, hy, rfl⟩ := List.mem_map.1 (hperm.mem_iff.2 ht)
  obtain ⟨parts, -, hassemble⟩ := hfound y hy
  simp [assembleAll_uneven h] at hassemble

/-! ## What becomes of a collection -/

/-- Whether every collection ends with the error of an attempt: nothing is settled behind it, and
    nothing is handed in any more. -/
def EndsCollections (t : Task) (e : PlanningError) : Prop :=
  ∀ (limit : ℕ) (tasks : List Task) (a : Attempt tasks) (earlier later : Log tasks) left result,
    a.task = t → Ends limit (earlier ++ (a, .error e) :: later) left result →
      later = [] ∧ result = .error e ∧ left.retries = (failures earlier).length

/-- Whether the error of an attempt is made good in every collection, as long as there are retries:
    the task is handed in again, or the collection ends because no failure more is made good. -/
def IsMadeGood (t : Task) (e : PlanningError) : Prop :=
  ∀ (limit : ℕ) (tasks : List Task) (a : Attempt tasks) (log : Log tasks) left result,
    a.task = t → Ends limit log left result → (a, .error e) ∈ log →
      a.again ∈ left.pending ++ log.map Prod.fst ∨ result = .error (.exhausted limit t e)

theorem endsCollections_of_isInvariant {e : PlanningError} (he : e.isInvariant = true) :
    EndsCollections t e :=
  fun _ _ _ _ _ _ _ _ hends => hends.of_invariant rfl he

theorem isMadeGood_of_ordinary {e : PlanningError} (he : e.isInvariant = false) :
    IsMadeGood t e := by
  rintro limit tasks a log left result rfl hends hmem
  exact hends.of_ordinary hmem he

/-- **Uneven lists are fatal once the parts are told.** Take a range whose two address lists differ
    in length. No pass with such a range among its tasks returns splits. If a replica tells the
    parts, an attempt at the range is seen to violate the invariant, and every collection ends with
    that violation, whatever it stands at. If the addresses of the replicas can be chosen and none
    of them tells the parts, the attempt fails in an ordinary way, which is made good. -/
theorem uneven_fatal_of_told (c : Context) (resolve : Resolver) (net : Dialogue.Network σ)
    (h : t.range.IsUneven) :
    (∀ x, t ∈ passTasks c net x → ∀ splits, ((plan c resolve).run net x).result ≠ .ok splits) ∧
      (∀ x, IsTold c net t x →
        ((attempt c resolve t).run net x).result = .error (.unevenReplicas t.range) ∧
          EndsCollections t (.unevenReplicas t.range)) ∧
      ∀ x addresses, t.range.effectiveEndpoints = .ok addresses → ¬ IsTold c net t x →
        ∃ e, ((attempt c resolve t).run net x).result = .error e ∧ e.isInvariant = false ∧
          IsMadeGood t e := by
  refine ⟨fun x ht => plan_uneven h ht, fun x htold => ?_, fun x addresses _ hnot => ?_⟩
  · rcases attempt_uneven c resolve h net x with ⟨-, he⟩ | ⟨hnot, -⟩
    · exact ⟨he, endsCollections_of_isInvariant rfl⟩
    · exact absurd htold hnot
  · rcases attempt_uneven c resolve h net x with ⟨htold, -⟩ | ⟨-, e, he, hord⟩
    · exact absurd htold hnot
    · exact ⟨e, he, hord, isMadeGood_of_ordinary hord⟩

/-- A task for all of the ring with one replica, and an address for clients that no replica has. -/
def overlongTask : Task where
  range := ⟨.str "0", .str "0", [.str "a"], [.str "a", .str "b"]⟩
  splitSize := .int 64

/-- The answers of a ring that is one range, with an address for clients too many, and of its one
    replica. -/
def overlongRing : List String := [
  "\x7b\x7d",
  "\x7b\"ranges\":[\x7b\"startToken\":\"0\",\"endToken\":\"0\",\"endpoints\":[\"a\"]," ++
    "\"rpcEndpoints\":[\"a\",\"b\"]\x7d]\x7d",
  "\x7b\x7d",
  "\x7b\"splits\":[\x7b\"startToken\":\"0\",\"endToken\":\"0\",\"rowCount\":7\x7d]\x7d"]

/-- One address too many is a violation if the first replica answers, and an ordinary failure if no
    replica can be reached. -/
theorem uneven_fatal_of_told_overlong :
    (∀ splits, ((plan oneSeed .ok).run replaying overlongRing).result ≠ .ok splits) ∧
      (((attempt oneSeed .ok overlongTask).run replaying (overlongRing.drop 2)).result =
          .error (.unevenReplicas overlongTask.range) ∧
        EndsCollections overlongTask (.unevenReplicas overlongTask.range)) ∧
      ∃ e, ((attempt oneSeed .ok overlongTask).run replaying []).result = .error e ∧
        e.isInvariant = false ∧ IsMadeGood overlongTask e := by
  have huneven : overlongTask.range.IsUneven := by decide
  have htask : overlongTask ∈ passTasks oneSeed replaying overlongRing := by decide +kernel
  have htold : IsTold oneSeed replaying overlongTask (overlongRing.drop 2) :=
    exists_ok (by decide +kernel)
  have hnot : ¬ IsTold oneSeed replaying overlongTask [] := by
    rintro ⟨parts, hparts⟩
    have hfails : ((subSplits oneSeed overlongTask).run replaying []).result.isOk = false := by
      decide +kernel
    rw [hparts] at hfails
    simp [Except.isOk, Except.toBool] at hfails
  obtain ⟨addresses, haddresses⟩ : ∃ addresses,
      overlongTask.range.effectiveEndpoints = .ok addresses := exists_ok (by decide +kernel)
  obtain ⟨hplan, hfatal, hordinary⟩ := uneven_fatal_of_told oneSeed .ok replaying huneven
  exact ⟨hplan _ htask, hfatal _ htold, hordinary _ addresses haddresses hnot⟩

/-- The kind of the error that something ends with. -/
def categoryOf? (ending : Ending) : Option Category :=
  match ending with
  | .ok _ => none
  | .error e => e.category?

/-- A context in which two failures are made good. -/
def twoRetries : Context := { oneSeed with maxRetries := 2 }

/-- If no replica of a range with an address too many can be reached, this is no violation. The task
    is handed in twice more, and the pass ends because it fails again. -/
theorem overlong_unreachable_retried :
    overlongTask ∈ passTasks twoRetries replaying (overlongRing.take 2) ∧
      overlongTask.range.IsUneven ∧
      categoryOf? ((attempt twoRetries .ok overlongTask).run replaying []).result ≠
        some .invariant ∧
      categoryOf? ((plan twoRetries .ok).run replaying (overlongRing.take 2)).result =
        some .planningExhausted ∧
      Dialogue.poolReport? ((plan twoRetries .ok).run replaying (overlongRing.take 2)).events =
        some ⟨1, 3, 0⟩ := by
  decide +kernel

end RingScan.Plan

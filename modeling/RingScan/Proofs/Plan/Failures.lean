import RingScan.Plan.Planner
import RingScan.Proofs.Dialogue.Errors

set_option autoImplicit false

/-! # How the stages of a pass fail

A kind of errors covers the stages before splits are made if it takes in the errors of calls,
faults, and those for seeds or replicas that cannot be reached: all of these stages then fail with
errors of the kind, whatever the nodes answer (`describeRing_failsWith`, `subSplits_failsWith`). An
attempt at a task fails in one way more, when the two address lists of its range do not match, and a
collection either hands an error of an attempt on or ends with one of its own. -/

namespace RingScan.Plan

variable {P Q : PlanningError → Prop}

/-- Whether a kind of errors takes in all that goes wrong before splits are made. -/
structure CoversCalls (P : PlanningError → Prop) : Prop where
  ofNode (e : NodeError) : P (.ofNode e)
  seedsUnavailable (seeds : List String) : P (.seedsUnavailable seeds)
  endpointsExhausted (addresses : List String) : P (.endpointsExhausted addresses)

namespace CoversCalls

theorem fault (h : CoversCalls P) (f : Fault) : P (.fault f) := h.ofNode (.fault f)

theorem ofAddresses (h : CoversCalls P) (addresses : List Value) : P (.ofAddresses addresses) := by
  unfold PlanningError.ofAddresses
  split
  · exact h.endpointsExhausted _
  · exact h.fault _

/-! ## The ring -/

theorem connectToSeed_failsWith (h : CoversCalls P) (c : Context) (seeds : List String) :
    (connectToSeed c seeds).FailsWith P := by
  induction seeds with
  | nil => exact .error (h.seedsUnavailable c.seeds)
  | cons seed rest ih =>
    refine (Dialogue.failsWith_true _).andThen (fun n => .ok n) fun e _ => ?_
    cases e with
    | unavailable address cause => exact ih
    | _ => exact .error (h.ofNode _)

theorem readRanges_failsWith (h : CoversCalls P) (entries? : Option (List Wire.RingEntry)) :
    (.done (readRanges entries?) : Dialogue PlanningError (List TokenRange)).FailsWith P := by
  cases entries? with
  | none => exact .error (h.fault _)
  | some entries =>
    rw [readRanges]
    cases entries.mapM TokenRange.ofEntry with
    | ok ranges => exact .ok ranges
    | error f => exact .error (h.fault f)

theorem describeRing_failsWith (h : CoversCalls P) (c : Context) :
    (describeRing c).FailsWith P :=
  (h.connectToSeed_failsWith c c.seeds).bind fun _ =>
    ((Dialogue.failsWith_true _).mapError fun e _ => h.ofNode e).bind h.readRanges_failsWith

/-! ## The replicas -/

theorem describeParts_failsWith (h : CoversCalls P) (c : Context) (n : Node) (t : Task) :
    (describeParts c n t).FailsWith P := by
  have hpaired : (pairedParts c n t).FailsWith P := by
    refine ((Dialogue.failsWith_true _).mapError fun e _ => h.ofNode e).bind fun tokens => ?_
    cases SubSplit.ofTokens tokens t.splitSize with
    | ok parts => exact .ok parts
    | error f => exact .error (h.fault f)
  refine (Dialogue.failsWith_true _).andThen (fun parts? => ?_) fun e _ => ?_
  · cases parts? with
    | none => exact .error (h.fault _)
    | some parts => exact .ok parts
  · cases e with
    | unsupported address cause => exact hpaired
    | _ => exact .error (h.ofNode _)

theorem askHosts_failsWith (h : CoversCalls P) (c : Context) (t : Task) (asked hosts : List Value) :
    (askHosts c t asked hosts).FailsWith P := by
  induction hosts with
  | nil => exact .error (h.ofAddresses asked)
  | cons host rest ih =>
    have hask : (askHost c t host).FailsWith P :=
      ((Dialogue.failsWith_true _).mapError fun e _ => h.ofNode e).bind
        fun n => h.describeParts_failsWith c n t
    refine hask.andThen (fun parts => .ok parts) fun e he => ?_
    -- the next host is asked behind a node that is unavailable, and behind no other failure
    split
    · next heq => simp at heq
    · exact ih
    · next e' _ heq =>
      obtain rfl := Except.error.inj heq
      exact .error he

theorem subSplits_failsWith (h : CoversCalls P) (c : Context) (t : Task) :
    (subSplits c t).FailsWith P := by
  unfold subSplits
  split
  · exact .error (h.fault _)
  · exact h.askHosts_failsWith c t _ _

/-! ## The splits -/

theorem assembleAll_failsWith (h : CoversCalls P) {r : TokenRange} (hr : P (.unevenReplicas r))
    (p : Partitioner) (resolve : Resolver) (parts : List SubSplit) :
    (.done (assembleAll p resolve r parts) : Dialogue PlanningError (List Split)).FailsWith P := by
  unfold assembleAll assemble
  by_cases hlength : r.rpcEndpoints.length = r.endpoints.length
  · simp only [hlength, ne_eq, not_true_eq_false, if_false]
    cases r.hosts resolve with
    | error f => exact .error (h.fault f)
    | ok locations =>
      dsimp only
      cases (appendSplits p locations [] parts).2 with
      | ok _ => exact .ok _
      | error f => exact .error (h.fault f)
  · simp only [hlength, ne_eq, not_false_eq_true, if_true]
    exact .error hr

theorem attempt_failsWith (h : CoversCalls P) (c : Context) (resolve : Resolver) {t : Task}
    (ht : P (.unevenReplicas t.range)) : (attempt c resolve t).FailsWith P :=
  (h.subSplits_failsWith c t).bind fun parts =>
    h.assembleAll_failsWith ht c.partitioner resolve parts

end CoversCalls

/-! ## The collection -/

/-- A collection fails with what violates an invariant, or once an ordinary failure is not made good
    any more. -/
theorem Collection.drain_failsWith {limit workers tasks : Nat}
    {attempt : Task → Dialogue PlanningError (List Split)} (h : ∀ t, (attempt t).FailsWith P)
    (hinvariant : ∀ e, P e → e.isInvariant = true → Q e)
    (hexhausted : ∀ retries t e, P e → e.isInvariant = false → Q (.exhausted retries t e))
    (c : Collection) : (drain limit workers tasks attempt c).FailsWith Q := by
  induction c using Collection.drain.induct limit with
  | case1 c hc =>
    rw [drain_nil hc]
    exact .note (.ok _)
  | case2 c task rest hc ih =>
    rw [drain_cons hc]
    refine (h task).andThen (fun splits => ih (.ok splits) _ rfl) fun e he => ?_
    by_cases hinv : e.isInvariant = true
    · simp only [settle, hinv, if_true]
      exact .note (.error (hinvariant e he hinv))
    · by_cases hlimit : limit ≤ c.retries
      · simp only [settle, hinv, hlimit, if_true, Bool.false_eq_true, if_false]
        exact .note (.error (hexhausted c.retries task e he (by simpa using hinv)))
      · simp only [settle, hinv, hlimit, Bool.false_eq_true, if_false]
        exact ih (.error e) _ (by simp [settle, hinv, hlimit])

end RingScan.Plan

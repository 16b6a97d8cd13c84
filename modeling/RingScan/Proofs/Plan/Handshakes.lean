import RingScan.Proofs.Plan.Talks

set_option autoImplicit false

/-! # Handshakes and what follows them

Each call of a node is that of a phase of the connection, so that handshakes and what follows them
go along its path: a handshake leads to the phase in which the node is ready, and behind it a seed
is asked for the ring and a replica for the parts of a task. Hosts are connected to one after the
other, up to the first one that is not passed over (`Opens`). -/

namespace RingScan.Plan

open Dialogue (Entry Yields)
open Http (Authorization)

/-! ## Calls -/

section Calls

variable {c : Context} {l : Line} {t : Task} {a : Authorization} {n : Node}

/-- A node after a handshake with a host. -/
structure IsReady (c : Context) (host : Value) (a : Authorization) (n : Node) : Prop
    extends IsAt c host a n where
  keyspace : n.keyspace? = c.keyspaceName?

theorem login_asks {username : String} (hu : c.username? = some username) :
    Asks c l .opened ((c.nodeAt l.host).login (.str username) (.str (c.password?.getD "")))
      fun r => { c.nodeAt l.host with authorization := .bearer (r.value "token").displayText } := by
  refine asks_post (a := .none) ⟨rfl, rfl, rfl⟩ _ rfl ?_
  simp only [Phase.request?, hu, Option.bind_some, Context.loginText?]

theorem selectKeyspace_asks (h : IsAt c l.host a n) :
    Asks c l (.admitted a) (Node.withName (.str c.keyspace) n.selectKeyspace) fun _ =>
      { n with keyspace? := c.keyspaceName? } := by
  refine asks_withName (fun name hname => ?_) fun hnone => ?_
  · rw [Context.keyspaceName?, hname]
    refine asks_get h _ rfl ?_
    simp only [Phase.request?, Context.keyspaceName?, hname, Option.map_some]
  · simp only [Phase.request?, Context.keyspaceName?, hnone, Option.map_none]

theorem callRing_asks (h : IsAt c l.host a n) (hl : l.purpose = .ring) :
    Asks c l (.ready a) (callRing c n) fun r =>
      (Wire.entries r "ranges").map (·.map Wire.RingEntry.ofValue) := by
  have hexpects : (Phase.ready a).expects l.purpose = Wire.ringResponse := by
    simp only [Phase.expects, hl]
  refine asks_withName (fun name hname => asks_get h _ hexpects ?_) fun hnone => ?_
  · simp only [Phase.request?, hl, Context.keyspaceName?, hname, Option.map_some]
  · simp only [Phase.request?, hl, Context.keyspaceName?, hnone, Option.map_none]

/-- The two calls about the parts of a task. -/
theorem callParts_asks {α : Type} {p : Phase} {path : Node.Name → Node.Name → String}
    {expected : Wire.Schema} (h : IsReady c l.host a n) (hexpects : p.expects l.purpose = expected)
    (hrequest : p.request? c l = partsRequest? c l.host a path t) (g : Wire.Record → α) :
    Asks c l p (Node.withName (.str c.table) fun table => n.withKeyspace fun keyspace =>
      (n.post (path keyspace table)
        (Wire.splitsBody t.range.startToken t.range.endToken t.splitSize)
        expected).bind fun r => pure (g r)) g := by
  rw [partsRequest?] at hrequest
  refine asks_withName (fun table htable => ?_) fun htable => ?_
  · refine asks_withKeyspace (fun keyspace hkeyspace => ?_) fun hkeyspace => ?_
    · rw [h.keyspace] at hkeyspace
      refine asks_post h.toIsAt g hexpects ?_
      rw [hrequest, hkeyspace, Context.tableName?, htable, Task.bodyText?]
      cases Node.sendable? (Wire.splitsBody t.range.startToken t.range.endToken t.splitSize) <;> rfl
    · rw [h.keyspace] at hkeyspace
      rw [hrequest, hkeyspace]
  · rw [hrequest, Context.tableName?, htable]
    cases c.keyspaceName? <;> rfl

theorem callSized_asks (h : IsReady c l.host a n) (hl : l.purpose = .parts t) :
    Asks c l (.ready a) (callSized c n t) fun r =>
      (Wire.entries r "splits").map (·.map Wire.SplitEntry.ofValue) :=
  callParts_asks h (by simp only [Phase.expects, hl]) (by simp only [Phase.request?, hl]) _

theorem callTokens_asks (h : IsReady c l.host a n) (hl : l.purpose = .parts t) :
    Asks c l (.declined a) (callTokens c n t) fun r => r.value "tokens" :=
  callParts_asks h rfl (by simp only [Phase.request?, hl]) _

end Calls

/-! ## Handshakes -/

section Handshakes

variable {c : Context} {l : Line}

/-- A handshake with a host, after the connection to it is opened. -/
def handshake (c : Context) (host : Value) : Dialogue NodeError Node :=
  (logIn c (c.nodeAt host)).bind fun n => Node.withName (.str c.keyspace) n.selectKeyspace

theorem connect_eq (c : Context) (host : Value) :
    connect c host = .note (.connecting (c.addressOf host)) (handshake c host) := rfl

theorem logIn_talks (c : Context) (l : Line) :
    Talks c l NodeError.IsUnavailable (.first c) (logIn c (c.nodeAt l.host)) fun n q =>
      ∃ a, q = .admitted a ∧ IsAt c l.host a n := by
  unfold logIn Phase.first
  cases hu : c.username? with
  | none => exact .ok ⟨.none, rfl, rfl, rfl, rfl⟩
  | some username =>
    exact (login_asks hu).talks (fun e => rfl) fun r => ⟨_, rfl, rfl, rfl, rfl⟩

theorem handshake_talks (c : Context) (l : Line) :
    Talks c l NodeError.IsUnavailable (.first c) (handshake c l.host) fun n q =>
      ∃ a, q = .ready a ∧ IsReady c l.host a n := by
  refine (logIn_talks c l).bind ?_
  rintro n q ⟨a, rfl, hn⟩
  exact (selectKeyspace_asks hn).talks (fun e => rfl) fun r =>
    ⟨a, rfl, ⟨hn.address, hn.client, hn.authorization⟩, rfl⟩

theorem logIn_length_le {es : List Entry} {result : Except NodeError Node}
    (h : Yields (logIn c (c.nodeAt l.host)) es result) :
    es.length + 1 ≤ c.handshakeLength := by
  unfold logIn at h
  unfold Context.handshakeLength
  cases hu : c.username? with
  | none =>
    rw [hu] at h
    obtain ⟨rfl, -⟩ := Dialogue.yields_done.1 h
    simp
  | some username =>
    rw [hu] at h
    have := (login_asks (l := l) hu).length_le h
    simpa using this

/-- However a handshake goes, it takes no more requests than handshakes have. -/
theorem handshake_length_le {es : List Entry} {result : Except NodeError Node}
    (h : Yields (handshake c l.host) es result) : es.length ≤ c.handshakeLength := by
  rcases Dialogue.yields_bind.1 h with ⟨es₁, n, es₂, h₁, h₂, rfl⟩ | ⟨e, h₁, -⟩
  · have hlogin := logIn_length_le h₁
    cases logIn_talks c l _ _ h₁ with
    | ok _ _ hfits =>
      obtain ⟨a, -, hn⟩ := hfits
      have hselect := (selectKeyspace_asks hn).length_le h₂
      rw [List.length_append]
      omega
  · exact Nat.le_of_succ_le (logIn_length_le h₁)

end Handshakes

/-! ## Behind a handshake -/

section Behind

variable {c : Context} {l : Line} {t : Task} {a : Authorization} {n : Node}

/-- Whether an error tells that a node could not be reached. -/
def PlanningError.IsUnavailable (e : PlanningError) : Prop :=
  ∃ address cause, e = .node (.unavailable address cause)

theorem PlanningError.isUnavailable_ofNode (e : NodeError) :
    (ofNode e).IsUnavailable ↔ e.IsUnavailable := by
  cases e <;> simp [ofNode, IsUnavailable, NodeError.IsUnavailable]

/-- Whether a dialogue is all that is left of a connection: it goes on until nothing can be sent. -/
abbrev Finishes {α : Type} (c : Context) (l : Line) (p : Phase) (d : Dialogue PlanningError α) :
    Prop :=
  Talks c l PlanningError.IsUnavailable p d fun _ q => q.request? c l = none

theorem Talk.exists_path {ε α : Type} {down : ε → Prop} {p : Phase} {es : List Entry}
    {result : Except ε α}
    (h : Talk c l down (fun _ q => q.request? c l = none) p es result) :
    ∃ xs q, es = xs.map .exchanged ∧ Path c l p xs q ∧ q.request? c l = none := by
  cases h with
  | ok path _ hquiet => exact ⟨_, _, rfl, path, hquiet⟩
  | error path hquiet _ => exact ⟨_, _, rfl, path, hquiet⟩

/-- What is made of an answer sends nothing any more, and its faults are no failures to connect. -/
theorem finishes_done {α : Type} {p : Phase} (result : Except Fault α)
    (hp : p.request? c l = none) : Finishes c l p (.done (result.mapError .fault)) := by
  cases result with
  | ok v => exact .ok hp
  | error f => exact .error hp (by simp [PlanningError.IsUnavailable])

/-- The ranges that a seed tells. -/
def tellRing (c : Context) (n : Node) : Dialogue PlanningError (List TokenRange) :=
  ((callRing c n).mapError .ofNode).bind fun entries? => .done (readRanges entries?)

theorem tellRing_finishes (h : IsReady c l.host a n) (hl : l.purpose = .ring) :
    Finishes c l (.ready a) (tellRing c n) := by
  have hquiet (ending : Except NodeError Wire.Record) :
      ((Phase.ready a).next ending).request? c l = none := by
    rcases Phase.next_ready a ending with hnext | hnext <;> rw [hnext]
    · simp only [Phase.request?, hl]
    · rfl
  have hcall : Talks c l NodeError.IsUnavailable (.ready a) (callRing c n)
      fun _ q => q.request? c l = none :=
    (callRing_asks h.toIsAt hl).talks (fun e => hquiet _) fun r => hquiet _
  refine (hcall.mapError PlanningError.isUnavailable_ofNode).bind fun entries? q hq => ?_
  cases entries? with
  | none => exact finishes_done (.error .mismatch) hq
  | some entries => exact finishes_done _ hq

theorem pairedParts_finishes (h : IsReady c l.host a n) (hl : l.purpose = .parts t) :
    Finishes c l (.declined a) (pairedParts c n t) := by
  have hcall : Talks c l NodeError.IsUnavailable (.declined a) (callTokens c n t)
      fun _ q => q.request? c l = none :=
    (callTokens_asks h hl).talks (fun e => rfl) fun r => rfl
  refine (hcall.mapError PlanningError.isUnavailable_ofNode).bind fun tokens q hq => ?_
  exact finishes_done _ hq

/-- **The two ways to ask for parts.** Only a node that does not know the first call gets the
    second one. -/
theorem describeParts_finishes (h : IsReady c l.host a n) (hl : l.purpose = .parts t) :
    Finishes c l (.ready a) (describeParts c n t) := by
  intro es result hyields
  obtain ⟨es₁, first, es₂, h₁, h₂, rfl⟩ := Dialogue.yields_andThen.1 hyields
  obtain ⟨ending, hasked, rfl⟩ := (callSized_asks h hl).map _ _ _ h₁
  let quiet (_ : Wire.Record) (q : Phase) : Prop := q.request? c l = none
  cases ending with
  | ok r =>
    have htalk : Talk c l NodeError.IsUnavailable quiet (.ready a) es₁ (.ok r) :=
      hasked.talk (g := id) (by simp) fun r => rfl
    cases htalk with
    | ok path hup hq =>
      refine Talk.after ?_ path hup
      simp only [Except.map, Function.comp_apply] at h₂
      cases hparts : Wire.entries r "splits" with
      | none =>
        rw [hparts] at h₂
        exact finishes_done (.error .mismatch) hq _ _ h₂
      | some parts =>
        rw [hparts] at h₂
        exact finishes_done (.ok _) hq _ _ h₂
  | error e =>
    by_cases hunknown : e.IsUnsupported
    · obtain ⟨xs, rfl, path, hup⟩ := hasked.declined hunknown
      obtain ⟨address, cause, rfl⟩ := hunknown
      exact (pairedParts_finishes h hl _ _ h₂).after path hup
    · have hclosed : (Phase.ready a).next (.error e) = .closed :=
        Phase.next_ready_closed (by simpa using hunknown)
      have htalk : Talk c l NodeError.IsUnavailable quiet (.ready a) es₁ (.error e) := by
        refine hasked.talk (g := id) ?_ fun r => rfl
        rintro e' ⟨⟩
        rw [hclosed]
        rfl
      -- every other failure is passed on
      have hfail : es₂ = [] ∧ result = .error (.ofNode e) := by
        cases e with
        | unsupported address cause => exact absurd ⟨address, cause, rfl⟩ hunknown
        | _ => exact Dialogue.yields_fail.1 h₂
      obtain ⟨rfl, rfl⟩ := hfail
      cases htalk with
      | error path hq hdown =>
        rw [List.append_nil]
        exact .error path hq ((PlanningError.isUnavailable_ofNode e).trans hdown)

end Behind

/-! ## One connection after the other -/

section Opens

variable {c : Context}

/-- The connections that are opened to hosts in their order, up to the first one that is not passed
    over, which is known from what is exchanged with it. All of them obey the protocol. -/
inductive Opens (c : Context) (purpose : Purpose) (passed : List Exchange → Prop) :
    List Value → List Connection → Prop
  | none : Opens c purpose passed [] []
  | stop {host : Value} {rest : List Value} {xs : List Exchange}
      (h : Connection.Obeys c ⟨⟨host, purpose⟩, xs⟩) (hup : ¬ passed xs) :
      Opens c purpose passed (host :: rest) [⟨⟨host, purpose⟩, xs⟩]
  | next {host : Value} {rest : List Value} {xs : List Exchange} {ks : List Connection}
      (h : Connection.Obeys c ⟨⟨host, purpose⟩, xs⟩) (hdown : passed xs)
      (hrest : Opens c purpose passed rest ks) :
      Opens c purpose passed (host :: rest) (⟨⟨host, purpose⟩, xs⟩ :: ks)

theorem Opens.forall_obeys {purpose : Purpose} {passed : List Exchange → Prop} {hosts : List Value}
    {ks : List Connection} (h : Opens c purpose passed hosts ks) :
    ∀ k ∈ ks, k.Obeys c ∧ k.purpose = purpose := by
  induction h with
  | none => simp
  | stop h hup => exact List.forall_mem_singleton.2 ⟨h, rfl⟩
  | next h hdown hrest ih => exact List.forall_mem_cons.2 ⟨⟨h, rfl⟩, ih⟩

/-- Hosts are connected to up to the first one that is not passed over, or all of them are passed
    over. -/
theorem Opens.split {purpose : Purpose} {passed : List Exchange → Prop} {hosts : List Value}
    {ks : List Connection} (h : Opens c purpose passed hosts ks) :
    (ks.map (·.host) = hosts ∧ ∀ k ∈ ks, passed k.exchanges) ∨
      ∃ before k after, ks = before ++ [k] ∧ hosts = before.map (·.host) ++ k.host :: after ∧
        (∀ j ∈ before, passed j.exchanges) ∧ ¬ passed k.exchanges := by
  induction h with
  | none => exact .inl ⟨rfl, by simp⟩
  | stop h hup => exact .inr ⟨[], _, _, rfl, rfl, by simp, hup⟩
  | next h hdown hrest ih =>
    rcases ih with ⟨hhosts, hall⟩ | ⟨before, k, after, rfl, hhosts, hall, hup⟩
    · exact .inl ⟨by simp [hhosts], List.forall_mem_cons.2 ⟨hdown, hall⟩⟩
    · exact .inr ⟨_ :: before, k, after, rfl, by simp [hhosts],
        List.forall_mem_cons.2 ⟨hdown, hall⟩, hup⟩

end Opens

end RingScan.Plan

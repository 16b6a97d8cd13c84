import RingScan.Proofs.Plan.Connections

set_option autoImplicit false

/-! # What is said on a connection

The parts of a pass that use a connection are dialogues, and each of them goes along a path of the
connection, whatever answers it gets (`Talks`). It ends with a value that fits to the phase that is
reached, or with an error, behind which nothing more is sent. Talks are put together as dialogues
are; what they are made of are the calls of a node (`Asked`). -/

namespace RingScan.Plan

open Dialogue (Entry Yields)
open Http (Authorization)

/-- Whether some request could not be delivered. -/
def IsLost (es : List Exchange) : Prop := ∃ e ∈ es, e.outcome.isUnreachable = true

theorem isLost_append {xs ys : List Exchange} : IsLost (xs ++ ys) ↔ IsLost xs ∨ IsLost ys := by
  simp only [IsLost, List.mem_append, or_and_right, exists_or]

theorem isLost_singleton {e : Exchange} : IsLost [e] ↔ e.outcome.isUnreachable = true := by
  simp [IsLost]

/-- How a part of a connection that begins in a phase can go. The errors that count as `down` are
    those that tell of a request that could not be delivered. -/
inductive Talk {ε α : Type} (c : Context) (l : Line) (down : ε → Prop) (fits : α → Phase → Prop)
    (p : Phase) : List Entry → Except ε α → Prop
  | ok {xs : List Exchange} {q : Phase} {a : α} (path : Path c l p xs q) (hup : ¬ IsLost xs)
      (hfits : fits a q) : Talk c l down fits p (xs.map .exchanged) (.ok a)
  | error {xs : List Exchange} {q : Phase} {e : ε} (path : Path c l p xs q)
      (hquiet : q.request? c l = none) (hdown : down e ↔ IsLost xs) :
      Talk c l down fits p (xs.map .exchanged) (.error e)

/-- Whether a dialogue can only go as a part of a connection. -/
def Talks {ε α : Type} (c : Context) (l : Line) (down : ε → Prop) (p : Phase) (d : Dialogue ε α)
    (fits : α → Phase → Prop) : Prop :=
  ∀ es result, Yields d es result → Talk c l down fits p es result

section

variable {ε δ α β : Type} {c : Context} {l : Line} {down : ε → Prop} {p q : Phase}
  {fits : α → Phase → Prop} {a : Authorization}

/-! ## Putting talks together -/

/-- A talk with something before it. -/
theorem Talk.after {xs : List Exchange} {es : List Entry} {result : Except ε α}
    (h : Talk c l down fits q es result) (path : Path c l p xs q) (hup : ¬ IsLost xs) :
    Talk c l down fits p (xs.map .exchanged ++ es) result := by
  cases h with
  | ok path' hup' hfits =>
    rw [← List.map_append]
    exact .ok (path.append path') (by simp [isLost_append, hup, hup']) hfits
  | error path' hquiet hdown =>
    rw [← List.map_append]
    exact .error (path.append path') hquiet (by simp [isLost_append, hup, hdown])

theorem Talks.ok {v : α} (h : fits v p) :
    Talks c l down p (.done (.ok v) : Dialogue ε α) fits := by
  intro es result hyields
  obtain ⟨rfl, rfl⟩ := Dialogue.yields_done.1 hyields
  exact .ok (.nil p) (by simp [IsLost]) h

theorem Talks.error {e : ε} (hp : p.request? c l = none) (he : ¬ down e) :
    Talks c l down p (.done (.error e) : Dialogue ε α) fits := by
  intro es result hyields
  obtain ⟨rfl, rfl⟩ := Dialogue.yields_done.1 hyields
  exact .error (.nil p) hp (by simp [IsLost, he])

theorem Talks.bind {fits' : β → Phase → Prop} {d : Dialogue ε α} {f : α → Dialogue ε β}
    (h : Talks c l down p d fits) (hf : ∀ v q, fits v q → Talks c l down q (f v) fits') :
    Talks c l down p (d.bind f) fits' := by
  intro es result hyields
  rcases Dialogue.yields_bind.1 hyields with ⟨es₁, v, es₂, h₁, h₂, rfl⟩ | ⟨e, h₁, rfl⟩
  · cases h _ _ h₁ with
    | ok path hup hfits => exact (hf _ _ hfits _ _ h₂).after path hup
  · cases h _ _ h₁ with
    | error path hquiet hdown => exact .error path hquiet hdown

theorem Talks.mapError {down' : δ → Prop} {f : ε → δ} (hf : ∀ e, down' (f e) ↔ down e)
    {d : Dialogue ε α} (h : Talks c l down p d fits) :
    Talks c l down' p (d.mapError f) fits := by
  intro es result hyields
  obtain ⟨first, h₁, rfl⟩ := Dialogue.yields_mapError.1 hyields
  cases h _ _ h₁ with
  | ok path hup hfits => exact .ok path hup hfits
  | error path hquiet hdown => exact .error path hquiet ((hf _).trans hdown)

/-! ## Calls -/

/-- Whether a node is that of a host, with an authorization. -/
structure IsAt (c : Context) (host : Value) (a : Authorization) (n : Node) : Prop where
  address : n.address = (c.nodeAt host).address
  client : n.client = (c.nodeAt host).client
  authorization : n.authorization = a

theorem IsAt.request_eq {host : Value} {n : Node} (h : IsAt c host a n) (method : Method)
    (path : String) (body? : Option String) :
    n.client.request method path body? n.headers = requestTo c host a method path body? := by
  rw [h.client, Node.headers, h.authorization]
  rfl

/-- What the call of a phase can come to: one exchange, or none if its request cannot be written. -/
inductive Asked (c : Context) (l : Line) (p : Phase) :
    List Entry → Except NodeError Wire.Record → Prop
  | sent {e : Exchange} (hsent : p.request? c l = some e.request) :
      Asked c l p [.exchanged e] (p.ending c l e)
  | unsent {e : NodeError} (hnone : p.request? c l = none) (hup : ¬ e.IsUnavailable)
      (hknown : ¬ e.IsUnsupported) : Asked c l p [] (.error e)

/-- Whether a dialogue is the call of a phase, which makes something of the answer. -/
def Asks (c : Context) (l : Line) (p : Phase) (d : Dialogue NodeError α) (g : Wire.Record → α) :
    Prop :=
  ∀ es result, Yields d es result → ∃ first, Asked c l p es first ∧ result = first.map g

theorem asks_get {n : Node} (h : IsAt c l.host a n) {path : String} {expected : Wire.Schema}
    (g : Wire.Record → α) (hexpects : p.expects l.purpose = expected)
    (hrequest : p.request? c l = some (requestTo c l.host a .get path none)) :
    Asks c l p ((n.get path expected).bind fun r => pure (g r)) g := by
  intro es result hyields
  obtain ⟨first, hfirst, rfl⟩ := Dialogue.yields_map.1 hyields
  obtain ⟨outcome, rfl, rfl⟩ := Node.yields_get.1 hfirst
  rw [← h.request_eq] at hrequest
  have hasked := Asked.sent (e := ⟨_, outcome⟩) hrequest
  rw [Phase.ending, hexpects] at hasked
  rw [Node.ending_congr h.address]
  exact ⟨_, hasked, rfl⟩

theorem asks_post {n : Node} (h : IsAt c l.host a n) {path : String} {body : Wire.Record}
    {expected : Wire.Schema} (g : Wire.Record → α) (hexpects : p.expects l.purpose = expected)
    (hrequest : p.request? c l = (Node.sendable? body).map fun text =>
      requestTo c l.host a .post path (some text)) :
    Asks c l p ((n.post path body expected).bind fun r => pure (g r)) g := by
  intro es result hyields
  obtain ⟨first, hfirst, rfl⟩ := Dialogue.yields_map.1 hyields
  refine ⟨first, ?_, rfl⟩
  cases hbody : Node.sendable? body with
  | none =>
    rw [hbody] at hrequest
    obtain ⟨rfl, e, rfl, hup, hknown⟩ := Node.yields_post_none hbody hfirst
    exact .unsent hrequest hup hknown
  | some text =>
    rw [hbody, Option.map_some, ← h.request_eq] at hrequest
    obtain ⟨outcome, rfl, rfl⟩ := (Node.yields_post hbody).1 hfirst
    have hasked := Asked.sent (e := ⟨_, outcome⟩) hrequest
    rw [Phase.ending, hexpects] at hasked
    rwa [Node.ending_congr h.address]

/-- A call that is not made since its request cannot be written. -/
theorem Asks.fail {e : NodeError} (g : Wire.Record → α) (hnone : p.request? c l = none)
    (hup : ¬ e.IsUnavailable) (hknown : ¬ e.IsUnsupported) :
    Asks c l p (.fail e : Dialogue NodeError α) g := by
  intro es result hyields
  obtain ⟨rfl, rfl⟩ := Dialogue.yields_fail.1 hyields
  exact ⟨_, .unsent hnone hup hknown, rfl⟩

/-- A call that needs a name. -/
theorem asks_withName {v : Value} {f : Node.Name → Dialogue NodeError α} {g : Wire.Record → α}
    (hf : ∀ name, (Node.Name.ofValue v).toOption = some name → Asks c l p (f name) g)
    (hnone : (Node.Name.ofValue v).toOption = none → p.request? c l = none) :
    Asks c l p (Node.withName v f) g := by
  unfold Node.withName
  cases hname : Node.Name.ofValue v with
  | ok name => exact hf name (by rw [hname]; rfl)
  | error e =>
    exact .fail g (hnone (by rw [hname]; rfl)) (by simp [NodeError.IsUnavailable])
      (by simp [NodeError.IsUnsupported])

/-- A call that needs the keyspace that is selected. -/
theorem asks_withKeyspace {n : Node} {f : Node.Name → Dialogue NodeError α} {g : Wire.Record → α}
    (hf : ∀ keyspace, n.keyspace? = some keyspace → Asks c l p (f keyspace) g)
    (hnone : n.keyspace? = none → p.request? c l = none) :
    Asks c l p (n.withKeyspace f) g := by
  unfold Node.withKeyspace
  cases hkeyspace : n.keyspace? with
  | some keyspace => exact hf keyspace hkeyspace
  | none =>
    exact .fail g (hnone hkeyspace) (by simp [NodeError.IsUnavailable])
      (by simp [NodeError.IsUnsupported])

theorem Asks.map {d : Dialogue NodeError α} {g : Wire.Record → α} (h : Asks c l p d g)
    (f : α → β) : Asks c l p (d.bind fun v => pure (f v)) (f ∘ g) := by
  intro es result hyields
  obtain ⟨mid, hmid, rfl⟩ := Dialogue.yields_map.1 hyields
  obtain ⟨first, hasked, rfl⟩ := h _ _ hmid
  exact ⟨first, hasked, by cases first <;> rfl⟩

theorem Asks.length_le {d : Dialogue NodeError α} {g : Wire.Record → α} (h : Asks c l p d g)
    {es : List Entry} {result : Except NodeError α} (hyields : Yields d es result) :
    es.length ≤ 1 := by
  obtain ⟨first, hasked, -⟩ := h _ _ hyields
  cases hasked <;> simp

/-- A call behind which nothing is sent if it fails. -/
theorem Asked.talk {es : List Entry} {first : Except NodeError Wire.Record}
    (h : Asked c l p es first) {g : Wire.Record → α}
    (hquiet : ∀ e, first = .error e → (p.next (.error e)).request? c l = none)
    (hfits : ∀ r, fits (g r) (p.next (.ok r))) :
    Talk c l NodeError.IsUnavailable fits p es (first.map g) := by
  cases h with
  | unsent hnone hup hknown => exact .error (.nil p) hnone (by simp [IsLost, hup])
  | @sent e hsent =>
    have path : Path c l p [e] (p.next (p.ending c l e)) := .cons hsent (.nil _)
    cases hending : p.ending c l e with
    | ok r =>
      rw [hending] at path
      refine .ok path ?_ (hfits r)
      rw [isLost_singleton]
      exact Node.not_isUnreachable_of_ok hending
    | error cause =>
      rw [hending] at path
      refine .error path (hquiet cause hending) ?_
      rw [isLost_singleton]
      exact Node.isUnavailable_iff hending

theorem Asks.talks {d : Dialogue NodeError α} {g : Wire.Record → α} (h : Asks c l p d g)
    (hquiet : ∀ e, (p.next (.error e)).request? c l = none)
    (hfits : ∀ r, fits (g r) (p.next (.ok r))) :
    Talks c l NodeError.IsUnavailable p d fits := by
  intro es result hyields
  obtain ⟨first, hasked, rfl⟩ := h _ _ hyields
  exact hasked.talk (fun e _ => hquiet e) hfits

/-- Behind a call that the node does not know, the other one is made. -/
theorem Asked.declined {es : List Entry} {e : NodeError} (h : Asked c l (.ready a) es (.error e))
    (he : e.IsUnsupported) :
    ∃ xs, es = xs.map .exchanged ∧ Path c l (.ready a) xs (.declined a) ∧ ¬ IsLost xs := by
  obtain ⟨address, cause, rfl⟩ := he
  generalize hending : Except.error (NodeError.unsupported address cause) = ending at h
  cases h with
  | unsent _ _ hknown =>
    obtain rfl := Except.error.inj hending
    exact absurd ⟨address, cause, rfl⟩ hknown
  | @sent e hsent =>
    refine ⟨[e], rfl, ?_, ?_⟩
    · have path := Path.cons hsent (.nil _)
      rwa [← hending] at path
    · rw [isLost_singleton, ← Node.isUnavailable_iff hending.symm]
      simp [NodeError.IsUnavailable]

end

end RingScan.Plan

import RingScan.Proofs.Dialogue.Transcript
import RingScan.Proofs.Node.Calls

set_option autoImplicit false

/-! # What calls of a node exchange

A call is one exchange, or none at all if its message cannot be sent (`yields_get`, `yields_post`).
What comes of the request decides how the call ends: the node is unavailable just if no connection
was made, and it does not know the call just if it says so (`ending_unavailable_iff`). -/

namespace RingScan

open Http (RestError Client)
open Dialogue (Entry Yields)

/-- Whether no connection was made for a request, a secure one or any. -/
def Outcome.isUnreachable : Outcome → Bool
  | .failure .connectTimeout => true
  | .failure .connection => true
  | .failure .insecure => true
  | _ => false

/-- Whether a call failed because the node could not be reached. -/
def NodeError.IsUnavailable (e : NodeError) : Prop := ∃ address cause, e = .unavailable address cause

/-- Whether a call failed because the node does not know it. -/
def NodeError.IsUnsupported (e : NodeError) : Prop := ∃ address cause, e = .unsupported address cause

/-! ## How calls end -/

theorem Http.RestError.kind_ofBody_ne (e : Wire.ErrorBody) (id : Value) :
    (RestError.ofBody e id).kind ≠ .connectionFailed := by
  simp only [RestError.ofBody, RestError.ofCode]
  split_ifs <;> simp

/-- An answer never tells that there was no connection. -/
theorem Http.Client.interpret_kind_ne {expected : Wire.Schema} {r : Reply} {e : RestError}
    (h : Client.interpret (some expected) r = .error e) : e.kind ≠ .connectionFailed := by
  unfold Client.interpret at h
  split at h
  · obtain rfl := Except.error.inj h
    exact RestError.kind_ofBody_ne _ _
  · dsimp only at h
    split at h
    · obtain rfl := Except.error.inj h
      simp [RestError.noBody]
    · split at h
      · simp at h
      · obtain rfl := Except.error.inj h
        simp [RestError.ofFault]

theorem NodeError.isUnavailable_ofRest {address : String} {e : RestError} :
    (NodeError.ofRest address e).IsUnavailable ↔ e.kind = .connectionFailed := by
  unfold NodeError.ofRest NodeError.IsUnavailable
  split <;> simp_all

namespace Node

variable {n m : Node} {url : String} {expected : Wire.Schema} {outcome : Outcome}

/-- How a call ends only depends on the address of the node. -/
theorem ending_congr (h : n.address = m.address) (url : String) (expected : Wire.Schema)
    (outcome : Outcome) : n.ending url expected outcome = m.ending url expected outcome := by
  cases outcome <;> simp only [ending, h]

/-- **A node is unavailable just if no connection to it was made.** -/
theorem ending_unavailable_iff (n : Node) (url : String) (expected : Wire.Schema)
    (outcome : Outcome) :
    (∃ e, n.ending url expected outcome = .error e ∧ e.IsUnavailable) ↔
      outcome.isUnreachable = true := by
  cases outcome with
  | reply r =>
    simp only [ending, Outcome.isUnreachable, Bool.false_eq_true, iff_false, not_exists, not_and]
    intro e he
    cases hr : Client.interpret (some expected) r with
    | ok record? => simp [hr] at he
    | error cause =>
      simp only [hr, Except.error.injEq] at he
      rw [← he, NodeError.isUnavailable_ofRest]
      exact Client.interpret_kind_ne hr
  | failure f =>
    simp only [ending, Except.error.injEq, exists_eq_left', NodeError.isUnavailable_ofRest]
    cases f <;> simp [RestError.ofTransport, Outcome.isUnreachable]

/-- An error of a call is unavailability just if no connection was made. -/
theorem isUnavailable_iff {e : NodeError} (h : n.ending url expected outcome = .error e) :
    e.IsUnavailable ↔ outcome.isUnreachable = true := by
  rw [← ending_unavailable_iff n url expected, h]
  simp

theorem not_isUnreachable_of_ok {r : Wire.Record} (h : n.ending url expected outcome = .ok r) :
    ¬ outcome.isUnreachable = true := by
  rw [← ending_unavailable_iff n url expected, h]
  simp

/-! ## The exchange of a call -/

section Yields

variable {es : List Entry} {result : Except NodeError Wire.Record}

theorem yields_call {request : Request} :
    Yields (n.call (Client.execute request (some expected))) es result ↔
      ∃ outcome, es = [.exchanged ⟨request, outcome⟩] ∧
        result = n.ending request.url expected outcome := by
  have hsend : n.call (Client.execute request (some expected)) =
      .send request fun outcome => .done (n.ending request.url expected outcome) := by
    rw [call, Client.execute, Dialogue.andThen]
    congr 1
    funext outcome
    cases outcome with
    | failure f => rfl
    | reply r =>
      simp only [Dialogue.andThen, ending]
      cases Client.interpret (some expected) r <;> rfl
  rw [hsend, Dialogue.yields_send]
  simp only [Dialogue.yields_done]
  constructor
  · rintro ⟨outcome, rest, rfl, rfl, rfl⟩
    exact ⟨outcome, rfl, rfl⟩
  · rintro ⟨outcome, rfl, rfl⟩
    exact ⟨outcome, [], rfl, rfl, rfl⟩

theorem yields_get {path : String} :
    Yields (n.get path expected) es result ↔
      ∃ outcome, es = [.exchanged ⟨n.client.request .get path none n.headers, outcome⟩] ∧
        result = n.ending (Http.locate n.client.server path []) expected outcome :=
  yields_call

/-- The text of a message, if it can be written and sent. -/
def sendable? (body : Wire.Record) : Option String :=
  match body.toText with
  | .ok text => if Text.Surrogate.isPlain text then some text else none
  | .error _ => none

theorem yields_post {path text : String} {body : Wire.Record} (h : sendable? body = some text) :
    Yields (n.post path body expected) es result ↔
      ∃ outcome, es = [.exchanged ⟨n.client.request .post path (some text) n.headers, outcome⟩] ∧
        result = n.ending (Http.locate n.client.server path []) expected outcome := by
  unfold sendable? at h
  split at h
  · next written hwritten =>
    split at h
    · next hplain =>
      obtain rfl := Option.some.inj h
      rw [post, hwritten]
      simp only [Client.post, hplain, if_true]
      exact yields_call
    · simp at h
  · simp at h

/-- A message that cannot be sent is not, and this is no fault of the node. -/
theorem yields_post_none {path : String} {body : Wire.Record} (h : sendable? body = none)
    (hyields : Yields (n.post path body expected) es result) :
    es = [] ∧ ∃ e, result = .error e ∧ ¬ e.IsUnavailable ∧ ¬ e.IsUnsupported := by
  unfold sendable? at h
  cases hwritten : body.toText with
  | error f =>
    rw [post, hwritten] at hyields
    obtain ⟨rfl, rfl⟩ := Dialogue.yields_fail.1 hyields
    exact ⟨rfl, .fault f, rfl, by simp [NodeError.IsUnavailable], by simp [NodeError.IsUnsupported]⟩
  | ok written =>
    have hplain : ¬ Text.Surrogate.isPlain written = true := by
      simpa [hwritten] using h
    rw [post, hwritten] at hyields
    simp only [Client.post, hplain, call] at hyields
    obtain ⟨rfl, rfl⟩ := Dialogue.yields_done.1 hyields
    exact ⟨rfl, _, rfl, by simp [NodeError.IsUnavailable, NodeError.ofRest, RestError.ofFault],
      by simp [NodeError.IsUnsupported, NodeError.ofRest, RestError.ofFault]⟩

end Yields

end Node

end RingScan

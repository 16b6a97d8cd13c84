import Mathlib
import RingScan.Node.Basic

set_option autoImplicit false

/-! # How calls of a node end

A call sends one request, and what comes of it is all that its end depends on. A node whose server
cannot be reached is unavailable; a rejection with the status of what is not implemented, and
without a code of its own, says that the node does not know the call. -/

namespace RingScan

open Http (RestError Client)

variable {σ : Type} {net : Dialogue.Network σ} {x : σ}

/-! ## Failures to connect -/

/-- Whether no connection was made: it could not be made, or not in time. -/
def TransportFailure.IsConnect (f : TransportFailure) : Prop := f = .connection ∨ f = .connectTimeout

theorem Http.RestError.kind_ofTransport {f : TransportFailure} (h : f.IsConnect) (url : String) :
    (RestError.ofTransport url f).kind = .connectionFailed := by
  rcases h with rfl | rfl <;> rfl

/-- Whether a request goes to a server. -/
def Request.IsTo (request : Request) (server : String) : Prop :=
  ∃ path, request.url = Http.locate server path []

/-- Whether a server cannot be reached: no connection is made for any request to it. -/
def Dialogue.Network.Unreachable (net : Dialogue.Network σ) (server : String) : Prop :=
  ∀ x request, request.IsTo server → ∃ f, (net x request).1 = .failure f ∧ f.IsConnect

/-! ## Rejections -/

/-- Whether a text has no code of a rejection in it. -/
def Wire.HasNoCode (body : String) : Prop :=
  ∀ r, Wire.errorResponse.readSource (.str body) = .ok r → (Wire.ErrorBody.ofRecord r).code.isNull

/-- A rejection without a code of its own has the status for its code. -/
theorem Http.RestError.code_parseBody {body : String} (h : Wire.HasNoCode body) (status : Value) :
    (RestError.parseBody (.str body) status).code = status := by
  unfold RestError.parseBody
  split
  · rfl
  · split
    · rfl
    · next r hr => rw [if_pos (h r hr)]

theorem Value.equals_int (m n : Int) : (Value.int m).equals (.int n) = decide (m = n) := by
  rw [Bool.eq_iff_iff]
  simp [equals, isNan, same, number?, sameNumber, compareNumbers?]

theorem Http.RestError.kind_ofBody {e : Wire.ErrorBody} (h : e.code = .int 501) (id : Value) :
    (RestError.ofBody e id).kind = .notImplemented := by
  simp [RestError.ofBody, RestError.ofCode, h, Value.equals_int]

/-- Whether what comes of a request is the rejection of a node that does not know the call. -/
def Outcome.IsUnknownCall (outcome : Outcome) : Prop :=
  ∃ r, outcome = .reply r ∧ r.status = 501 ∧ Wire.HasNoCode r.body

namespace Node

/-! ## One request -/

/-- What a call ends with, by what comes of its request. -/
def ending (n : Node) (url : String) (expected : Wire.Schema) :
    Outcome → Except NodeError Wire.Record
  | .reply r =>
      match Client.interpret (some expected) r with
      | .ok record? => .ok (record?.getD [])
      | .error e => .error (.ofRest n.address e)
  | .failure f => .error (.ofRest n.address (.ofTransport url f))

theorem result_call (n : Node) (request : Request) (expected : Wire.Schema) :
    ((n.call (Client.execute request (some expected))).run net x).result =
      n.ending request.url expected (net x request).1 := by
  rw [call, Dialogue.run_andThen, Client.execute, Dialogue.run]
  obtain ⟨outcome, y⟩ := net x request
  cases outcome with
  | failure f => rfl
  | reply r =>
    simp only [Dialogue.run, Dialogue.Run.after, ending]
    cases Client.interpret (some expected) r <;> rfl

theorem result_get (n : Node) (path : String) (expected : Wire.Schema) :
    ((n.get path expected).run net x).result =
      n.ending (Http.locate n.client.server path []) expected
        (net x (n.client.request .get path none n.headers)).1 :=
  result_call n _ expected

/-- Whether a message can be written and sent. -/
def IsSendable (body : Wire.Record) : Prop :=
  ∃ text, body.toText = .ok text ∧ Text.Surrogate.isPlain text = true

theorem result_post (net : Dialogue.Network σ) (x : σ) (n : Node) (path : String)
    {body : Wire.Record} (expected : Wire.Schema) (h : IsSendable body) :
    ∃ text, ((n.post path body expected).run net x).result =
      n.ending (Http.locate n.client.server path []) expected
        (net x (n.client.request .post path (some text) n.headers)).1 := by
  obtain ⟨text, htext, hplain⟩ := h
  refine ⟨text, ?_⟩
  rw [post, htext]
  simp only [Client.post, hplain, if_true]
  exact result_call n _ expected

/-- Only what can be sent is answered. -/
theorem isSendable_of_ok {n : Node} {path : String} {body r : Wire.Record} {expected : Wire.Schema}
    (h : ((n.post path body expected).run net x).result = .ok r) : IsSendable body := by
  rw [post] at h
  cases htext : body.toText with
  | error f => simp [htext, Dialogue.fail, Dialogue.run] at h
  | ok text =>
    refine ⟨text, htext, ?_⟩
    by_contra hplain
    simp [htext, call, Dialogue.run_andThen, Client.post, hplain, Dialogue.fail, Dialogue.run] at h

/-- A call that is answered was made with a name. -/
theorem withName_ok {α : Type} {v : Value} {f : Name → Dialogue NodeError α} {a : α}
    (h : ((withName v f).run net x).result = .ok a) :
    ∃ name, Name.ofValue v = .ok name ∧ ((f name).run net x).result = .ok a := by
  unfold withName at h
  cases hname : Name.ofValue v with
  | error e => simp [hname, Dialogue.fail, Dialogue.run] at h
  | ok name => exact ⟨name, rfl, by simpa [hname] using h⟩

theorem withName_eq {α : Type} {v : Value} {name : Name} (h : Name.ofValue v = .ok name)
    (f : Name → Dialogue NodeError α) : withName v f = f name := by
  rw [withName, h]

/-! ## Unreachable servers -/

theorem ending_failure (n : Node) (url : String) (expected : Wire.Schema) {f : TransportFailure}
    (h : f.IsConnect) :
    ∃ e, n.ending url expected (.failure f) = .error (.unavailable n.address e) := by
  refine ⟨.ofTransport url f, ?_⟩
  simp only [ending, NodeError.ofRest, RestError.kind_ofTransport h]

theorem get_unreachable {n : Node} (h : net.Unreachable n.client.server) (path : String)
    (expected : Wire.Schema) :
    ∃ e, ((n.get path expected).run net x).result = .error (.unavailable n.address e) := by
  obtain ⟨f, hf, hconnect⟩ := h x (n.client.request .get path none n.headers) ⟨path, rfl⟩
  rw [result_get, hf]
  exact ending_failure n _ expected hconnect

theorem post_unreachable {n : Node} (h : net.Unreachable n.client.server) (path : String)
    {body : Wire.Record} (expected : Wire.Schema) (hbody : IsSendable body) :
    ∃ e, ((n.post path body expected).run net x).result = .error (.unavailable n.address e) := by
  obtain ⟨text, hrun⟩ := result_post net x n path expected hbody
  obtain ⟨f, hf, hconnect⟩ := h x (n.client.request .post path (some text) n.headers) ⟨path, rfl⟩
  rw [hrun, hf]
  exact ending_failure n _ expected hconnect

/-! ## Unknown calls -/

theorem ending_unknownCall (n : Node) (url : String) (expected : Wire.Schema) {outcome : Outcome}
    (h : outcome.IsUnknownCall) :
    ∃ e, n.ending url expected outcome = .error (.unsupported n.address e) := by
  obtain ⟨⟨status, body, headers⟩, rfl, rfl, hcode⟩ := h
  have hkind (id : Value) :
      (RestError.ofBody (RestError.parseBody (.str body) (.int (501 : ℕ))) id).kind =
        .notImplemented :=
    RestError.kind_ofBody (RestError.code_parseBody hcode _) id
  have hrejection : Client.isRejection 501 = true := rfl
  simp only [ending, Client.interpret, hrejection, if_true, NodeError.ofRest, hkind]
  exact ⟨_, rfl⟩

theorem post_unknownCall {n : Node} (path : String) {body : Wire.Record} (expected : Wire.Schema)
    (hbody : IsSendable body)
    (h : ∀ request : Request, request.url = Http.locate n.client.server path [] →
      (net x request).1.IsUnknownCall) :
    ∃ e, ((n.post path body expected).run net x).result = .error (.unsupported n.address e) := by
  obtain ⟨text, hrun⟩ := result_post net x n path expected hbody
  rw [hrun]
  exact ending_unknownCall n _ expected (h _ rfl)

end Node

end RingScan

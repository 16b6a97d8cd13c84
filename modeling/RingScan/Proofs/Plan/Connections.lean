import RingScan.Proofs.Node.Exchanges
import RingScan.Proofs.Plan.Cluster

set_option autoImplicit false

/-! # Connections and their protocol

A connection to a host goes through phases. In each of them at most one request can be sent, which
the phase, the host and the purpose of the connection determine, and what comes of it leads to the
next phase: the user logs in if there is one, the keyspace is selected, and then the ring is asked
for, or the parts of a task. A `Path` is what is exchanged between two phases. All that is said of a
single connection follows from it (`Connection.obeys_of_path`). -/

namespace RingScan.Plan

open Dialogue (Entry)
open Http (Authorization Headers)

/-! ## Connections -/

/-- What a connection is opened for. -/
inductive Purpose where
  /-- To ask a seed for the ring. -/
  | ring
  /-- To ask a replica for the parts of a task. -/
  | parts (t : Task)

/-- A connection before anything is sent on it. -/
structure Line where
  host : Value
  purpose : Purpose

/-- A connection with all that was exchanged on it. -/
structure Connection extends Line where
  exchanges : List Exchange

/-- A connection in a transcript: that it is opened, and what is exchanged on it. -/
def Connection.entries (c : Context) (k : Connection) : List Entry :=
  .noted (.connecting (c.addressOf k.host)) :: k.exchanges.map .exchanged

/-! ## Phases -/

/-- How far a connection has got, and how its requests are authorized. -/
inductive Phase where
  /-- Nothing was sent, and the user is to log in. -/
  | opened
  /-- The user is logged in, if there is one. -/
  | admitted (a : Authorization)
  /-- The keyspace is selected. -/
  | ready (a : Authorization)
  /-- The node does not know the call for sized parts. -/
  | declined (a : Authorization)
  /-- Nothing is left to send. -/
  | closed

/-- The name of the keyspace, if it has one. -/
def Context.keyspaceName? (c : Context) : Option Node.Name :=
  (Node.Name.ofValue (.str c.keyspace)).toOption

/-- The name of the table, if it has one. -/
def Context.tableName? (c : Context) : Option Node.Name :=
  (Node.Name.ofValue (.str c.table)).toOption

/-- The text of the login of a user. -/
def Context.loginText? (c : Context) (username : String) : Option String :=
  Node.sendable? (Wire.loginBody (.str username) (.str (c.password?.getD "")))

/-- The text that tells a node what is to be cut: the bounds of a task and the size to cut it to. -/
def Task.bodyText? (t : Task) : Option String :=
  Node.sendable? (Wire.splitsBody t.range.startToken t.range.endToken t.splitSize)

/-- A request to a host. -/
def requestTo (c : Context) (host : Value) (a : Authorization) (method : Method) (path : String)
    (body? : Option String) : Request :=
  (c.nodeAt host).client.request method path body? (a.apply [])

/-- A call about the parts of a task. -/
def partsRequest? (c : Context) (host : Value) (a : Authorization)
    (path : Node.Name → Node.Name → String) (t : Task) : Option Request :=
  match c.keyspaceName?, c.tableName?, t.bodyText? with
  | some keyspace, some table, some text =>
      some (requestTo c host a .post (path keyspace table) (some text))
  | _, _, _ => none

namespace Phase

/-- The phase that connections begin in. -/
def first (c : Context) : Phase := if c.username?.isSome then .opened else .admitted .none

/-- The request of a phase: there is none if nothing is left to send, or if it cannot be written. -/
def request? (c : Context) (l : Line) : Phase → Option Request
  | .opened => c.username?.bind fun username =>
      (c.loginText? username).map fun text =>
        requestTo c l.host .none .post Node.paths.login (some text)
  | .admitted a => c.keyspaceName?.map fun keyspace =>
      requestTo c l.host a .get (Node.paths.keyspace keyspace) none
  | .ready a =>
      match l.purpose with
      | .ring => c.keyspaceName?.map fun keyspace =>
          requestTo c l.host a .get (Node.paths.ring keyspace) none
      | .parts t => partsRequest? c l.host a Node.paths.splits t
  | .declined a =>
      match l.purpose with
      | .ring => none
      | .parts t => partsRequest? c l.host a Node.paths.splitTokens t
  | .closed => none

/-- The message that the request of a phase asks for. -/
def expects (purpose : Purpose) : Phase → Wire.Schema
  | .opened => Wire.loginResponse
  | .admitted _ => Wire.keyspaceResponse
  | .ready _ =>
      match purpose with
      | .ring => Wire.ringResponse
      | .parts _ => Wire.splitsResponse
  | .declined _ => Wire.splitTokensResponse
  | .closed => []

/-- The phase after a call, by how the call ends. -/
def next : Phase → Except NodeError Wire.Record → Phase
  | .opened, .ok r => .admitted (.bearer (r.value "token").displayText)
  | .admitted a, .ok _ => .ready a
  | .ready a, .error (.unsupported ..) => .declined a
  | _, _ => .closed

/-- What a call ends with that is made in a phase. -/
def ending (c : Context) (l : Line) (p : Phase) (e : Exchange) : Except NodeError Wire.Record :=
  (c.nodeAt l.host).ending e.request.url (p.expects l.purpose) e.outcome

/-- How the request of a phase is authorized. -/
def authorization : Phase → Authorization
  | .admitted a => a
  | .ready a => a
  | .declined a => a
  | _ => .none

end Phase

/-! ## Paths -/

/-- What is exchanged on a connection between two phases. -/
inductive Path (c : Context) (l : Line) : Phase → List Exchange → Phase → Prop
  | nil (p : Phase) : Path c l p [] p
  | cons {p last : Phase} {e : Exchange} {es : List Exchange}
      (hsent : p.request? c l = some e.request)
      (h : Path c l (p.next (p.ending c l e)) es last) : Path c l p (e :: es) last

section Path

variable {c : Context} {l : Line} {p q last : Phase} {a : Authorization} {e : Exchange}
  {xs ys : List Exchange}

theorem Path.append (h : Path c l p xs q) (h' : Path c l q ys last) :
    Path c l p (xs ++ ys) last := by
  induction h with
  | nil => exact h'
  | cons hsent _ ih => exact .cons hsent (ih h')

theorem path_append_iff :
    Path c l p (xs ++ ys) last ↔ ∃ q, Path c l p xs q ∧ Path c l q ys last := by
  constructor
  · intro h
    induction xs generalizing p with
    | nil => exact ⟨p, .nil p, h⟩
    | cons e xs ih =>
      cases h with
      | cons hsent h =>
        obtain ⟨q, hx, hy⟩ := ih h
        exact ⟨q, .cons hsent hx, hy⟩
  · rintro ⟨q, hx, hy⟩
    exact hx.append hy

/-- Where nothing can be sent, nothing is. -/
theorem Path.eq_nil (h : Path c l p xs q) (hp : p.request? c l = none) : xs = [] ∧ q = p := by
  cases h with
  | nil => exact ⟨rfl, rfl⟩
  | cons hsent _ => simp [hp] at hsent

/-! ### Authorization -/

theorem partsRequest?_eq {path : Node.Name → Node.Name → String} {t : Task} {host : Value}
    {request : Request} (h : partsRequest? c host a path t = some request) :
    ∃ place text, t.bodyText? = some text ∧
      request = requestTo c host a .post place (some text) := by
  unfold partsRequest? at h
  split at h
  · next keyspace table text _ _ htext =>
    exact ⟨path keyspace table, text, htext, (Option.some.inj h).symm⟩
  · simp at h

/-- Every request of a connection goes to its host, with the authorization of its phase. -/
theorem Phase.request?_eq {request : Request} (h : p.request? c l = some request) :
    ∃ method path body?, request = requestTo c l.host p.authorization method path body? := by
  cases p with
  | opened =>
    obtain ⟨username, -, htext⟩ := Option.bind_eq_some_iff.1 h
    obtain ⟨text, -, rfl⟩ := Option.map_eq_some_iff.1 htext
    exact ⟨_, _, _, rfl⟩
  | admitted a =>
    obtain ⟨keyspace, -, rfl⟩ := Option.map_eq_some_iff.1 h
    exact ⟨_, _, _, rfl⟩
  | ready a =>
    simp only [request?] at h
    split at h
    · obtain ⟨keyspace, -, rfl⟩ := Option.map_eq_some_iff.1 h
      exact ⟨_, _, _, rfl⟩
    · obtain ⟨place, text, -, rfl⟩ := partsRequest?_eq h
      exact ⟨_, _, _, rfl⟩
  | declined a =>
    simp only [request?] at h
    split at h
    · simp at h
    · obtain ⟨place, text, -, rfl⟩ := partsRequest?_eq h
      exact ⟨_, _, _, rfl⟩
  | closed => simp [request?] at h

theorem Path.isTo (h : Path c l p xs last) :
    ∀ e ∈ xs, e.request.IsTo (c.nodeAt l.host).client.server := by
  induction h with
  | nil => simp
  | cons hsent _ ih =>
    refine List.forall_mem_cons.2 ⟨?_, ih⟩
    obtain ⟨method, path, body?, hrequest⟩ := Phase.request?_eq hsent
    exact ⟨path, by rw [hrequest]; rfl⟩

/-- The header of a request that authorizes it. -/
def authorizationOf (request : Request) : Option Value :=
  Headers.find? "Authorization" request.headers

/-- An authorization as the value of a header. -/
def headerOf : Authorization → Option Value
  | .none => none
  | .bearer token => some (.str ("Bearer " ++ token))

theorem authorizationOf_requestTo (c : Context) (host : Value) (a : Authorization)
    (method : Method) (path : String) (body? : Option String) :
    authorizationOf (requestTo c host a method path body?) = headerOf a := by
  cases a <;> rfl

/-- Once the user is logged in, the authorization stays the same. -/
theorem Path.authorizationOf_eq (h : Path c l p xs last) (hp : p ≠ .opened) :
    ∀ e ∈ xs, authorizationOf e.request = headerOf p.authorization := by
  induction h with
  | nil => simp
  | @cons p last e es hsent h ih =>
    obtain ⟨method, path, body?, hrequest⟩ := Phase.request?_eq hsent
    refine List.forall_mem_cons.2 ⟨?_, ?_⟩
    · rw [hrequest, authorizationOf_requestTo]
    · -- the next phase has the same authorization, or is the last one
      generalize p.ending c l e = ending at h ih
      have hnext : p.next ending = .closed ∨
          p.next ending ≠ .opened ∧ (p.next ending).authorization = p.authorization := by
        unfold Phase.next
        split
        · exact absurd rfl hp
        · exact .inr ⟨by simp, rfl⟩
        · exact .inr ⟨by simp, rfl⟩
        · exact .inl rfl
      rcases hnext with hclosed | ⟨hopened, hsame⟩
      · rw [hclosed] at h
        obtain ⟨rfl, -⟩ := h.eq_nil rfl
        simp
      · rw [← hsame]
        exact ih hopened

/-! ### Handshakes -/

/-- The number of requests of a handshake. -/
def Context.handshakeLength (c : Context) : ℕ := if c.username?.isSome then 2 else 1

/-- The number of requests of a handshake that are still to be sent. -/
def Phase.toGo : Phase → ℕ
  | .opened => 2
  | .admitted _ => 1
  | _ => 0

theorem Phase.toGo_first (c : Context) : (first c).toGo = c.handshakeLength := by
  unfold first Context.handshakeLength
  split_ifs <;> rfl

theorem Phase.next_ready (a : Authorization) (ending : Except NodeError Wire.Record) :
    (ready a).next ending = .declined a ∨ (ready a).next ending = .closed := by
  cases ending with
  | ok r => exact .inr rfl
  | error e => cases e <;> simp [next]

/-- Only a node that does not know a call is sent anything behind it. -/
theorem Phase.next_ready_closed {ending : Except NodeError Wire.Record}
    (h : ¬ ∃ e, ending = .error e ∧ e.IsUnsupported) : (ready a).next ending = .closed := by
  unfold next
  split <;> simp_all [NodeError.IsUnsupported]

/-- A handshake takes as many requests as there are still to be sent. -/
theorem Path.length_eq_toGo (h : Path c l p xs (.ready a)) : xs.length = p.toGo := by
  generalize hq : Phase.ready a = q at h
  induction h with
  | nil =>
    rw [← hq]
    rfl
  | @cons p last e es _ h ih =>
    have hlater := ih hq
    subst hq
    generalize p.ending c l e = ending at h hlater
    have hclosed : ¬ Path c l .closed es (.ready a) := fun h => by simpa using (h.eq_nil rfl).2
    cases p with
    | opened =>
      cases ending with
      | ok r => simpa [Phase.next, Phase.toGo] using hlater
      | error e => exact absurd h hclosed
    | admitted b =>
      cases ending with
      | ok r => simpa [Phase.next, Phase.toGo] using hlater
      | error e => exact absurd h hclosed
    | ready b =>
      -- there is no way back from the phases behind
      rcases Phase.next_ready b ending with hnext | hnext
      · rw [hnext] at h hlater
        obtain rfl : es = [] := List.length_eq_zero_iff.1 hlater
        cases h
      · rw [hnext] at h
        exact absurd h hclosed
    | declined b => exact absurd h hclosed
    | closed => exact absurd h hclosed

/-- Behind a handshake, what can still be sent is sent in the phase that it leads to. -/
theorem Path.ready_of_length (h : Path c l p xs q) (hp : p.toGo ≠ 0) (hlength : xs.length = p.toGo)
    (hq : q ≠ .closed) : ∃ a, q = .ready a := by
  induction h with
  | nil => exact absurd hlength.symm hp
  | @cons p last e es _ h ih =>
    generalize p.ending c l e = ending at h ih
    have hclosed : ¬ Path c l .closed es last := fun h => hq (h.eq_nil rfl).2
    cases p with
    | opened =>
      cases ending with
      | ok r =>
        refine ih (by simp [Phase.next, Phase.toGo]) ?_ hq
        simpa [Phase.toGo, Phase.next] using hlength
      | error e => exact absurd h hclosed
    | admitted b =>
      cases ending with
      | ok r =>
        obtain rfl : es = [] := by simpa [Phase.toGo] using hlength
        cases h
        exact ⟨b, rfl⟩
      | error e => exact absurd h hclosed
    | ready b => exact absurd rfl hp
    | declined b => exact absurd rfl hp
    | closed => exact absurd rfl hp

/-- What is sent behind a handshake is sent once the keyspace is selected. -/
theorem Path.exists_ready {handshake later : List Exchange}
    (h : Path c l (.first c) (handshake ++ e :: later) last)
    (hlength : handshake.length = c.handshakeLength) :
    ∃ a, Path c l (.first c) handshake (.ready a) ∧ Path c l (.ready a) (e :: later) last := by
  obtain ⟨p, hhandshake, hcalls⟩ := path_append_iff.1 h
  have hp : p ≠ .closed := by
    rintro rfl
    simpa using (hcalls.eq_nil rfl).1
  rw [← Phase.toGo_first c] at hlength
  have hfirst : (Phase.first c).toGo ≠ 0 := by
    unfold Phase.first
    split_ifs <;> simp [Phase.toGo]
  obtain ⟨a, rfl⟩ := hhandshake.ready_of_length hfirst hlength hp
  exact ⟨a, hhandshake, hcalls⟩

/-! ### Asking for parts -/

theorem partsRequest?_body {path : Node.Name → Node.Name → String} {t : Task} {host : Value}
    {request : Request} (h : partsRequest? c host a path t = some request) :
    request.body? = t.bodyText? := by
  obtain ⟨place, text, htext, rfl⟩ := partsRequest?_eq h
  exact htext.symm

/-- Whether a call about the parts of a task can be written does not depend on its path. -/
theorem partsRequest?_congr {path path' : Node.Name → Node.Name → String} {t : Task} {host : Value}
    {request : Request} (h : partsRequest? c host a path t = some request) :
    partsRequest? c host a path' t ≠ none := by
  unfold partsRequest? at h ⊢
  split at h <;> simp_all

/-- Behind a handshake, a replica is asked for sized parts, and if it does not know that call, it is
    sent the same message once more. -/
theorem Path.ask_twice {t : Task} {sized : Exchange} {later : List Exchange}
    (h : Path c l (.ready a) (sized :: later) last) (hlast : last.request? c l = none)
    (hl : l.purpose = .parts t) :
    sized.request.body? = t.bodyText? ∧ later.length ≤ 1 ∧
      (∀ e ∈ later, e.request.body? = t.bodyText?) ∧
      (later ≠ [] ↔ ∃ e, (c.nodeAt l.host).ending sized.request.url Wire.splitsResponse
        sized.outcome = .error e ∧ e.IsUnsupported) := by
  have hending : Phase.ending c l (.ready a) sized =
      (c.nodeAt l.host).ending sized.request.url Wire.splitsResponse sized.outcome := by
    simp only [Phase.ending, Phase.expects, hl]
  have hready : Phase.request? c l (.ready a) = partsRequest? c l.host a Node.paths.splits t := by
    simp only [Phase.request?, hl]
  have hdeclined : Phase.request? c l (.declined a) =
      partsRequest? c l.host a Node.paths.splitTokens t := by
    simp only [Phase.request?, hl]
  cases h with
  | cons hsent h =>
    rw [hready] at hsent
    rw [hending] at h
    refine ⟨partsRequest?_body hsent, ?_⟩
    by_cases hunknown : ∃ e, (c.nodeAt l.host).ending sized.request.url Wire.splitsResponse
        sized.outcome = .error e ∧ e.IsUnsupported
    · obtain ⟨e, he, address, cause, rfl⟩ := hunknown
      rw [he] at h
      cases h with
      | nil => exact absurd (hdeclined ▸ hlast) (partsRequest?_congr hsent)
      | cons hagain h =>
        obtain ⟨rfl, -⟩ := h.eq_nil rfl
        refine ⟨by simp, ?_, by simp [he, NodeError.IsUnsupported]⟩
        exact List.forall_mem_singleton.2 (partsRequest?_body (hdeclined.symm.trans hagain))
    · rw [Phase.next_ready_closed hunknown] at h
      obtain ⟨rfl, -⟩ := h.eq_nil rfl
      exact ⟨by simp, by simp, by simpa using hunknown⟩

end Path

/-! ## The protocol -/

/-- What holds of every connection. -/
structure Connection.Obeys (c : Context) (k : Connection) : Prop where
  /-- Every request is that of its phase, and none that can be sent is left out. -/
  follows : ∃ last, Path c k.toLine (.first c) k.exchanges last ∧ last.request? c k.toLine = none
  /-- All requests go to the host of the connection. -/
  host : ∀ e ∈ k.exchanges, e.request.IsTo (c.nodeAt k.host).client.server
  /-- Without a user, no request is authorized. -/
  anonymous : c.username? = none → ∀ e ∈ k.exchanges, authorizationOf e.request = none
  /-- The login of a user is not authorized, and all that follows is by the token that it gave. -/
  authorized : c.username?.isSome → ∀ login later, k.exchanges = login :: later →
    authorizationOf login.request = none ∧ ∀ e ∈ later, ∃ r,
      (c.nodeAt k.host).ending login.request.url Wire.loginResponse login.outcome = .ok r ∧
        authorizationOf e.request = some (.str ("Bearer " ++ (r.value "token").displayText))
  /-- A replica gets the message about its task once, and once more just if it does not know the
      first call. -/
  asked : ∀ t, k.purpose = .parts t → ∀ handshake sized later,
    k.exchanges = handshake ++ sized :: later → handshake.length = c.handshakeLength →
    sized.request.body? = t.bodyText? ∧ later.length ≤ 1 ∧
      (∀ e ∈ later, e.request.body? = t.bodyText?) ∧
      (later ≠ [] ↔ ∃ e, (c.nodeAt k.host).ending sized.request.url Wire.splitsResponse
        sized.outcome = .error e ∧ e.IsUnsupported)

/-- All of the protocol follows from the phases. -/
theorem Connection.obeys_of_path {c : Context} {k : Connection} {last : Phase}
    (h : Path c k.toLine (.first c) k.exchanges last) (hlast : last.request? c k.toLine = none) :
    k.Obeys c where
  follows := ⟨last, h, hlast⟩
  host := h.isTo
  anonymous := by
    intro hu
    have hfirst : Phase.first c = .admitted .none := by simp [Phase.first, hu]
    rw [hfirst] at h
    exact h.authorizationOf_eq (by simp)
  authorized := by
    intro hu login later hexchanges
    have hfirst : Phase.first c = .opened := by simp [Phase.first, hu]
    rw [hfirst, hexchanges] at h
    cases h with
    | cons hsent h =>
      obtain ⟨method, path, body?, hrequest⟩ := Phase.request?_eq hsent
      refine ⟨by rw [hrequest, authorizationOf_requestTo]; rfl, ?_⟩
      have hending : Phase.ending c k.toLine .opened login =
          (c.nodeAt k.host).ending login.request.url Wire.loginResponse login.outcome := rfl
      rw [hending] at h
      cases hlogin : (c.nodeAt k.host).ending login.request.url Wire.loginResponse
          login.outcome with
      | ok r =>
        rw [hlogin] at h
        exact fun e he => ⟨r, rfl, h.authorizationOf_eq (by simp [Phase.next]) e he⟩
      | error e =>
        rw [hlogin] at h
        obtain ⟨rfl, -⟩ := h.eq_nil rfl
        simp
  asked := by
    intro t hk handshake sized later hexchanges hlength
    rw [hexchanges] at h
    obtain ⟨a, -, hcalls⟩ := h.exists_ready hlength
    exact hcalls.ask_twice hlast hk

end RingScan.Plan

import RingScan.Value.Basic

set_option autoImplicit false

/-! # Dialogues with nodes

A dialogue is a program that sends requests and goes on with what comes of them; on the way it may
note what it does. It says nothing of how requests are carried out: a *network* answers them, from
a state of its own, when the dialogue is run. -/

namespace RingScan

/-! ## Requests and what comes of them -/

/-- The methods that requests use. -/
inductive Method where
  | get
  | post
  deriving DecidableEq

/-- The name of a method. -/
def Method.name : Method → String
  | .get => "GET"
  | .post => "POST"

/-- A request. Its timeouts are in seconds; without one it may take for ever. -/
structure Request where
  method : Method
  url : String
  body? : Option String
  headers : List (String × Value)
  connectTimeout? : Option Binary64
  requestTimeout? : Option Binary64
  deriving DecidableEq

/-- An answer. -/
structure Reply where
  status : Nat
  body : String
  headers : List (String × Value)
  deriving DecidableEq

/-- Why there is no answer. -/
inductive TransportFailure where
  /-- No connection was made in time. -/
  | connectTimeout
  /-- The answer did not come in time. -/
  | readTimeout
  /-- Something was not done in time. -/
  | timeout
  /-- No connection could be made. -/
  | connection
  /-- No secure connection could be made. -/
  | insecure
  /-- The answer broke off. -/
  | brokenBody
  /-- Anything else. -/
  | other (message : String)
  deriving DecidableEq

/-- What comes of a request. -/
inductive Outcome where
  | reply (r : Reply)
  | failure (f : TransportFailure)
  deriving DecidableEq

/-! ## Notes -/

/-- How a pool of workers was used. -/
structure PoolReport where
  /-- The number of workers asked for. -/
  workers : Nat
  /-- How many pieces of work were handed in. -/
  submitted : Nat
  /-- How many of them were called off at the end. -/
  cancelled : Nat
  deriving DecidableEq

/-- What a dialogue does besides sending requests. -/
inductive Note where
  /-- A connection to an address is opened. -/
  | connecting (address : String)
  /-- A pool of workers is shut down. -/
  | poolClosed (report : PoolReport)
  deriving DecidableEq

/-- What can be seen of a dialogue from outside. -/
inductive Event where
  | sent (request : Request)
  | noted (note : Note)
  deriving DecidableEq

/-! ## Dialogues -/

/-- A program that ends with a value of `α` or an error of `ε`. -/
inductive Dialogue (ε α : Type) where
  | done (result : Except ε α)
  | send (request : Request) (next : Outcome → Dialogue ε α)
  | note (n : Note) (next : Dialogue ε α)

namespace Dialogue

variable {ε δ α β : Type}

/-- A dialogue that goes on with the result of another one, whether a value or an error. -/
def andThen : Dialogue ε α → (Except ε α → Dialogue δ β) → Dialogue δ β
  | .done result, f => f result
  | .send request next, f => .send request fun outcome => andThen (next outcome) f
  | .note n next, f => .note n (andThen next f)

/-- A dialogue that goes on with the value of another one; an error ends it. -/
def bind (d : Dialogue ε α) (f : α → Dialogue ε β) : Dialogue ε β :=
  d.andThen fun
    | .ok a => f a
    | .error e => .done (.error e)

/-- The same dialogue with another type of errors. -/
def mapError (f : ε → δ) (d : Dialogue ε α) : Dialogue δ α :=
  d.andThen fun result => .done (result.mapError f)

instance : Monad (Dialogue ε) where
  pure a := .done (.ok a)
  bind := bind

/-- A dialogue that ends with an error. -/
def fail (e : ε) : Dialogue ε α := .done (.error e)

/-! ## Running -/

/-- A network: it carries out requests in a state of its own. -/
abbrev Network (σ : Type) := σ → Request → Outcome × σ

/-- What is left when a dialogue has run. -/
structure Run (ε α σ : Type) where
  result : Except ε α
  events : List Event
  state : σ

/-- An event put before those of a run. -/
def Run.after {σ : Type} (e : Event) (r : Run ε α σ) : Run ε α σ :=
  { r with events := e :: r.events }

/-- A dialogue run on a network. -/
def run {σ : Type} (net : Network σ) : Dialogue ε α → σ → Run ε α σ
  | .done result, s => ⟨result, [], s⟩
  | .send request next, s =>
      let (outcome, s) := net s request
      (run net (next outcome) s).after (.sent request)
  | .note n next, s => (run net next s).after (.noted n)

/-- The requests among events. -/
def requests (events : List Event) : List Request :=
  events.filterMap fun
    | .sent request => some request
    | .noted _ => none

/-- The last report of a pool among events. -/
def poolReport? (events : List Event) : Option PoolReport :=
  events.reverse.findSome? fun
    | .noted (.poolClosed report) => some report
    | _ => none

/-! ## Running what was put together -/

theorem run_andThen {σ : Type} (net : Network σ) (d : Dialogue ε α)
    (f : Except ε α → Dialogue δ β) (s : σ) :
    (d.andThen f).run net s =
      let first := d.run net s
      let second := (f first.result).run net first.state
      ⟨second.result, first.events ++ second.events, second.state⟩ := by
  induction d generalizing s with
  | done result => rfl
  | send request next ih => simp [andThen, run, Run.after, ih]
  | note n next ih => simp [andThen, run, Run.after, ih]

theorem run_bind_ok {σ : Type} {net : Network σ} {d : Dialogue ε α} {s : σ} {a : α}
    (h : (d.run net s).result = .ok a) (f : α → Dialogue ε β) :
    (d.bind f).run net s =
      let first := d.run net s
      let second := (f a).run net first.state
      ⟨second.result, first.events ++ second.events, second.state⟩ := by
  rw [bind, run_andThen]
  simp only [h]

theorem result_bind {σ : Type} (net : Network σ) (d : Dialogue ε α) (f : α → Dialogue ε β) (s : σ) :
    ((d.bind f).run net s).result =
      match (d.run net s).result with
      | .ok a => ((f a).run net (d.run net s).state).result
      | .error e => .error e := by
  rw [bind, run_andThen]
  dsimp only
  cases (d.run net s).result <;> rfl

theorem result_mapError {σ : Type} (net : Network σ) (d : Dialogue ε α) (f : ε → δ) (s : σ) :
    ((d.mapError f).run net s).result = (d.run net s).result.mapError f := by
  rw [mapError, run_andThen]
  rfl

end Dialogue

end RingScan

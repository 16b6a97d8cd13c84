import RingScan.Dialogue

set_option autoImplicit false

/-! # Dialogues up to a view of their requests

To say that two dialogues differ in nothing but a part of some requests, that part is taken out of
both, and what is left is the same dialogue. `Dialogue.relabel` puts every request through a view;
it goes through all the ways in which dialogues are put together. On a network that does not look
behind the view, a relabelled dialogue runs as the dialogue does, up to the requests that are seen
(`run_relabel`). -/

namespace RingScan

/-- An event with its request, if it is one, put through a view. -/
def Event.relabel (view : Request → Request) : Event → Event
  | .sent request => .sent (view request)
  | .noted n => .noted n

namespace Dialogue

variable {ε δ α β σ : Type} {view : Request → Request}

/-- A dialogue that sends what is seen of its requests. -/
def relabel (view : Request → Request) : Dialogue ε α → Dialogue ε α
  | .done result => .done result
  | .send request next => .send (view request) fun outcome => (next outcome).relabel view
  | .note n next => .note n (next.relabel view)

@[simp] theorem relabel_done (result : Except ε α) :
    (Dialogue.done result).relabel view = .done result := rfl

@[simp] theorem relabel_note (n : Note) (next : Dialogue ε α) :
    (Dialogue.note n next).relabel view = .note n (next.relabel view) := rfl

@[simp] theorem relabel_fail (e : ε) : (fail e : Dialogue ε α).relabel view = fail e := rfl

theorem relabel_andThen (d : Dialogue ε α) (f : Except ε α → Dialogue δ β) :
    (d.andThen f).relabel view = (d.relabel view).andThen fun result => (f result).relabel view := by
  induction d with
  | done result => rfl
  | send request next ih => simp [andThen, relabel, ih]
  | note n next ih => simp [andThen, relabel, ih]

theorem relabel_bind (d : Dialogue ε α) (f : α → Dialogue ε β) :
    (d.bind f).relabel view = (d.relabel view).bind fun a => (f a).relabel view := by
  rw [bind, relabel_andThen, bind]
  congr 1
  funext result
  cases result <;> rfl

theorem relabel_mapError (d : Dialogue ε α) (f : ε → δ) :
    (d.mapError f).relabel view = (d.relabel view).mapError f := relabel_andThen _ _

/-- Whether a network does not look behind a view: it answers to what is seen of a request as it
    answers to the request. -/
def Network.Blind (view : Request → Request) (net : Network σ) : Prop :=
  ∀ s request, net s (view request) = net s request

/-- A network that does not look behind a view makes no difference between a dialogue and what is
    seen of it. -/
theorem run_relabel {net : Network σ} (h : net.Blind view) (d : Dialogue ε α) (s : σ) :
    (d.relabel view).run net s =
      ⟨(d.run net s).result, (d.run net s).events.map (Event.relabel view),
        (d.run net s).state⟩ := by
  induction d generalizing s with
  | done result => rfl
  | send request next ih => simp [relabel, run, Run.after, Event.relabel, h s request, ih]
  | note n next ih => simp [relabel, run, Run.after, Event.relabel, ih]

end Dialogue

end RingScan

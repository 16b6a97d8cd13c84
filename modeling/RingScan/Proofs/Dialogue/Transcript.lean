import RingScan.Dialogue

set_option autoImplicit false

/-! # Transcripts of dialogues

The events of a run do not say what came of the requests. A transcript does: it holds the requests
of a dialogue each with its outcome, and the notes between them. `Dialogue.Yields` relates a
dialogue to the transcripts that it can have, together with what it ends with, whatever answers it
gets; a network chooses one of them (`yields_transcript`). Transcripts are taken apart just as
dialogues are put together. -/

namespace RingScan

/-- A request and what came of it. -/
structure Exchange where
  request : Request
  outcome : Outcome

namespace Dialogue

/-- What a transcript is made of. -/
inductive Entry where
  | exchanged (e : Exchange)
  | noted (n : Note)

/-- An entry as it is seen from outside. -/
def Entry.event : Entry → Event
  | .exchanged e => .sent e.request
  | .noted n => .noted n

variable {ε δ α β σ : Type}

/-- The transcript of a dialogue that is run on a network. -/
def transcript (net : Network σ) : Dialogue ε α → σ → List Entry
  | .done _, _ => []
  | .send request next, s =>
      let (outcome, s) := net s request
      .exchanged ⟨request, outcome⟩ :: (next outcome).transcript net s
  | .note n next, s => .noted n :: next.transcript net s

/-- The events of a run are its transcript without the outcomes. -/
theorem map_event_transcript (net : Network σ) (d : Dialogue ε α) (s : σ) :
    (d.transcript net s).map Entry.event = (d.run net s).events := by
  induction d generalizing s with
  | done result => rfl
  | send request next ih => simp [transcript, run, Run.after, Entry.event, ih]
  | note n next ih => simp [transcript, run, Run.after, Entry.event, ih]

theorem transcript_andThen (net : Network σ) (d : Dialogue ε α) (f : Except ε α → Dialogue δ β)
    (s : σ) :
    (d.andThen f).transcript net s =
      d.transcript net s ++ (f (d.run net s).result).transcript net (d.run net s).state := by
  induction d generalizing s with
  | done result => rfl
  | send request next ih => simp [andThen, transcript, run, Run.after, ih]
  | note n next ih => simp [andThen, transcript, run, Run.after, ih]

/-! ## Any answers -/

/-- A transcript that a dialogue can have, and what it then ends with. -/
inductive Yields : Dialogue ε α → List Entry → Except ε α → Prop
  | done (result : Except ε α) : Yields (.done result) [] result
  | send {request : Request} {next : Outcome → Dialogue ε α} {outcome : Outcome}
      {es : List Entry} {result : Except ε α} (h : Yields (next outcome) es result) :
      Yields (.send request next) (.exchanged ⟨request, outcome⟩ :: es) result
  | note {n : Note} {next : Dialogue ε α} {es : List Entry} {result : Except ε α}
      (h : Yields next es result) : Yields (.note n next) (.noted n :: es) result

/-- What a network makes of a dialogue is one of the ways in which it can go. -/
theorem yields_transcript (net : Network σ) (d : Dialogue ε α) (s : σ) :
    Yields d (d.transcript net s) (d.run net s).result := by
  induction d generalizing s with
  | done result => exact .done result
  | send request next ih => exact .send (ih _ _)
  | note n next ih => exact .note (ih s)

theorem yields_done {result result' : Except ε α} {es : List Entry} :
    Yields (.done result) es result' ↔ es = [] ∧ result' = result := by
  constructor
  · intro h
    cases h
    exact ⟨rfl, rfl⟩
  · rintro ⟨rfl, rfl⟩
    exact .done _

theorem yields_fail {e : ε} {es : List Entry} {result : Except ε α} :
    Yields (fail e : Dialogue ε α) es result ↔ es = [] ∧ result = .error e := yields_done

theorem yields_note {n : Note} {next : Dialogue ε α} {es : List Entry} {result : Except ε α} :
    Yields (.note n next) es result ↔ ∃ rest, es = .noted n :: rest ∧ Yields next rest result := by
  constructor
  · intro h
    cases h with
    | note h => exact ⟨_, rfl, h⟩
  · rintro ⟨rest, rfl, h⟩
    exact .note h

theorem yields_send {request : Request} {next : Outcome → Dialogue ε α} {es : List Entry}
    {result : Except ε α} :
    Yields (.send request next) es result ↔
      ∃ outcome rest, es = .exchanged ⟨request, outcome⟩ :: rest ∧
        Yields (next outcome) rest result := by
  constructor
  · intro h
    cases h with
    | send h => exact ⟨_, _, rfl, h⟩
  · rintro ⟨outcome, rest, rfl, h⟩
    exact .send h

/-- The transcript of two dialogues, one after the other. -/
theorem yields_andThen {d : Dialogue ε α} {f : Except ε α → Dialogue δ β} {es : List Entry}
    {result : Except δ β} :
    Yields (d.andThen f) es result ↔
      ∃ es₁ first es₂, Yields d es₁ first ∧ Yields (f first) es₂ result ∧ es = es₁ ++ es₂ := by
  constructor
  · intro h
    induction d generalizing es with
    | done first => exact ⟨[], first, es, .done first, h, rfl⟩
    | send request next ih =>
      obtain ⟨outcome, rest, rfl, hrest⟩ := yields_send.1 h
      obtain ⟨es₁, first, es₂, h₁, h₂, rfl⟩ := ih outcome hrest
      exact ⟨_, first, es₂, .send h₁, h₂, rfl⟩
    | note n next ih =>
      obtain ⟨rest, rfl, hrest⟩ := yields_note.1 h
      obtain ⟨es₁, first, es₂, h₁, h₂, rfl⟩ := ih hrest
      exact ⟨_, first, es₂, .note h₁, h₂, rfl⟩
  · rintro ⟨es₁, first, es₂, h₁, h₂, rfl⟩
    induction h₁ with
    | done result => exact h₂
    | send _ ih => exact .send (ih h₂)
    | note _ ih => exact .note (ih h₂)

/-- A dialogue that goes on with a value either gets there or ends before. -/
theorem yields_bind {d : Dialogue ε α} {f : α → Dialogue ε β} {es : List Entry}
    {result : Except ε β} :
    Yields (d.bind f) es result ↔
      (∃ es₁ a es₂, Yields d es₁ (.ok a) ∧ Yields (f a) es₂ result ∧ es = es₁ ++ es₂) ∨
        ∃ e, Yields d es (.error e) ∧ result = .error e := by
  rw [bind, yields_andThen]
  constructor
  · rintro ⟨es₁, first, es₂, h₁, h₂, rfl⟩
    cases first with
    | ok a => exact .inl ⟨es₁, a, es₂, h₁, h₂, rfl⟩
    | error e =>
      obtain ⟨rfl, rfl⟩ := yields_done.1 h₂
      exact .inr ⟨e, by simpa using h₁, rfl⟩
  · rintro (⟨es₁, a, es₂, h₁, h₂, rfl⟩ | ⟨e, h, rfl⟩)
    · exact ⟨es₁, .ok a, es₂, h₁, h₂, rfl⟩
    · exact ⟨es, .error e, [], h, .done _, by simp⟩

theorem yields_map {d : Dialogue ε α} {f : α → β} {es : List Entry} {result : Except ε β} :
    Yields (d.bind fun a => .done (.ok (f a))) es result ↔
      ∃ first, Yields d es first ∧ result = first.map f := by
  rw [yields_bind]
  constructor
  · rintro (⟨es₁, a, es₂, h₁, h₂, rfl⟩ | ⟨e, h, rfl⟩)
    · obtain ⟨rfl, rfl⟩ := yields_done.1 h₂
      exact ⟨.ok a, by simpa using h₁, rfl⟩
    · exact ⟨.error e, h, rfl⟩
  · rintro ⟨first, h, rfl⟩
    cases first with
    | ok a => exact .inl ⟨es, a, [], h, .done _, by simp⟩
    | error e => exact .inr ⟨e, h, rfl⟩

theorem yields_map_ok {d : Dialogue ε α} {f : α → β} {es : List Entry} {b : β} :
    Yields (d.bind fun a => .done (.ok (f a))) es (.ok b) ↔ ∃ a, Yields d es (.ok a) ∧ b = f a := by
  rw [yields_map]
  constructor
  · rintro ⟨first, h, hb⟩
    cases first with
    | ok a => exact ⟨a, h, Except.ok.inj hb⟩
    | error e => cases hb
  · rintro ⟨a, h, rfl⟩
    exact ⟨.ok a, h, rfl⟩

theorem yields_mapError {d : Dialogue ε α} {f : ε → δ} {es : List Entry} {result : Except δ α} :
    Yields (d.mapError f) es result ↔ ∃ first, Yields d es first ∧ result = first.mapError f := by
  rw [mapError, yields_andThen]
  constructor
  · rintro ⟨es₁, first, es₂, h₁, h₂, rfl⟩
    obtain ⟨rfl, rfl⟩ := yields_done.1 h₂
    exact ⟨first, by simpa using h₁, rfl⟩
  · rintro ⟨first, h, rfl⟩
    exact ⟨es, first, [], h, .done _, by simp⟩

theorem yields_mapError_ok {d : Dialogue ε α} {f : ε → δ} {es : List Entry} {a : α} :
    Yields (d.mapError f) es (.ok a) ↔ Yields d es (.ok a) := by
  rw [yields_mapError]
  constructor
  · rintro ⟨first, h, ha⟩
    cases first with
    | ok b => exact Except.ok.inj ha ▸ h
    | error e => cases ha
  · exact fun h => ⟨.ok a, h, rfl⟩

theorem yields_mapError_error {d : Dialogue ε α} {f : ε → δ} {es : List Entry} {e : δ} :
    Yields (d.mapError f) es (.error e) ↔ ∃ e', Yields d es (.error e') ∧ e = f e' := by
  rw [yields_mapError]
  constructor
  · rintro ⟨first, h, he⟩
    cases first with
    | ok a => cases he
    | error e' => exact ⟨e', h, Except.error.inj he⟩
  · rintro ⟨e', h, rfl⟩
    exact ⟨.error e', h, rfl⟩

theorem andThen_assoc {ζ γ : Type} (d : Dialogue ε α) (f : Except ε α → Dialogue δ β)
    (g : Except δ β → Dialogue ζ γ) :
    (d.andThen f).andThen g = d.andThen fun result => (f result).andThen g := by
  induction d with
  | done result => rfl
  | send request next ih => simp [andThen, ih]
  | note n next ih => simp [andThen, ih]

end Dialogue

end RingScan

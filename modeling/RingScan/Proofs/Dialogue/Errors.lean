import RingScan.Dialogue

set_option autoImplicit false

/-! # The errors that a dialogue can end with

What a dialogue ends with depends on the answers that it gets; which kinds of errors it can end with
does not. `Dialogue.FailsWith P` says that all of its errors are of a kind `P`, whatever is
answered, and there is one lemma for every way in which dialogues are put together. -/

namespace RingScan.Dialogue

variable {ε δ α β : Type} {P : ε → Prop} {Q : δ → Prop}

/-- All errors that a dialogue can end with are of a kind. -/
inductive FailsWith (P : ε → Prop) : Dialogue ε α → Prop
  | ok (a : α) : FailsWith P (.done (.ok a))
  | error {e : ε} (h : P e) : FailsWith P (.done (.error e))
  | send {request : Request} {next : Outcome → Dialogue ε α}
      (h : ∀ outcome, FailsWith P (next outcome)) : FailsWith P (.send request next)
  | note {n : Note} {next : Dialogue ε α} (h : FailsWith P next) : FailsWith P (.note n next)

/-- On every network the error of a dialogue is of its kind. -/
theorem FailsWith.of_run {σ : Type} {net : Network σ} {d : Dialogue ε α} {x : σ} {e : ε}
    (h : d.FailsWith P) (he : (d.run net x).result = .error e) : P e := by
  induction h generalizing x with
  | ok a => simp [run] at he
  | error h =>
    obtain rfl := Except.error.inj he
    exact h
  | send _ ih => exact ih _ he
  | note _ ih => exact ih he

theorem failsWith_true (d : Dialogue ε α) : d.FailsWith fun _ => True := by
  induction d with
  | done result =>
    cases result with
    | ok a => exact .ok a
    | error e => exact .error trivial
  | send request next ih => exact .send ih
  | note n next ih => exact .note ih

/-- What comes next only has to be good for the errors that the dialogue can end with. -/
theorem FailsWith.andThen {d : Dialogue ε α} {f : Except ε α → Dialogue δ β} (h : d.FailsWith P)
    (hok : ∀ a, (f (.ok a)).FailsWith Q) (herror : ∀ e, P e → (f (.error e)).FailsWith Q) :
    (d.andThen f).FailsWith Q := by
  induction h with
  | ok a => exact hok a
  | error h => exact herror _ h
  | send _ ih => exact .send ih
  | note _ ih => exact .note ih

theorem FailsWith.bind {d : Dialogue ε α} {f : α → Dialogue ε β} (h : d.FailsWith P)
    (hf : ∀ a, (f a).FailsWith P) : (d.bind f).FailsWith P :=
  h.andThen hf fun _ he => .error he

theorem FailsWith.mapError {d : Dialogue ε α} {f : ε → δ} (h : d.FailsWith P)
    (hf : ∀ e, P e → Q (f e)) : (d.mapError f).FailsWith Q :=
  h.andThen (fun a => .ok a) fun e he => .error (hf e he)

end RingScan.Dialogue

import RingScan.Proofs.Text.Directives

set_option autoImplicit false

/-! # What templates are filled in with

A template is filled in piece by piece: a doubled percent sign is one of them, a directive is what
it writes of the values that it takes, every other character stands for itself, and no value is left
over (`Template.Fills`). A template exceeds its values' place where a directive overtaxes something,
behind pieces that are filled in (`Template.Exceeds`). Templates are filled in just as they say
(`fill_eq_ok_iff`), they fail just where they exceed (`fill_eq_error_iff`), and in all other cases
the values do not suit them (`fill_eq_unfit_iff`). -/

namespace RingScan.Text.Template

variable {cs out text : List Char} {values : List Value} {e : Failure} {fuel : ℕ}

/-- A template, the values for it, and the text that comes of them. -/
inductive Fills : List Char → List Value → List Char → Prop where
  | nil : Fills [] [] []
  | char {c : Char} {cs out : List Char} {values : List Value} :
      c ≠ '%' → Fills cs values out → Fills (c :: cs) values (c :: out)
  | percent {cs out : List Char} {values : List Value} :
      Fills cs values out → Fills ('%' :: '%' :: cs) values ('%' :: out)
  | directive {spelling cs text out : List Char} {counts values : List Value} {v : Value}
      {f : Directive} {k : Conversion} :
      Spells spelling counts f k → k.Writes f v text → f.width < memoryWidth →
        Fills cs values out →
        Fills ('%' :: (spelling ++ cs)) (counts ++ v :: values) (text ++ out)

/-- Whether a directive of a template overtaxes something, behind pieces that are filled in. -/
inductive Exceeds : Failure → List Char → List Value → Prop where
  | char {e : Failure} {c : Char} {cs : List Char} {values : List Value} :
      c ≠ '%' → Exceeds e cs values → Exceeds e (c :: cs) values
  | percent {e : Failure} {cs : List Char} {values : List Value} :
      Exceeds e cs values → Exceeds e ('%' :: '%' :: cs) values
  | later {e : Failure} {spelling cs text : List Char} {counts values : List Value} {v : Value}
      {f : Directive} {k : Conversion} :
      Spells spelling counts f k → k.Writes f v text → f.width < memoryWidth →
        Exceeds e cs values → Exceeds e ('%' :: (spelling ++ cs)) (counts ++ v :: values)
  | here {e : Failure} {cs : List Char} {values : List Value} :
      Overtaxes e cs values → Exceeds e ('%' :: cs) values

/-! ## Piece by piece -/

theorem expand_char {c : Char} (hc : c ≠ '%') :
    expand .characters (fuel + 1) ⟨c :: cs, values⟩ =
      (expand .characters fuel ⟨cs, values⟩).map (c :: ·) := by
  simp [expand, hc]

theorem expand_percent :
    expand .characters (fuel + 1) ⟨'%' :: '%' :: cs, values⟩ =
      (expand .characters fuel ⟨cs, values⟩).map ('%' :: ·) := rfl

/-- No directive goes on with a percent sign. -/
theorem ne_percent_of_read (h : readDirective .characters ⟨cs, values⟩ ≠ .error .unfit) :
    ∀ c ∈ cs.head?, c ≠ '%' := by
  rintro c hc rfl
  obtain ⟨rest, rfl⟩ := List.head?_eq_some_iff.1 hc
  cases values <;> exact h rfl

theorem expand_directive (h : ∀ c ∈ cs.head?, c ≠ '%') :
    expand .characters (fuel + 1) ⟨'%' :: cs, values⟩ =
      (readDirective .characters ⟨cs, values⟩).bind fun x =>
        (expand .characters fuel x.2).map (x.1 ++ ·) := by
  conv_lhs => unfold expand
  split
  · next hnil => cases hnil
  · next hpercent =>
    cases hpercent
    exact absurd rfl (h '%' rfl)
  · next hcs =>
    cases hcs
    cases readDirective .characters ⟨cs, values⟩ <;> rfl
  · next hne hcs =>
    cases hcs
    exact (hne rfl).elim

theorem expand_of_ok {r : Rest} (h : readDirective .characters ⟨cs, values⟩ = .ok (text, r)) :
    expand .characters (fuel + 1) ⟨'%' :: cs, values⟩ =
      (expand .characters fuel r).map (text ++ ·) := by
  have hread : readDirective .characters ⟨cs, values⟩ ≠ .error .unfit := by simp [h]
  rw [expand_directive (ne_percent_of_read hread), h, Except.bind]

theorem expand_of_error (h : readDirective .characters ⟨cs, values⟩ = .error e)
    (he : e ≠ .unfit) : expand .characters (fuel + 1) ⟨'%' :: cs, values⟩ = .error e := by
  have hread : readDirective .characters ⟨cs, values⟩ ≠ .error .unfit := by simpa [h] using he
  rw [expand_directive (ne_percent_of_read hread), h, Except.bind]

theorem expand_of_unfit (h : readDirective .characters ⟨cs, values⟩ = .error .unfit)
    (hcs : ∀ c ∈ cs.head?, c ≠ '%') :
    expand .characters (fuel + 1) ⟨'%' :: cs, values⟩ = .error .unfit := by
  rw [expand_directive hcs, h, Except.bind]

/-! ## Whole templates -/

/-- No directive overtaxes by not suiting. -/
theorem Overtaxes.ne_unfit (h : Overtaxes e cs values) : e ≠ .unfit := by
  cases h <;> decide

theorem Exceeds.ne_unfit (h : Exceeds e cs values) : e ≠ .unfit := by
  induction h with
  | here h => exact h.ne_unfit
  | _ => assumption

theorem Overtaxes.values_ne_nil (h : Overtaxes e cs values) : values ≠ [] := by
  cases h <;> simp

theorem Exceeds.template_ne_nil (h : Exceeds e cs values) : cs ≠ [] := by
  cases h <;> exact List.cons_ne_nil _ _

theorem Exceeds.values_ne_nil (h : Exceeds e cs values) : values ≠ [] := by
  induction h with
  | later => simp
  | here h => exact h.values_ne_nil
  | _ => assumption

/-- What has no percent sign stands for itself. -/
theorem Fills.plain_append {plain : List Char} (hplain : '%' ∉ plain) (h : Fills cs values out) :
    Fills (plain ++ cs) values (plain ++ out) := by
  induction plain with
  | nil => exact h
  | cons c plain ih =>
    rw [List.mem_cons, not_or] at hplain
    exact .char (Ne.symm hplain.1) (ih hplain.2)

/-- The plainest directive shows a value. -/
theorem Fills.show_append {v : Value} (h : Fills cs values out) :
    Fills ('%' :: 's' :: cs) (v :: values) (v.display ++ out) := by
  have hwidth : GivesWidth {} [] [] {} := .digits (by simp) (by simp) (by decide)
  have hspells : Spells ['s'] [] {} (.text Value.display) :=
    .mk (List.forall_mem_nil _) hwidth .missing (.letter rfl)
  have halign : Directive.text {} v.display = v.display := by simp [Directive.text, Directive.align]
  have hwrites : (Conversion.text Value.display).Writes {} v (Directive.text {} v.display) := .text
  rw [halign] at hwrites
  exact .directive hspells hwrites (by decide) h

theorem expand_of_fills (h : Fills cs values out) (hfuel : cs.length < fuel) :
    expand .characters fuel ⟨cs, values⟩ = .ok out := by
  -- every piece takes a character at least, so the fuel outlasts the template
  induction h generalizing fuel with
  | nil =>
    obtain ⟨fuel, rfl⟩ := Nat.exists_eq_add_of_lt hfuel
    rfl
  | char hc _ ih =>
    obtain ⟨fuel, rfl⟩ := Nat.exists_eq_succ_of_ne_zero (Nat.ne_zero_of_lt hfuel)
    rw [expand_char hc, ih (by simpa using hfuel), Except.map]
  | percent _ ih =>
    obtain ⟨fuel, rfl⟩ := Nat.exists_eq_succ_of_ne_zero (Nat.ne_zero_of_lt hfuel)
    simp only [List.length_cons] at hfuel
    rw [expand_percent, ih (by omega), Except.map]
  | directive hspells hwrites hwidth _ ih =>
    obtain ⟨fuel, rfl⟩ := Nat.exists_eq_succ_of_ne_zero (Nat.ne_zero_of_lt hfuel)
    simp only [List.length_cons, List.length_append] at hfuel
    rw [expand_of_ok (readDirective_of_spells hspells hwrites hwidth), ih (by omega), Except.map]

theorem expand_of_exceeds (h : Exceeds e cs values) (hfuel : cs.length < fuel) :
    expand .characters fuel ⟨cs, values⟩ = .error e := by
  induction h generalizing fuel with
  | char hc _ ih =>
    obtain ⟨fuel, rfl⟩ := Nat.exists_eq_succ_of_ne_zero (Nat.ne_zero_of_lt hfuel)
    rw [expand_char hc, ih (by simpa using hfuel), Except.map]
  | percent _ ih =>
    obtain ⟨fuel, rfl⟩ := Nat.exists_eq_succ_of_ne_zero (Nat.ne_zero_of_lt hfuel)
    simp only [List.length_cons] at hfuel
    rw [expand_percent, ih (by omega), Except.map]
  | later hspells hwrites hwidth _ ih =>
    obtain ⟨fuel, rfl⟩ := Nat.exists_eq_succ_of_ne_zero (Nat.ne_zero_of_lt hfuel)
    simp only [List.length_cons, List.length_append] at hfuel
    rw [expand_of_ok (readDirective_of_spells hspells hwrites hwidth), ih (by omega), Except.map]
  | here h =>
    obtain ⟨fuel, rfl⟩ := Nat.exists_eq_succ_of_ne_zero (Nat.ne_zero_of_lt hfuel)
    exact expand_of_error (readDirective_of_overtaxes h) h.ne_unfit

/-- A template is filled in, or it exceeds, or its values do not suit it. -/
theorem expand_cases (fuel : ℕ) (cs : List Char) (values : List Value) :
    (∃ out, Fills cs values out) ∨ (∃ e, Exceeds e cs values) ∨
      expand .characters fuel ⟨cs, values⟩ = .error .unfit := by
  -- not on the template: what a directive leaves of it is no tail that an induction would offer
  induction fuel generalizing cs values with
  | zero => exact .inr (.inr rfl)
  | succ fuel ih =>
    rcases cs with - | ⟨c, cs⟩
    · cases values with
      | nil => exact .inl ⟨[], .nil⟩
      | cons v vs => exact .inr (.inr rfl)
    by_cases hc : c = '%'
    · subst hc
      rcases head?_cases '%' cs with hcs | ⟨rest, rfl⟩
      · rcases readDirective_cases cs values with
          ⟨spelling, rest, counts, v, vs, f, k, text, rfl, rfl, hspells, hwrites, hwidth⟩ |
          ⟨e, hover⟩ | hunfit
        · rcases ih rest vs with ⟨out, hfills⟩ | ⟨e, hexceeds⟩ | hunfit
          · exact .inl ⟨_, .directive hspells hwrites hwidth hfills⟩
          · exact .inr (.inl ⟨e, .later hspells hwrites hwidth hexceeds⟩)
          · right; right
            rw [expand_of_ok (readDirective_of_spells hspells hwrites hwidth), hunfit, Except.map]
        · exact .inr (.inl ⟨e, .here hover⟩)
        · exact .inr (.inr (expand_of_unfit hunfit hcs))
      · rcases ih rest values with ⟨out, hfills⟩ | ⟨e, hexceeds⟩ | hunfit
        · exact .inl ⟨_, .percent hfills⟩
        · exact .inr (.inl ⟨e, .percent hexceeds⟩)
        · exact .inr (.inr (by rw [expand_percent, hunfit, Except.map]))
    · rcases ih cs values with ⟨out, hfills⟩ | ⟨e, hexceeds⟩ | hunfit
      · exact .inl ⟨_, .char hc hfills⟩
      · exact .inr (.inl ⟨e, .char hc hexceeds⟩)
      · exact .inr (.inr (by rw [expand_char hc, hunfit, Except.map]))

/-! ## Texts -/

variable {template filled : String}

theorem fill_of_fills (h : Fills template.toList values filled.toList) :
    fill template values = .ok filled := by
  rw [fill, expand_of_fills h (Nat.lt_succ_self _), Except.map, String.ofList_toList]

theorem fill_of_exceeds (h : Exceeds e template.toList values) :
    fill template values = .error e := by
  rw [fill, expand_of_exceeds h (Nat.lt_succ_self _), Except.map]

theorem fill_cases (template : String) (values : List Value) :
    (∃ filled : String, Fills template.toList values filled.toList) ∨
      (∃ e, Exceeds e template.toList values) ∨ fill template values = .error .unfit := by
  rcases expand_cases (template.toList.length + 1) template.toList values with
    ⟨out, hfills⟩ | hexceeds | hunfit
  · exact .inl ⟨String.ofList out, by rwa [String.toList_ofList]⟩
  · exact .inr (.inl hexceeds)
  · exact .inr (.inr (by rw [fill, hunfit, Except.map]))

/-- **A template is filled in as it says**, piece by piece. -/
theorem fill_eq_ok_iff :
    fill template values = .ok filled ↔ Fills template.toList values filled.toList := by
  refine ⟨fun h => ?_, fill_of_fills⟩
  rcases fill_cases template values with ⟨other, hfills⟩ | ⟨e, hexceeds⟩ | hunfit
  · obtain rfl := Except.ok.inj ((fill_of_fills hfills).symm.trans h)
    exact hfills
  · cases (fill_of_exceeds hexceeds).symm.trans h
  · cases hunfit.symm.trans h

/-- **A template that fails, and not because the values do not suit it, exceeds.** -/
theorem fill_eq_error_iff (he : e ≠ .unfit) :
    fill template values = .error e ↔ Exceeds e template.toList values := by
  refine ⟨fun h => ?_, fill_of_exceeds⟩
  rcases fill_cases template values with ⟨other, hfills⟩ | ⟨e', hexceeds⟩ | hunfit
  · cases (fill_of_fills hfills).symm.trans h
  · obtain rfl := Except.error.inj ((fill_of_exceeds hexceeds).symm.trans h)
    exact hexceeds
  · exact absurd (Except.error.inj (hunfit.symm.trans h)).symm he

/-- **The values do not suit a template** that is neither filled in with them nor exceeds. -/
theorem fill_eq_unfit_iff :
    fill template values = .error .unfit ↔
      (∀ filled : String, ¬ Fills template.toList values filled.toList) ∧
        ∀ e, ¬ Exceeds e template.toList values := by
  constructor
  · intro h
    refine ⟨fun filled hfills => ?_, fun e hexceeds => ?_⟩
    · cases (fill_of_fills hfills).symm.trans h
    · exact hexceeds.ne_unfit (Except.error.inj ((fill_of_exceeds hexceeds).symm.trans h))
  · rintro ⟨hfills, hexceeds⟩
    rcases fill_cases template values with ⟨filled, h⟩ | ⟨e, h⟩ | hunfit
    · exact absurd h (hfills filled)
    · exact absurd h (hexceeds e)
    · exact hunfit

end RingScan.Text.Template

import RingScan.Proofs.Numeric.Numerals
import RingScan.Proofs.Text.Conversions

set_option autoImplicit false

/-! # The grammar of directives

Behind its percent sign a directive is spelled with flags, a width, a precision, a size mark that
means nothing, and a letter; an asterisk for the width or the precision takes it from the values
(`Template.Spells`). A directive is read as it is spelled (`readDirective_of_spells`). Where it
fails otherwise than by not being one, or by its values not suiting it, a number is beyond what its
place can hold or the width is beyond any memory (`Template.Overtaxes`). There is no third way
(`readDirective_cases`). -/

namespace RingScan.Text.Template

variable {f g : Directive} {k : Conversion} {v : Value} {n : ℤ} {e : Failure} {bits : ℕ}
variable {cs rest ds text : List Char} {vs values counts : List Value}

/-! ## What comes first -/

theorem forall_mem_head?_cons {P : Char → Prop} {d : Char} :
    (∀ c ∈ (d :: cs).head?, P c) ↔ P d := by simp

/-- A text starts with a character or not. -/
theorem head?_cases (d : Char) (cs : List Char) :
    (∀ c ∈ cs.head?, c ≠ d) ∨ ∃ rest, cs = d :: rest := by
  cases cs with
  | nil => simp
  | cons c rest => simpa using ne_or_eq c d

/-- Digits are followed by what they are followed by, or start with a digit. -/
theorem forall_mem_head?_append {P : Char → Prop} (hds : ∀ c ∈ ds, c.isDigit = true)
    (hdigit : ∀ c ∈ ds.head?, c.isDigit = true → P c) (hrest : ∀ c ∈ rest.head?, P c) :
    ∀ c ∈ (ds ++ rest).head?, P c := by
  cases ds with
  | nil => exact hrest
  | cons d ds => exact fun c hc => hdigit c hc (hds c (List.mem_of_mem_head? hc))

/-! ## Flags -/

/-- The characters that a directive can start with. -/
def flags : List Char := ['-', '+', ' ', '#', '0']

/-- A directive with some more flags. -/
def Directive.withFlags (f : Directive) (marks : List Char) : Directive :=
  { f with
    leftAligned := f.leftAligned || marks.contains '-'
    plus := f.plus || marks.contains '+'
    blank := f.blank || marks.contains ' '
    alternate := f.alternate || marks.contains '#'
    zeros := f.zeros || marks.contains '0' }

theorem readFlags_append {marks : List Char} (hmarks : ∀ c ∈ marks, c ∈ flags)
    (hrest : ∀ c ∈ rest.head?, c ∉ flags) :
    readFlags f (marks ++ rest) = (f.withFlags marks, rest) := by
  induction marks generalizing f with
  | nil =>
    cases rest with
    | nil => simp [readFlags, Directive.withFlags]
    | cons c rest =>
      have hc := hrest c rfl
      simp only [flags, List.mem_cons, List.not_mem_nil, or_false, not_or] at hc
      simp [readFlags, Directive.withFlags, hc]
  | cons c marks ih =>
    obtain ⟨hc, hrun⟩ := List.forall_mem_cons.1 hmarks
    simp only [flags, List.mem_cons, List.not_mem_nil, or_false] at hc
    rcases hc with rfl | rfl | rfl | rfl | rfl <;>
      simp [readFlags, ih hrun, Directive.withFlags]

/-- A text is some flags and something that does not go on with one. -/
theorem exists_flags (cs : List Char) : ∃ marks rest, cs = marks ++ rest ∧
    (∀ c ∈ marks, c ∈ flags) ∧ ∀ c ∈ rest.head?, c ∉ flags := by
  refine ⟨cs.takeWhile (· ∈ flags), cs.dropWhile (· ∈ flags),
    List.takeWhile_append_dropWhile.symm, fun c hc => ?_, fun c hc => ?_⟩
  · simpa using List.mem_takeWhile_imp hc
  · have hnot := List.head?_dropWhile_not (fun c => decide (c ∈ flags)) cs
    rw [Option.mem_def.1 hc] at hnot
    simpa using hnot

/-! ## Numbers in templates -/

/-- Whether a whole number fits into so many bits with its sign. -/
def Fits (bits : ℕ) (n : ℤ) : Prop := -2 ^ (bits - 1) ≤ n ∧ n < 2 ^ (bits - 1)

/-- The number that digits denote. -/
def numeral (ds : List Char) : ℕ := Integer.ofDigits (ds.map fun c => c.toNat - 48)

theorem takeNumber_of_fits (h : IsWhole v n) (hn : Fits bits n) :
    Rest.takeNumber bits (v :: vs) = .ok (n, vs) := by
  have hbounds : -((1 <<< (bits - 1) : ℕ) : ℤ) ≤ n ∧ n < (1 <<< (bits - 1) : ℕ) := by
    simpa [Nat.one_shiftLeft, Fits] using hn
  simp only [Rest.takeNumber, exactNumber_of_isWhole h, if_pos hbounds]

theorem takeNumber_of_not_fits (h : IsWhole v n) (hn : ¬ Fits bits n) :
    Rest.takeNumber bits (v :: vs) = .error .overflow := by
  have hbounds : ¬ (-((1 <<< (bits - 1) : ℕ) : ℤ) ≤ n ∧ n < (1 <<< (bits - 1) : ℕ)) := by
    simpa [Nat.one_shiftLeft, Fits] using hn
  simp only [Rest.takeNumber, exactNumber_of_isWhole h, if_neg hbounds]

theorem takeNumber_cases (bits : ℕ) (values : List Value) :
    (∃ v vs n, values = v :: vs ∧ IsWhole v n) ∨ Rest.takeNumber bits values = .error .unfit := by
  cases values with
  | nil => exact .inr rfl
  | cons v vs =>
    rcases exactNumber_cases v with ⟨n, hn⟩ | hunfit
    · exact .inl ⟨v, vs, n, rfl, hn⟩
    · exact .inr (by simp only [Rest.takeNumber, hunfit])

theorem literalNumber_append (hds : ∀ c ∈ ds, c.isDigit = true)
    (hrest : ∀ c ∈ rest.head?, c.isDigit = false) (hn : numeral ds < 2 ^ (bits - 1)) :
    literalNumber bits (ds ++ rest) = .ok (numeral ds, rest) := by
  obtain ⟨htake, hdrop⟩ := span_append hds hrest
  rw [numeral] at hn
  simp only [literalNumber, htake, hdrop, Nat.one_shiftLeft, if_pos hn, numeral]

theorem literalNumber_cases (bits : ℕ) (cs : List Char) :
    (∃ ds rest, cs = ds ++ rest ∧ (∀ c ∈ ds, c.isDigit = true) ∧
        (∀ c ∈ rest.head?, c.isDigit = false) ∧ numeral ds < 2 ^ (bits - 1)) ∨
      literalNumber bits cs = .error .unfit := by
  by_cases hn : numeral (cs.takeWhile Char.isDigit) < 2 ^ (bits - 1)
  · refine .inl ⟨_, _, List.takeWhile_append_dropWhile.symm,
      fun c hc => List.mem_takeWhile_imp hc, fun c hc => ?_, hn⟩
    have hnot := List.head?_dropWhile_not Char.isDigit cs
    rwa [Option.mem_def.1 hc] at hnot
  · rw [numeral, ← Nat.one_shiftLeft] at hn
    exact .inr (if_neg hn)

/-! ## Widths -/

/-- A width: digits, none of them if there is none, or an asterisk for a value. The text and the
    values are those that it takes, and the directive is the one that it makes of the other. -/
inductive GivesWidth (f : Directive) : List Char → List Value → Directive → Prop where
  | digits {ds : List Char} :
      (∀ c ∈ ds, c.isDigit = true) → ds.head? ≠ some '0' → numeral ds < 2 ^ 63 →
        GivesWidth f ds [] { f with width := numeral ds }
  | value {v : Value} {n : ℤ} :
      IsWhole v n → Fits 64 n →
        GivesWidth f ['*'] [v]
          { f with width := widthOf n, leftAligned := f.leftAligned || decide (n < 0) }

/-- What a number must be followed by to be known as complete. -/
def EndsNumber (rest : List Char) : Prop := ∀ c ∈ rest.head?, c.isDigit = false ∧ c ≠ '*'

theorem readWidth_eq (h : ∀ c ∈ cs.head?, c ≠ '*') :
    readWidth f ⟨cs, values⟩ =
      (literalNumber 64 cs).map fun x => ({ f with width := x.1 }, ⟨x.2, values⟩) := by
  unfold readWidth
  split
  · next hstar =>
    cases hstar
    exact absurd rfl (h '*' rfl)
  · cases literalNumber 64 cs <;> rfl

/-- A width is read as it is given. -/
theorem readWidth_of_gives {width : List Char} (h : GivesWidth f width counts g)
    (hrest : EndsNumber rest) :
    readWidth f ⟨width ++ rest, counts ++ values⟩ = .ok (g, ⟨rest, values⟩) := by
  cases h with
  | digits hds _ hn =>
    have hstar : ∀ c ∈ (width ++ rest).head?, c ≠ '*' :=
      forall_mem_head?_append hds (by rintro c - hc rfl; cases hc) fun c hc => (hrest c hc).2
    rw [List.nil_append, readWidth_eq hstar,
      literalNumber_append hds (fun c hc => (hrest c hc).1) hn, Except.map]
  | value hv hn =>
    simp only [List.cons_append, List.nil_append, readWidth, takeNumber_of_fits hv hn]

theorem readWidth_of_not_fits (h : IsWhole v n) (hn : ¬ Fits 64 n) :
    readWidth f ⟨'*' :: rest, v :: values⟩ = .error .overflow := by
  simp only [readWidth, takeNumber_of_not_fits h hn]

/-- Where no flag comes next, there is a width, or a value that should be one and does not fit, or
    what is there does not suit. -/
theorem readWidth_cases (f : Directive) (values : List Value)
    (hcs : ∀ c ∈ cs.head?, c ∉ flags) :
    (∃ width rest counts vs g, cs = width ++ rest ∧ values = counts ++ vs ∧
        GivesWidth f width counts g ∧ readWidth f ⟨cs, values⟩ = .ok (g, ⟨rest, vs⟩)) ∨
      (∃ rest v vs n, cs = '*' :: rest ∧ values = v :: vs ∧ IsWhole v n ∧ ¬ Fits 64 n) ∨
      readWidth f ⟨cs, values⟩ = .error .unfit := by
  rcases head?_cases '*' cs with hstar | ⟨rest, rfl⟩
  · rcases literalNumber_cases 64 cs with ⟨ds, rest, rfl, hds, hrest, hn⟩ | hunfit
    · have hzero : ds.head? ≠ some '0' := fun h => by
        cases ds with
        | nil => cases h
        | cons d ds => exact hcs d rfl (by cases h; decide)
      refine .inl ⟨ds, rest, [], values, _, rfl, rfl, .digits hds hzero hn, ?_⟩
      rw [readWidth_eq hstar, literalNumber_append hds hrest hn, Except.map]
    · exact .inr (.inr (by rw [readWidth_eq hstar, hunfit, Except.map]))
  · rcases takeNumber_cases 64 values with ⟨v, vs, n, rfl, hv⟩ | hunfit
    · by_cases hn : Fits 64 n
      · refine .inl ⟨['*'], rest, [v], vs, _, rfl, rfl, .value hv hn, ?_⟩
        simp only [readWidth, takeNumber_of_fits hv hn]
      · exact .inr (.inl ⟨rest, v, vs, n, rfl, rfl, hv, hn⟩)
    · exact .inr (.inr (by simp only [readWidth, hunfit]))

/-! ## Precisions -/

/-- A precision: a point and digits, nothing, or a point and an asterisk for a value. -/
inductive GivesPrecision (f : Directive) : List Char → List Value → Directive → Prop where
  | missing : GivesPrecision f [] [] f
  | digits {ds : List Char} :
      (∀ c ∈ ds, c.isDigit = true) → numeral ds < 2 ^ 31 →
        GivesPrecision f ('.' :: ds) [] { f with precision? := some (numeral ds) }
  | value {v : Value} {n : ℤ} :
      IsWhole v n → Fits 32 n →
        GivesPrecision f ['.', '*'] [v] { f with precision? := some n.toNat }

theorem readPrecision_eq (h : ∀ c ∈ cs.head?, c ≠ '*') :
    readPrecision f ⟨'.' :: cs, values⟩ =
      (literalNumber 32 cs).map fun x => ({ f with precision? := some x.1 }, ⟨x.2, values⟩) := by
  unfold readPrecision
  split
  · next hstar =>
    cases hstar
    exact absurd rfl (h '*' rfl)
  · next hpoint =>
    cases hpoint
    cases literalNumber 32 cs <;> rfl
  · next hnone => exact absurd rfl (hnone cs)

theorem readPrecision_of_ne (h : ∀ c ∈ cs.head?, c ≠ '.') :
    readPrecision f ⟨cs, values⟩ = .ok (f, ⟨cs, values⟩) := by
  unfold readPrecision
  split
  · next hstar =>
    cases hstar
    exact absurd rfl (h '.' rfl)
  · next hpoint =>
    cases hpoint
    exact absurd rfl (h '.' rfl)
  · rfl

/-- A precision is read as it is given. -/
theorem readPrecision_of_gives {precision : List Char} (h : GivesPrecision f precision counts g)
    (hrest : EndsNumber rest) (hpoint : ∀ c ∈ rest.head?, c ≠ '.') :
    readPrecision f ⟨precision ++ rest, counts ++ values⟩ = .ok (g, ⟨rest, values⟩) := by
  cases h with
  | missing => exact readPrecision_of_ne hpoint
  | @digits ds hds hn =>
    have hstar : ∀ c ∈ (ds ++ rest).head?, c ≠ '*' :=
      forall_mem_head?_append hds (by rintro c - hc rfl; cases hc) fun c hc => (hrest c hc).2
    rw [List.cons_append, List.nil_append, readPrecision_eq hstar,
      literalNumber_append hds (fun c hc => (hrest c hc).1) hn, Except.map]
  | value hv hn =>
    simp only [List.cons_append, List.nil_append, readPrecision, takeNumber_of_fits hv hn]

theorem readPrecision_of_not_fits (h : IsWhole v n) (hn : ¬ Fits 32 n) :
    readPrecision f ⟨'.' :: '*' :: rest, v :: values⟩ = .error .overflow := by
  simp only [readPrecision, takeNumber_of_not_fits h hn]

/-- There is a precision, or a value that should be one and does not fit, or what is there does not
    suit. -/
theorem readPrecision_cases (f : Directive) (cs : List Char) (values : List Value) :
    (∃ precision rest counts vs g, cs = precision ++ rest ∧ values = counts ++ vs ∧
        GivesPrecision f precision counts g ∧
        readPrecision f ⟨cs, values⟩ = .ok (g, ⟨rest, vs⟩)) ∨
      (∃ rest v vs n, cs = '.' :: '*' :: rest ∧ values = v :: vs ∧ IsWhole v n ∧ ¬ Fits 32 n) ∨
      readPrecision f ⟨cs, values⟩ = .error .unfit := by
  rcases head?_cases '.' cs with hpoint | ⟨cs, rfl⟩
  · exact .inl ⟨[], cs, [], values, f, rfl, rfl, .missing, readPrecision_of_ne hpoint⟩
  rcases head?_cases '*' cs with hstar | ⟨rest, rfl⟩
  · rcases literalNumber_cases 32 cs with ⟨ds, rest, rfl, hds, hrest, hn⟩ | hunfit
    · refine .inl ⟨'.' :: ds, rest, [], values, _, rfl, rfl, .digits hds hn, ?_⟩
      rw [readPrecision_eq hstar, literalNumber_append hds hrest hn, Except.map]
    · exact .inr (.inr (by rw [readPrecision_eq hstar, hunfit, Except.map]))
  · rcases takeNumber_cases 32 values with ⟨v, vs, n, rfl, hv⟩ | hunfit
    · by_cases hn : Fits 32 n
      · refine .inl ⟨['.', '*'], rest, [v], vs, _, rfl, rfl, .value hv hn, ?_⟩
        simp only [readPrecision, takeNumber_of_fits hv hn]
      · exact .inr (.inl ⟨rest, v, vs, n, rfl, rfl, hv, hn⟩)
    · exact .inr (.inr (by simp only [readPrecision, hunfit]))

/-! ## Letters -/

/-- The marks of a size, which mean nothing. -/
def sizeMarks : List Char := ['h', 'l', 'L']

/-- The end of a directive: a letter, and a mark of a size may stand before it. -/
inductive Ends : List Char → Conversion → Prop where
  | letter {letter : Char} {k : Conversion} : conversion? letter = some k → Ends [letter] k
  | marked {mark letter : Char} {k : Conversion} :
      mark ∈ sizeMarks → conversion? letter = some k → Ends [mark, letter] k

/-- Whether flags, a width or a precision can go on with a character. -/
def goesOn (c : Char) : Bool := c.isDigit || c == '*' || c == '.' || flags.contains c

theorem goesOn_eq_false_iff {c : Char} :
    goesOn c = false ↔ (c.isDigit = false ∧ c ≠ '*') ∧ c ≠ '.' ∧ c ∉ flags := by
  simp [goesOn, and_assoc]

/-- Nothing goes on with a letter, and a letter is no mark of a size. -/
theorem goesOn_letter {letter : Char} (h : conversion? letter = some k) :
    goesOn letter = false ∧ letter ∉ sizeMarks := by
  unfold conversion? at h
  split at h <;> first | exact ⟨rfl, by decide⟩ | cases h

theorem goesOn_sizeMark {mark : Char} (h : mark ∈ sizeMarks) : goesOn mark = false := by
  simp only [sizeMarks, List.mem_cons, List.not_mem_nil, or_false] at h
  rcases h with rfl | rfl | rfl <;> rfl

/-- Nothing goes on with the end of a directive. -/
theorem Ends.head? {ending : List Char} (h : Ends ending k) :
    ∀ c ∈ (ending ++ cs).head?, goesOn c = false := by
  cases h with
  | letter hk => exact forall_mem_head?_cons.2 (goesOn_letter hk).1
  | marked hmark => exact forall_mem_head?_cons.2 (goesOn_sizeMark hmark)

theorem dropSizeMark_of_not_mem {letter : Char} (h : letter ∉ sizeMarks) :
    dropSizeMark (letter :: cs) = letter :: cs := by
  simp only [sizeMarks, List.mem_cons, List.not_mem_nil, or_false, not_or] at h
  simp [dropSizeMark, h]

theorem dropSizeMark_of_mem {mark : Char} (h : mark ∈ sizeMarks) :
    dropSizeMark (mark :: cs) = cs := by
  simp only [sizeMarks, List.mem_cons, List.not_mem_nil, or_false] at h
  rcases h with rfl | rfl | rfl <;> rfl

/-! ## Directives -/

/-- What a directive writes that was read up to its letter. -/
def finish (f : Directive) (r : Rest) : Except Failure (List Char × Rest) :=
  match dropSizeMark r.template, r.values with
  | letter :: cs, v :: values =>
      if memoryWidth ≤ f.width then
        ({ f with width := 0 }.write letter v).bind fun _ => .error .tooLong
      else (f.write letter v).map fun text => (text, ⟨cs, values⟩)
  | _, _ => .error .unfit

theorem readDirective_eq (r : Rest) :
    readDirective .characters r =
      (readWidth (readFlags {} r.template).1 ⟨(readFlags {} r.template).2, r.values⟩).bind
        fun x => (readPrecision x.1 x.2).bind fun y => finish y.1 y.2 := rfl

theorem finish_of_ends {ending : List Char} (h : Ends ending k) :
    finish f ⟨ending ++ cs, v :: values⟩ =
      if memoryWidth ≤ f.width then
        (k.run { f with width := 0 } v).bind fun _ => .error .tooLong
      else (k.run f v).map fun text => (text, ⟨cs, values⟩) := by
  cases h with
  | letter hk =>
    simp only [finish, List.cons_append, List.nil_append,
      dropSizeMark_of_not_mem (goesOn_letter hk).2, write_eq, hk, Option.elim_some]
  | marked hmark hk =>
    simp only [finish, List.cons_append, List.nil_append, dropSizeMark_of_mem hmark, write_eq, hk,
      Option.elim_some]

theorem exists_ends {letter : Char} (hdrop : dropSizeMark cs = letter :: rest)
    (hk : conversion? letter = some k) : ∃ ending, cs = ending ++ rest ∧ Ends ending k := by
  cases cs with
  | nil => cases hdrop
  | cons c cs =>
    by_cases hc : c ∈ sizeMarks
    · rw [dropSizeMark_of_mem hc] at hdrop
      exact ⟨[c, letter], by rw [hdrop]; rfl, .marked hc hk⟩
    · rw [dropSizeMark_of_not_mem hc] at hdrop
      exact ⟨[letter], hdrop, .letter hk⟩

/-- There is an end and a value, or what is there does not suit. -/
theorem finish_cases (f : Directive) (cs : List Char) (values : List Value) :
    (∃ ending rest k v vs, cs = ending ++ rest ∧ values = v :: vs ∧ Ends ending k) ∨
      finish f ⟨cs, values⟩ = .error .unfit := by
  cases hdrop : dropSizeMark cs with
  | nil => exact .inr (by simp only [finish, hdrop])
  | cons letter rest =>
    cases values with
    | nil => exact .inr (by simp only [finish, hdrop])
    | cons v vs =>
      cases hk : conversion? letter with
      | none =>
        right
        simp only [finish, hdrop, write_eq, hk, Option.elim_none]
        split <;> rfl
      | some k =>
        obtain ⟨ending, hcs, hends⟩ := exists_ends hdrop hk
        exact .inl ⟨ending, rest, k, v, vs, hcs, rfl, hends⟩

/-- A directive as it is spelled, without its percent sign: the text, the values that its width and
    its precision take, and what it asks for. -/
inductive Spells : List Char → List Value → Directive → Conversion → Prop where
  | mk {marks width precision ending : List Char} {counts more : List Value} {f g : Directive}
      {k : Conversion} :
      (∀ c ∈ marks, c ∈ flags) → GivesWidth (Directive.withFlags {} marks) width counts f →
        GivesPrecision f precision more g → Ends ending k →
        Spells (marks ++ (width ++ (precision ++ ending))) (counts ++ more) g k

/-- What a directive overtaxes: the room for a width or a precision that comes from the values, what
    its letter can write of a value, or any memory. The texts are those behind its percent sign. -/
inductive Overtaxes : Failure → List Char → List Value → Prop where
  | width {marks rest : List Char} {v : Value} {vs : List Value} {n : ℤ} :
      (∀ c ∈ marks, c ∈ flags) → IsWhole v n → ¬ Fits 64 n →
        Overtaxes .overflow (marks ++ '*' :: rest) (v :: vs)
  | precision {marks width rest : List Char} {counts vs : List Value} {f : Directive} {v : Value}
      {n : ℤ} :
      (∀ c ∈ marks, c ∈ flags) → GivesWidth (Directive.withFlags {} marks) width counts f →
        IsWhole v n → ¬ Fits 32 n →
        Overtaxes .overflow (marks ++ (width ++ '.' :: '*' :: rest)) (counts ++ v :: vs)
  | value {spelling rest : List Char} {counts vs : List Value} {f : Directive} {k : Conversion}
      {v : Value} :
      Spells spelling counts f k → k.Exceeds f v →
        Overtaxes .overflow (spelling ++ rest) (counts ++ v :: vs)
  | memory {spelling rest text : List Char} {counts vs : List Value} {f : Directive}
      {k : Conversion} {v : Value} :
      Spells spelling counts f k → k.Writes f v text → memoryWidth ≤ f.width →
        Overtaxes .tooLong (spelling ++ rest) (counts ++ v :: vs)

/-- No flag goes on with a width or with what follows it. -/
theorem GivesWidth.head? {width : List Char} (h : GivesWidth f width counts g)
    (hrest : ∀ c ∈ rest.head?, c ∉ flags) : ∀ c ∈ (width ++ rest).head?, c ∉ flags := by
  cases h with
  | digits hds hzero _ =>
    refine forall_mem_head?_append hds (fun c hc hdigit hmem => ?_) hrest
    simp only [flags, List.mem_cons, List.not_mem_nil, or_false] at hmem
    rcases hmem with rfl | rfl | rfl | rfl | rfl
    case inr.inr.inr.inr => exact hzero hc
    all_goals cases hdigit
  | value => exact forall_mem_head?_cons.2 (by decide)

/-- What a width must be followed by to be known as complete. -/
def EndsWidth (rest : List Char) : Prop :=
  ∀ c ∈ rest.head?, (c.isDigit = false ∧ c ≠ '*') ∧ c ∉ flags

theorem endsWidth_point : EndsWidth ('.' :: rest) := forall_mem_head?_cons.2 (by decide)

theorem GivesPrecision.endsWidth {precision : List Char} (h : GivesPrecision f precision counts g)
    (hrest : EndsWidth rest) : EndsWidth (precision ++ rest) := by
  cases h with
  | missing => exact hrest
  | _ => exact endsWidth_point

/-- Behind its flags and its width a directive goes on with its precision. -/
theorem readDirective_of_width {marks width : List Char} (hmarks : ∀ c ∈ marks, c ∈ flags)
    (hwidth : GivesWidth (Directive.withFlags {} marks) width counts f) (hrest : EndsWidth rest) :
    readDirective .characters ⟨marks ++ (width ++ rest), counts ++ values⟩ =
      (readPrecision f ⟨rest, values⟩).bind fun y => finish y.1 y.2 := by
  have hnext := hwidth.head? fun c hc => (hrest c hc).2
  rw [readDirective_eq, readFlags_append hmarks hnext]
  dsimp only
  rw [readWidth_of_gives hwidth fun c hc => (hrest c hc).1, Except.bind]

theorem readDirective_eq_run {spelling : List Char} (h : Spells spelling counts f k) :
    readDirective .characters ⟨spelling ++ cs, counts ++ v :: vs⟩ =
      if memoryWidth ≤ f.width then
        (k.run { f with width := 0 } v).bind fun _ => .error .tooLong
      else (k.run f v).map fun text => (text, ⟨cs, vs⟩) := by
  obtain ⟨hmarks, hwidth, hprecision, hends⟩ := h
  rename_i marks width precision ending counts more g
  have hend {c : Char} (hc : c ∈ (ending ++ cs).head?) := goesOn_eq_false_iff.1 (hends.head? c hc)
  have hrest : EndsWidth (precision ++ (ending ++ cs)) :=
    hprecision.endsWidth fun c hc => ⟨(hend hc).1, (hend hc).2.2⟩
  simp only [List.append_assoc]
  rw [readDirective_of_width hmarks hwidth hrest,
    readPrecision_of_gives hprecision (fun c hc => (hend hc).1) (fun c hc => (hend hc).2.1),
    Except.bind, finish_of_ends hends]

/-- **A directive is read as it is spelled.** -/
theorem readDirective_of_spells {spelling : List Char} (h : Spells spelling counts f k)
    (hwrites : k.Writes f v text) (hwidth : f.width < memoryWidth) :
    readDirective .characters ⟨spelling ++ cs, counts ++ v :: vs⟩ = .ok (text, ⟨cs, vs⟩) := by
  rw [readDirective_eq_run h, if_neg (not_le.2 hwidth), Conversion.run_of_writes hwrites, Except.map]

theorem readDirective_of_overtaxes (h : Overtaxes e cs values) :
    readDirective .characters ⟨cs, values⟩ = .error e := by
  cases h with
  | @width marks rest v vs n hmarks hv hn =>
    have hrest : ∀ c ∈ ('*' :: rest).head?, c ∉ flags := forall_mem_head?_cons.2 (by decide)
    rw [readDirective_eq, readFlags_append hmarks hrest]
    dsimp only
    rw [readWidth_of_not_fits hv hn, Except.bind]
  | precision hmarks hwidth hv hn =>
    rw [readDirective_of_width hmarks hwidth endsWidth_point, readPrecision_of_not_fits hv hn,
      Except.bind]
  | value hspells hexceeds =>
    -- whether the width is beyond any memory or not: the letter is tried before it is laid out
    rw [readDirective_eq_run hspells, Conversion.run_of_exceeds hexceeds,
      Conversion.run_of_exceeds (hexceeds.resize 0)]
    split <;> rfl
  | memory hspells hwrites hwidth =>
    obtain ⟨text', hwrites'⟩ := hwrites.resize 0
    rw [readDirective_eq_run hspells, if_pos hwidth, Conversion.run_of_writes hwrites', Except.bind]

/-- **What comes behind a percent sign** is a directive that is written, or it overtaxes something,
    or it does not suit. -/
theorem readDirective_cases (cs : List Char) (values : List Value) :
    (∃ spelling rest counts v vs f k text, cs = spelling ++ rest ∧ values = counts ++ v :: vs ∧
        Spells spelling counts f k ∧ k.Writes f v text ∧ f.width < memoryWidth) ∨
      (∃ e, Overtaxes e cs values) ∨
      readDirective .characters ⟨cs, values⟩ = .error .unfit := by
  -- part by part: as long as the parts are there, what is read is what the next part makes of it
  obtain ⟨marks, rest, rfl, hmarks, hrest⟩ := exists_flags cs
  have hread := readDirective_eq ⟨marks ++ rest, values⟩
  rw [readFlags_append hmarks hrest] at hread
  dsimp only at hread
  rcases readWidth_cases (Directive.withFlags {} marks) values hrest with
    ⟨width, rest, counts, vs, f, rfl, rfl, hwidth, hok⟩ | ⟨rest, v, vs, n, rfl, rfl, hv, hn⟩ | hunfit
  · rw [hok, Except.bind] at hread
    rcases readPrecision_cases f rest vs with ⟨precision, rest, more, vs, g, rfl, rfl, hprecision,
      hok⟩ | ⟨rest, v, vs, n, rfl, rfl, hv, hn⟩ | hunfit
    · rw [hok, Except.bind] at hread
      rcases finish_cases g rest vs with ⟨ending, rest, k, v, vs, rfl, rfl, hends⟩ | hunfit
      · have hspells := Spells.mk hmarks hwidth hprecision hends
        have hassoc : marks ++ (width ++ (precision ++ (ending ++ rest))) =
            marks ++ (width ++ (precision ++ ending)) ++ rest := by simp
        have hcounts : counts ++ (more ++ v :: vs) = (counts ++ more) ++ v :: vs := by simp
        rw [hassoc, hcounts]
        rcases k.run_cases g v with ⟨text, hwrites⟩ | hexceeds | hunfit
        · rcases lt_or_ge g.width memoryWidth with hwidth | hwidth
          · exact .inl ⟨_, _, _, _, _, _, _, _, rfl, rfl, hspells, hwrites, hwidth⟩
          · exact .inr (.inl ⟨_, .memory hspells hwrites hwidth⟩)
        · exact .inr (.inl ⟨_, .value hspells hexceeds⟩)
        · right; right
          rw [readDirective_eq_run hspells, hunfit, Conversion.run_resize hunfit]
          split <;> rfl
      · exact .inr (.inr (hread.trans hunfit))
    · exact .inr (.inl ⟨_, .precision hmarks hwidth hv hn⟩)
    · exact .inr (.inr (by rw [hread, hunfit, Except.bind]))
  · exact .inr (.inl ⟨_, .width hmarks hv hn⟩)
  · exact .inr (.inr (by rw [hread, hunfit, Except.bind]))

end RingScan.Text.Template

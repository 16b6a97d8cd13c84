import RingScan.Proofs.Ring.TokenText

set_option autoImplicit false

/-! # Numerals

The texts that are read as whole numbers, given by a grammar (`Integer.IsNumeral`): blanks, a sign
that may be missing, digits of any script with single underscores between them, and blanks. The
reader takes these texts, as long as there are not too many digits, and no others
(`Integer.read_eq_ok_iff`). Texts of nothing but digits are numerals just if all of their digits are
decimal (`Integer.read_eq_ok_iff_of_isDigit`). -/

namespace RingScan

/-- What is in a list that goes on otherwise than it started is found by how it goes on. -/
theorem span_append {α : Type} {P : α → Bool} {xs ys : List α} (h : ∀ x ∈ xs, P x = true)
    (h' : ∀ y ∈ ys.head?, P y = false) :
    (xs ++ ys).takeWhile P = xs ∧ (xs ++ ys).dropWhile P = ys := by
  rw [List.takeWhile_append_of_pos h, List.dropWhile_append_of_pos h]
  cases ys with
  | nil => simp
  | cons y ys => simp [h' y rfl]

/-! ## Digits and blanks -/

namespace Text

variable {c : Char} {d : ℕ}

/-- A decimal digit is found behind the zero of its script. -/
theorem exists_zero_of_decimalValue? (h : decimalValue? c = some d) :
    ∃ start ∈ decimalZeros, c.toNat = start + d ∧ d < 10 := by
  have hd := lt_ten_of_decimalValue? h
  obtain ⟨start, hstart, hc⟩ := List.exists_of_findSome?_eq_some h
  split_ifs at hc with hrange
  obtain rfl := Option.some.inj hc
  exact ⟨start, hstart, (Nat.add_sub_cancel' hrange.1).symm, hd⟩

theorem length_takeWhile_mono (flips : List ℕ) {m n : ℕ} (h : m ≤ n) :
    (flips.takeWhile (· ≤ m)).length ≤ (flips.takeWhile (· ≤ n)).length := by
  induction flips with
  | nil => exact Nat.le_refl _
  | cons f flips ih =>
    by_cases hf : f ≤ m
    · simpa [hf, hf.trans h] using ih
    · simp [hf]

/-- Decimal digits are digits. -/
theorem isDigit_of_decimalValue? (h : decimalValue? c = some d) : isDigit c = true := by
  -- from a zero to its nine nothing changes
  have hall : ∀ start ∈ decimalZeros,
      (digitFlips.takeWhile (· ≤ start + 9)).length =
          (digitFlips.takeWhile (· ≤ start)).length ∧
        (digitFlips.takeWhile (· ≤ start)).length % 2 = 1 := by
    decide +kernel
  obtain ⟨start, hstart, hc, hd⟩ := exists_zero_of_decimalValue? h
  obtain ⟨hsame, hodd⟩ := hall start hstart
  have hlow := length_takeWhile_mono digitFlips (m := start) (n := c.toNat) (by omega)
  have hhigh := length_takeWhile_mono digitFlips (m := c.toNat) (n := start + 9) (by omega)
  have hlength := Nat.le_antisymm (hsame ▸ hhigh) hlow
  rw [isDigit, inFlips, hlength, hodd]
  rfl

/-- The code points of the blanks. -/
def blanks : List ℕ := [
  0x9, 0xa, 0xb, 0xc, 0xd, 0x1c, 0x1d, 0x1e, 0x1f, 0x20, 0x85, 0xa0, 0x1680, 0x2000, 0x2001, 0x2002,
  0x2003, 0x2004, 0x2005, 0x2006, 0x2007, 0x2008, 0x2009, 0x200a, 0x2028, 0x2029, 0x202f, 0x205f,
  0x3000]

theorem isBlank_iff_mem_blanks : isBlank c = true ↔ c.toNat ∈ blanks := by
  simp only [isBlank, blanks, Bool.or_eq_true, Bool.and_eq_true, decide_eq_true_eq, beq_iff_eq,
    List.mem_cons, List.not_mem_nil, or_false]
  omega

/-- No digit is a blank. -/
theorem isBlank_eq_false_of_isDigit (h : isDigit c = true) : isBlank c = false := by
  have hall : ∀ n ∈ blanks, isDigit (Char.ofNat n) = false := by decide +kernel
  by_contra hblank
  have hmem := isBlank_iff_mem_blanks.1 (Bool.not_eq_false _ ▸ hblank)
  have hc := hall _ hmem
  rw [Char.ofNat_toNat, h] at hc
  cases hc

theorem isNumeralBlank_eq_false (h : isBlank c = false) : isNumeralBlank c = false := by
  rw [isNumeralBlank, h, Bool.false_and]

end Text

namespace Integer

open Text (decimalValue? isNumeralBlank)

variable {text cs : List Char} {ds : List ℕ} {n : ℤ}

/-! ## Runs of digits -/

/-- Digits of any script with their values. Single underscores may stand between them. -/
inductive DigitRun : List Char → List ℕ → Prop where
  | last {c : Char} {d : ℕ} : decimalValue? c = some d → DigitRun [c] [d]
  | next {c : Char} {d : ℕ} {cs : List Char} {ds : List ℕ} :
      decimalValue? c = some d → DigitRun cs ds → DigitRun (c :: cs) (d :: ds)
  | spaced {c : Char} {d : ℕ} {cs : List Char} {ds : List ℕ} :
      decimalValue? c = some d → DigitRun cs ds → DigitRun (c :: '_' :: cs) (d :: ds)

theorem ne_of_decimalValue? {c c' : Char} {d : ℕ} (h : decimalValue? c = some d)
    (h' : decimalValue? c' = none) : c ≠ c' := by
  rintro rfl
  cases h.symm.trans h'

theorem ne_underscore_of_decimalValue? {c : Char} {d : ℕ} (h : decimalValue? c = some d) :
    c ≠ '_' := ne_of_decimalValue? h (by decide)

/-- A run starts with a digit. -/
theorem DigitRun.exists_cons (h : DigitRun cs ds) :
    ∃ c d rest, cs = c :: rest ∧ decimalValue? c = some d := by
  cases h with
  | last hc => exact ⟨_, _, _, rfl, hc⟩
  | next hc => exact ⟨_, _, _, rfl, hc⟩
  | spaced hc => exact ⟨_, _, _, rfl, hc⟩

theorem isSpaced_cons_cons {c d : Char} (hc : c ≠ '_') (hd : d ≠ '_') (rest : List Char) :
    isSpaced (c :: d :: rest) = isSpaced (d :: rest) := by
  rw [isSpaced]
  · exact fun h => hc h
  · exact fun h => hd h

theorem isSpaced_cons_underscore {c : Char} (hc : c ≠ '_') (rest : List Char) :
    isSpaced (c :: '_' :: rest) = isSpaced rest := by
  rw [isSpaced]
  exact fun h => hc h

theorem isSpaced_singleton {c : Char} (hc : c ≠ '_') : isSpaced [c] = true := by
  rw [isSpaced]
  exact fun h => hc h

/-- What a run is made of is what the reader looks for. -/
theorem digitRun_iff :
    DigitRun cs ds ↔ isSpaced cs = true ∧ (∀ c ∈ cs, isRunChar c = true) ∧
      cs.filterMap decimalValue? = ds := by
  constructor
  · intro h
    induction h with
    | @last c d hc =>
      have hne := ne_underscore_of_decimalValue? hc
      simp [isSpaced_singleton hne, isRunChar, hc]
    | @next c d cs ds hc hrest ih =>
      obtain ⟨c', d', rest, rfl, hc'⟩ := hrest.exists_cons
      have hne := ne_underscore_of_decimalValue? hc
      have hne' := ne_underscore_of_decimalValue? hc'
      obtain ⟨hspaced, hrun, rfl⟩ := ih
      refine ⟨by rwa [isSpaced_cons_cons hne hne'], ?_, List.filterMap_cons_some hc⟩
      exact List.forall_mem_cons.2 ⟨by simp [isRunChar, hc], hrun⟩
    | @spaced c d cs ds hc _ ih =>
      have hne := ne_underscore_of_decimalValue? hc
      obtain ⟨hspaced, hrun, rfl⟩ := ih
      refine ⟨by rwa [isSpaced_cons_underscore hne], ?_, ?_⟩
      · exact List.forall_mem_cons.2 ⟨by simp [isRunChar, hc], List.forall_mem_cons.2 ⟨rfl, hrun⟩⟩
      · rw [List.filterMap_cons_some hc, List.filterMap_cons_none (by decide)]
  · rintro ⟨hspaced, hrun, rfl⟩
    have hdigit : ∀ c, c ≠ '_' → isRunChar c = true → ∃ d, decimalValue? c = some d := by
      intro c hne hc
      simpa [isRunChar, hne, Option.isSome_iff_exists] using hc
    fun_induction isSpaced cs with
    | case1 => cases hspaced
    | case2 => cases hspaced
    | case3 c rest hne ih =>
      obtain ⟨hc, -, hrest⟩ := by simpa only [List.forall_mem_cons] using hrun
      obtain ⟨d, hd⟩ := hdigit c hne hc
      rw [List.filterMap_cons_some hd, List.filterMap_cons_none (by decide)]
      exact .spaced hd (ih hspaced hrest)
    | case4 c hne =>
      obtain ⟨d, hd⟩ := hdigit c hne (hrun c List.mem_cons_self)
      rw [List.filterMap_cons_some hd]
      exact .last hd
    | case5 c c' rest hne _ ih =>
      obtain ⟨hc, hrest⟩ := List.forall_mem_cons.1 hrun
      obtain ⟨d, hd⟩ := hdigit c hne hc
      rw [List.filterMap_cons_some hd]
      exact .next hd (ih hspaced hrest)

/-! ## Numerals -/

/-- Whether a text is a sign that may be missing, and whether that sign is a minus. -/
inductive IsSign : List Char → Bool → Prop where
  | missing : IsSign [] false
  | plus : IsSign ['+'] false
  | minus : IsSign ['-'] true

/-- Whether a text is a numeral of a whole number. -/
inductive IsNumeral : List Char → ℤ → Prop where
  | mk {before sign run after : List Char} {negative : Bool} {ds : List ℕ} :
      (∀ c ∈ before, isNumeralBlank c = true) → IsSign sign negative → DigitRun run ds →
        ds.length ≤ maxDigits → (∀ c ∈ after, isNumeralBlank c = true) →
        IsNumeral (before ++ (sign ++ (run ++ after))) (Binary64.signed negative (ofDigits ds))

theorem exists_sign (cs : List Char) : ∃ sign, IsSign sign (splitSign cs).1 ∧
    cs = sign ++ (splitSign cs).2 := by
  unfold splitSign
  split
  · exact ⟨_, .minus, rfl⟩
  · exact ⟨_, .plus, rfl⟩
  · exact ⟨_, .missing, rfl⟩

/-- The sign in front of a run is split off. -/
theorem splitSign_append {sign run : List Char} {negative : Bool} (hsign : IsSign sign negative)
    (hrun : DigitRun run ds) (after : List Char) :
    splitSign (sign ++ (run ++ after)) = (negative, run ++ after) := by
  obtain ⟨c, d, rest, rfl, hc⟩ := hrun.exists_cons
  cases hsign with
  | plus => rfl
  | minus => rfl
  | missing =>
    rw [List.nil_append, List.cons_append, splitSign]
    · exact fun _ h => ne_of_decimalValue? hc (by decide) (List.cons.inj h).1
    · exact fun _ h => ne_of_decimalValue? hc (by decide) (List.cons.inj h).1

/-- No blank goes on with a sign or a run. -/
theorem dropWhile_isNumeralBlank {sign run : List Char} {negative : Bool}
    (hsign : IsSign sign negative) (hrun : DigitRun run ds) (after : List Char) :
    (sign ++ (run ++ after)).dropWhile isNumeralBlank = sign ++ (run ++ after) := by
  obtain ⟨c, d, rest, rfl, hc⟩ := hrun.exists_cons
  cases hsign with
  | plus => rfl
  | minus => rfl
  | missing =>
    have hdigit := Text.isDigit_of_decimalValue? hc
    have hblank := Text.isNumeralBlank_eq_false (Text.isBlank_eq_false_of_isDigit hdigit)
    exact List.dropWhile_cons_of_neg (by simp [hblank])

theorem isRunChar_of_isNumeralBlank {c : Char} (h : isNumeralBlank c = true) :
    isRunChar c = false := by
  have hblank : Text.isBlank c = true := (Bool.and_eq_true_iff.1 h).1
  have hnone : decimalValue? c = none := by
    cases hc : decimalValue? c with
    | none => rfl
    | some d =>
      have hdigit := Text.isDigit_of_decimalValue? hc
      rw [Text.isBlank_eq_false_of_isDigit hdigit] at hblank
      cases hblank
  have hne : c ≠ '_' := by
    rintro rfl
    exact absurd hblank (by decide)
  simp [isRunChar, hne, hnone]

/-- **The reader takes numerals, and nothing else.** -/
theorem read_eq_ok_iff : read text = .ok n ↔ IsNumeral text n := by
  constructor
  · intro h
    have htext := List.takeWhile_append_dropWhile (p := isNumeralBlank) (l := text)
    obtain ⟨sign, hsign, hcs⟩ := exists_sign (text.dropWhile isNumeralBlank)
    rw [read] at h
    rcases hsplit : splitSign (text.dropWhile isNumeralBlank) with ⟨negative, cs⟩
    simp only [hsplit] at h hsign hcs
    split_ifs at h with hspaced hlong hrest
    obtain rfl := Except.ok.inj h
    have hbefore : ∀ c ∈ text.takeWhile isNumeralBlank, isNumeralBlank c = true :=
      fun c hc => List.mem_takeWhile_imp hc
    have hrun : DigitRun (cs.takeWhile isRunChar)
        ((cs.takeWhile isRunChar).filterMap decimalValue?) :=
      digitRun_iff.2 ⟨hspaced, fun c hc => List.mem_takeWhile_imp hc, rfl⟩
    have hnumeral :=
      IsNumeral.mk hbefore hsign hrun (Nat.not_lt.1 hlong) (List.all_eq_true.1 hrest)
    rwa [List.takeWhile_append_dropWhile, ← hcs, htext] at hnumeral
  · rintro ⟨hbefore, hsign, hrun, hlength, hafter⟩
    obtain ⟨hspaced, hchars, rfl⟩ := digitRun_iff.1 hrun
    rename_i before sign run after negative
    have hspan : (run ++ after).takeWhile isRunChar = run ∧
        (run ++ after).dropWhile isRunChar = after :=
      span_append hchars fun c hc =>
        isRunChar_of_isNumeralBlank (hafter c (List.mem_of_mem_head? hc))
    rw [read, List.dropWhile_append_of_pos hbefore, dropWhile_isNumeralBlank hsign hrun,
      splitSign_append hsign hrun]
    simp only [hspan, hspaced, if_true, if_neg (Nat.not_lt.2 hlength), List.all_eq_true.2 hafter]

/-! ## Nothing but digits -/

/-- The values of digits that are all decimal. -/
abbrev DecimalDigits (cs : List Char) (ds : List ℕ) : Prop :=
  List.Forall₂ (fun c d => decimalValue? c = some d) cs ds

theorem DecimalDigits.exists_value (h : DecimalDigits cs ds) :
    ∀ c ∈ cs, ∃ d, decimalValue? c = some d := by
  induction h with
  | nil => simp
  | cons hc _ ih => exact List.forall_mem_cons.2 ⟨⟨_, hc⟩, ih⟩

theorem DecimalDigits.isDigit (h : DecimalDigits cs ds) : ∀ c ∈ cs, Text.isDigit c = true := by
  intro c hc
  obtain ⟨d, hd⟩ := h.exists_value c hc
  exact Text.isDigit_of_decimalValue? hd

theorem DecimalDigits.digitRun (h : DecimalDigits cs ds) (hne : cs ≠ []) : DigitRun cs ds := by
  induction h with
  | nil => exact absurd rfl hne
  | @cons c d cs ds hc hrest ih =>
    cases hrest with
    | nil => exact .last hc
    | cons hc' hrest' => exact .next hc (ih (List.cons_ne_nil _ _))

/-- A run without underscores is a list of decimal digits. -/
theorem DigitRun.decimalDigits (h : DigitRun cs ds) (hdigit : ∀ c ∈ cs, Text.isDigit c = true) :
    DecimalDigits cs ds := by
  induction h with
  | last hc => exact .cons hc .nil
  | next hc _ ih => exact .cons hc (ih (List.forall_mem_cons.1 hdigit).2)
  | spaced =>
    obtain ⟨-, hscore, -⟩ := by simpa only [List.forall_mem_cons] using hdigit
    exact absurd hscore (by decide)

/-- Digits are read as a number just if they are all decimal and not too many. -/
theorem read_eq_ok_iff_of_isDigit (h : ∀ c ∈ cs, Text.isDigit c = true) :
    read cs = .ok n ↔ cs ≠ [] ∧ ∃ ds, DecimalDigits cs ds ∧ ds.length ≤ maxDigits ∧
      n = ofDigits ds := by
  rw [read_eq_ok_iff]
  constructor
  · rintro ⟨hbefore, hsign, hrun, hlength, hafter⟩
    rename_i before sign run after negative ds
    simp only [List.forall_mem_append] at h
    obtain ⟨hbefore', hsign', hrun', hafter'⟩ := h
    have hnil {xs : List Char} (hblank : ∀ c ∈ xs, isNumeralBlank c = true)
        (hdigit : ∀ c ∈ xs, Text.isDigit c = true) : xs = [] := by
      refine List.eq_nil_iff_forall_not_mem.2 fun c hc => ?_
      have hblank := hblank c hc
      rw [Text.isNumeralBlank_eq_false (Text.isBlank_eq_false_of_isDigit (hdigit c hc))] at hblank
      cases hblank
    obtain rfl := hnil hbefore hbefore'
    obtain rfl := hnil hafter hafter'
    cases hsign with
    | plus => exact absurd (hsign' _ List.mem_cons_self) (by decide)
    | minus => exact absurd (hsign' _ List.mem_cons_self) (by decide)
    | missing =>
      obtain ⟨c, d, rest, hcs, -⟩ := hrun.exists_cons
      refine ⟨by simp [hcs], ds, ?_, hlength, rfl⟩
      simpa using hrun.decimalDigits hrun'
  · rintro ⟨hne, ds, hds, hlength, rfl⟩
    have hnumeral : IsNumeral ([] ++ ([] ++ (cs ++ []))) (Binary64.signed false (ofDigits ds)) :=
      .mk (by simp) .missing (hds.digitRun hne) hlength (by simp)
    simpa [Binary64.signed] using hnumeral

end Integer

end RingScan

import RingScan.Config.Conversion
import RingScan.Proofs.Config.Durations
import RingScan.Proofs.Numeric.Numerals

set_option autoImplicit false

/-! # The grammar of durations

What a text must be to be read as a duration: without the blanks around it and in small letters, it
is a run of decimal digits, blanks, and a unit that may be missing (`Duration.IsSpelling`). All such
texts are read, no others are, and what is refused is refused as an invalid value
(`Config.readMillis_ok_iff_isSpelling`). The reader looks for digits of all kinds and leaves it to
the reader of whole numbers to refuse those that are not decimal. Neither blanks nor decimal digits
have another small image, so that a duration may be written with blanks on all sides and its unit
in letters of either case (`Duration.IsWritten`). -/

namespace RingScan

/-! ## Stripping -/

namespace Text

variable {c : Char} {cs before after : List Char}

theorem dropWhile_isBlank_append (h : ∀ c ∈ before, isBlank c = true)
    (hcs : ∀ c ∈ cs.head?, isBlank c = false) : (before ++ cs).dropWhile isBlank = cs :=
  (span_append h hcs).2

/-- The blanks around a text are stripped, and nothing more. -/
theorem strip_append (hbefore : ∀ c ∈ before, isBlank c = true)
    (hafter : ∀ c ∈ after, isBlank c = true) (hhead : ∀ c ∈ cs.head?, isBlank c = false)
    (hlast : ∀ c ∈ cs.getLast?, isBlank c = false) : strip (before ++ (cs ++ after)) = cs := by
  have hafter' : ∀ c ∈ after.reverse, isBlank c = true := by simpa using hafter
  have hlast' : ∀ c ∈ cs.reverse.head?, isBlank c = false := by rwa [List.head?_reverse]
  have hfront : ((before ++ (cs ++ after)).dropWhile isBlank).reverse.dropWhile isBlank =
      cs.reverse := by
    rw [List.dropWhile_append_of_pos hbefore]
    cases cs with
    | nil =>
      rw [List.nil_append, List.dropWhile_eq_nil_iff.2 hafter]
      rfl
    | cons c cs =>
      have hc : isBlank c = false := hhead c rfl
      rw [List.cons_append, List.dropWhile_cons_of_neg (by simp [hc]), ← List.cons_append,
        List.reverse_append, dropWhile_isBlank_append hafter' hlast']
  rw [strip, hfront, List.reverse_reverse]

/-- A text that is stripped does not end with a blank. -/
theorem getLast?_strip (cs : List Char) : ∀ c ∈ (strip cs).getLast?, isBlank c = false := by
  intro c hc
  rw [strip, List.getLast?_reverse] at hc
  have hnot := List.head?_dropWhile_not isBlank (cs.dropWhile isBlank).reverse
  rwa [Option.mem_def.1 hc] at hnot

/-- What is left behind a front ends as the whole does. -/
theorem mem_getLast?_of_dropWhile {q : Char → Bool} (h : c ∈ (cs.dropWhile q).getLast?) :
    c ∈ cs.getLast? := by
  rw [← List.takeWhile_append_dropWhile (p := q) (l := cs), List.getLast?_append,
    Option.mem_def.1 h]
  rfl

/-- What does not end with a blank is stripped of the blanks that it starts with. -/
theorem exists_blanks (h : ∀ c ∈ cs.getLast?, isBlank c = false) :
    ∃ blanks, (∀ c ∈ blanks, isBlank c = true) ∧ cs = blanks ++ strip cs := by
  have hcs := List.takeWhile_append_dropWhile (p := isBlank) (l := cs)
  have hlast : ∀ c ∈ (cs.dropWhile isBlank).reverse.head?, isBlank c = false := by
    intro c hc
    rw [List.head?_reverse] at hc
    exact h c (mem_getLast?_of_dropWhile hc)
  refine ⟨cs.takeWhile isBlank, fun c hc => List.mem_takeWhile_imp hc, ?_⟩
  rw [strip, dropWhile_isBlank_eq_self hlast, List.reverse_reverse, hcs]

/-! ## Small letters -/

/-- Blanks are no small images, and neither blanks nor decimal digits have other ones. -/
theorem lowerRuns_clear : ∀ run ∈ lowerRuns,
    (∀ n ∈ blanks, n < run.2.2.2 ∨ run.2.2.2 + (run.2.1 - run.1) < n) ∧
      (∀ n ∈ blanks, n < run.1 ∨ run.2.1 < n) ∧
      ∀ start ∈ decimalZeros, start + 9 < run.1 ∨ run.2.1 < start := by
  have hall : (lowerRuns.all fun run =>
      (blanks.all fun n => n.blt run.2.2.2 || (run.2.2.2 + (run.2.1 - run.1)).blt n) &&
        ((blanks.all fun n => n.blt run.1 || run.2.1.blt n) &&
          decimalZeros.all fun start => (start + 9).blt run.1 || run.2.1.blt start)) = true := by
    decide +kernel
  simpa only [List.all_eq_true, Bool.and_eq_true, Bool.or_eq_true, Nat.blt_eq] using hall

theorem lowerChar_eq_self_of_forall (h : ∀ run ∈ lowerRuns, c.toNat < run.1 ∨ run.2.1 < c.toNat) :
    lowerChar c = c := by
  rw [lowerChar, List.findSome?_eq_none_iff.2 ?_, Option.getD_none]
  rintro ⟨first, last, step, target⟩ hrun
  have hrun := h _ hrun
  dsimp only at hrun
  exact if_neg (by omega)

theorem lowerChar_of_isBlank (h : isBlank c = true) : lowerChar c = c :=
  lowerChar_eq_self_of_forall fun run hrun =>
    (lowerRuns_clear run hrun).2.1 _ (isBlank_iff_mem_blanks.1 h)

theorem lowerChar_of_decimalValue? {d : ℕ} (h : decimalValue? c = some d) : lowerChar c = c := by
  obtain ⟨start, hstart, hc, hd⟩ := exists_zero_of_decimalValue? h
  refine lowerChar_eq_self_of_forall fun run hrun => ?_
  have hclear := (lowerRuns_clear run hrun).2.2 start hstart
  omega

/-- The small image of a character that is no blank is none either. -/
theorem isBlank_lowerChar (h : isBlank c = false) : isBlank (lowerChar c) = false := by
  rw [lowerChar]
  generalize himage : lowerRuns.findSome? _ = image?
  cases image? with
  | none => exact h
  | some image =>
    obtain ⟨⟨first, last, step, target⟩, hrun, hfound⟩ := List.exists_of_findSome?_eq_some himage
    dsimp only at hfound
    split_ifs at hfound with hc
    obtain rfl := Option.some.inj hfound
    rw [Option.getD_some]
    by_contra hblank
    rw [Bool.not_eq_false, isBlank_iff_mem_blanks] at hblank
    -- what has no character at its place is no blank
    by_cases hvalid : (target + (c.toNat - first)).isValidChar
    · have hclear := (lowerRuns_clear _ hrun).1 _ hblank
      rw [Char.ofNat, dif_pos hvalid] at hclear
      have hplace : (Char.ofNatAux (target + (c.toNat - first)) hvalid).toNat =
        target + (c.toNat - first) := rfl
      dsimp only at hclear
      omega
    · rw [Char.ofNat, dif_neg hvalid] at hblank
      exact absurd hblank (by decide)

/-- What a character contributes to the small image of a text. -/
theorem exists_image (before : List Char) (c : Char) (rest : List Char) :
    ∃ image, lowerFrom before (c :: rest) = image ++ lowerFrom (c :: before) rest ∧ image ≠ [] ∧
      (isBlank c = false → ∀ x ∈ image.getLast?, isBlank x = false) := by
  refine ⟨_, rfl, ?_, ?_⟩
  · split_ifs <;> simp
  · intro h x hx
    split_ifs at hx
    · obtain rfl := Option.some.inj hx
      decide
    · obtain rfl := Option.some.inj hx
      decide
    · obtain rfl := Option.some.inj hx
      decide
    · obtain rfl := Option.some.inj hx
      exact isBlank_lowerChar h

/-- In small letters, a text does not come to end with a blank. -/
theorem getLast?_lowerFrom (h : ∀ c ∈ cs.getLast?, isBlank c = false) (before : List Char) :
    ∀ c ∈ (lowerFrom before cs).getLast?, isBlank c = false := by
  induction cs generalizing before with
  | nil => simp [lowerFrom]
  | cons c rest ih =>
    obtain ⟨image, heq, hne, hlast⟩ := exists_image before c rest
    cases rest with
    | nil =>
      rw [heq, lowerFrom, List.append_nil]
      exact hlast (h c rfl)
    | cons d rest =>
      obtain ⟨image', heq', hne', -⟩ := exists_image (c :: before) d rest
      have htail : lowerFrom (c :: before) (d :: rest) ≠ [] := by simp [heq', hne']
      rw [heq, List.getLast?_append_of_ne_nil _ htail]
      exact ih (by rwa [List.getLast?_cons_cons] at h) _

/-- A text without the two capitals that have no small image of their own is put into small letters
    character by character. -/
theorem lower_eq_map (h : ∀ c ∈ cs, c.toNat ≠ 0x130 ∧ c.toNat ≠ 0x3a3) :
    lower cs = cs.map lowerChar := by
  have hfrom (before : List Char) : lowerFrom before cs = cs.map lowerChar := by
    induction cs generalizing before with
    | nil => rfl
    | cons c cs ih =>
      obtain ⟨hc, hcs⟩ := List.forall_mem_cons.1 h
      rw [lowerFrom, if_neg hc.1, if_neg hc.2, ih hcs]
      rfl
  exact hfrom []

theorem ne_capital_of_isDigit (h : isDigit c = true) : c.toNat ≠ 0x130 ∧ c.toNat ≠ 0x3a3 := by
  rw [isDigit, inFlips] at h
  constructor
  · intro hc
    rw [hc] at h
    exact absurd h (by decide)
  · intro hc
    rw [hc] at h
    exact absurd h (by decide)

theorem ne_capital_of_isBlank (h : isBlank c = true) : c.toNat ≠ 0x130 ∧ c.toNat ≠ 0x3a3 := by
  have hmem := isBlank_iff_mem_blanks.1 h
  constructor
  · exact fun hc => absurd (hc ▸ hmem) (by decide)
  · exact fun hc => absurd (hc ▸ hmem) (by decide)

theorem map_lowerChar_eq_self (h : ∀ c ∈ cs, lowerChar c = c) : cs.map lowerChar = cs :=
  (List.map_congr_left h).trans (List.map_id' cs)

/-- The small image of an ASCII character. -/
theorem lowerChar_of_ascii (h : c.toNat < 0x80) : lowerChar c = c.toLower := by
  by_cases hletter : 0x41 ≤ c.toNat ∧ c.toNat ≤ 0x5a
  · have hall : ∀ k < 26, lowerChar (Char.ofNat (0x41 + k)) = (Char.ofNat (0x41 + k)).toLower := by
      decide
    have hc := hall (c.toNat - 0x41) (by omega)
    rwa [Nat.add_sub_cancel' hletter.1, Char.ofNat_toNat] at hc
  · have hupper : ¬ c.isUpper = true := fun hc => hletter <| by
      simpa [Char.isUpper, UInt32.le_iff_toNat_le] using hc
    rw [lowerChar_eq_self h hletter, Char.toLower_eq_of_not_isUpper hupper]

/-- Small letters are neither digits nor blanks. -/
theorem isDigit_isBlank_of_small (h : 0x61 ≤ c.toNat ∧ c.toNat ≤ 0x7a) :
    isDigit c = false ∧ isBlank c = false := by
  have hall : ∀ k < 26, isDigit (Char.ofNat (0x61 + k)) = false ∧
      isBlank (Char.ofNat (0x61 + k)) = false := by
    decide +kernel
  have hc := hall (c.toNat - 0x61) (by omega)
  rwa [Nat.add_sub_cancel' h.1, Char.ofNat_toNat] at hc

end Text

namespace Duration

open Integer (DecimalDigits ofDigits)

/-! ## Spellings -/

/-- Whether a text is no unit or the label of one, and the milliseconds of that unit. -/
inductive IsUnitText : List Char → ℕ → Prop where
  | missing : IsUnitText [] 1
  | label {u : TimeUnit} : u ∈ units → IsUnitText u.label.toList u.millis

/-- Whether a text in small letters spells a number of milliseconds. -/
inductive IsSpelling : List Char → ℤ → Prop where
  | mk {digits between label : List Char} {ds : List ℕ} {factor : ℕ} :
      digits ≠ [] → DecimalDigits digits ds → ds.length ≤ Integer.maxDigits →
        (∀ c ∈ between, Text.isBlank c = true) → IsUnitText label factor →
        IsSpelling (digits ++ (between ++ label)) (ofDigits ds * factor)

/-- Whether a text is a spelling in letters of either case, with blanks around it. -/
inductive IsWritten : List Char → ℤ → Prop where
  | mk {before digits between label after : List Char} {ds : List ℕ} {factor : ℕ} :
      (∀ c ∈ before, Text.isBlank c = true) → digits ≠ [] → DecimalDigits digits ds →
        ds.length ≤ Integer.maxDigits → (∀ c ∈ between, Text.isBlank c = true) →
        IsUnitText (label.map Char.toLower) factor → (∀ c ∈ after, Text.isBlank c = true) →
        IsWritten (before ++ (digits ++ (between ++ (label ++ after)))) (ofDigits ds * factor)

theorem unitMillis?_eq_some_iff {label : List Char} {factor : ℕ} :
    unitMillis? label = some factor ↔ IsUnitText label factor := by
  constructor
  · intro h
    rw [unitMillis?] at h
    split_ifs at h with hempty
    · obtain rfl := List.isEmpty_iff.1 hempty
      obtain rfl := Option.some.inj h
      exact .missing
    · obtain ⟨u, hu, rfl⟩ := Option.map_eq_some_iff.1 h
      have hlabel : u.label.toList = label := by simpa using List.find?_some hu
      exact hlabel ▸ .label (List.mem_of_find?_eq_some hu)
  · intro h
    cases h with
    | missing => rfl
    | label hu =>
      have hall : ∀ u ∈ units, unitMillis? u.label.toList = some u.millis := by decide
      exact hall _ hu

/-- Labels are made of small letters. -/
theorem IsUnitText.small {label : List Char} {factor : ℕ} (h : IsUnitText label factor) :
    ∀ c ∈ label, 0x61 ≤ c.toNat ∧ c.toNat ≤ 0x7a := by
  have hall : ∀ u ∈ units, ∀ c ∈ u.label.toList, 0x61 ≤ c.toNat ∧ c.toNat ≤ 0x7a := by
    simp [units]
  cases h with
  | missing => simp
  | label hu => exact hall _ hu

theorem IsUnitText.isBlank {label : List Char} {factor : ℕ} (h : IsUnitText label factor) :
    ∀ c ∈ label, Text.isBlank c = false :=
  fun c hc => (Text.isDigit_isBlank_of_small (h.small c hc)).2

/-! ## Reading -/

variable {text : List Char} {n : ℤ}

/-- The digits that a spelling starts with, and what is left for the unit. -/
theorem span_spelling {digits between label : List Char} {ds : List ℕ} {factor : ℕ}
    (hds : DecimalDigits digits ds) (hbetween : ∀ c ∈ between, Text.isBlank c = true)
    (hunit : IsUnitText label factor) :
    (digits ++ (between ++ label)).takeWhile Text.isDigit = digits ∧
      Text.strip ((digits ++ (between ++ label)).dropWhile Text.isDigit) = label := by
  have hrest : ∀ c ∈ between ++ label, Text.isDigit c = false := by
    intro c hc
    rcases List.mem_append.1 hc with hc | hc
    · by_contra hdigit
      have hblank := Text.isBlank_eq_false_of_isDigit (Bool.not_eq_false _ ▸ hdigit)
      rw [hbetween c hc] at hblank
      cases hblank
    · exact (Text.isDigit_isBlank_of_small (hunit.small c hc)).1
  have hspan := span_append hds.isDigit fun c hc => hrest c (List.mem_of_mem_head? hc)
  have hstrip : Text.strip (between ++ (label ++ [])) = label :=
    Text.strip_append hbetween (by simp) (fun c hc => hunit.isBlank c (List.mem_of_mem_head? hc))
      fun c hc => hunit.isBlank c (List.mem_of_mem_getLast? hc)
  rw [List.append_nil] at hstrip
  exact ⟨hspan.1, hspan.2.symm ▸ hstrip⟩

/-- **Durations are read from spellings, and from nothing else.** -/
theorem readMillis_eq_ok_iff :
    readMillis text = .ok n ↔ IsSpelling (Text.lower (Text.strip text)) n := by
  have hlast : ∀ c ∈ (Text.lower (Text.strip text)).getLast?, Text.isBlank c = false :=
    Text.getLast?_lowerFrom (Text.getLast?_strip text) []
  rw [readMillis]
  generalize Text.lower (Text.strip text) = trimmed at hlast
  constructor
  · intro h
    have htrimmed := List.takeWhile_append_dropWhile (p := Text.isDigit) (l := trimmed)
    have hdigits : ∀ c ∈ trimmed.takeWhile Text.isDigit, Text.isDigit c = true :=
      fun c hc => List.mem_takeWhile_imp hc
    have hrest : ∀ c ∈ (trimmed.dropWhile Text.isDigit).getLast?, Text.isBlank c = false :=
      fun c hc => hlast c (Text.mem_getLast?_of_dropWhile hc)
    obtain ⟨between, hbetween, hlabel⟩ := Text.exists_blanks hrest
    dsimp only at h
    split_ifs at h
    cases hread : Integer.read (trimmed.takeWhile Text.isDigit) with
    | error e => simp [hread] at h
    | ok k =>
      cases hunit : unitMillis? (Text.strip (trimmed.dropWhile Text.isDigit)) with
      | none => simp [hread, hunit] at h
      | some factor =>
        obtain ⟨hne, ds, hds, hlength, rfl⟩ := (Integer.read_eq_ok_iff_of_isDigit hdigits).1 hread
        simp only [hread, hunit, Except.ok.injEq] at h
        subst h
        have hspelling :=
          IsSpelling.mk hne hds hlength hbetween (unitMillis?_eq_some_iff.1 hunit)
        rwa [← hlabel, htrimmed] at hspelling
  · rintro ⟨hne, hds, hlength, hbetween, hunit⟩
    obtain ⟨htake, hstrip⟩ := span_spelling hds hbetween hunit
    have hread := (Integer.read_eq_ok_iff_of_isDigit hds.isDigit).2 ⟨hne, _, hds, hlength, rfl⟩
    simp only [htake, hstrip, hread, unitMillis?_eq_some_iff.2 hunit, List.isEmpty_iff, hne,
      List.append_eq_nil_iff, false_and, if_false]

/-! ## Writing -/

/-- Letters of either case are not the capitals that need more than a character. -/
theorem letter_of_small {c : Char} (h : 0x61 ≤ c.toLower.toNat ∧ c.toLower.toNat ≤ 0x7a) :
    c.toNat < 0x80 ∧ Text.isBlank c = false := by
  by_cases hupper : c.isUpper = true
  · have hc : 0x41 ≤ c.toNat ∧ c.toNat ≤ 0x5a := by
      simpa [Char.isUpper, UInt32.le_iff_toNat_le] using hupper
    refine ⟨by omega, ?_⟩
    simp only [Text.isBlank, Bool.or_eq_false_iff, Bool.and_eq_false_iff, decide_eq_false_iff_not,
      beq_eq_false_iff_ne]
    omega
  · rw [Char.toLower_eq_of_not_isUpper hupper] at h
    exact ⟨by omega, (Text.isDigit_isBlank_of_small h).2⟩

/-- Decimal digits, blanks and letters are put into small letters one by one. -/
theorem lower_written {digits between label : List Char} {ds : List ℕ} {factor : ℕ}
    (hds : DecimalDigits digits ds) (hbetween : ∀ c ∈ between, Text.isBlank c = true)
    (hunit : IsUnitText (label.map Char.toLower) factor) :
    Text.lower (digits ++ (between ++ label)) =
      digits ++ (between ++ label.map Char.toLower) := by
  have hascii : ∀ c ∈ label, c.toNat < 0x80 := fun c hc =>
    (letter_of_small (hunit.small _ (List.mem_map_of_mem hc))).1
  have hplain : ∀ c ∈ digits ++ (between ++ label), c.toNat ≠ 0x130 ∧ c.toNat ≠ 0x3a3 := by
    intro c hc
    rcases List.mem_append.1 hc with hc | hc
    · exact Text.ne_capital_of_isDigit (hds.isDigit c hc)
    · rcases List.mem_append.1 hc with hc | hc
      · exact Text.ne_capital_of_isBlank (hbetween c hc)
      · have hc := hascii c hc
        omega
  have hdigits : digits.map Text.lowerChar = digits :=
    Text.map_lowerChar_eq_self fun c hc =>
      have ⟨_, hd⟩ := hds.exists_value c hc
      Text.lowerChar_of_decimalValue? hd
  have hblanks : between.map Text.lowerChar = between :=
    Text.map_lowerChar_eq_self fun c hc => Text.lowerChar_of_isBlank (hbetween c hc)
  have hlabel : label.map Text.lowerChar = label.map Char.toLower :=
    List.map_congr_left fun c hc => Text.lowerChar_of_ascii (hascii c hc)
  rw [Text.lower_eq_map hplain, List.map_append, List.map_append, hdigits, hblanks, hlabel]

/-- A spelling in letters of either case, with blanks around it, is read. -/
theorem IsWritten.isSpelling (h : IsWritten text n) :
    IsSpelling (Text.lower (Text.strip text)) n := by
  obtain ⟨hbefore, hne, hds, hlength, hbetween, hunit, hafter⟩ := h
  rename_i before digits between label after ds factor
  have hhead : ∀ rest, ∀ c ∈ (digits ++ rest).head?, Text.isBlank c = false := by
    intro rest c hc
    rw [List.head?_append_of_ne_nil _ hne] at hc
    exact Text.isBlank_eq_false_of_isDigit (hds.isDigit c (List.mem_of_mem_head? hc))
  rcases eq_or_ne label [] with rfl | hlabel
  · -- what stands between the digits and nothing stands around them
    have hlast : ∀ c ∈ (digits ++ []).getLast?, Text.isBlank c = false := by
      intro c hc
      rw [List.append_nil] at hc
      exact Text.isBlank_eq_false_of_isDigit (hds.isDigit c (List.mem_of_mem_getLast? hc))
    have hstrip := Text.strip_append hbefore (List.forall_mem_append.2 ⟨hbetween, hafter⟩)
      (hhead []) hlast
    have hnone : ∀ c ∈ ([] : List Char), Text.isBlank c = true := by simp
    have hlower := lower_written hds hnone hunit
    simp only [List.append_nil, List.nil_append, List.map_nil] at hstrip hlower hunit ⊢
    rw [hstrip, hlower]
    simpa using IsSpelling.mk hne hds hlength hnone hunit
  · have hlast : ∀ c ∈ (digits ++ (between ++ label)).getLast?, Text.isBlank c = false := by
      intro c hc
      rw [← List.append_assoc, List.getLast?_append_of_ne_nil _ hlabel] at hc
      have hsmall := hunit.small _ (List.mem_map_of_mem (List.mem_of_mem_getLast? hc))
      exact (letter_of_small hsmall).2
    have hstrip := Text.strip_append hbefore hafter (hhead _) hlast
    simp only [List.append_assoc] at hstrip
    rw [hstrip, lower_written hds hbetween hunit]
    exact .mk hne hds hlength hbetween hunit

end Duration

namespace Config

open Duration (IsSpelling IsWritten)

/-- **The grammar of durations.** A text is read as a number of milliseconds just if it spells that
    number, without the blanks around it and in small letters; every other text is refused as an
    invalid value. In particular the unit may be written in letters of either case, with blanks
    around and in front of it. -/
theorem readMillis_ok_iff_isSpelling (text : String) :
    (∀ n, readMillis (.str text) = .ok n ↔
        IsSpelling (Text.lower (Text.strip text.toList)) n) ∧
      ((∃ n, IsSpelling (Text.lower (Text.strip text.toList)) n) ∨
        ∃ message, readMillis (.str text) = .error (.invalid message)) ∧
      ∀ n, IsWritten text.toList n → readMillis (.str text) = .ok n := by
  have hread (n : ℤ) : readMillis (.str text) = .ok n ↔
      IsSpelling (Text.lower (Text.strip text.toList)) n := by
    rw [← Duration.readMillis_eq_ok_iff, readMillis]
    cases Duration.readMillis text.toList <;> simp [Except.mapError]
  refine ⟨hread, ?_, fun n hn => (hread n).2 hn.isSpelling⟩
  cases h : Duration.readMillis text.toList with
  | ok n => exact .inl ⟨n, Duration.readMillis_eq_ok_iff.1 h⟩
  | error e => exact .inr ⟨e.message, by rw [readMillis, h]; rfl⟩

/-- Three hours, in digits of another script and with blanks of several kinds. -/
theorem readMillis_ok_iff_isSpelling_hours :
    IsWritten "\n٣\u2003\x09HoURs ".toList 10800000 ∧
      readMillis (.str "\n٣\u2003\x09HoURs ") = .ok 10800000 := by
  have hwritten : IsWritten (['\n'] ++ (['٣'] ++ (['\u2003', '\t'] ++ ("HoURs".toList ++ [' ']))))
      ((Integer.ofDigits [3] : ℕ) * (60 * 60 * 1000 : ℕ)) := by
    refine .mk (by simp [Text.isBlank]) (by simp) (.cons (by decide +kernel) .nil) (by decide)
      (by simp [Text.isBlank]) ?_ (by simp [Text.isBlank])
    exact .label (u := ⟨"hours", 60 * 60 * 1000⟩) (by simp [Duration.units])
  exact ⟨hwritten, (readMillis_ok_iff_isSpelling _).2.2 _ hwritten⟩

end Config

end RingScan

import RingScan.Plan.Settings
import RingScan.Proofs.Numeric.Rounding
import RingScan.Proofs.Ring.TokenText

set_option autoImplicit false

/-! # Durations in the configuration

A duration is put into a configuration as a text and read from it again. The reader is exact, but
the writer goes through binary fractions: the milliseconds are divided by a thousand to seconds
(`Duration.inSeconds`), multiplied by a thousand (`Duration.inMillis`), and cut off behind the
point. Both roundings are bounded here against whole numbers of milliseconds, which gives what is
written, and with it which durations come back (`Config.Options.restored_ofMillis`). -/

namespace RingScan

namespace Duration

open Binary64 (denominator rounded step IsExact rounded_le le_rounded rounded_near)

/-! ## Whole milliseconds as they are written -/

/-- So many milliseconds. -/
def ofMillis (n : ℕ) : Duration := ⟨1000 * n⟩

/-- The most whole milliseconds that a duration can hold. -/
def maxMillis : ℕ := 86399999999999999

/-- The seconds of so many milliseconds as a binary fraction, over the shared denominator. -/
def inSeconds (n : ℕ) : ℕ := rounded (1000 * n * denominator) 1000000

/-- A thousand times as much, as a binary fraction. -/
def inMillis (n : ℕ) : ℕ := rounded (inSeconds n * 1000) 1

variable {n : ℕ}

/-- The shared denominator is a power of two, and a high one. -/
theorem exists_denominator_eq {j : ℕ} (h : j ≤ 1074) :
    ∃ k ≤ 1074, denominator = 2 ^ j * 2 ^ k := by
  obtain ⟨k, hk⟩ := Nat.exists_eq_add_of_le h
  exact ⟨k, by omega, by rw [denominator, Nat.one_shiftLeft, ← pow_add, hk]⟩

theorem denominator_pos : 0 < denominator := by
  obtain ⟨k, -, hk⟩ := exists_denominator_eq (Nat.zero_le 1074)
  rw [hk]
  positivity

/-- The seconds are at most half of a sixty-fourth away. -/
theorem inSeconds_near (h : n ≤ maxMillis) :
    128 * (1000 * inSeconds n) ≤ 128 * (n * denominator) + 1000 * denominator ∧
      128 * (n * denominator) ≤ 128 * (1000 * inSeconds n) + 1000 * denominator := by
  obtain ⟨k, -, hk⟩ := exists_denominator_eq (j := 6) (by decide)
  have hstep : step (1000 * n * denominator) 1000000 ≤ 2 ^ k := by
    refine Binary64.step_le ((Nat.div_lt_iff_lt_mul (by decide)).2 ?_)
    have hsmall : n < 1000 * 2 ^ 47 := lt_of_le_of_lt h (by decide)
    calc 1000 * n * denominator < 1000 * (1000 * 2 ^ 47) * denominator :=
          Nat.mul_lt_mul_of_pos_right (Nat.mul_lt_mul_of_pos_left hsmall (by decide))
            denominator_pos
      _ = 2 ^ (k + 53) * 1000000 := by
        rw [hk]
        ring
  have hnear := rounded_near (n := 1000 * n * denominator) (d := 1000000) (by decide)
  have hassoc : 1000 * n * denominator = 1000 * (n * denominator) := Nat.mul_assoc ..
  rw [← inSeconds] at hnear
  omega

/-- The seconds are within one part in `2 ^ 53`. -/
theorem inSeconds_near_relative (n : ℕ) :
    2 ^ 53 * (1000 * inSeconds n) ≤ (2 ^ 53 + 1) * (n * denominator) ∧
      (2 ^ 53 - 1) * (n * denominator) ≤ 2 ^ 53 * (1000 * inSeconds n) := by
  rcases Nat.eq_zero_or_pos n with rfl | h
  · simp [inSeconds, rounded, Numeric.roundHalfEven]
  obtain ⟨k, -, hk⟩ := exists_denominator_eq (j := 64) (by decide)
  have hlong : 2 ^ 53 ≤ 1000 * n * denominator / 1000000 := by
    have hone : 2 ^ 64 ≤ denominator := hk ▸ Nat.le_mul_of_pos_right _ (Nat.two_pow_pos k)
    rw [Nat.le_div_iff_mul_le (by decide)]
    calc 2 ^ 53 * 1000000 ≤ 1000 * 1 * 2 ^ 64 := by decide
      _ ≤ 1000 * n * denominator := Nat.mul_le_mul (Nat.mul_le_mul_left _ h) hone
  have hstep := Binary64.two_pow_mul_step_le (Binary64.one_lt_step hlong)
  have hfull := (Nat.le_div_iff_mul_le (by decide)).1 hstep
  have hnear := rounded_near (n := 1000 * n * denominator) (d := 1000000) (by decide)
  have hassoc : 1000 * n * denominator = 1000 * (n * denominator) := Nat.mul_assoc ..
  rw [← inSeconds] at hnear
  omega

/-- What is written is at most sixteen away. -/
theorem inMillis_near (h : n ≤ maxMillis) :
    n * denominator ≤ inMillis n + 16 * denominator ∧
      inMillis n < n * denominator + 16 * denominator := by
  obtain ⟨k, -, hk⟩ := exists_denominator_eq (j := 0) (by decide)
  have hseconds := inSeconds_near h
  have hstep : step (inSeconds n * 1000) 1 ≤ 2 ^ (k + 4) := by
    refine Binary64.step_le ?_
    rw [Nat.div_one]
    have hpow : 2 ^ (k + 4 + 53) = 2 ^ 57 * denominator := by
      rw [hk]
      ring
    have hsmall : n * denominator ≤ maxMillis * denominator := Nat.mul_le_mul_right _ h
    have := denominator_pos
    rw [hpow]
    simp only [maxMillis] at hsmall
    omega
  have hpow : 2 ^ (k + 4) = 16 * denominator := by
    rw [hk]
    ring
  have hnear := rounded_near (n := inSeconds n * 1000) (d := 1) (by decide)
  have := denominator_pos
  rw [← inMillis] at hnear
  omega

/-- The milliseconds between two numbers of the format. -/
theorem isExact_mul_denominator (h : n ≤ 2 ^ 53) : IsExact (n * denominator) := by
  obtain ⟨k, -, hk⟩ := exists_denominator_eq (j := 0) (by decide)
  exact ⟨n, k, by rw [hk, pow_zero, one_mul], h⟩

/-- Up to `2 ^ 52` milliseconds, less than a millisecond is gained. -/
theorem inMillis_lt (h : n < 2 ^ 52) : inMillis n < (n + 1) * denominator := by
  obtain ⟨k, -, hk⟩ := exists_denominator_eq (j := 1) (by decide)
  have hhalf : (2 * n + 1) * 2 ^ k = n * denominator + 2 ^ k := by
    rw [hk]
    ring
  -- half a millisecond more is a number of the format
  have hle : inMillis n ≤ (2 * n + 1) * 2 ^ k := by
    refine rounded_le (by decide) ⟨2 * n + 1, k, rfl, by omega⟩ ?_
    have hnear := (inSeconds_near_relative n).1
    have hsmall : n * denominator ≤ (2 ^ 52 - 1) * denominator := Nat.mul_le_mul_right _ (by omega)
    omega
  have hpos := Nat.two_pow_pos k
  have hsucc : (n + 1) * denominator = n * denominator + denominator := Nat.succ_mul ..
  omega

/-- Up to `2 ^ 53` milliseconds, at most one millisecond is lost. -/
theorem le_inMillis (h : n ≤ 2 ^ 53) : (n - 1) * denominator ≤ inMillis n := by
  refine le_rounded (by decide) (isExact_mul_denominator (by omega)) ?_
  have hnear := (inSeconds_near_relative n).2
  have hsmall : n * denominator ≤ 2 ^ 53 * denominator := Nat.mul_le_mul_right _ h
  have hpred : (n - 1) * denominator = n * denominator - denominator := Nat.sub_one_mul ..
  omega

/-- Whole eighths of a second are written as they are. -/
theorem inMillis_of_dvd (h : 125 ∣ n) (hn : n ≤ 2 ^ 53) : inMillis n = n * denominator := by
  obtain ⟨k, -, hk⟩ := exists_denominator_eq (j := 3) (by decide)
  obtain ⟨m, rfl⟩ := h
  have hseconds : inSeconds (125 * m) = m * 2 ^ k := by
    rw [inSeconds, hk, show 1000 * (125 * m) * (2 ^ 3 * 2 ^ k) = m * 2 ^ k * 1000000 by ring]
    exact Binary64.rounded_of_isExact (by decide) ⟨m, k, rfl, by omega⟩
  have hmillis : m * 2 ^ k * 1000 = 125 * m * denominator * 1 := by
    rw [hk]
    ring
  rw [inMillis, hseconds, hmillis]
  exact Binary64.rounded_of_isExact (by decide) (isExact_mul_denominator hn)

/-- **When nothing is lost**: a thousand times the seconds are short of the milliseconds by at most
    half a step of the format. -/
theorem mul_denominator_le_inMillis_iff (h : n < 2 ^ 52) :
    n * denominator ≤ inMillis n ↔
      2 * (n * denominator) ≤ 2 * (inSeconds n * 1000) + step (inSeconds n * 1000) 1 := by
  constructor
  · intro hle
    have hnear := (rounded_near (n := inSeconds n * 1000) (d := 1) (by decide)).1
    rw [← inMillis] at hnear
    omega
  · intro hle
    have hexact : IsExact (n * denominator) := isExact_mul_denominator (by omega)
    rcases le_or_gt (n * denominator) (inSeconds n * 1000) with hge | hlt
    · exact le_rounded (by decide) hexact (by omega)
    · -- the steps are so small that the milliseconds are an even number of them
      obtain ⟨k, -, hk⟩ := exists_denominator_eq (j := 1) (by decide)
      have hstep : step (inSeconds n * 1000) 1 ∣ 2 ^ k := by
        refine Binary64.step_dvd_two_pow ?_
        rw [Nat.div_one]
        calc inSeconds n * 1000 < n * denominator := hlt
          _ ≤ 2 ^ 52 * denominator := Nat.mul_le_mul_right _ h.le
          _ = 2 ^ (k + 53) := by
            rw [hk]
            ring
      have heven : 2 * step (inSeconds n * 1000) 1 ∣ n * denominator := by
        rw [hk, pow_one]
        exact Dvd.dvd.mul_left (Nat.mul_dvd_mul_left 2 hstep) n
      exact Binary64.le_rounded_of_near (by decide) heven (by omega)

theorem inMillis_mono {m : ℕ} (h : n ≤ m) : inMillis n ≤ inMillis m :=
  Binary64.rounded_mono (by decide) (Nat.mul_le_mul_right _ (Binary64.rounded_mono (by decide)
    (Nat.mul_le_mul_right _ (Nat.mul_le_mul_left _ h))))

/-! ## The text of whole milliseconds -/

/-- What is not more than the longest duration is rounded to a finite number. -/
theorem ofScaled_of_le {m d : ℕ} (h : m / d ≤ 2 * maxMillis * denominator) :
    ∃ significand unit, Binary64.ofScaled false m d = .finite false significand unit ∧
      Binary64.scaled significand unit = rounded m d := by
  obtain ⟨k, hle, hk⟩ := exists_denominator_eq (j := 0) (by decide)
  have hlength : Binary64.bitLength (m / d) ≤ 58 + k := by
    refine Binary64.bitLength_le_iff.2 (h.trans_lt ?_)
    calc 2 * maxMillis * denominator < 2 ^ 58 * denominator :=
          Nat.mul_lt_mul_of_pos_right (by decide) denominator_pos
      _ = 2 ^ (58 + k) := by
        rw [hk]
        ring
  exact Binary64.ofScaled_eq false (by omega)

/-- The seconds of a duration, as a binary fraction. -/
theorem toSeconds_ofMillis (h : n ≤ maxMillis) :
    ∃ significand unit, (ofMillis n).toSeconds = .finite false significand unit ∧
      Binary64.scaled significand unit = inSeconds n := by
  have hsign : ¬ (1000 * n : ℤ) < 0 := by omega
  have habs : (1000 * n : ℤ).natAbs = 1000 * n := by omega
  have hle : 1000 * n * denominator / 1000000 ≤ 2 * maxMillis * denominator := by
    refine Nat.div_le_of_le_mul ?_
    calc 1000 * n * denominator ≤ 1000 * maxMillis * denominator :=
        Nat.mul_le_mul_right _ (Nat.mul_le_mul_left _ h)
      _ ≤ 1000000 * (2 * maxMillis) * denominator := Nat.mul_le_mul_right _ (by decide)
      _ = 1000000 * (2 * maxMillis * denominator) := Nat.mul_assoc ..
  simp only [ofMillis, toSeconds, Binary64.ofFraction, hsign, habs, decide_false]
  exact ofScaled_of_le hle

/-- The whole part of a product of numbers that are not negative. -/
theorem truncate_mulNat {x : Binary64} {s u s' u' k : ℕ} (hx : x = .finite false s u)
    (h : Binary64.ofScaled false (Binary64.scaled s u * k) 1 = .finite false s' u') :
    (x.mulNat k).truncate = .ok ((Binary64.scaled s' u' / denominator : ℕ) : ℤ) := by
  subst hx
  rw [Binary64.mulNat, h]
  rfl

-- Of the function and not of a value: there the number itself would be worked out.
theorem wholeMillis_eq : wholeMillis = fun d =>
    match (d.toSeconds.mulNat 1000).truncate with
    | .ok n => n
    | .error _ => 0 := by
  delta wholeMillis
  rfl

theorem wholeMillis_of_truncate {d : Duration} {k : ℤ}
    (h : (d.toSeconds.mulNat 1000).truncate = .ok k) : d.wholeMillis = k := by
  rw [wholeMillis_eq]
  simp only [h]

/-- The number that is written. -/
theorem wholeMillis_ofMillis (h : n ≤ maxMillis) :
    (ofMillis n).wholeMillis = (inMillis n / denominator : ℕ) := by
  obtain ⟨s, u, hseconds, hscaled⟩ := toSeconds_ofMillis h
  have hbound : inSeconds n * 1000 / 1 ≤ 2 * maxMillis * denominator := by
    have hnear := (inSeconds_near h).1
    have hsmall : n * denominator ≤ maxMillis * denominator := Nat.mul_le_mul_right _ h
    have hone : 1000 * denominator ≤ maxMillis * denominator := Nat.mul_le_mul_right _ (by decide)
    have hassoc : 2 * maxMillis * denominator = 2 * (maxMillis * denominator) := Nat.mul_assoc ..
    rw [Nat.div_one, hassoc]
    omega
  obtain ⟨s', u', hproduct, hscaled'⟩ := ofScaled_of_le hbound
  rw [← inMillis] at hscaled'
  refine wholeMillis_of_truncate ?_
  have hwhole := truncate_mulNat hseconds (hscaled.symm ▸ hproduct)
  rwa [hscaled'] at hwhole

theorem ofMillis_injective {m : ℕ} (h : ofMillis m = ofMillis n) : m = n := by
  have hmicros : (1000 * m : ℤ) = 1000 * n := congrArg micros h
  omega

/-- A number of milliseconds is a duration unless it is too great. -/
theorem ofMicros?_ofMillis (m : ℕ) :
    ofMicros? (1000 * m) = if m ≤ maxMillis then some (ofMillis m) else none := by
  have hdays : ((1000 * m : ℤ) / microsPerDay).natAbs ≤ 999999999 ↔ m ≤ maxMillis := by
    simp only [microsPerDay, maxMillis]
    omega
  simp only [ofMicros?, hdays, ofMillis]

/-- The greatest numbers of milliseconds are written as more than a duration can hold. -/
theorem maxMillis_lt_iff :
    maxMillis < inMillis n / denominator ↔ 86399999999999993 ≤ n := by
  constructor
  · intro hlt
    by_contra hsmall
    have hmono : inMillis n / denominator ≤ inMillis 86399999999999992 / denominator :=
      Nat.div_le_div_right (inMillis_mono (by omega))
    have hlast : inMillis 86399999999999992 / denominator ≤ maxMillis := by decide +kernel
    omega
  · intro hge
    have hmono : inMillis 86399999999999993 / denominator ≤ inMillis n / denominator :=
      Nat.div_le_div_right (inMillis_mono hge)
    have hfirst : maxMillis < inMillis 86399999999999993 / denominator := by decide +kernel
    omega

/-- What is written is close to what was meant. -/
theorem wholeMillis_near (h : n ≤ maxMillis) :
    n ≤ inMillis n / denominator + 16 ∧ inMillis n / denominator ≤ n + 15 := by
  have hnear := inMillis_near h
  have hpos := denominator_pos
  have hlow : (n - 16) * denominator ≤ inMillis n := by
    rw [Nat.sub_mul]
    omega
  have hhigh : inMillis n < (n + 16) * denominator := by
    rw [Nat.add_mul]
    omega
  have hle := (Nat.le_div_iff_mul_le hpos).2 hlow
  have hlt := (Nat.div_lt_iff_lt_mul hpos).2 hhigh
  omega

end Duration

/-! ## Reading -/

namespace Text

theorem isDigit_of_isDigit {c : Char} (h : c.isDigit = true) : isDigit c = true := by
  have hc := toNat_of_isDigit h
  rw [isDigit, inFlips, digitFlips, List.takeWhile_cons_of_pos (by simpa using hc.1),
    List.takeWhile_cons_of_neg (by simpa using hc.2)]
  rfl

theorem isBlank_of_isDigit {c : Char} (h : c.isDigit = true) : isBlank c = false := by
  have hc := toNat_of_isDigit h
  simp only [isBlank, Bool.or_eq_false_iff, Bool.and_eq_false_iff, decide_eq_false_iff_not,
    beq_eq_false_iff_ne]
  omega

/-- Digits, blanks and small letters have no other small image. -/
theorem lowerChar_eq_self {c : Char} (h : c.toNat < 0x80)
    (hletter : ¬ (0x41 ≤ c.toNat ∧ c.toNat ≤ 0x5a)) : lowerChar c = c := by
  have hruns : ∀ run ∈ lowerRuns, 0x41 ≤ run.1 ∧ run.2.1 ≤ 0x5a ∨ 0x80 ≤ run.1 := by
    decide +kernel
  rw [lowerChar, List.findSome?_eq_none_iff.2 ?_, Option.getD_none]
  rintro ⟨first, last, step, target⟩ hrun
  have hrun := hruns _ hrun
  dsimp only at hrun
  refine if_neg ?_
  omega

theorem lowerFrom_eq_self {cs : List Char}
    (h : ∀ c ∈ cs, c.toNat < 0x80 ∧ ¬ (0x41 ≤ c.toNat ∧ c.toNat ≤ 0x5a)) (before : List Char) :
    lowerFrom before cs = cs := by
  induction cs generalizing before with
  | nil => rfl
  | cons c cs ih =>
    obtain ⟨⟨hsmall, hletter⟩, hcs⟩ := List.forall_mem_cons.1 h
    rw [lowerFrom, ih hcs, if_neg (by omega), if_neg (by omega), lowerChar_eq_self hsmall hletter]
    rfl

theorem dropWhile_isBlank_eq_self {cs : List Char} (h : ∀ c ∈ cs.head?, isBlank c = false) :
    cs.dropWhile isBlank = cs := by
  cases cs with
  | nil => rfl
  | cons c cs => exact List.dropWhile_cons_of_neg (by simp [h c rfl])

/-- A text that neither begins nor ends with a blank is stripped of nothing. -/
theorem strip_eq_self {cs : List Char} (h : ∀ c ∈ cs.head?, isBlank c = false)
    (h' : ∀ c ∈ cs.getLast?, isBlank c = false) : strip cs = cs := by
  have hreverse : ∀ c ∈ cs.reverse.head?, isBlank c = false := by rwa [List.head?_reverse]
  rw [strip, dropWhile_isBlank_eq_self h, dropWhile_isBlank_eq_self hreverse, List.reverse_reverse]

end Text

namespace Duration

open Binary64 (denominator)

/-- A number of milliseconds is read from its text. -/
theorem readMillis_toText {k : ℕ} (h : Integer.isWritable k = true) :
    readMillis (Integer.display k ++ [' ', 'm', 's']) = .ok k := by
  have hdisplay : Integer.display k = Decimal.digitsOf k := by simp [Integer.display]
  have hdigit : ∀ c ∈ Decimal.digitsOf k, c.isDigit = true :=
    fun c hc => Integer.isDigit_of_mem_digitsOf hc
  have hread : Integer.read (Decimal.digitsOf k) = .ok (k : ℤ) := hdisplay ▸ Integer.read_display h
  rw [hdisplay]
  generalize hds : Decimal.digitsOf k = ds at hdigit hread
  have hne : ds ≠ [] := hds ▸ Integer.digitsOf_ne_nil k
  -- digits, blanks and small letters stay what they are
  have hstrip : Text.strip (ds ++ [' ', 'm', 's']) = ds ++ [' ', 'm', 's'] := by
    refine Text.strip_eq_self (fun c hc => ?_) (fun c hc => ?_)
    · rw [List.head?_append_of_ne_nil _ hne] at hc
      exact Text.isBlank_of_isDigit (hdigit c (List.mem_of_mem_head? hc))
    · rw [List.getLast?_append_of_ne_nil _ (by simp)] at hc
      obtain rfl : 's' = c := by simpa using hc
      decide
  have hunits : ∀ c ∈ [' ', 'm', 's'], c.toNat < 0x80 ∧ ¬ (0x41 ≤ c.toNat ∧ c.toNat ≤ 0x5a) := by
    simp
  have hlower : Text.lower (ds ++ [' ', 'm', 's']) = ds ++ [' ', 'm', 's'] := by
    refine Text.lowerFrom_eq_self (fun c hc => ?_) []
    rcases List.mem_append.1 hc with hc | hc
    · have hc := Text.toNat_of_isDigit (hdigit c hc)
      omega
    · exact hunits c hc
  have hrun : ∀ c ∈ ds, Text.isDigit c = true := fun c hc => Text.isDigit_of_isDigit (hdigit c hc)
  have htake : (ds ++ [' ', 'm', 's']).takeWhile Text.isDigit = ds := by
    rw [List.takeWhile_append_of_pos hrun, List.takeWhile_cons_of_neg (by decide), List.append_nil]
  have hdrop : (ds ++ [' ', 'm', 's']).dropWhile Text.isDigit = [' ', 'm', 's'] := by
    rw [List.dropWhile_append_of_pos hrun, List.dropWhile_cons_of_neg (by decide)]
  have hlabel : Text.strip [' ', 'm', 's'] = ['m', 's'] := by decide
  have hunit : unitMillis? ['m', 's'] = some 1 := by decide
  simp only [readMillis, hstrip, hlower, htake, hdrop, hlabel, hread, hunit, List.isEmpty_iff, hne,
    List.append_eq_nil_iff, false_and, if_false, Nat.cast_one, mul_one]

theorem isWritable_wholeMillis {n : ℕ} (h : n ≤ maxMillis) :
    Integer.isWritable ((inMillis n / denominator : ℕ) : ℤ) = true := by
  refine Partitioner.isWritable_of_natAbs_le ?_
  have hnear := (wholeMillis_near h).2
  have hmax : maxMillis + 15 ≤ 2 ^ 127 := by decide
  rw [Int.natAbs_natCast]
  omega

theorem readMillis_toText_ofMillis {n : ℕ} (h : n ≤ maxMillis) :
    readMillis (ofMillis n).toText.toList = .ok ((inMillis n / denominator : ℕ) : ℤ) := by
  have htext : (ofMillis n).toText.toList =
      Integer.display (inMillis n / denominator : ℕ) ++ [' ', 'm', 's'] := by
    rw [toText, wholeMillis_ofMillis h, Integer.toText, String.toList_append, String.toList_ofList]
    rfl
  rw [htext]
  exact readMillis_toText (isWritable_wholeMillis h)

end Duration

/-! ## Settings -/

namespace Config

open Duration (ofMillis maxMillis inMillis inSeconds)
open Binary64 (denominator step)

/-- What a setting is found to be after a duration was put under its name. -/
def Options.restored (o : Options) (s : Setting Duration) (d : Duration) :
    Except ConvertError Duration :=
  (o.set s.key (.duration d)).get s

/-- A value whose text is a number of milliseconds comes back as so many. -/
theorem Options.get_set (o : Options) (s : Setting Duration) {v : Value} {k : ℤ}
    (h : Duration.readMillis (asText v).toList = .ok k) :
    (o.set s.key v).get s = ofMicros (1000 * k) := by
  have hne : (asText v).isEmpty = false := by
    by_contra hempty
    have hnil : asText v = "" := by simpa using hempty
    simp [hnil, Duration.readMillis, Text.strip, Text.lower, Text.lowerFrom] at h
  rw [get, raw?, set, find?_insert, if_pos rfl]
  simp only [isUnset, hne, Bool.false_eq_true, if_false]
  simp only [SettingType.read, asDuration, h]

variable {n : ℕ}

theorem asText_duration (d : Duration) : asText (.duration d) = d.toText := rfl

/-- A number of milliseconds comes back as the number that was written, if a duration can hold it. -/
theorem Options.restored_eq (o : Options) (s : Setting Duration) (h : n ≤ maxMillis) :
    o.restored s (ofMillis n) =
      if 86399999999999993 ≤ n then .error .overflow
      else .ok (ofMillis (inMillis n / denominator)) := by
  have hread : Duration.readMillis (asText (.duration (ofMillis n))).toList =
      .ok ((inMillis n / denominator : ℕ) : ℤ) := by
    rw [asText_duration]
    exact Duration.readMillis_toText_ofMillis h
  rw [restored, get_set o s hread, ofMicros, Duration.ofMicros?_ofMillis]
  have hfits := Duration.maxMillis_lt_iff (n := n)
  by_cases hgreat : 86399999999999993 ≤ n
  · rw [if_pos hgreat, if_neg (not_le.2 (hfits.2 hgreat))]
  · rw [if_neg hgreat, if_pos (not_lt.1 fun hlt => hgreat (hfits.1 hlt))]

/-- **Durations in the configuration.** Whole milliseconds are written through a binary fraction of
    seconds, and what is written is read back as it stands. So a duration comes back only if it was
    written as it is. The greatest seven come back as an overflow; whole eighths of a second up to
    `2 ^ 53` milliseconds come back as they are; and of any other number below `2 ^ 52` a
    millisecond is lost exactly if a thousand times the seconds fall short of it by more than half
    a step of the format. -/
theorem Options.restored_ofMillis (o : Options) (s : Setting Duration) (h : n ≤ maxMillis) :
    Duration.readMillis (ofMillis n).toText.toList = .ok (ofMillis n).wholeMillis ∧
      (o.restored s (ofMillis n) = .ok (ofMillis n) ↔ (ofMillis n).wholeMillis = n) ∧
      (o.restored s (ofMillis n) = .error .overflow ↔ 86399999999999993 ≤ n) ∧
      (n < 86399999999999993 → ∃ m, o.restored s (ofMillis n) = .ok (ofMillis m) ∧
        n ≤ m + 16 ∧ m ≤ n + 15 ∧ (n < 2 ^ 52 → m = n ∨ m + 1 = n)) ∧
      (125 ∣ n → n ≤ 2 ^ 53 → o.restored s (ofMillis n) = .ok (ofMillis n)) ∧
      (n < 2 ^ 52 → (o.restored s (ofMillis n) = .ok (ofMillis n) ↔
        2 * (n * denominator) ≤
          2 * (inSeconds n * 1000) + step (inSeconds n * 1000) 1)) := by
  have hrestored := o.restored_eq s h
  have hnear := Duration.wholeMillis_near h
  have hpos := Duration.denominator_pos
  -- what overflows is not what was meant, and no more than `maxMillis` is ever meant
  have hfits : inMillis n / denominator = n → ¬ 86399999999999993 ≤ n := fun hsame hgreat => by
    have := Duration.maxMillis_lt_iff.2 hgreat
    omega
  have hback : o.restored s (ofMillis n) = .ok (ofMillis n) ↔ inMillis n / denominator = n := by
    rw [hrestored]
    constructor
    · intro heq
      split_ifs at heq
      exact Duration.ofMillis_injective (Except.ok.inj heq)
    · intro hsame
      rw [if_neg (hfits hsame), hsame]
  have hsmall : n < 2 ^ 52 →
      n - 1 ≤ inMillis n / denominator ∧ inMillis n / denominator ≤ n := fun hlt => by
    have hlow := (Nat.le_div_iff_mul_le hpos).2 (Duration.le_inMillis (n := n) (by omega))
    have hhigh := (Nat.div_lt_iff_lt_mul hpos).2 (Duration.inMillis_lt hlt)
    omega
  refine ⟨?_, ?_, ?_, fun hlt => ?_, fun hdvd hle => hback.2 ?_, fun hlt => hback.trans ?_⟩
  · rw [Duration.wholeMillis_ofMillis h]
    exact Duration.readMillis_toText_ofMillis h
  · rw [Duration.wholeMillis_ofMillis h, Nat.cast_inj]
    exact hback
  · rw [hrestored]
    split_ifs with hgreat <;> simp [hgreat]
  · refine ⟨_, by rw [hrestored, if_neg (not_le.2 hlt)], hnear.1, hnear.2, fun h52 => ?_⟩
    have := hsmall h52
    omega
  · rw [Duration.inMillis_of_dvd hdvd hle, Nat.mul_div_cancel _ hpos]
  · rw [← Duration.mul_denominator_le_inMillis_iff hlt, ← Nat.le_div_iff_mul_le hpos]
    have := hsmall hlt
    omega

/-- A second and a half comes back. -/
theorem Options.restored_ofMillis_1500 :
    1500 ≤ maxMillis ∧
      Options.restored [] Plan.Settings.connectTimeout (ofMillis 1500) = .ok (ofMillis 1500) := by
  have hmax : 1500 ≤ maxMillis := by decide
  obtain ⟨-, -, -, -, heighth, -⟩ := Options.restored_ofMillis [] Plan.Settings.connectTimeout hmax
  exact ⟨hmax, heighth (by decide) (by decide)⟩

/-- A millisecond of a second and a millisecond is lost, and the longest duration overflows. -/
theorem Options.restored_ne :
    Options.restored [] Plan.Settings.connectTimeout (ofMillis 1001) = .ok (ofMillis 1000) ∧
      Options.restored [] Plan.Settings.connectTimeout (ofMillis 1001) ≠ .ok (ofMillis 1001) ∧
      Options.restored [] Plan.Settings.connectTimeout (ofMillis maxMillis) = .error .overflow := by
  have hshort : inMillis 1001 / denominator = 1000 := by decide +kernel
  have hback : restored [] Plan.Settings.connectTimeout (ofMillis 1001) = .ok (ofMillis 1000) := by
    rw [restored_eq _ _ (by decide), if_neg (by decide), hshort]
  refine ⟨hback, fun hsame => ?_, ?_⟩
  · have hthousand := Duration.ofMillis_injective (Except.ok.inj (hback.symm.trans hsame))
    exact absurd hthousand (by decide)
  · rw [restored_eq _ _ le_rfl, if_pos (by decide)]

end Config

end RingScan

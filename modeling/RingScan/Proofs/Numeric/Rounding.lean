import Mathlib
import RingScan.Numeric.Binary64

set_option autoImplicit false

/-! # Rounding to binary fractions

A quotient is rounded to one of its two neighbours, and a fraction to a number of the format. The
numbers of the format are the significands up to `2 ^ 53` times the powers of two (`IsExact`), and
about a fraction they are one `step` apart. All that is used of rounding later is said by these: it
keeps the order (`rounded_mono`), does not go past a number of the format (`rounded_le`,
`le_rounded`), stays within half a step (`rounded_near`), and reaches an even number of steps from
half a step below (`le_rounded_of_near`). Whole numbers from `bound` on are beyond the format
(`ofInt_eq_infinite_iff`). -/

namespace RingScan

/-! ## Rounding a quotient -/

namespace Numeric

variable {n d k : ℕ}

theorem roundHalfEven_eq (n d : ℕ) :
    roundHalfEven n d = n / d ∨ roundHalfEven n d = n / d + 1 := by
  unfold roundHalfEven
  grind

/-- What is rounded is at most half a unit away. -/
theorem roundHalfEven_near (hd : 0 < d) :
    2 * (d * roundHalfEven n d) ≤ 2 * n + d ∧ 2 * n ≤ 2 * (d * roundHalfEven n d) + d := by
  have hdiv := Nat.div_add_mod n d
  have hmod := Nat.mod_lt n hd
  have hsucc := Nat.mul_add_one d (n / d)
  unfold roundHalfEven
  dsimp only
  split_ifs <;> omega

/-- Rounding does not go below a whole number that is not above. -/
theorem le_roundHalfEven (hd : 0 < d) (h : k * d ≤ n) : k ≤ roundHalfEven n d := by
  have hk := (Nat.le_div_iff_mul_le hd).2 h
  rcases roundHalfEven_eq n d with h | h <;> omega

/-- Rounding does not go above a whole number that is not below. -/
theorem roundHalfEven_le (hd : 0 < d) (h : n ≤ k * d) : roundHalfEven n d ≤ k := by
  rcases Nat.lt_or_ge (n / d) k with hlt | hge
  · rcases roundHalfEven_eq n d with h | h <;> omega
  · -- there is no rest
    have hkn := (Nat.le_div_iff_mul_le hd).1 hge
    obtain rfl : n = k * d := Nat.le_antisymm h hkn
    simp [roundHalfEven, hd]

/-- An even number is still reached from halfway below. -/
theorem le_roundHalfEven_of_near (hd : 0 < d) (heven : 2 ∣ k) (h : 2 * (k * d) ≤ 2 * n + d) :
    k ≤ roundHalfEven n d := by
  by_contra hlt
  obtain ⟨j, rfl⟩ := Nat.exists_eq_add_of_lt (not_le.1 hlt)
  generalize hr : roundHalfEven n d = r at *
  have hnear := (roundHalfEven_near (n := n) hd).2
  rw [hr] at hnear
  have hstep : 2 * ((r + j + 1) * d) = 2 * (d * r) + 2 * (j * d) + 2 * d := by ring
  -- it is just half a unit, and the number below is odd
  have hhalf : 2 * n = 2 * (d * r) + d := by omega
  have hj : j * d = 0 := by omega
  obtain rfl : j = 0 := (Nat.mul_eq_zero.1 hj).resolve_right hd.ne'
  have hdiv : n / d = r := by
    have hcomm := Nat.mul_comm r d
    exact Nat.div_eq_of_lt_le (by omega) (by rw [Nat.add_mul]; omega)
  have hmod : 2 * (n % d) = d := by
    have := Nat.div_add_mod n d
    rw [hdiv] at this
    omega
  rw [roundHalfEven] at hr
  simp only [hdiv, hmod] at hr
  have hodd : ¬ r % 2 = 0 := by omega
  simp [hodd] at hr

theorem roundHalfEven_mono {m : ℕ} (h : n ≤ m) :
    roundHalfEven n d ≤ roundHalfEven m d := by
  have hdiv : n / d ≤ m / d := Nat.div_le_div_right h
  rcases hdiv.lt_or_eq with hlt | heq
  · rcases roundHalfEven_eq n d with hn | hn <;> rcases roundHalfEven_eq m d with hm | hm <;> omega
  · have hn := Nat.div_add_mod n d
    have hm := Nat.div_add_mod m d
    have hmod : n % d ≤ m % d := by
      rw [heq] at hn
      omega
    unfold roundHalfEven
    rw [heq]
    dsimp only
    split_ifs <;> omega

end Numeric

/-! ## Rounding to the format -/

namespace Binary64

open Numeric (roundHalfEven roundHalfEven_near le_roundHalfEven roundHalfEven_le)

theorem lt_two_pow_bitLength (n : ℕ) : n < 2 ^ bitLength n := by
  unfold bitLength
  split
  · next h => simp [h]
  · exact Nat.lt_log2_self

theorem two_pow_le_of_bitLength {n k : ℕ} (h : bitLength n = k + 1) : 2 ^ k ≤ n := by
  unfold bitLength at h
  split at h
  · simp at h
  · next hn =>
    obtain rfl := Nat.succ.inj h
    exact Nat.log2_self_le hn

theorem bitLength_le_iff {n k : ℕ} : bitLength n ≤ k ↔ n < 2 ^ k := by
  constructor
  · exact fun h => (lt_two_pow_bitLength n).trans_le (Nat.pow_le_pow_right (by decide) h)
  · intro h
    by_contra hlt
    obtain ⟨j, hj⟩ := Nat.exists_eq_succ_of_ne_zero (Nat.ne_of_gt (Nat.zero_lt_of_lt (not_le.1 hlt)))
    have hle := two_pow_le_of_bitLength hj
    have hkj : k ≤ j := by omega
    have := Nat.pow_le_pow_right (n := 2) (by decide) hkj
    omega

/-- How far the numbers of the format are apart about `n / d / 2 ^ 1074`. -/
def step (n d : ℕ) : ℕ := 2 ^ (bitLength (n / d) - 53)

/-- The number of the format nearest to `n / d / 2 ^ 1074`, over the shared denominator. -/
def rounded (n d : ℕ) : ℕ := roundHalfEven n (d * step n d) * step n d

/-- Whether a magnitude over the shared denominator is a number of the format. -/
def IsExact (z : ℕ) : Prop := ∃ m u, z = m * 2 ^ u ∧ m ≤ 2 ^ 53

theorem step_pos (n d : ℕ) : 0 < step n d := Nat.two_pow_pos _

variable {n d z : ℕ}

/-- From `2 ^ 52` steps on the format has its full precision. -/
theorem two_pow_mul_step_le (h : 1 < step n d) : 2 ^ 52 * step n d ≤ n / d := by
  have hlong : bitLength (n / d) = bitLength (n / d) - 53 + 52 + 1 := by
    by_contra hshort
    have hzero : bitLength (n / d) - 53 = 0 := by omega
    simp [step, hzero] at h
  have hle := two_pow_le_of_bitLength hlong
  rwa [pow_add, mul_comm] at hle

/-- What is rounded is at most half a step away. -/
theorem rounded_near (hd : 0 < d) :
    2 * (d * rounded n d) ≤ 2 * n + d * step n d ∧
      2 * n ≤ 2 * (d * rounded n d) + d * step n d := by
  have hnear := roundHalfEven_near (n := n) (Nat.mul_pos hd (step_pos n d))
  have hassoc : d * rounded n d = d * step n d * roundHalfEven n (d * step n d) := by
    rw [rounded]
    ring
  rwa [hassoc]

/-- A number of the format that is not below is a whole number of steps. -/
theorem IsExact.step_dvd (hz : IsExact z) (h : n / d ≤ z) : step n d ∣ z := by
  obtain ⟨m, u, rfl, hm⟩ := hz
  rcases le_or_gt (bitLength (n / d) - 53) u with hle | hlt
  · exact Dvd.dvd.mul_left (pow_dvd_pow 2 hle) m
  · -- the only such number of fewer digits is the power of two
    have hstep : 1 < step n d := Nat.one_lt_two_pow (by omega)
    have hfull := two_pow_mul_step_le hstep
    have hpow : 2 ^ 53 * 2 ^ u ≤ 2 ^ 52 * step n d := by
      rw [step, ← pow_add, ← pow_add]
      exact Nat.pow_le_pow_right (by decide) (by omega)
    have hsmall : m * 2 ^ u ≤ 2 ^ 53 * 2 ^ u := Nat.mul_le_mul_right _ hm
    have heq : m * 2 ^ u = 2 ^ 52 * step n d := by omega
    exact heq ▸ Dvd.intro_left _ rfl

/-- Rounding does not go above a number of the format that is not below. -/
theorem rounded_le (hd : 0 < d) (hz : IsExact z) (h : n ≤ z * d) : rounded n d ≤ z := by
  obtain ⟨k, rfl⟩ := hz.step_dvd (Nat.div_le_of_le_mul (mul_comm z d ▸ h))
  rw [rounded, mul_comm (step n d) k]
  refine Nat.mul_le_mul_right _ (roundHalfEven_le (Nat.mul_pos hd (step_pos n d)) ?_)
  calc n ≤ step n d * k * d := h
    _ = k * (d * step n d) := by ring

/-- Rounding does not go below a number of the format that is not above. -/
theorem le_rounded (hd : 0 < d) (hz : IsExact z) (h : z * d ≤ n) : z ≤ rounded n d := by
  have hunit := Nat.mul_pos hd (step_pos n d)
  obtain ⟨m, u, rfl, hm⟩ := hz
  rcases le_or_gt (bitLength (n / d) - 53) u with hle | hlt
  · obtain ⟨k, hk⟩ : step n d ∣ m * 2 ^ u := Dvd.dvd.mul_left (pow_dvd_pow 2 hle) m
    rw [hk, rounded, mul_comm (step n d) k]
    refine Nat.mul_le_mul_right _ (le_roundHalfEven hunit ?_)
    calc k * (d * step n d) = step n d * k * d := by ring
      _ = m * 2 ^ u * d := by rw [hk]
      _ ≤ n := h
  · have hstep : 1 < step n d := Nat.one_lt_two_pow (by omega)
    have hfull := (Nat.le_div_iff_mul_le hd).1 (two_pow_mul_step_le hstep)
    have hpow : 2 ^ 53 * 2 ^ u ≤ 2 ^ 52 * step n d := by
      rw [step, ← pow_add, ← pow_add]
      exact Nat.pow_le_pow_right (by decide) (by omega)
    calc m * 2 ^ u ≤ 2 ^ 53 * 2 ^ u := Nat.mul_le_mul_right _ hm
      _ ≤ 2 ^ 52 * step n d := hpow
      _ ≤ roundHalfEven n (d * step n d) * step n d := by
        refine Nat.mul_le_mul_right _ (le_roundHalfEven hunit ?_)
        calc 2 ^ 52 * (d * step n d) = 2 ^ 52 * step n d * d := by ring
          _ ≤ n := hfull

/-- A number of the format stays as it is. -/
theorem rounded_of_isExact (hd : 0 < d) (hz : IsExact z) : rounded (z * d) d = z :=
  Nat.le_antisymm (rounded_le hd hz le_rfl) (le_rounded hd hz le_rfl)

/-- An even number of steps is still reached from half a step below. -/
theorem le_rounded_of_near (hd : 0 < d) (hz : 2 * step n d ∣ z)
    (h : 2 * (z * d) ≤ 2 * n + d * step n d) : z ≤ rounded n d := by
  obtain ⟨k, rfl⟩ := hz
  have hk : 2 * k ≤ roundHalfEven n (d * step n d) := by
    refine Numeric.le_roundHalfEven_of_near (Nat.mul_pos hd (step_pos n d)) ⟨k, rfl⟩ ?_
    calc 2 * (2 * k * (d * step n d)) = 2 * (2 * step n d * k * d) := by ring
      _ ≤ 2 * n + d * step n d := h
  calc 2 * step n d * k = 2 * k * step n d := by ring
    _ ≤ rounded n d := Nat.mul_le_mul_right _ hk

theorem step_dvd_two_pow {k : ℕ} (h : n / d < 2 ^ (k + 53)) : step n d ∣ 2 ^ k := by
  have hlength := bitLength_le_iff.2 h
  exact pow_dvd_pow 2 (by omega)

theorem step_le {k : ℕ} (h : n / d < 2 ^ (k + 53)) : step n d ≤ 2 ^ k :=
  Nat.le_of_dvd (Nat.two_pow_pos k) (step_dvd_two_pow h)

theorem one_lt_step (h : 2 ^ 53 ≤ n / d) : 1 < step n d := by
  have hlength : ¬ bitLength (n / d) ≤ 53 := fun hle => (bitLength_le_iff.1 hle).not_ge h
  exact Nat.one_lt_two_pow (by omega)

theorem isExact_two_pow (k : ℕ) : IsExact (2 ^ k) := ⟨1, k, by simp, by decide⟩

/-- Rounding keeps the order. -/
theorem rounded_mono {m : ℕ} (hd : 0 < d) (h : n ≤ m) : rounded n d ≤ rounded m d := by
  have hdiv : n / d ≤ m / d := Nat.div_le_div_right h
  rcases eq_or_ne (step n d) (step m d) with heq | hne
  · rw [rounded, rounded, heq]
    exact Nat.mul_le_mul_right _ (Numeric.roundHalfEven_mono h)
  · -- a power of two lies between the two
    have hlt : bitLength (n / d) < bitLength (m / d) := by
      have hle : bitLength (n / d) ≤ bitLength (m / d) :=
        bitLength_le_iff.2 (hdiv.trans_lt (lt_two_pow_bitLength _))
      refine hle.lt_of_ne fun hsame => hne ?_
      rw [step, step, hsame]
    have hbelow : n ≤ 2 ^ bitLength (n / d) * d :=
      ((Nat.div_lt_iff_lt_mul hd).1 (lt_two_pow_bitLength (n / d))).le
    have habove : 2 ^ bitLength (n / d) * d ≤ m := by
      refine (Nat.le_div_iff_mul_le hd).1 (not_lt.1 fun hsmall => ?_)
      exact absurd (bitLength_le_iff.2 hsmall) (not_le.2 hlt)
    exact (rounded_le hd (isExact_two_pow _) hbelow).trans
      (le_rounded hd (isExact_two_pow _) habove)

/-- A nonnegative fraction that is not too great is rounded to a finite number. -/
theorem ofScaled_eq (negative : Bool) (h : bitLength (n / d) ≤ 2097) :
    ∃ significand unit, ofScaled negative n d = .finite negative significand unit ∧
      scaled significand unit = rounded n d := by
  have hshift : d <<< (bitLength (n / d) - 53) = d * step n d := Nat.shiftLeft_eq _ _
  rw [ofScaled, hshift]
  dsimp only
  split_ifs with hfull hbig hbig
  · omega
  · refine ⟨_, _, rfl, ?_⟩
    rw [rounded, hfull, scaled, step]
    simp only [Nat.shiftLeft_eq]
    ring
  · omega
  · exact ⟨_, _, rfl, Nat.shiftLeft_eq _ _⟩

/-! ## Infinities -/

/-- Beyond the last binary order of the format there are infinities only. -/
theorem ofScaled_eq_infinite_iff {negative : Bool} :
    (∃ b, ofScaled negative n d = .infinite b) ↔
      2098 < bitLength (n / d) ∨
        bitLength (n / d) = 2098 ∧ roundHalfEven n (d <<< 2045) = 1 <<< 53 := by
  rw [ofScaled]
  dsimp only
  rcases eq_or_ne (bitLength (n / d)) 2098 with hlast | hne
  · simp only [hlast, lt_irrefl, true_and, false_or, show 2098 - 53 = 2045 from rfl]
    split_ifs with hcarry <;> simp_all
  · split_ifs with hcarry hbig hbig <;> simp [hne] <;> omega

/-- In its last binary order a number is carried beyond the format from half a step below the end
    on. -/
theorem roundHalfEven_eq_end_iff (hd : 0 < d) (h : n ≤ 2 ^ 54 * d) :
    roundHalfEven n (2 * d) = 2 ^ 53 ↔ 2 ^ 54 * d ≤ n + d := by
  have hpos : 0 < 2 * d := Nat.mul_pos (by decide) hd
  have hle : roundHalfEven n (2 * d) ≤ 2 ^ 53 := roundHalfEven_le hpos (by omega)
  constructor
  · intro hend
    have hnear := (roundHalfEven_near (n := n) hpos).1
    rw [hend] at hnear
    omega
  · intro hnear
    exact Nat.le_antisymm hle (Numeric.le_roundHalfEven_of_near hpos ⟨2 ^ 52, rfl⟩ (by omega))

/-- Halfway between the greatest number of the format and the one that would come next. -/
def bound : ℕ := 2 ^ 1024 - 2 ^ 970

/-- **Whole numbers are rounded to an infinity from the bound on.** -/
theorem ofInt_eq_infinite_iff {n : ℤ} :
    (∃ negative, ofInt n = .infinite negative) ↔ bound ≤ n.natAbs := by
  generalize hm : n.natAbs * denominator = m
  -- the exponents get names, so that no such power is ever carried out
  obtain ⟨i, hi⟩ : ∃ i, 1074 = i := ⟨_, rfl⟩
  obtain ⟨j, hj⟩ : ∃ j, 970 + i = j := ⟨_, rfl⟩
  have hden : denominator = 2 ^ i := by rw [denominator, Nat.one_shiftLeft, hi]
  have hpos : 0 < denominator := hden ▸ Nat.two_pow_pos i
  have hstep : 2 ^ 970 * denominator = 2 ^ j := by rw [hden, ← pow_add, hj]
  have hend : 2 ^ 1024 * denominator = 2 ^ 54 * 2 ^ j := by
    rw [← hstep, ← mul_assoc, ← pow_add]
  have hbound : bound ≤ n.natAbs ↔ 2 ^ 54 * 2 ^ j ≤ m + 2 ^ j := by
    rw [bound, Nat.sub_le_iff_le_add, ← Nat.mul_le_mul_right_iff hpos, Nat.add_mul, hm, hend, hstep]
  have hlong : 2098 < bitLength m ↔ 2 ^ 54 * 2 ^ j ≤ m := by
    rw [← not_le, bitLength_le_iff, not_lt, ← pow_add, ← hj, ← hi]
  have hshort : bitLength m ≤ 2097 ↔ m < 2 ^ 53 * 2 ^ j := by
    rw [bitLength_le_iff, ← pow_add, ← hj, ← hi]
  have hlast : 2045 = j + 1 := by omega
  have hcarry := roundHalfEven_eq_end_iff (n := m) (Nat.two_pow_pos j)
  rw [ofInt, ofFraction, hm, ofScaled_eq_infinite_iff, Nat.div_one, hbound, hlast,
    Nat.one_shiftLeft, Nat.one_shiftLeft, pow_succ', hlong]
  generalize 2 ^ j = d at *
  rcases le_or_gt (2 ^ 54 * d) m with hbeyond | hwithin
  · exact iff_of_true (.inl hbeyond) (by omega)
  · rw [hcarry hwithin.le]
    omega

end Binary64

end RingScan

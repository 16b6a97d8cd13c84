import RingScan.Numeric.PowerOfTen
import RingScan.Numeric.Rounding

set_option autoImplicit false

/-! # Binary floating-point numbers of 64 bits

A finite number is a significand below `2 ^ 53` times a power of two. Powers are counted from the
least one that the format has, so a finite number is the natural number `significand * 2 ^ unit`
over the fixed denominator `2 ^ 1074`, with a sign in front, and all arithmetic here is exact
arithmetic of natural numbers followed by one rounding. -/

namespace RingScan

/-- A number of the binary64 format. -/
inductive Binary64 where
  /-- The number `significand * 2 ^ unit / 2 ^ 1074`, negated if so marked; zero has two signs. -/
  | finite (negative : Bool) (significand unit : Nat)
  /-- An infinity. -/
  | infinite (negative : Bool)
  /-- No number at all. The payload tells two of these apart and has no other meaning. -/
  | nan (payload : Nat)
  deriving DecidableEq, Inhabited

namespace Binary64

open Numeric (roundHalfEven tenAbove tenBelow)

/-- The denominator that all finite numbers share. -/
def denominator : Nat := 1 <<< 1074

/-- The number of binary digits. -/
def bitLength (n : Nat) : Nat := if n = 0 then 0 else n.log2 + 1

/-- The number nearest to `n / d / 2 ^ 1074`, halfway cases going to the even significand and
    numbers beyond the greatest finite one to infinity. -/
def ofScaled (negative : Bool) (n d : Nat) : Binary64 :=
  let unit := bitLength (n / d) - 53
  let significand := roundHalfEven n (d <<< unit)
  let (significand, unit) :=
    if significand = 1 <<< 53 then (1 <<< 52, unit + 1) else (significand, unit)
  if 2045 < unit then .infinite negative else .finite negative significand unit

/-- The number nearest to the fraction `n / d`. -/
def ofFraction (negative : Bool) (n d : Nat) : Binary64 :=
  ofScaled negative (n * denominator) d

/-- The number nearest to a whole number. -/
def ofInt (n : Int) : Binary64 := ofFraction (n < 0) n.natAbs 1

/-- The number nearest to `digits * 10 ^ exponent`. Exponents that decide the outcome by
    themselves are not carried out. -/
def ofDecimal (negative : Bool) (digits : Nat) (exponent : Int) : Binary64 :=
  if digits = 0 then .finite negative 0 0
  else
    let length : Int := (Nat.toDigits 10 digits).length
    if 400 < exponent + length then .infinite negative
    else if exponent + length < -400 then .finite negative 0 0
    else ofFraction negative (digits * tenAbove exponent) (tenBelow exponent)

/-- The magnitude of a finite number over the shared denominator. -/
def scaled (significand unit : Nat) : Nat := significand <<< unit

/-- A finite number times a natural number, rounded once. -/
def mulNat (x : Binary64) (k : Nat) : Binary64 :=
  match x with
  | .finite negative significand unit => ofScaled negative (scaled significand unit * k) 1
  | .infinite negative => if k = 0 then .nan 0 else .infinite negative
  | x => x

/-- The reason why a number has no whole part. -/
inductive NotFinite where
  | infinite
  | nan
  deriving DecidableEq

/-- A whole number with a sign in front. -/
def signed (negative : Bool) (n : Nat) : Int := if negative then -n else n

/-- The whole part of a number, towards zero. -/
def truncate : Binary64 → Except NotFinite Int
  | .finite negative significand unit => .ok (signed negative (scaled significand unit / denominator))
  | .infinite _ => .error .infinite
  | .nan _ => .error .nan

/-- The part of a number behind the point, with the sign of the number. -/
def fractional : Binary64 → Binary64
  | .finite negative significand unit =>
      ofScaled negative (scaled significand unit % denominator) 1
  | .infinite negative => .finite negative 0 0
  | x => x

/-- How two finite numbers compare, as integers over the shared denominator. -/
def scaledInt : Binary64 → Int
  | .finite negative significand unit => signed negative (scaled significand unit)
  | _ => 0

/-- The order of the numbers; what is no number has no place in it. The two zeros are equal. -/
def compare? : Binary64 → Binary64 → Option Ordering
  | .nan _, _ => none
  | _, .nan _ => none
  | .infinite a, .infinite b => some (if a = b then .eq else if a then .lt else .gt)
  | .infinite a, .finite .. => some (if a then .lt else .gt)
  | .finite .., .infinite b => some (if b then .gt else .lt)
  | x@(.finite ..), y@(.finite ..) => some (compare x.scaledInt y.scaledInt)

/-- The order of a number and a whole number, which is compared as it is and not rounded first. -/
def compareInt? : Binary64 → Int → Option Ordering
  | .nan _, _ => none
  | .infinite a, _ => some (if a then .lt else .gt)
  | x@(.finite ..), n => some (compare x.scaledInt (n * denominator))

end Binary64

end RingScan

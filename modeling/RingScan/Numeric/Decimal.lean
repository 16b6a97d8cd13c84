import RingScan.Numeric.Binary64

set_option autoImplicit false

/-! # Decimal forms of binary numbers

The digits of a positive number in four forms: the fewest that read back as the same binary64
number, a fixed count of places behind the point, a fixed count of digits, and the layouts that
place a point or an exponent among them. -/

namespace RingScan.Decimal

open Numeric (roundHalfEven tenAbove tenBelow)

/-- The decimal digits of a natural number. -/
def digitsOf (n : Nat) : List Char := Nat.toDigits 10 n

/-- The exponent `e` with `10 ^ e ≤ n / d < 10 ^ (e + 1)`, for positive `n` and `d`. -/
def magnitude (n d : Nat) : Int :=
  if d ≤ n then (digitsOf (n / d)).length - 1
  else -((digitsOf ((d + n - 1) / n - 1)).length : Int)

/-- A number `digits * 10 ^ exponent`. -/
structure Scientific where
  digits : Nat
  exponent : Int

/-! ## The fewest digits -/

/-- The neighbour of `v / s` on the grid of multiples of `10 ^ k` that lies between `low / s` and
    `high / s`, the ends counting only if `closed`; the nearer of two, and of two equally near ones
    the even one. -/
def neighbour? (low v high s : Nat) (closed : Bool) (k : Int) : Option Nat :=
  let below := tenBelow k
  let unit := s * tenAbove k
  let c := v * below / unit
  let lowFits := if closed then low * below ≤ c * unit else low * below < c * unit
  let highFits := if closed then (c + 1) * unit ≤ high * below else (c + 1) * unit < high * below
  if lowFits then
    if highFits then
      let doubled := 2 * (v * below)
      let middle := (2 * c + 1) * unit
      if doubled < middle then some c
      else if middle < doubled then some (c + 1)
      else if c % 2 = 0 then some c
      else some (c + 1)
    else some c
  else if highFits then some (c + 1)
  else none

/-- The decimal with the fewest digits that reads back as `significand * 2 ^ unit / 2 ^ 1074`, and
    the nearest of those. The reals that round to a number reach halfway to its neighbours, and
    the neighbour below is twice as near at a power of two. -/
def shortest (significand unit : Nat) : Scientific :=
  let v := 4 * Binary64.scaled significand unit
  let s := 4 * Binary64.denominator
  let low := if significand = 1 <<< 52 ∧ 0 < unit then v - (1 <<< unit) else v - (2 <<< unit)
  let high := v + (2 <<< unit)
  let e := magnitude v s
  let found := (List.range 17).findSome? fun i =>
    let k := e - (i : Nat)
    (neighbour? low v high s (significand % 2 = 0) k).map (Scientific.mk · k)
  found.getD ⟨0, 0⟩

/-- The digits of a decimal without the zeros at its end, and the place of the point, counted from
    the first digit. -/
def Scientific.normalize (x : Scientific) : List Char × Int :=
  let ds := digitsOf x.digits
  (((ds.reverse.dropWhile (· == '0')).reverse), ds.length + x.exponent)

/-! ## Counted digits -/

/-- The fraction `n / d` in units of `10 ^ (-places)`. -/
def inPlaces (places n d : Nat) : Nat := roundHalfEven (n * tenAbove places) d

/-- The fraction `n / d` with a count of digits: the digits as a number, and the exponent of the
    first one. Rounding may carry into a digit more, which is taken back. -/
def withDigits (count n d : Nat) : Nat × Int :=
  if n = 0 then (0, 0)
  else
    let e := magnitude n d
    let k := e - (count - 1)
    let c := roundHalfEven (n * tenBelow k) (d * tenAbove k)
    if c = tenAbove count then (c / 10, e + 1) else (c, e)

/-! ## Layouts -/

/-- Digits with zeros in front up to a width. -/
def padZeros (width : Nat) (ds : List Char) : List Char :=
  List.replicate (width - ds.length) '0' ++ ds

/-- An exponent with its sign and at least two digits, behind its mark. -/
def exponentText (mark : Char) (e : Int) : List Char :=
  mark :: (if e < 0 then '-' else '+') :: padZeros 2 (digitsOf e.natAbs)

/-- Digits with the point at a place, zeros filling the room between them. -/
def positional (ds : List Char) (point : Int) : List Char :=
  if point ≤ 0 then '0' :: '.' :: (List.replicate (-point).toNat '0' ++ ds)
  else if ds.length ≤ point then ds ++ List.replicate (point.toNat - ds.length) '0' ++ ['.', '0']
  else ds.take point.toNat ++ '.' :: ds.drop point.toNat

/-- Digits with the point behind the first one, if there are more, and an exponent. -/
def scientific (ds : List Char) (point : Int) : List Char :=
  let body :=
    match ds with
    | first :: second :: rest => first :: '.' :: second :: rest
    | ds => ds
  body ++ exponentText 'e' (point - 1)

/-- The default text of a positive number: positional from a ten-thousandth to below `10 ^ 16`,
    with an exponent elsewhere. -/
def layout (ds : List Char) (point : Int) : List Char :=
  if -4 < point ∧ point ≤ 16 then positional ds point else scientific ds point

end RingScan.Decimal

namespace RingScan.Binary64

/-- The default text of a number: the fewest digits that read back, and names for the rest. -/
def display : Binary64 → List Char
  | .finite negative significand unit =>
      let body :=
        if significand = 0 then ['0', '.', '0']
        else
          let (ds, point) := (Decimal.shortest significand unit).normalize
          Decimal.layout ds point
      if negative then '-' :: body else body
  | .infinite negative => if negative then ['-', 'i', 'n', 'f'] else ['i', 'n', 'f']
  | .nan _ => ['n', 'a', 'n']

end RingScan.Binary64

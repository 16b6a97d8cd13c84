set_option autoImplicit false

/-! # Rounding a quotient

The one rounding rule of the library: to the nearest whole number, and from halfway to the even
one. -/

namespace RingScan.Numeric

/-- The whole number nearest to `n / d`; of two equally near ones, the even one. -/
def roundHalfEven (n d : Nat) : Nat :=
  let q := n / d
  let r := n % d
  if 2 * r < d then q
  else if d < 2 * r then q + 1
  else if q % 2 = 0 then q
  else q + 1

end RingScan.Numeric

set_option autoImplicit false

/-! # Powers of ten

The power of ten with an exponent of either sign is the fraction `tenAbove k / tenBelow k`, one of
which is one. -/

namespace RingScan.Numeric

/-- The power of ten above the line of a fraction. -/
def tenAbove (k : Int) : Nat := Nat.pow 10 k.toNat

/-- The power of ten below the line of a fraction. -/
def tenBelow (k : Int) : Nat := Nat.pow 10 (-k).toNat

end RingScan.Numeric

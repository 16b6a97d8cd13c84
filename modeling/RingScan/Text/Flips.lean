set_option autoImplicit false

/-! # Sets of characters by their flips

A set of characters is written as the increasing list of the code points at which membership
changes: below the first entry nothing is in the set, from the first to the second everything is,
and so on. -/

namespace RingScan.Text

/-- Whether a character lies in the set whose membership changes at the given code points: an odd
    number of changes lies at or below it. -/
def inFlips (flips : List Nat) (c : Char) : Bool :=
  (flips.takeWhile (· ≤ c.toNat)).length % 2 == 1

end RingScan.Text

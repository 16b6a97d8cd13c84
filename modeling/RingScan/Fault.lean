set_option autoImplicit false

/-! # Faults

What can go wrong with values that nobody has checked: they come off the wire or out of a
configuration, and are used as what they were hoped to be. -/

namespace RingScan

/-- A failure to use a value. -/
inductive Fault where
  /-- A value is of a kind that does not allow the operation, or is not there. -/
  | mismatch
  /-- A value is of a kind that does not know the operation. -/
  | noOperation
  /-- A list has no item at the place. -/
  | outOfRange
  /-- An object has no member of the name. -/
  | noMember
  /-- A number is beyond the range of its type. -/
  | overflow
  /-- A value would take more memory than there is. -/
  | tooLarge
  /-- A byte string is not the encoding of a text. -/
  | undecodable
  /-- A text has no encoding as a byte string. -/
  | unencodable
  /-- A text is not a value. -/
  | malformed
  /-- A text nests values too deep. -/
  | tooDeep
  /-- A value is of the right kind and wrong otherwise. -/
  | invalid (message : String)
  deriving DecidableEq

/-- The message of a fault. -/
def Fault.message : Fault → String
  | .mismatch => "a value is of the wrong kind"
  | .noOperation => "a value does not know the operation"
  | .outOfRange => "a list is too short"
  | .noMember => "an object has no such member"
  | .overflow => "a number is too large"
  | .tooLarge => "a value would take too much memory"
  | .undecodable => "a byte string is not a text"
  | .unencodable => "a text has no encoding"
  | .malformed => "a text is not a value"
  | .tooDeep => "a text nests values too deep"
  | .invalid message => message

end RingScan

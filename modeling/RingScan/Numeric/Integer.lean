import RingScan.Numeric.Decimal
import RingScan.Text.Blank
import RingScan.Text.Digit
import RingScan.Text.Quoted

set_option autoImplicit false

/-! # Whole numbers as text

Whole numbers are written in decimal with a minus sign in front of the negative ones. The reader
accepts much more than is written: white space around the numeral, a plus sign, zeros in front,
the decimal digits of every script, and single underscores between digits. It refuses numerals of
more than `maxDigits` digits. -/

namespace RingScan.Integer

/-- The text of a whole number. -/
def display (n : Int) : List Char :=
  if n < 0 then '-' :: Decimal.digitsOf n.natAbs else Decimal.digitsOf n.natAbs

/-- The text of a whole number, as a string. -/
def toText (n : Int) : String := String.ofList (display n)

/-- The greatest number of digits that is read. -/
def maxDigits : Nat := 4300

/-- Whether a whole number has no more digits than are read. -/
def isWritable (n : Int) : Bool := n.natAbs < Numeric.tenAbove maxDigits

/-- The message for a whole number with too many digits. -/
def unwritableMessage : String :=
  s!"Exceeds the limit ({maxDigits} digits) for integer string conversion; " ++
    "use sys.set_int_max_str_digits() to increase the limit"

/-- Why a text is not read as a whole number. -/
inductive ReadError where
  /-- The text is no numeral. -/
  | malformed (text : List Char)
  /-- The numeral has this many digits. -/
  | tooLong (digits : Nat)
  deriving DecidableEq

/-- The message for a numeral with too many digits. -/
def tooLongMessage (digits : Nat) : String :=
  s!"Exceeds the limit ({maxDigits} digits) for integer string conversion: " ++
    s!"value has {digits} digits; use sys.set_int_max_str_digits() to increase the limit"

/-- The message of an error. The offending text is quoted, and cut after two hundred characters. -/
def ReadError.message : ReadError → String
  | .malformed text =>
      "invalid literal for int() with base 10: " ++
        String.ofList ((Text.Quoted.encode text).take 200)
  | .tooLong digits => tooLongMessage digits

/-- A character of a run of digits: a digit, or the underscore between two of them. -/
def isRunChar (c : Char) : Bool := c == '_' || (Text.decimalValue? c).isSome

/-- Whether a run starts and ends with a digit and holds no two underscores next to each other. -/
def isSpaced : List Char → Bool
  | [] => false
  | '_' :: _ => false
  | _ :: '_' :: rest => isSpaced rest
  | [_] => true
  | _ :: c :: rest => isSpaced (c :: rest)

/-- The number that a list of digits denotes, the first digit counting most. -/
def ofDigits (ds : List Nat) : Nat := ds.foldl (fun n d => 10 * n + d) 0

/-- A numeral's sign, if it has one, and what follows. -/
def splitSign : List Char → Bool × List Char
  | '-' :: rest => (true, rest)
  | '+' :: rest => (false, rest)
  | cs => (false, cs)

/-- The whole number that a text denotes. The digits are counted as soon as their run is known to
    be one, and only then is it asked what stands behind them. -/
def read (text : List Char) : Except ReadError Int :=
  let (negative, cs) := splitSign (text.dropWhile Text.isNumeralBlank)
  let run := cs.takeWhile isRunChar
  if isSpaced run then
    let digits := run.filterMap Text.decimalValue?
    if maxDigits < digits.length then .error (.tooLong digits.length)
    else if (cs.dropWhile isRunChar).all Text.isNumeralBlank then
      .ok (Binary64.signed negative (ofDigits digits))
    else .error (.malformed text)
  else .error (.malformed text)

end RingScan.Integer

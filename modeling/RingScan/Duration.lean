import RingScan.Numeric.Integer
import RingScan.Text.LowerCase

set_option autoImplicit false

/-! # Durations

Spans of time in whole microseconds, up to about a thousand million days either way. They are read
as a number with a unit and written in whole milliseconds. Messages show them in full: as days and
a time of the day, or by their parts. -/

namespace RingScan

/-- A span of time. -/
structure Duration where
  micros : Int
  deriving DecidableEq

namespace Duration

/-- The microseconds of a day. -/
def microsPerDay : Int := 86400 * 1000000

/-- The duration of so many microseconds, if its days can be counted. -/
def ofMicros? (micros : Int) : Option Duration :=
  if (micros / microsPerDay).natAbs ≤ 999999999 then some ⟨micros⟩ else none

/-- A number of seconds. -/
def seconds (n : Nat) : Duration := ⟨1000000 * (n : Int)⟩

/-- A fraction rounded to the nearest whole number, halfway cases to the even one. -/
def nearest : Binary64 → Int
  | .finite negative significand unit =>
      Binary64.signed negative
        (Numeric.roundHalfEven (Binary64.scaled significand unit) Binary64.denominator)
  | _ => 0

/-- The microseconds in a fractional number of milliseconds. The whole part is exact, and the part
    behind the point is rounded to a whole number of microseconds. -/
def microsOfFraction (millis : Binary64) : Except Binary64.NotFinite Int :=
  match millis.truncate with
  | .error e => .error e
  | .ok whole => .ok (1000 * whole + nearest (millis.fractional.mulNat 1000))

/-- A duration in seconds, as the nearest binary fraction. -/
def toSeconds (d : Duration) : Binary64 :=
  Binary64.ofFraction (d.micros < 0) d.micros.natAbs 1000000

/-! ## Writing -/

/-- A duration in whole milliseconds as it is written: the seconds as a binary fraction, times a
    thousand, without what is behind the point. -/
def wholeMillis (d : Duration) : Int :=
  match (d.toSeconds.mulNat 1000).truncate with
  | .ok n => n
  | .error _ => 0

/-- The text of a duration. -/
def toText (d : Duration) : String := Integer.toText d.wholeMillis ++ " ms"

/-- The whole days of a duration, which may be negative. -/
def days (d : Duration) : Int := d.micros / microsPerDay

/-- The microseconds behind the whole days, which are never negative. -/
def timeOfDay (d : Duration) : Nat := (d.micros % microsPerDay).toNat

/-- A number of days, or nothing if there are none. -/
def dayCount (days : Int) : List Char :=
  if days = 0 then []
  else Integer.display days ++ (if days.natAbs = 1 then " day, " else " days, ").toList

/-- A number with zeros in front up to a width. -/
def padded (width n : Nat) : List Char := Decimal.padZeros width (Decimal.digitsOf n)

/-- A duration as days and a time of the day. -/
def display (d : Duration) : List Char :=
  let seconds := d.timeOfDay / 1000000
  let micros := d.timeOfDay % 1000000
  dayCount d.days ++ padded 1 (seconds / 3600) ++ ':' :: padded 2 (seconds / 60 % 60) ++
    ':' :: padded 2 (seconds % 60) ++ (if micros = 0 then [] else '.' :: padded 6 micros)

/-- A duration by its parts: whole days, and the seconds and microseconds behind them. Parts that
    are zero are left out, as long as one is left. -/
def literal (d : Duration) : List Char :=
  let parts := [("days=", d.days), ("seconds=", ((d.timeOfDay / 1000000 : Nat) : Int)),
    ("microseconds=", ((d.timeOfDay % 1000000 : Nat) : Int))].filter fun part => part.2 ≠ 0
  let shown := parts.map fun (name, n) => name.toList ++ Integer.display n
  "datetime.timedelta(".toList ++
    (if shown.isEmpty then ['0'] else [',', ' '].intercalate shown) ++ [')']

/-! ## Reading -/

/-- A unit: its label, and its length in milliseconds. -/
structure TimeUnit where
  label : String
  millis : Nat

/-- The units that a duration may be given in, by their labels. -/
def units : List TimeUnit :=
  let hour := 60 * 60 * 1000
  let minute := 60 * 1000
  [⟨"h", hour⟩, ⟨"hour", hour⟩, ⟨"hours", hour⟩, ⟨"m", minute⟩, ⟨"milli", 1⟩,
    ⟨"millisecond", 1⟩, ⟨"milliseconds", 1⟩, ⟨"min", minute⟩, ⟨"minute", minute⟩,
    ⟨"minutes", minute⟩, ⟨"ms", 1⟩, ⟨"s", 1000⟩, ⟨"sec", 1000⟩, ⟨"second", 1000⟩,
    ⟨"seconds", 1000⟩]

/-- Why a text is not read as a duration. -/
inductive ReadError where
  | missing
  | blank
  | noNumber
  | number (e : Integer.ReadError)
  | unknownUnit (label : List Char)
  deriving DecidableEq

/-- The message of an error. -/
def ReadError.message : ReadError → String
  | .missing => "text cannot be None"
  | .blank => "argument is an empty- or whitespace-only string"
  | .noNumber => "text does not start with a number"
  | .number e => e.message
  | .unknownUnit label =>
      "Time interval unit label '" ++ String.ofList label ++
        "' does not match any of the recognized units: " ++
        ", ".intercalate (units.map TimeUnit.label)

/-- The milliseconds that a unit stands for; no unit stands for one. -/
def unitMillis? (label : List Char) : Option Nat :=
  if label.isEmpty then some 1
  else (units.find? fun u => u.label.toList == label).map TimeUnit.millis

/-- The milliseconds that a text denotes: a number and, if it is not in milliseconds, a unit. -/
def readMillis (text : List Char) : Except ReadError Int :=
  let trimmed := Text.lower (Text.strip text)
  if trimmed.isEmpty then .error .blank
  else
    let digits := trimmed.takeWhile Text.isDigit
    let label := Text.strip (trimmed.dropWhile Text.isDigit)
    if digits.isEmpty then .error .noNumber
    else
      match Integer.read digits with
      | .error e => .error (.number e)
      | .ok n =>
          match unitMillis? label with
          | none => .error (.unknownUnit label)
          | some factor => .ok (n * factor)

end Duration

end RingScan

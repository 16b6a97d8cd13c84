import RingScan.Value.Display

set_option autoImplicit false

/-! # Message templates

Texts with directives that values are put into. A directive is a percent sign, flags, a width, a
precision and a letter that says how the value is written; an asterisk takes the width or the
precision from the values. Every value must be used up. A byte string is a template as well: its
bytes are read as the characters with their numbers, texts are escaped so that they fit in, and
byte strings are put in as they are. -/

namespace RingScan.Text.Template

/-- Why a template cannot be filled in. -/
inductive Failure where
  /-- The template is malformed, or the values do not suit it. -/
  | unfit
  /-- A number is beyond what its place in the template can hold. -/
  | overflow
  /-- The text would be longer than any memory. -/
  | tooLong
  deriving DecidableEq

/-- How a value is to be written. -/
structure Directive where
  leftAligned : Bool := false
  plus : Bool := false
  blank : Bool := false
  alternate : Bool := false
  zeros : Bool := false
  width : Nat := 0
  precision? : Option Nat := none

/-! ## Laying out -/

/-- A text aligned in its width, with blanks. -/
def Directive.align (f : Directive) (cs : List Char) : List Char :=
  let room := List.replicate (f.width - Surrogate.length cs) ' '
  if f.leftAligned then cs ++ room else room ++ cs

/-- The sign of a number, as the flags want it shown. -/
def Directive.sign (f : Directive) (negative : Bool) : List Char :=
  if negative then ['-'] else if f.plus then ['+'] else if f.blank then [' '] else []

/-- A number aligned in its width: zeros, if wanted, stand between what comes in front of the
    digits and the digits themselves. -/
def Directive.alignNumber (f : Directive) (front digits : List Char) : List Char :=
  let missing := f.width - (front.length + digits.length)
  if f.zeros && !f.leftAligned then front ++ List.replicate missing '0' ++ digits
  else f.align (front ++ digits)

/-- Every letter in upper case if so wanted. -/
def cased (upper : Bool) (cs : List Char) : List Char := if upper then cs.map Char.toUpper else cs

/-- A text, cut to the precision. -/
def Directive.text (f : Directive) (cs : List Char) : List Char :=
  f.align (match f.precision? with
    | some p => Surrogate.take p cs
    | none => cs)

/-- The most digits that a whole number can be asked for. -/
def maxDigits : Nat := 0x80000000 - 4

/-- A whole number to a base, with a mark of the base if the flags want one. -/
def Directive.whole (f : Directive) (base : Nat) (mark : List Char) (upper : Bool) (n : Int) :
    Except Failure (List Char) :=
  let least := f.precision?.getD 1
  if maxDigits < least then .error .overflow
  else
    let mark := if f.alternate then mark else []
    let digits := Decimal.padZeros least (Nat.toDigits base n.natAbs)
    .ok (f.alignNumber (f.sign (n < 0) ++ cased upper mark) (cased upper digits))

/-! ## Binary fractions -/

/-- The zeros at the end of a fraction taken away, and the point with them if nothing is left. -/
def dropZeros (cs : List Char) : List Char :=
  if cs.contains '.' then
    match cs.reverse.dropWhile (· == '0') with
    | '.' :: rest => rest.reverse
    | rest => rest.reverse
  else cs

/-- Digits with the point before the last `places` of them; no point if there are none, unless
    `pointed`. -/
def placePoint (pointed : Bool) (places : Nat) (digits : List Char) : List Char :=
  let digits := Decimal.padZeros (places + 1) digits
  let cut := digits.length - places
  digits.take cut ++ (if pointed || 0 < places then '.' :: digits.drop cut else [])

/-- More digits than any binary64 number has behind its point, and more than any has at all if the
    zeros at both ends are left out: those beyond them are zeros and need not be counted. -/
def enoughDigits : Nat := 1100

/-- Digits of which only so many were counted, with the zeros that follow them. -/
def followedByZeros (places : Nat) (counted : List Char) : List Char :=
  counted ++ List.replicate (places - enoughDigits) '0'

/-- The binary64 number `n / d` with `places` digits behind the point. -/
def fixedPoint (pointed : Bool) (places n d : Nat) : List Char :=
  let counted := Decimal.digitsOf (Decimal.inPlaces (min places enoughDigits) n d)
  placePoint pointed places (followedByZeros places counted)

/-- The binary64 number `n / d` with one digit before the point, `places` behind it, and an
    exponent. The last flag takes the zeros away that end the digits. -/
def exponential (pointed : Bool) (places n d : Nat) (short : Bool) : List Char :=
  let count := min places enoughDigits + 1
  let (c, e) := Decimal.withDigits count n d
  let counted := Decimal.padZeros count (Decimal.digitsOf c)
  let body := placePoint pointed places (followedByZeros places counted)
  (if short then dropZeros body else body) ++ Decimal.exponentText 'e' e

/-- The binary64 number `n / d` with a count of digits, positional or with an exponent, whichever
    suits its size; without zeros at the end, whatever their number, unless `pointed`. -/
def general (pointed : Bool) (count n d : Nat) : List Char :=
  let count := if pointed then count else min count enoughDigits
  let e := (Decimal.withDigits (min count enoughDigits) n d).2
  if -4 ≤ e ∧ e < count then
    let body := fixedPoint pointed ((count : Int) - 1 - e).toNat n d
    if pointed then body else dropZeros body
  else exponential pointed (count - 1) n d (!pointed)

/-- The magnitude `n / d` in the style of a letter. -/
def Directive.magnitude (f : Directive) (style : Char) (n d : Nat) : List Char :=
  let p := f.precision?.getD 6
  match style with
  | 'e' => exponential f.alternate p n d false
  | 'f' => fixedPoint f.alternate p n d
  | _ => general f.alternate (max p 1) n d

/-- A binary fraction in the style of a letter. -/
def Directive.fraction (f : Directive) (style : Char) (upper : Bool) : Binary64 → List Char
  | .finite negative significand unit =>
      f.alignNumber (f.sign negative)
        (cased upper (f.magnitude style (Binary64.scaled significand unit) Binary64.denominator))
  | .infinite negative => f.alignNumber (f.sign negative) (cased upper ['i', 'n', 'f'])
  | .nan _ => f.alignNumber (f.sign false) (cased upper ['n', 'a', 'n'])

/-! ## Values -/

/-- A value as a whole number; fractions lose what is behind the point. -/
def wholeNumber : Value → Except Failure Int
  | .int n => .ok n
  | .bool b => .ok (if b then 1 else 0)
  | .float x =>
      match x.truncate with
      | .ok n => .ok n
      | .error .infinite => .error .overflow
      | .error .nan => .error .unfit
  | _ => .error .unfit

/-- A value as a whole number; fractions are refused. -/
def exactNumber : Value → Except Failure Int
  | .float _ => .error .unfit
  | v => wholeNumber v

/-- A binary fraction that a whole number was rounded to, unless it is an infinity. -/
def unlessInfinite : Binary64 → Except Failure Binary64
  | .infinite _ => .error .overflow
  | x => .ok x

/-- A value as a binary fraction; whole numbers that are too large are refused. -/
def binaryFraction : Value → Except Failure Binary64
  | .float x => .ok x
  | v => (exactNumber v).bind fun n => unlessInfinite (Binary64.ofInt n)

/-- A value as a single character: a code point, or a text of one character. -/
def singleChar : Value → Except Failure (List Char)
  | .str s => if Surrogate.length s.toList = 1 then .ok s.toList else .error .unfit
  | v =>
      match exactNumber v with
      | .error e => .error e
      | .ok n =>
          if 0 ≤ n ∧ n < 0x110000 then .ok (Surrogate.ofCodePoint n.toNat) else .error .overflow

/-- A value as a letter wants it written. -/
def Directive.write (f : Directive) (letter : Char) (v : Value) : Except Failure (List Char) :=
  match letter with
  | 's' => .ok (f.text v.display)
  | 'r' => .ok (f.text v.literal)
  | 'a' => .ok (f.text (Quoted.toAscii v.literal))
  | 'd' | 'i' | 'u' => (wholeNumber v).bind (f.whole 10 [] false)
  | 'o' => (exactNumber v).bind (f.whole 8 ['0', 'o'] false)
  | 'x' => (exactNumber v).bind (f.whole 16 ['0', 'x'] false)
  | 'X' => (exactNumber v).bind (f.whole 16 ['0', 'x'] true)
  | 'e' | 'f' | 'g' => (binaryFraction v).map (f.fraction letter false)
  | 'E' => (binaryFraction v).map (f.fraction 'e' true)
  | 'F' => (binaryFraction v).map (f.fraction 'f' true)
  | 'G' => (binaryFraction v).map (f.fraction 'g' true)
  | 'c' => (singleChar v).map f.align
  | _ => .error .unfit

/-! ## Byte strings -/

/-- What a template is made of. -/
inductive Material where
  | characters
  | bytes
  deriving DecidableEq

/-- Bytes as the characters with their numbers. -/
def charsOf (bs : List UInt8) : List Char := bs.map fun b => Char.ofNat b.toNat

/-- Characters with the numbers of bytes as these bytes. -/
def bytesOf (cs : List Char) : List UInt8 := cs.map fun c => UInt8.ofNat c.toNat

/-- A value as a single byte: its number, or a byte string of one byte. -/
def singleByte : Value → Except Failure (List Char)
  | .bytes bs => if bs.length = 1 then .ok (charsOf bs) else .error .unfit
  | v =>
      match exactNumber v with
      | .error e => .error e
      | .ok n => if 0 ≤ n ∧ n < 256 then .ok [Char.ofNat n.toNat] else .error .overflow

/-- A value as a letter wants it written among bytes. -/
def Directive.writeBytes (f : Directive) (letter : Char) (v : Value) :
    Except Failure (List Char) :=
  match letter with
  | 's' | 'b' =>
      match v with
      | .bytes bs => .ok (f.text (charsOf bs))
      | _ => .error .unfit
  | 'r' => f.write 'a' v
  | 'c' => (singleByte v).map f.align
  | 'e' | 'E' | 'f' | 'F' | 'g' | 'G' => (f.write letter v).mapError fun _ => .unfit
  | _ => f.write letter v

/-- A value as a letter wants it written among what a template is made of. -/
def Directive.writeIn (f : Directive) : Material → Char → Value → Except Failure (List Char)
  | .characters => f.write
  | .bytes => f.writeBytes

/-! ## Reading directives -/

/-- What is left of a template and of the values. -/
structure Rest where
  template : List Char
  values : List Value

/-- The next value, which must be a whole number of this many bits with its sign. -/
def Rest.takeNumber (bits : Nat) (values : List Value) : Except Failure (Int × List Value) :=
  match values with
  | [] => .error .unfit
  | v :: values =>
      match exactNumber v with
      | .error e => .error e
      | .ok n =>
          let bound : Nat := 1 <<< (bits - 1)
          if -(bound : Int) ≤ n ∧ n < bound then .ok (n, values) else .error .overflow

/-- A number in the template itself, which must fit into this many bits with a sign. -/
def literalNumber (bits : Nat) (cs : List Char) : Except Failure (Nat × List Char) :=
  let digits := cs.takeWhile Char.isDigit
  let n := Integer.ofDigits (digits.map fun c => c.toNat - 48)
  if n < 1 <<< (bits - 1) then .ok (n, cs.dropWhile Char.isDigit) else .error .unfit

/-- The flags at the head of a directive. -/
def readFlags : Directive → List Char → Directive × List Char
  | f, '-' :: rest => readFlags { f with leftAligned := true } rest
  | f, '+' :: rest => readFlags { f with plus := true } rest
  | f, ' ' :: rest => readFlags { f with blank := true } rest
  | f, '#' :: rest => readFlags { f with alternate := true } rest
  | f, '0' :: rest => readFlags { f with zeros := true } rest
  | f, rest => (f, rest)

/-- The width that a number of 64 bits asks for. The least of them has no opposite, and asks for
    none. -/
def widthOf (n : Int) : Nat := if n = -((1 <<< 63 : Nat) : Int) then 0 else n.natAbs

/-- The width of a directive. A negative one aligns to the left. -/
def readWidth (f : Directive) (r : Rest) : Except Failure (Directive × Rest) :=
  match r.template with
  | '*' :: cs =>
      match Rest.takeNumber 64 r.values with
      | .error e => .error e
      | .ok (n, values) =>
          .ok ({ f with width := widthOf n, leftAligned := f.leftAligned || n < 0 }, ⟨cs, values⟩)
  | cs =>
      match literalNumber 64 cs with
      | .error e => .error e
      | .ok (n, cs) => .ok ({ f with width := n }, ⟨cs, r.values⟩)

/-- The precision of a directive. A negative one counts as zero. -/
def readPrecision (f : Directive) (r : Rest) : Except Failure (Directive × Rest) :=
  match r.template with
  | '.' :: '*' :: cs =>
      match Rest.takeNumber 32 r.values with
      | .error e => .error e
      | .ok (n, values) => .ok ({ f with precision? := some n.toNat }, ⟨cs, values⟩)
  | '.' :: cs =>
      match literalNumber 32 cs with
      | .error e => .error e
      | .ok (n, cs) => .ok ({ f with precision? := some n }, ⟨cs, r.values⟩)
  | _ => .ok (f, r)

/-- A template without the size mark that may stand before a letter. -/
def dropSizeMark : List Char → List Char
  | 'h' :: rest | 'l' :: rest | 'L' :: rest => rest
  | cs => cs

/-- The width from which on a text is longer than any memory. -/
def memoryWidth : Nat := 1 <<< 47

/-- One directive without its percent sign: what it writes, and what is left. -/
def readDirective (material : Material) (r : Rest) : Except Failure (List Char × Rest) := do
  let (f, cs) := readFlags {} r.template
  let (f, r) ← readWidth f ⟨cs, r.values⟩
  let (f, r) ← readPrecision f r
  match dropSizeMark r.template, r.values with
  | letter :: cs, v :: values =>
      if memoryWidth ≤ f.width then
        ({ f with width := 0 }.writeIn material letter v).bind fun _ => .error .tooLong
      else (f.writeIn material letter v).map fun text => (text, ⟨cs, values⟩)
  | _, _ => .error .unfit

/-- A template filled in. The first argument bounds the number of its pieces. -/
def expand (material : Material) : Nat → Rest → Except Failure (List Char)
  | 0, _ => .error .unfit
  | fuel + 1, r =>
      match r.template with
      | [] => if r.values.isEmpty then .ok [] else .error .unfit
      | '%' :: '%' :: cs => (expand material fuel ⟨cs, r.values⟩).map ('%' :: ·)
      | '%' :: cs =>
          match readDirective material ⟨cs, r.values⟩ with
          | .error e => .error e
          | .ok (text, r) => (expand material fuel r).map (text ++ ·)
      | c :: cs => (expand material fuel ⟨cs, r.values⟩).map (c :: ·)

/-- A template filled in with values. -/
def fill (template : String) (values : List Value) : Except Failure String :=
  let cs := template.toList
  (expand .characters (cs.length + 1) ⟨cs, values⟩).map String.ofList

/-- A template of bytes filled in with values. -/
def fillBytes (template : List UInt8) (values : List Value) : Except Failure (List UInt8) :=
  (expand .bytes (template.length + 1) ⟨charsOf template, values⟩).map bytesOf

end RingScan.Text.Template

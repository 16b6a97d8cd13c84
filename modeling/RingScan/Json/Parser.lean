import RingScan.Value.Basic

set_option autoImplicit false

/-! # Reading JSON texts

A recursive-descent reader of JSON texts. Beyond the standard it knows the three names for numbers
that are not finite; like the standard it refuses control characters inside texts, a byte-order
mark and anything behind the value. Of members with one name the first gives the place and the
last the value. -/

namespace RingScan.Json

/-- Why a text is not read as a value. -/
inductive ParseError where
  /-- The text is not in the grammar. -/
  | malformed
  /-- A whole number has this many digits, which is too many. -/
  | tooLong (digits : Nat)
  /-- Lists and objects are nested too deep. -/
  | tooDeep
  deriving DecidableEq

/-- The fault of a text that is not read as a value. -/
def ParseError.toFault : ParseError → Fault
  | .malformed => .malformed
  | .tooLong digits => .invalid (Integer.tooLongMessage digits)
  | .tooDeep => .tooDeep

/-- How many lists and objects may be nested in each other. This is no part of the format: the
    reader recurses once for each level, so what it reads ends at the recursion limit, less the
    frames that the calling program has on the stack by then. With a limit of 1000 and twelve frames
    below the reader 988 levels are left; a caller that stands deeper has fewer. -/
def maxDepth : Nat := 988

/-! ## Blanks and digits -/

/-- The white space between the parts of a text. -/
def isSpace (c : Char) : Bool := c == ' ' || c == '\t' || c == '\n' || c == '\r'

/-- A text without the white space in front. -/
def skipSpace (cs : List Char) : List Char := cs.dropWhile isSpace

/-- A digit from zero to nine. -/
def isAsciiDigit (c : Char) : Bool := '0' ≤ c && c ≤ '9'

/-- The number that a list of such digits denotes. -/
def natOfDigits (ds : List Char) : Nat := Integer.ofDigits (ds.map fun c => c.toNat - 48)

/-! ## Numbers -/

/-- The digits of a whole part: a lone zero, or digits that do not start with one. -/
def wholePart? : List Char → Option (List Char × List Char)
  | [] => none
  | c :: rest =>
      if c = '0' then some ([c], rest)
      else if isAsciiDigit c then some (c :: rest.takeWhile isAsciiDigit, rest.dropWhile isAsciiDigit)
      else none

/-- The digits behind a point; without a digit there is no such part. -/
def fractionPart? : List Char → Option (List Char × List Char)
  | '.' :: c :: rest =>
      if isAsciiDigit c then some (c :: rest.takeWhile isAsciiDigit, rest.dropWhile isAsciiDigit)
      else none
  | _ => none

/-- The exponent behind its letter and sign; without a digit there is no such part. -/
def exponentPart? : List Char → Option (Int × List Char)
  | e :: rest =>
      if e = 'e' ∨ e = 'E' then
        let (negative, rest) := Integer.splitSign rest
        match rest.takeWhile isAsciiDigit with
        | [] => none
        | ds => some (Binary64.signed negative (natOfDigits ds), rest.dropWhile isAsciiDigit)
      else none
  | [] => none

/-- A number without its sign. With a point or an exponent it is a binary fraction, else whole. -/
def magnitude (negative : Bool) (cs : List Char) : Except ParseError (Value × List Char) :=
  match wholePart? cs with
  | none => .error .malformed
  | some (whole, rest) =>
      match fractionPart? rest, exponentPart? rest with
      | none, none =>
          if Integer.maxDigits < whole.length then .error (.tooLong whole.length)
          else .ok (.int (Binary64.signed negative (natOfDigits whole)), rest)
      | none, some (e, rest) =>
          .ok (.float (Binary64.ofDecimal negative (natOfDigits whole) e), rest)
      | some (fraction, rest), _ =>
          let digits := natOfDigits (whole ++ fraction)
          match exponentPart? rest with
          | none => .ok (.float (Binary64.ofDecimal negative digits (-fraction.length)), rest)
          | some (e, rest) =>
              .ok (.float (Binary64.ofDecimal negative digits (e - fraction.length)), rest)

/-! ## Texts -/

/-- The character that a one-letter escape stands for. -/
def escape? : Char → Option Char
  | '"' => some '"'
  | '\\' => some '\\'
  | '/' => some '/'
  | 'b' => some '\x08'
  | 'f' => some '\x0c'
  | 'n' => some '\n'
  | 'r' => some '\r'
  | 't' => some '\t'
  | _ => none

/-- A piece of a text: a character, or a code unit that was written by its number. -/
inductive Piece where
  | char (c : Char)
  | unit (n : Nat)
  deriving DecidableEq

/-- The characters that pieces stand for. Two code units that follow each other may form a pair. -/
def joinPieces : List Piece → List Char
  | [] => []
  | .char c :: rest => c :: joinPieces rest
  | [.unit n] => Text.Surrogate.ofCodePoint n
  | .unit n :: .char c :: rest => Text.Surrogate.ofCodePoint n ++ c :: joinPieces rest
  | .unit n :: .unit m :: rest =>
      match Text.Surrogate.join? n m with
      | some code => Text.Surrogate.ofCodePoint code ++ joinPieces rest
      | none => Text.Surrogate.ofCodePoint n ++ joinPieces (.unit m :: rest)

/-- The pieces of a text up to the closing quote, and what follows it. -/
def textPieces : List Char → Except ParseError (List Piece × List Char)
  | [] => .error .malformed
  | '"' :: rest => .ok ([], rest)
  | '\\' :: 'u' :: a :: b :: c :: d :: rest =>
      match Text.Hex.number? [a, b, c, d] with
      | none => .error .malformed
      | some n => (textPieces rest).map fun (ps, tail) => (.unit n :: ps, tail)
  | '\\' :: c :: rest =>
      match escape? c with
      | none => .error .malformed
      | some c => (textPieces rest).map fun (ps, tail) => (.char c :: ps, tail)
  | c :: rest =>
      if c.toNat < 0x20 then .error .malformed
      else (textPieces rest).map fun (ps, tail) => (.char c :: ps, tail)

/-- The characters of a text up to the closing quote, and what follows it. -/
def textBody (cs : List Char) : Except ParseError (List Char × List Char) :=
  (textPieces cs).map fun (ps, tail) => (joinPieces ps, tail)

/-! ## Values -/

mutual

/-- A value at the head of a text, and what follows it. The first argument bounds the depth and
    the length of what is read; the second one tells how many lists and objects may still be
    opened inside each other. -/
def value : Nat → Nat → List Char → Except ParseError (Value × List Char)
  | 0, _, _ => .error .malformed
  | fuel + 1, depth, cs =>
      match cs with
      | '"' :: rest => (textBody rest).map fun (s, tail) => (.str (String.ofList s), tail)
      | '{' :: rest =>
          match depth with
          | 0 => .error .tooDeep
          | depth + 1 =>
              match skipSpace rest with
              | '}' :: tail => .ok (.obj [], tail)
              | rest => membersFrom fuel depth [] rest
      | '[' :: rest =>
          match depth with
          | 0 => .error .tooDeep
          | depth + 1 =>
              match skipSpace rest with
              | ']' :: tail => .ok (.arr [], tail)
              | rest => itemsFrom fuel depth [] rest
      | 'n' :: 'u' :: 'l' :: 'l' :: tail => .ok (.null, tail)
      | 't' :: 'r' :: 'u' :: 'e' :: tail => .ok (.bool true, tail)
      | 'f' :: 'a' :: 'l' :: 's' :: 'e' :: tail => .ok (.bool false, tail)
      | 'N' :: 'a' :: 'N' :: tail => .ok (.float (.nan 0), tail)
      | 'I' :: 'n' :: 'f' :: 'i' :: 'n' :: 'i' :: 't' :: 'y' :: tail =>
          .ok (.float (.infinite false), tail)
      | '-' :: 'I' :: 'n' :: 'f' :: 'i' :: 'n' :: 'i' :: 't' :: 'y' :: tail =>
          .ok (.float (.infinite true), tail)
      | '-' :: rest => magnitude true rest
      | cs => magnitude false cs

/-- The items of a list from one item on, behind those already read in reverse. -/
def itemsFrom : Nat → Nat → List Value → List Char → Except ParseError (Value × List Char)
  | 0, _, _, _ => .error .malformed
  | fuel + 1, depth, done, cs =>
      match value fuel depth cs with
      | .error e => .error e
      | .ok (item, rest) =>
          match skipSpace rest with
          | ']' :: tail => .ok (.arr (item :: done).reverse, tail)
          | ',' :: tail => itemsFrom fuel depth (item :: done) (skipSpace tail)
          | _ => .error .malformed

/-- The members of an object from one name on, added to those already read. -/
def membersFrom :
    Nat → Nat → List (String × Value) → List Char → Except ParseError (Value × List Char)
  | 0, _, _, _ => .error .malformed
  | fuel + 1, depth, done, cs =>
      match cs with
      | '"' :: rest =>
          match textBody rest with
          | .error e => .error e
          | .ok (name, rest) =>
              match skipSpace rest with
              | ':' :: rest =>
                  match value fuel depth (skipSpace rest) with
                  | .error e => .error e
                  | .ok (v, rest) =>
                      let done := Value.put (String.ofList name) v done
                      match skipSpace rest with
                      | '}' :: tail => .ok (.obj done, tail)
                      | ',' :: tail => membersFrom fuel depth done (skipSpace tail)
                      | _ => .error .malformed
              | _ => .error .malformed
      | _ => .error .malformed

end

/-- The value that a whole text denotes. -/
def parse (cs : List Char) : Except ParseError Value :=
  match value (cs.length + 1) maxDepth (skipSpace cs) with
  | .error e => .error e
  | .ok (v, rest) => if (skipSpace rest).isEmpty then .ok v else .error .malformed

/-- The value that a string denotes. -/
def ofText (s : String) : Except ParseError Value := parse s.toList

end RingScan.Json

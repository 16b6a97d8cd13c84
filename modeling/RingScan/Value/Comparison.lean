import RingScan.Text.Order
import RingScan.Value.Basic

set_option autoImplicit false

/-! # Comparing values

Values of any kind can be asked whether they are the same; numbers compare by value, whatever they
are written as, and a truth value counts as zero or one. What is no number is the same as itself
and as nothing else, and *equal* to nothing at all. An order exists between numbers, between texts,
between byte strings, between durations and between lists only. -/

namespace RingScan.Value

/-- A value as a number, if it is one. -/
def number? : Value → Option (Int ⊕ Binary64)
  | .bool b => some (.inl (if b then 1 else 0))
  | .int n => some (.inl n)
  | .float x => some (.inr x)
  | _ => none

/-- The order of two numbers; what is no number has none. -/
def compareNumbers? : Int ⊕ Binary64 → Int ⊕ Binary64 → Option Ordering
  | .inl m, .inl n => some (compare m n)
  | .inl m, .inr y => (y.compareInt? m).map Ordering.swap
  | .inr x, .inl n => x.compareInt? n
  | .inr x, .inr y => x.compare? y

/-- Whether two numbers are the same. What is no number is known by its payload. -/
def sameNumber : Int ⊕ Binary64 → Int ⊕ Binary64 → Bool
  | .inr (.nan a), .inr (.nan b) => a == b
  | x, y => compareNumbers? x y == some .eq

mutual

/-- Whether two values are the same. -/
def same : Value → Value → Bool
  | .null, .null => true
  | .str a, .str b => a == b
  | .bytes a, .bytes b => a == b
  | .duration a, .duration b => a == b
  | .arr a, .arr b => sameItems a b
  | .obj a, .obj b => a.length == b.length && sameMembers a b
  | a, b =>
      match a.number?, b.number? with
      | some x, some y => sameNumber x y
      | _, _ => false

/-- Whether two lists of values are the same, item by item. -/
def sameItems : List Value → List Value → Bool
  | [], [] => true
  | a :: as, b :: bs => same a b && sameItems as bs
  | _, _ => false

/-- Whether every member is found in the other list with the same value. -/
def sameMembers : List (String × Value) → List (String × Value) → Bool
  | [], _ => true
  | (name, a) :: rest, bs =>
      (match lookup? name bs with
        | some b => same a b
        | none => false) && sameMembers rest bs

end

/-- Whether a value is no number, although it is of a kind of numbers. -/
def isNan : Value → Bool
  | .float (.nan _) => true
  | _ => false

/-- Equality of values: what is no number is not equal to anything. -/
def equals (a b : Value) : Bool := !a.isNan && same a b

/-- How two values compare. -/
inductive Comparison where
  /-- No order exists between values of these kinds. -/
  | incomparable
  /-- Both are numbers of some kind, and one is no number. -/
  | unordered
  | ordered (o : Ordering)
  deriving DecidableEq

/-- The order of two texts, two byte strings or two durations. -/
def order {α : Type} [DecidableEq α] [LT α] [DecidableLT α] (a b : α) : Comparison :=
  .ordered (if a = b then .eq else if a < b then .lt else .gt)

mutual

/-- How two values compare; values that are the same do so whatever their kind. Lists compare by
    their first difference, and by their lengths if there is none. -/
def relate : Value → Value → Comparison
  | .str a, .str b => order (Text.ordered a) (Text.ordered b)
  | .bytes a, .bytes b => order a b
  | .duration a, .duration b => order a.micros b.micros
  | .arr a, .arr b => relateItems a b
  | a, b =>
      match a.number?, b.number? with
      | some x, some y =>
          if sameNumber x y then .ordered .eq
          else
            match compareNumbers? x y with
            | some o => .ordered o
            | none => .unordered
      | _, _ => if same a b then .ordered .eq else .incomparable

/-- How two lists compare. -/
def relateItems : List Value → List Value → Comparison
  | [], [] => .ordered .eq
  | [], _ :: _ => .ordered .lt
  | _ :: _, [] => .ordered .gt
  | a :: as, b :: bs => if same a b then relateItems as bs else relate a b

end

theorem relate_int (m n : Int) : (Value.int m).relate (.int n) = .ordered (compare m n) := by
  by_cases h : compare m n = .eq <;> simp [relate, number?, sameNumber, compareNumbers?, h]

namespace Comparison

/-- Whether the first is below the second, if values of their kinds have an order. -/
def below? : Comparison → Option Bool
  | .incomparable => none
  | c => some (c == .ordered .lt)

/-- Whether the first is at least the second, if values of their kinds have an order. -/
def atLeast? : Comparison → Option Bool
  | .incomparable => none
  | c => some (c == .ordered .gt || c == .ordered .eq)

end Comparison

/-- Whether the first value is at most the second. -/
def isAtMost (a b : Value) : Bool := relate a b == .ordered .lt || relate a b == .ordered .eq

end RingScan.Value

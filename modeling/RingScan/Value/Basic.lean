import RingScan.Duration
import RingScan.Fault

set_option autoImplicit false

/-! # Values

What configurations, messages and arguments are made of before anybody has looked into them. Whole
numbers and binary fractions are told apart, as their texts are, and the members of an object keep
their order. Everything that a node can send is a value; byte strings and durations are values that
only callers can give. -/

namespace RingScan

/-- A value of any kind. -/
inductive Value where
  | null
  | bool (b : Bool)
  | int (n : Int)
  | float (x : Binary64)
  | str (s : String)
  | bytes (bs : List UInt8)
  | duration (d : Duration)
  | arr (items : List Value)
  | obj (members : List (String × Value))
  deriving Inhabited

namespace Value

/-! ## Deciding whether two values are one

This tells apart what numbers are written as; comparing values by what they mean is another matter. -/

mutual

/-- Whether two values are one, decided. -/
def decEq : (v w : Value) → Decidable (v = w)
  | .null, w => by
      cases w with
      | null => exact isTrue rfl
      | _ => exact isFalse (by simp)
  | .bool a, w => by
      cases w with
      | bool b =>
        exact decidable_of_iff (a = b) (by simp)
      | _ => exact isFalse (by simp)
  | .int a, w => by
      cases w with
      | int b =>
        exact decidable_of_iff (a = b) (by simp)
      | _ => exact isFalse (by simp)
  | .float a, w => by
      cases w with
      | float b =>
        exact decidable_of_iff (a = b) (by simp)
      | _ => exact isFalse (by simp)
  | .str a, w => by
      cases w with
      | str b =>
        exact decidable_of_iff (a = b) (by simp)
      | _ => exact isFalse (by simp)
  | .bytes a, w => by
      cases w with
      | bytes b =>
        exact decidable_of_iff (a = b) (by simp)
      | _ => exact isFalse (by simp)
  | .duration a, w => by
      cases w with
      | duration b =>
        exact decidable_of_iff (a = b) (by simp)
      | _ => exact isFalse (by simp)
  | .arr a, w => by
      cases w with
      | arr b =>
        exact match decEqItems a b with
          | isTrue h => isTrue (by rw [h])
          | isFalse h => isFalse (by simp [h])
      | _ => exact isFalse (by simp)
  | .obj a, w => by
      cases w with
      | obj b =>
        exact match decEqMembers a b with
          | isTrue h => isTrue (by rw [h])
          | isFalse h => isFalse (by simp [h])
      | _ => exact isFalse (by simp)

/-- Whether two lists of values are one, decided. -/
def decEqItems : (vs ws : List Value) → Decidable (vs = ws)
  | [], [] => isTrue rfl
  | [], _ :: _ => isFalse (by simp)
  | _ :: _, [] => isFalse (by simp)
  | v :: vs, w :: ws =>
      match decEq v w, decEqItems vs ws with
      | isTrue h, isTrue k => isTrue (by rw [h, k])
      | isFalse h, _ => isFalse (by simp [h])
      | _, isFalse k => isFalse (by simp [k])

/-- Whether two lists of members are one, decided. -/
def decEqMembers : (vs ws : List (String × Value)) → Decidable (vs = ws)
  | [], [] => isTrue rfl
  | [], _ :: _ => isFalse (by simp)
  | _ :: _, [] => isFalse (by simp)
  | (name, v) :: vs, (key, w) :: ws =>
      if hk : name = key then
        match decEq v w, decEqMembers vs ws with
        | isTrue h, isTrue k => isTrue (by rw [hk, h, k])
        | isFalse h, _ => isFalse (by simp [h])
        | _, isFalse k => isFalse (by simp [k])
      else isFalse (by simp [hk])

end

instance : DecidableEq Value := decEq

/-! ## Members -/

/-- The value of a member, if the list has it. -/
def lookup? (name : String) : List (String × Value) → Option Value
  | [] => none
  | (key, value) :: rest => if key = name then some value else lookup? name rest

/-- A member put into a list: a new one goes to the end, a known one keeps its place and takes the
    new value. -/
def put (name : String) (value : Value) : List (String × Value) → List (String × Value)
  | [] => [(name, value)]
  | (key, old) :: rest =>
      if key = name then (key, value) :: rest else (key, old) :: put name value rest

theorem lookup?_put (name key : String) (value : Value) (ms : List (String × Value)) :
    lookup? key (put name value ms) = if key = name then some value else lookup? key ms := by
  induction ms with
  | nil => by_cases h : name = key <;> simp [put, lookup?, h, eq_comm]
  | cons m rest ih =>
      obtain ⟨k, v⟩ := m
      by_cases hk : k = name
      · subst hk
        by_cases h : k = key
        · simp [put, lookup?, h]
        · simp [put, lookup?, h, Ne.symm h]
      · by_cases h : k = key
        · subst h
          simp [put, lookup?, hk]
        · simp [put, lookup?, hk, h, ih]

/-! ## Kinds -/

/-- Whether a value is the null value. -/
def isNull : Value → Bool
  | .null => true
  | _ => false

/-- Whether a value says something: null, false, every zero and everything empty do not. -/
def isTruthy : Value → Bool
  | .null => false
  | .bool b => b
  | .int n => n ≠ 0
  | .float (.finite _ significand _) => significand ≠ 0
  | .float _ => true
  | .str s => !s.isEmpty
  | .bytes bs => !bs.isEmpty
  | .duration d => d.micros ≠ 0
  | .arr items => !items.isEmpty
  | .obj members => !members.isEmpty

/-- Whether a value can be looked up: lists and objects cannot. -/
def isHashable : Value → Bool
  | .arr _ => false
  | .obj _ => false
  | _ => true

/-- The items that a value is made of, one after the other: those of a list, the symbols of a
    text, the bytes of a byte string as numbers, the names in an object. -/
def items : Value → Except Fault (List Value)
  | .arr items => .ok items
  | .str s => .ok ((Text.Surrogate.symbols s.toList).map fun cs => .str (String.ofList cs))
  | .bytes bs => .ok (bs.map fun b => .int b.toNat)
  | .obj members => .ok (members.map fun m => .str m.1)
  | _ => .error .mismatch

/-- A text that may be missing, as a value. -/
def ofText? (s? : Option String) : Value := s?.elim .null .str

theorem isTruthy_str (s : String) : (Value.str s).isTruthy = decide (s ≠ "") := by
  rw [Bool.eq_iff_iff]
  simp [isTruthy]

theorem isTruthy_ofText? (s? : Option String) :
    (ofText? s?).isTruthy = decide (s?.getD "" ≠ "") := by
  cases s? with
  | none => simp [ofText?, isTruthy]
  | some s => simpa [ofText?] using isTruthy_str s

end Value

end RingScan

import Wasm.Machine.Trap
import Wasm.Syntax.FloatBits

/-!
# Values

A value is a number together with its type.
-/

namespace Wasm

/-- The numbers of a type. -/
abbrev ValueType.Number : ValueType → Type
  | .i32 => Int32
  | .i64 => Int64
  | .f32 => Binary32
  | .f64 => Binary64

/-- A number of one of the four types. -/
inductive Value where
  | i32 (number : Int32)
  | i64 (number : Int64)
  | f32 (number : Binary32)
  | f64 (number : Binary64)
deriving DecidableEq, Repr

namespace Value

/-- The type of a value. -/
def type : Value → ValueType
  | .i32 _ => .i32
  | .i64 _ => .i64
  | .f32 _ => .f32
  | .f64 _ => .f64

/-- The value of a number. -/
def ofNumber : (type : ValueType) → type.Number → Value
  | .i32, number => .i32 number
  | .i64, number => .i64 number
  | .f32, number => .f32 number
  | .f64, number => .f64 number

/-- The number of a value that has the expected type. -/
def number : (expected : ValueType) → Value → Except Trap expected.Number
  | .i32, .i32 number => .ok number
  | .i64, .i64 number => .ok number
  | .f32, .f32 number => .ok number
  | .f64, .f64 number => .ok number
  | expected, value => .error (.typeMismatch expected value.type)

/-- The zero of a type, which is the initial value of a local. -/
def zero : ValueType → Value
  | .i32 => .i32 0
  | .i64 => .i64 0
  | .f32 => .f32 ⟨0⟩
  | .f64 => .f64 ⟨0⟩

/-- A truth value is the number one or zero. -/
def ofBool (truth : Bool) : Value :=
  .i32 (if truth then 1 else 0)

/-- The condition that a value stands for: whether it is not zero.  Only `i32`
values are conditions; the instruction that asks is named in the trap. -/
def condition (value : Value) (instruction : String) : Except Trap Bool :=
  match value with
  | .i32 number => .ok (number != 0)
  | other => .error (.invalidOperand other.type instruction)

/-- Whether two values are the same number of the same type.  Floating-point
numbers are compared as numbers, so a NaN differs from itself. -/
def equal : Value → Value → Bool
  | .i32 left, .i32 right => left == right
  | .i64 left, .i64 right => left == right
  | .f32 left, .f32 right => left.equal right
  | .f64 left, .f64 right => left.equal right
  | _, _ => false

/-- A value of the expected type gives its number. -/
theorem number_eq_ok_iff {expected : ValueType} {value : Value}
    {result : expected.Number} :
    value.number expected = .ok result ↔ value = ofNumber expected result := by
  cases expected <;> cases value <;> simp [number, ofNumber]

/-- The zero of a type has that type. -/
@[simp]
theorem type_zero (type : ValueType) : (zero type).type = type := by
  cases type <;> rfl

end Value

end Wasm

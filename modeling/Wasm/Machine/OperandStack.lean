import Wasm.Machine.Value

/-!
# Operand stack

Values are pushed and popped at the top, and a pop names the types it expects.
An operation that fails yields no stack, so the caller still holds the one it
had.
-/

namespace Wasm

/-- A stack of values. -/
structure OperandStack where
  /-- The values, the top one first. -/
  values : List Value
deriving DecidableEq, Repr

namespace OperandStack

/-- The stack without values. -/
def empty : OperandStack :=
  ⟨[]⟩

/-- The values from the bottom to the top. -/
def toList (stack : OperandStack) : List Value :=
  stack.values.reverse

/-- Number of values on the stack. -/
def size (stack : OperandStack) : Nat :=
  stack.values.length

/-- Whether there is no value on the stack. -/
def isEmpty (stack : OperandStack) : Bool :=
  stack.values.isEmpty

/-- Puts a value on top. -/
def push (stack : OperandStack) (value : Value) : OperandStack :=
  ⟨value :: stack.values⟩

/-- Takes the top value, which has to have the expected type. -/
def popValue (stack : OperandStack) (expected : ValueType) :
    Except Trap (Value × OperandStack) :=
  match stack.values with
  | [] => .error (.missingOperand expected 0)
  | value :: values =>
      if value.type = expected then
        .ok (value, ⟨values⟩)
      else
        .error (.typeMismatch expected value.type)

/-- Takes the number on top, which has to have the expected type. -/
def pop (stack : OperandStack) (expected : ValueType) :
    Except Trap (expected.Number × OperandStack) := do
  let (value, rest) ← stack.popValue expected
  let number ← value.number expected
  pure (number, rest)

/-- Splits values of the expected types off a list.  Of both lists the topmost
comes first, and `depth` values have been matched before. -/
def splitTypes (depth : Nat) :
    List ValueType → List Value → Except Trap (List Value × List Value)
  | [], values => .ok ([], values)
  | expected :: _, [] => .error (.missingOperand expected depth)
  | expected :: others, value :: values =>
      if value.type = expected then do
        let (taken, rest) ← splitTypes (depth + 1) others values
        pure (value :: taken, rest)
      else
        .error (.typeMismatch expected value.type)

/-- Takes one value for each expected type, the last type being that of the top
value.  The values are returned from the bottom to the top. -/
def popValues (stack : OperandStack) (expected : List ValueType) :
    Except Trap (List Value × OperandStack) := do
  let (taken, rest) ← splitTypes 0 expected.reverse stack.values
  pure (taken.reverse, ⟨rest⟩)

@[simp]
theorem toList_push (stack : OperandStack) (value : Value) :
    (stack.push value).toList = stack.toList ++ [value] := by
  simp [push, toList]

end OperandStack

end Wasm

import Wasm.Syntax.Index
import Wasm.Syntax.ValueType

/-!
# Traps

A trap is the reason why an operation on values, locals or globals cannot be
carried out.
-/

namespace Wasm

/-- Why execution cannot go on. -/
inductive Trap where
  /-- A place that is never reached was reached. -/
  | unreachable
  /-- A value has another type than the place asks for. -/
  | typeMismatch (expected actual : ValueType)
  /-- The stack ends where a value is needed.  The depth is the number of values
  that were found above it. -/
  | missingOperand (expected : ValueType) (depth : Nat)
  /-- There is no local with the index. -/
  | localOutOfRange (index : LocalIndex)
  /-- There is no global with the index. -/
  | globalOutOfRange (index : GlobalIndex)
  /-- The global with the index may not be written. -/
  | globalImmutable (index : GlobalIndex)
  /-- An instruction does not work on values of the type. -/
  | invalidOperand (actual : ValueType) (instruction : String)
deriving DecidableEq, Repr

namespace Trap

/-- Text of a trap. -/
def message : Trap → String
  | .unreachable => "unreachable executed"
  | .typeMismatch expected actual =>
      "type mismatch: expected " ++ expected.name ++ ", found " ++ actual.name
  | .missingOperand expected depth =>
      "expected " ++ expected.name ++
        " on the stack, found nothing at depth " ++ depth.repr
  | .localOutOfRange index =>
      "local index " ++ index.toNat.repr ++ " out of range"
  | .globalOutOfRange index =>
      "global index " ++ index.toNat.repr ++ " out of range"
  | .globalImmutable index => "global " ++ index.toNat.repr ++ " is immutable"
  | .invalidOperand actual instruction =>
      instruction ++ " cannot operate on " ++ actual.name

end Trap

end Wasm

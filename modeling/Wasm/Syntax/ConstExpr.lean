import Wasm.Syntax.FloatBits
import Wasm.Syntax.Index

/-!
# Constant expressions

The initial value of a global and the offset of a segment are written as one
constant instruction and an end mark.
-/

namespace Wasm

/-- Operation codes of the instructions that yield a constant. -/
inductive ConstOpcode where
  | globalGet
  | i32Const
  | i64Const
  | f32Const
  | f64Const
deriving DecidableEq, Repr

namespace ConstOpcode

/-- The byte of an operation code. -/
def toByte : ConstOpcode → UInt8
  | .globalGet => 0x23
  | .i32Const => 0x41
  | .i64Const => 0x42
  | .f32Const => 0x43
  | .f64Const => 0x44

/-- The operation code of a byte. -/
def ofByte? (byte : UInt8) : Option ConstOpcode :=
  if byte = 0x23 then some .globalGet
  else if byte = 0x41 then some .i32Const
  else if byte = 0x42 then some .i64Const
  else if byte = 0x43 then some .f32Const
  else if byte = 0x44 then some .f64Const
  else none

theorem ofByte?_eq_some_iff {byte : UInt8} {code : ConstOpcode} :
    ofByte? byte = some code ↔ byte = code.toByte := by
  cases code <;> grind [ofByte?, toByte]

end ConstOpcode

/-- Operation codes that may stand in a constant expression. -/
inductive Opcode where
  /-- The end mark. -/
  | finish
  /-- An instruction that yields a constant. -/
  | constant (code : ConstOpcode)
deriving DecidableEq, Repr

namespace Opcode

/-- The byte of an operation code. -/
def toByte : Opcode → UInt8
  | .finish => 0x0B
  | .constant code => code.toByte

/-- The operation code of a byte. -/
def ofByte? (byte : UInt8) : Option Opcode :=
  if byte = 0x0B then some .finish else (ConstOpcode.ofByte? byte).map .constant

end Opcode

/-- A constant, or the value of a global. -/
inductive ConstExpr where
  | globalGet (index : GlobalIndex)
  | i32 (value : Int32)
  | i64 (value : Int64)
  | f32 (value : Binary32)
  | f64 (value : Binary64)
deriving DecidableEq, Repr

end Wasm

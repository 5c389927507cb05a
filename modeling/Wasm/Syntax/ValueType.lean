/-!
# Types of values

The four number types and the single bytes that stand for them.
-/

namespace Wasm

/-- The type of a value. -/
inductive ValueType where
  | i32
  | i64
  | f32
  | f64
deriving DecidableEq, Repr

namespace ValueType

/-- The byte that stands for a type. -/
def toByte : ValueType → UInt8
  | .i32 => 0x7F
  | .i64 => 0x7E
  | .f32 => 0x7D
  | .f64 => 0x7C

/-- The type that a byte stands for. -/
def ofByte? (byte : UInt8) : Option ValueType :=
  if byte = 0x7F then some .i32
  else if byte = 0x7E then some .i64
  else if byte = 0x7D then some .f32
  else if byte = 0x7C then some .f64
  else none

/-- The name of a type in messages. -/
def name : ValueType → String
  | .i32 => "I32"
  | .i64 => "I64"
  | .f32 => "F32"
  | .f64 => "F64"

theorem ofByte?_eq_some_iff {byte : UInt8} {type : ValueType} :
    ofByte? byte = some type ↔ byte = type.toByte := by
  cases type <;> grind [ofByte?, toByte]

end ValueType

/-- The result of a block: nothing, or one value of a type. -/
abbrev ResultType := Option ValueType

end Wasm

import Wasm.Syntax.ValueType

/-!
# Types of functions, tables, memories and globals
-/

namespace Wasm

/-- The parameters and results of a function, in order. -/
structure FunctionType where
  params : List ValueType
  results : List ValueType
deriving DecidableEq, Repr

/-- The sizes that a table or memory may have.  Without a maximum it is not
bounded above. -/
structure Limits where
  min : UInt32
  max : Option UInt32
deriving DecidableEq, Repr

/-- The size of a memory, in pages. -/
abbrev MemoryType := Limits

/-- What a table holds. -/
inductive ElementType where
  | functionReference
deriving DecidableEq, Repr

namespace ElementType

/-- The byte that stands for an element type. -/
def toByte : ElementType → UInt8
  | .functionReference => 0x70

/-- The element type that a byte stands for. -/
def ofByte? (byte : UInt8) : Option ElementType :=
  if byte = 0x70 then some .functionReference else none

theorem ofByte?_eq_some_iff {byte : UInt8} {type : ElementType} :
    ofByte? byte = some type ↔ byte = type.toByte := by
  cases type
  grind [ofByte?, toByte]

end ElementType

/-- The elements and the size of a table. -/
structure TableType where
  element : ElementType
  limits : Limits
deriving DecidableEq, Repr

/-- Whether a global may be written after its initialisation. -/
inductive Mutability where
  | constant
  | variable
deriving DecidableEq, Repr

namespace Mutability

/-- The byte that stands for a mutability. -/
def toByte : Mutability → UInt8
  | .constant => 0x00
  | .variable => 0x01

/-- The mutability that a byte stands for. -/
def ofByte? (byte : UInt8) : Option Mutability :=
  if byte = 0x00 then some .constant
  else if byte = 0x01 then some .variable
  else none

theorem ofByte?_eq_some_iff {byte : UInt8} {mutability : Mutability} :
    ofByte? byte = some mutability ↔ byte = mutability.toByte := by
  cases mutability <;> grind [ofByte?, toByte]

end Mutability

/-- The values that a global holds and whether it may be written. -/
structure GlobalType where
  valueType : ValueType
  mutability : Mutability
deriving DecidableEq, Repr

end Wasm

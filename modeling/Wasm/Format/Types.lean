import Wasm.Decoding.Vector
import Wasm.Syntax.EntityType

/-!
# Binary format of types
-/

namespace Wasm

open Decoder

/-- A value type is one byte. -/
def ValueType.decoder : Decoder ValueType :=
  byteMap ValueType.ofByte?

/-- The byte of a block result: `0x40` for nothing, or a value type. -/
def ResultType.ofByte? (byte : UInt8) : Option ResultType :=
  if byte = 0x40 then some none else (ValueType.ofByte? byte).map some

/-- A block result is one byte. -/
def ResultType.decoder : Decoder ResultType :=
  byteMap ResultType.ofByte?

/-- A function type is the byte `0x60`, the parameters and the results. -/
def FunctionType.decoder : Decoder FunctionType := do
  let _ ← byte 0x60
  let params ← vector ValueType.decoder
  let results ← vector ValueType.decoder
  pure ⟨params, results⟩

/-- The byte that says whether limits have a maximum. -/
def Limits.flag? (byte : UInt8) : Option Bool :=
  if byte = 0x00 then some false
  else if byte = 0x01 then some true
  else none

/-- Limits are a flag, the minimum and, if the flag says so, the maximum. -/
def Limits.decoder : Decoder Limits := do
  let bounded ← byteMap Limits.flag?
  let min ← Leb128.uint32
  if bounded then
    let max ← Leb128.uint32
    pure ⟨min, some max⟩
  else
    pure ⟨min, none⟩

/-- A memory type is its limits. -/
def MemoryType.decoder : Decoder MemoryType :=
  Limits.decoder

/-- A table type is its element type and its limits. -/
def TableType.decoder : Decoder TableType := do
  let element ← byteMap ElementType.ofByte?
  let limits ← Limits.decoder
  pure ⟨element, limits⟩

/-- A global type is its value type and its mutability. -/
def GlobalType.decoder : Decoder GlobalType := do
  let valueType ← ValueType.decoder
  let mutability ← byteMap Mutability.ofByte?
  pure ⟨valueType, mutability⟩

/-- An index is an unsigned 32-bit integer. -/
def Decoder.index : Decoder UInt32 :=
  Leb128.uint32

end Wasm

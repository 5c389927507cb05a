import Wasm.Format.Types
import Wasm.Syntax.ConstExpr

/-!
# Binary format of constant expressions
-/

namespace Wasm

open Decoder

/-- The number that bytes denote, least significant byte first. -/
def littleEndian (bytes : List UInt8) : Nat :=
  bytes.foldr (fun byte higher => byte.toNat + 256 * higher) 0

/-- A 32-bit floating-point number is the four bytes of its pattern. -/
def Binary32.decoder : Decoder Binary32 := do
  let pattern ← take 4
  pure ⟨UInt32.ofNat (littleEndian pattern)⟩

/-- A 64-bit floating-point number is the eight bytes of its pattern. -/
def Binary64.decoder : Decoder Binary64 := do
  let pattern ← take 8
  pure ⟨UInt64.ofNat (littleEndian pattern)⟩

/-- An operation code is one byte. -/
def Opcode.decoder : Decoder Opcode :=
  byteMap Opcode.ofByte?

/-- An instruction that yields a constant: its operation code and its
operand. -/
def ConstExpr.instruction : Decoder ConstExpr := do
  match ← byteMap ConstOpcode.ofByte? with
  | .globalGet => ConstExpr.globalGet <$> index
  | .i32Const => ConstExpr.i32 <$> Leb128.sint32
  | .i64Const => ConstExpr.i64 <$> Leb128.sint64
  | .f32Const => ConstExpr.f32 <$> Binary32.decoder
  | .f64Const => ConstExpr.f64 <$> Binary64.decoder

/-- A constant expression is one instruction and an end mark.  An end mark in
the place of the instruction is an error, because it yields no value. -/
def ConstExpr.decoder : Decoder ConstExpr := do
  let expression ← ConstExpr.instruction
  let _ ← byte Opcode.finish.toByte
  pure expression

end Wasm

import Wasm.Decoding.Leb128.Wrapping
import Wasm.Format.ConstExpr

/-!
# Decoders composed of primitives

`Composed` decoders are the primitives of the binary format and whatever the
combinators make of them in finitely many steps.  What is proved by induction
over `Composed` holds of every decoder that a user of the combinators can write.
-/

namespace Wasm.Decoder

variable {α β : Type}

/-- Runs two decoders one after the other and keeps both values. -/
def pair (first : Decoder α) (second : Decoder β) : Decoder (α × β) := do
  let left ← first
  let right ← second
  pure (left, right)

/-- Runs two decoders one after the other and keeps the second value. -/
def preceded (first : Decoder α) (second : Decoder β) : Decoder β := do
  let _ ← first
  second

/-- The decoders that others are composed of.  None of them returns a
position. -/
inductive Elementary : {α : Type} → Decoder α → Prop where
  -- bytes
  | byte (expected : UInt8) : Elementary (byte expected)
  | byteIn (range : ByteRange) : Elementary (byteIn range)
  | byteAmong (set : List UInt8) : Elementary (byteAmong set)
  | byteMap {α : Type} (read : UInt8 → Option α) : Elementary (byteMap read)
  | bytes (expected : List UInt8) : Elementary (bytes expected)
  | take (count : UInt32) : Elementary (take count)
  -- numbers
  | uint (bits : Nat) : Elementary (Leb128.uint bits)
  | sint (bits : Nat) : Elementary (Leb128.sint bits)
  | int (bits : Nat) : Elementary (Leb128.int bits)
  | uint32 : Elementary Leb128.uint32
  | sint32 : Elementary Leb128.sint32
  | sint64 : Elementary Leb128.sint64
  | binary32 : Elementary Binary32.decoder
  | binary64 : Elementary Binary64.decoder
  -- types and expressions
  | name : Elementary name
  | byteVector : Elementary byteVector
  | valueType : Elementary ValueType.decoder
  | resultType : Elementary ResultType.decoder
  | functionType : Elementary FunctionType.decoder
  | limits : Elementary Limits.decoder
  | memoryType : Elementary MemoryType.decoder
  | tableType : Elementary TableType.decoder
  | globalType : Elementary GlobalType.decoder
  | index : Elementary index
  | constExpr : Elementary ConstExpr.decoder

/-- The primitives, the windows, and what the combinators make of them. -/
inductive Composed : {α : Type} → Decoder α → Prop where
  | elementary {α : Type} {decoder : Decoder α} :
      Elementary decoder → Composed decoder
  | window (count : UInt32) : Composed (window count)
  | nonemptyVector {α : Type} {element : Decoder α} :
      Composed element → Composed element.nonemptyVector
  | vector {α : Type} {element : Decoder α} :
      Composed element → Composed element.vector
  | pair {α β : Type} {first : Decoder α} {second : Decoder β} :
      Composed first → Composed second → Composed (first.pair second)
  | preceded {α β : Type} {first : Decoder α} {second : Decoder β} :
      Composed first → Composed second → Composed (first.preceded second)
  | alternative {α : Type} {first second : Decoder α} :
      Composed first → Composed second → Composed (first.alternative second)
  | map {α β : Type} {decoder : Decoder α} (convert : α → β) :
      Composed decoder → Composed (convert <$> decoder)
  | exhaust {α : Type} {decoder : Decoder α} :
      Composed decoder → Composed decoder.exhaust
  | commit {α : Type} {decoder : Decoder α} :
      Composed decoder → Composed decoder.commit
  | within {α : Type} (count : UInt32) {decoder : Decoder α} :
      Composed decoder → Composed (within count decoder)

end Wasm.Decoder

import Wasm.Decoding.Vector
import Wasm.Proofs.Guarded.Integers
import Wasm.Proofs.Utf8

/-!
# Decoders that can be run guarded

A plan says how a decoder is composed of the primitives and combinators.  By its
plan a decoder can be carried out on a buffer, with every step guarded.
-/

namespace Wasm

/-! ## Primitives -/

namespace Guarded

variable {α : Type}

/-- The value of a step that was guarded. -/
def require (step : Except Fault α) : Guarded α :=
  fun buffer =>
    match step with
    | .error fault => .error fault
    | .ok value => .ok (.ok (value, buffer))

/-- Fails without a fault. -/
def fail (failure : Failure) : Guarded α :=
  fun _ => .ok (.error failure)

/-- Reads one byte that `read` gives a meaning. -/
def byteMap (read : UInt8 → Option α) : Guarded α :=
  fun buffer =>
    match buffer.next? with
    | none => .ok (.error (.recoverable .unexpectedEnd))
    | some byte =>
        match read byte with
        | some value => .ok (.ok (value, buffer.advanced))
        | none => .ok (.error (.recoverable (.unexpected byte buffer.position)))

/-- Reads the expected bytes one after the other. -/
def skipBytes : List UInt8 → Guarded Unit
  | [] => pure ()
  | expected :: others => do
      let _ ← byteMap fun byte => if byte == expected then some byte else none
      skipBytes others

/-- Reads the expected bytes and returns them as they stand in the buffer. -/
def bytes (expected : List UInt8) : Guarded (List UInt8) := do
  let start ← get
  skipBytes expected
  let raw ← require start.remaining
  require (Buffer.prefixOf raw expected.length)

/-- Splits off the next `count` bytes as a buffer of their own. -/
def splitOff (count : UInt32) : Guarded Buffer :=
  fun buffer =>
    match buffer.splitAt? count.toNat with
    | .error fault => .error fault
    | .ok none => .ok (.error (.recoverable .unexpectedEnd))
    | .ok (some parts) => .ok (.ok parts)

/-- Splits off the next `count` bytes as a window. -/
def window (count : UInt32) : Guarded ByteCursor := do
  let part ← splitOff count
  let raw ← require part.remaining
  pure ⟨part.position, raw⟩

/-- The bytes, if there is the number of them that a copy needs. -/
def copyOf (bytes : List UInt8) (count : Nat) : Except Fault (List UInt8) :=
  if bytes.length = count then .ok bytes else .error .copy

/-- Reads the next `count` bytes and copies them. -/
def take (count : UInt32) : Guarded (List UInt8) := do
  let part ← splitOff count
  let raw ← require part.remaining
  require (copyOf raw count.toNat)

/-- A length in 32 bits. -/
def narrowLength (length : Nat) : Except Fault UInt32 :=
  if length < 0x100000000 then .ok (UInt32.ofNat length) else .error .truncation

/-- Reads as many bytes as remain. -/
def takeRest : Guarded (List UInt8) := do
  let buffer ← get
  let raw ← require buffer.remaining
  let count ← require (narrowLength raw.length)
  take count

/-- The byte at an index. -/
def byteAt (bytes : List UInt8) (index : Nat) : Except Fault UInt8 :=
  match bytes[index]? with
  | none => .error .index
  | some byte => .ok byte

/-- Reads text of a given length.  Text that is not well formed is an error at
the byte behind its valid part. -/
def text (count : UInt32) : Guarded String := do
  let part ← splitOff count
  let raw ← require part.remaining
  match Utf8.decode raw with
  | (characters, []) => pure (String.ofList characters)
  | (characters, _ :: _) =>
      let valid := (Utf8.encode characters).length
      let byte ← require (byteAt raw valid)
      fail (.recoverable (.unexpected byte (part.position + valid)))

/-- Runs a decoder that has to read its whole buffer. -/
def exhaust (inside : Guarded α) : Guarded α := do
  let value ← inside
  let buffer ← get
  let left ← require buffer.inputLength
  if left = 0 then
    pure value
  else
    fail (.recoverable buffer.error)

/-- Runs a decoder on the next `count` bytes, all of which it has to read. -/
def within (count : UInt32) (inside : Guarded α) : Guarded α := do
  let part ← splitOff count
  fun rest =>
    match exhaust inside part with
    | .error fault => .error fault
    | .ok (.error failure) => .ok (.error failure)
    | .ok (.ok (value, _)) => .ok (.ok (value, rest))

/-- Tries a second decoder when the first one fails and leaves alternatives
open. -/
def alternative (first second : Guarded α) : Guarded α :=
  fun buffer =>
    match first buffer with
    | .ok (.error (.recoverable _)) => second buffer
    | outcome => outcome

/-- Leaves no alternative to a failing decoder. -/
def commit (inside : Guarded α) : Guarded α :=
  fun buffer =>
    match inside buffer with
    | .ok (.error failure) => .ok (.error failure.committed)
    | outcome => outcome

end Guarded

/-! ## Plans -/

/-- Reads text of a given length, as a name does behind its length. -/
def Decoder.text (count : UInt32) : Decoder String := do
  let part ← Decoder.window count
  match Utf8.decode part.rest with
  | (characters, []) => pure (String.ofList characters)
  | (_, byte :: remaining) =>
      Decoder.reject
        (.unexpected byte
          (part.position + part.rest.length - (remaining.length + 1)))

/-- Where a plan may be carried out. -/
inductive Scope where
  | anywhere
  /-- In a window, whose size is written in 32 bits. -/
  | window
deriving DecidableEq

/-- A buffer on which a plan may be carried out. -/
def Scope.Admits (scope : Scope) (buffer : Buffer) : Prop :=
  buffer.Valid ∧ (scope = .window → buffer.cursor.rest.length < 0x100000000)

/-- How a decoder is composed of steps that can be guarded. -/
inductive Plan : Scope → {α : Type} → Decoder α → Type 1 where
  -- bytes
  | byteMap {scope : Scope} {α : Type} (read : UInt8 → Option α) :
      Plan scope (Decoder.byteMap read)
  | bytes {scope : Scope} (expected : List UInt8) :
      Plan scope (Decoder.bytes expected)
  | window {scope : Scope} (count : UInt32) : Plan scope (Decoder.window count)
  | take {scope : Scope} (count : UInt32) : Plan scope (Decoder.take count)
  /-- What remains of a window, whose length fits in 32 bits. -/
  | takeRest : Plan .window Decoder.takeRest
  -- numbers and text
  | bounded {scope : Scope} (width : Nat) (signed : Bool) (positive : 0 < width)
      (narrow : width ≤ 64) : Plan scope (Leb128.bounded width signed)
  | wrapping {scope : Scope} (rule : Leb128.SignRule) (bits : Nat) :
      Plan scope (Leb128.wrapping rule bits)
  | text {scope : Scope} (count : UInt32) : Plan scope (Decoder.text count)
  -- sequences
  | pure {scope : Scope} {α : Type} (value : α) : Plan scope (pure value)
  | bind {scope : Scope} {α β : Type} {first : Decoder α}
      {second : α → Decoder β} :
      Plan scope first → (∀ value, Plan scope (second value)) →
        Plan scope (first >>= second)
  | reject {scope : Scope} {α : Type} (error : DecodeError) :
      Plan scope (Decoder.reject error : Decoder α)
  /-- A decoder that knows its place and the error for what stands there. -/
  | placed {scope : Scope} {α : Type} {inside : Nat → DecodeError → Decoder α} :
      (∀ position error, Plan scope (inside position error)) →
        Plan scope fun cursor =>
          inside cursor.position (.atCursor cursor) cursor
  -- windows and alternatives
  | exhaust {scope : Scope} {α : Type} {inside : Decoder α} :
      Plan scope inside → Plan scope inside.exhaust
  | within {scope : Scope} {α : Type} (count : UInt32) {inside : Decoder α} :
      Plan .window inside → Plan scope (Decoder.within count inside)
  | alternative {scope : Scope} {α : Type} {first second : Decoder α} :
      Plan scope first → Plan scope second →
        Plan scope (first.alternative second)
  | commit {scope : Scope} {α : Type} {inside : Decoder α} :
      Plan scope inside → Plan scope inside.commit

/-- A decoder carried out on a buffer by its plan, with every step guarded. -/
def Plan.guarded {scope : Scope} {α : Type} {decoder : Decoder α} :
    Plan scope decoder → Guarded α
  | .byteMap read => Guarded.byteMap read
  | .bytes expected => Guarded.bytes expected
  | .window count => Guarded.window count
  | .take count => Guarded.take count
  | .takeRest => Guarded.takeRest
  | .bounded width signed _ _ => Guarded.bounded width signed
  | .wrapping rule bits => Guarded.wrapping rule bits
  | .text count => Guarded.text count
  | .pure value => Pure.pure value
  | .bind first second => first.guarded >>= fun value => (second value).guarded
  | .reject error => Guarded.fail (.recoverable error)
  | .placed inside =>
      fun buffer => (inside buffer.position buffer.error).guarded buffer
  | .exhaust inside => Guarded.exhaust inside.guarded
  | .within count inside => Guarded.within count inside.guarded
  | .alternative first second =>
      Guarded.alternative first.guarded second.guarded
  | .commit inside => Guarded.commit inside.guarded

end Wasm

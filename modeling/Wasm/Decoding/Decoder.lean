import Wasm.Decoding.Failure

/-!
# Decoders

A decoder reads from a cursor and either returns a value with the cursor behind
it or fails.  A failed decoder leaves no trace, so an alternative starts from
the cursor its caller holds.  Every primitive fails at the first byte that does
not match and reports the offset of that byte.
-/

namespace Wasm

/-- Reads a value from a cursor and returns the cursor behind it. -/
abbrev Decoder := StateT ByteCursor (Except Failure)

/-- A range of bytes from an optional least byte to an optional end. -/
structure ByteRange where
  /-- The least byte of the range, if it is bounded below. -/
  least : Option UInt8
  /-- The upper bound of the range, if it has one. -/
  upper : Option UInt8
  /-- Whether the upper bound itself belongs to the range. -/
  closed : Bool

/-- Whether a byte lies in the range. -/
def ByteRange.contains (range : ByteRange) (byte : UInt8) : Bool :=
  range.least.all (· ≤ byte) &&
    range.upper.all fun bound => byte < bound || (range.closed && byte == bound)

namespace Decoder

variable {α : Type}

/-- Runs a decoder on a whole input.  What it leaves unread is not looked at. -/
def decode (decoder : Decoder α) (bytes : List UInt8) :
    Except DecodeError (α × ByteCursor) :=
  (decoder (ByteCursor.ofBytes bytes)).mapError Failure.error

/-- Fails with an error that leaves alternatives open. -/
def reject (error : DecodeError) : Decoder α :=
  fun _ => .error (.recoverable error)

/-- Fails for lack of input. -/
def incomplete : Decoder α :=
  fun _ => .error .incomplete

/-- Reads one byte that `read` gives a meaning. -/
def byteMap (read : UInt8 → Option α) : Decoder α :=
  fun cursor =>
    match cursor.rest with
    | [] => .error (.recoverable .unexpectedEnd)
    | byte :: rest =>
        match read byte with
        | some value => .ok (value, ⟨cursor.position + 1, rest⟩)
        | none => .error (.recoverable (.unexpected byte cursor.position))

/-- Reads one byte that satisfies a test. -/
def byteIf (accepts : UInt8 → Bool) : Decoder UInt8 :=
  byteMap fun byte => if accepts byte then some byte else none

/-- Reads the one byte that is expected. -/
def byte (expected : UInt8) : Decoder UInt8 :=
  byteIf (· == expected)

/-- Reads one byte of a range. -/
def byteIn (range : ByteRange) : Decoder UInt8 :=
  byteIf range.contains

/-- Reads one byte of a set. -/
def byteAmong (set : List UInt8) : Decoder UInt8 :=
  byteIf (set.contains ·)

/-- Reads the expected bytes one after the other and returns them. -/
def bytes : List UInt8 → Decoder (List UInt8)
  | [] => pure []
  | expected :: others => do
      let first ← byte expected
      let rest ← bytes others
      pure (first :: rest)

/-- Splits off the next `count` bytes as a window. -/
def window (count : UInt32) : Decoder ByteCursor :=
  fun cursor =>
    match cursor.splitAt? count.toNat with
    | some parts => .ok parts
    | none => .error (.recoverable .unexpectedEnd)

/-- Reads the next `count` bytes. -/
def take (count : UInt32) : Decoder (List UInt8) := do
  let part ← window count
  pure part.rest

/-- Reads as many bytes as remain, counted in 32 bits. -/
def takeRest : Decoder (List UInt8) := do
  let cursor ← get
  take (UInt32.ofNat cursor.rest.length)

/-- Runs a decoder that has to read its whole window. -/
def exhaust (decoder : Decoder α) : Decoder α := do
  let value ← decoder
  let cursor ← get
  if cursor.isEmpty then
    pure value
  else
    reject (.atCursor cursor)

/-- Runs a decoder on the next `count` bytes, all of which it has to read. -/
def within (count : UInt32) (decoder : Decoder α) : Decoder α := do
  let part ← window count
  match decoder.exhaust part with
  | .ok (value, _) => pure value
  | .error failure => throw failure

/-- Tries a second decoder from the same place when the first one fails and
leaves alternatives open.  The failure of the second is then the answer. -/
def alternative (first second : Decoder α) : Decoder α :=
  fun cursor =>
    match first cursor with
    | .error (.recoverable _) => second cursor
    | outcome => outcome

/-- Leaves no alternative to a failing decoder. -/
def commit (decoder : Decoder α) : Decoder α :=
  fun cursor => (decoder cursor).mapError Failure.committed

/-- Runs a decoder a number of times and collects the values in order.  The
first failure is the answer. -/
def replicate (decoder : Decoder α) : Nat → Decoder (List α)
  | 0 => pure []
  | count + 1 => do
      let first ← decoder
      let others ← decoder.replicate count
      pure (first :: others)

end Decoder

end Wasm

import Wasm.Decoding.Decoder
import Wasm.Decoding.Leb128.Group

/-!
# LEB128 integers of a fixed width

These decoders take no more groups than the width needs, and the last of them
may not carry bits that the integer cannot hold.
-/

namespace Wasm.Leb128

/-- A final group at bit `shift` with the sign extension it asks for. -/
def finalGroup (signed : Bool) (shift : Nat) (byte : UInt8) : UInt64 :=
  if signed && (payload byte).testBit 6 then
    placed shift byte ||| onesFrom (shift + 7)
  else
    placed shift byte

/-- The integer whose group at bit `shift` comes next.  A last permitted group
that announces another one is too long only when a byte does follow. -/
def boundedFrom (width : Nat) (signed : Bool) :
    Nat → Nat → List UInt8 → Except Failure (UInt64 × ByteCursor)
  | _, _, [] => .error (.recoverable .unexpectedEnd)
  | shift, position, byte :: rest =>
      if width ≤ shift + 7 then
        if continues byte then
          if rest.isEmpty then
            .error (.recoverable .unexpectedEnd)
          else
            .error (.recoverable (.unexpected byte position))
        else if fits (payload byte) (width - shift) signed then
          .ok (finalGroup signed shift byte, ⟨position + 1, rest⟩)
        else
          .error (.recoverable (.unexpected byte position))
      else if continues byte then
        (boundedFrom width signed (shift + 7) (position + 1) rest).map
          fun (higher, cursor) => (placed shift byte ||| higher, cursor)
      else
        .ok (finalGroup signed shift byte, ⟨position + 1, rest⟩)

/-- The 64-bit word that an integer of a fixed width denotes. -/
def bounded (width : Nat) (signed : Bool) : Decoder UInt64 :=
  fun cursor => boundedFrom width signed 0 cursor.position cursor.rest

/-- An unsigned 32-bit integer. -/
def uint32 : Decoder UInt32 := do
  let word ← bounded 32 false
  pure word.toUInt32

/-- A signed 32-bit integer. -/
def sint32 : Decoder Int32 := do
  let word ← bounded 32 true
  pure word.toUInt32.toInt32

/-- A signed 64-bit integer. -/
def sint64 : Decoder Int64 := do
  let word ← bounded 64 true
  pure word.toInt64

end Wasm.Leb128

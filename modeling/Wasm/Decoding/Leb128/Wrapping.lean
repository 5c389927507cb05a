import Wasm.Decoding.Decoder
import Wasm.Decoding.Leb128.Group

/-!
# LEB128 integers of any length

These decoders take any number of groups and keep the low 64 bits.  Only widths
of at most seven bits are checked for range, because such an integer is a single
group.
-/

namespace Wasm.Leb128

/-- Which bit of the final group is the sign. -/
inductive SignRule where
  /-- No bit: the integer is unsigned. -/
  | unsigned
  /-- Bit 6 of the final group. -/
  | finalGroup
  /-- The highest bit of the final group that lies below the width, or bit 6
  when the group lies beyond the width. -/
  | belowWidth
deriving DecidableEq, Repr

namespace SignRule

/-- Whether the rule reads signed integers. -/
def isSigned : SignRule → Bool
  | .unsigned => false
  | .finalGroup => true
  | .belowWidth => true

/-- The sign bit within a final group that starts at bit `shift`. -/
def signBit? (rule : SignRule) (width shift : Nat) : Option Nat :=
  match rule with
  | .unsigned => none
  | .finalGroup => some 6
  | .belowWidth => some (if shift < width then min 6 (width - shift - 1) else 6)

/-- The sign extension that a final group at bit `shift` asks for. -/
def extension (rule : SignRule) (width shift : Nat) (byte : UInt8) : UInt64 :=
  match rule.signBit? width shift with
  | none => 0
  | some sign =>
      if (payload byte).testBit sign then onesFrom (shift + sign + 1) else 0

end SignRule

/-- The integer whose group at bit `shift` comes next. -/
def wrappingFrom (rule : SignRule) (width : Nat) :
    Nat → Nat → List UInt8 → Except Failure (UInt64 × ByteCursor)
  | _, _, [] => .error (.recoverable .unexpectedEnd)
  | shift, position, byte :: rest =>
      if continues byte then
        (wrappingFrom rule width (shift + 7) (position + 1) rest).map
          fun (higher, cursor) => (placed shift byte ||| higher, cursor)
      else
        .ok (placed shift byte ||| rule.extension width shift byte,
          ⟨position + 1, rest⟩)

/-- An integer of at most seven bits, which is one group whose payload fits. -/
def singleGroup (width : Nat) (signed : Bool) : Decoder UInt64 :=
  Decoder.byteMap fun byte =>
    if continues byte || !fits (payload byte) width signed then
      none
    else if signed && (payload byte).testBit 6 then
      some (placed 0 byte ||| onesFrom 7)
    else
      some (placed 0 byte)

/-- The 64-bit word that an integer of the given width denotes.  Widths above 64
are read as 64. -/
def wrapping (rule : SignRule) (bits : Nat) : Decoder UInt64 :=
  let width := min bits 64
  if width ≤ 7 then
    singleGroup width rule.isSigned
  else
    fun cursor => wrappingFrom rule width 0 cursor.position cursor.rest

/-- An unsigned integer of any length. -/
def uint (bits : Nat) : Decoder UInt64 :=
  wrapping .unsigned bits

/-- A signed integer of any length, extended from bit 6 of its final group. -/
def sint (bits : Nat) : Decoder Int64 := do
  let word ← wrapping .finalGroup bits
  pure word.toInt64

/-- An integer of any length without a declared signedness, extended from the
highest bit of its final group that lies below the width. -/
def int (bits : Nat) : Decoder Int64 := do
  let word ← wrapping .belowWidth bits
  pure word.toInt64

end Wasm.Leb128

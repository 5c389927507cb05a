/-!
# Groups of a LEB128 integer

A LEB128 integer is a sequence of bytes, each of which carries seven bits, least
significant group first.  Bit 7 says that another group follows.
-/

namespace Wasm.Leb128

/-- The seven bits that a byte carries. -/
def payload (byte : UInt8) : Nat :=
  byte.toNat % 128

/-- Whether another group follows. -/
def continues (byte : UInt8) : Bool :=
  128 ≤ byte.toNat

/-- The payload of a byte moved to its place in a 64-bit word.  Bits beyond the
word are lost. -/
def placed (shift : Nat) (byte : UInt8) : UInt64 :=
  if shift < 64 then UInt64.ofNat (payload byte) <<< UInt64.ofNat shift else 0

/-- The 64-bit word with all bits from `start` upwards set. -/
def onesFrom (start : Nat) : UInt64 :=
  if start < 64 then (0xFFFFFFFFFFFFFFFF : UInt64) <<< UInt64.ofNat start else 0

/-- Whether seven bits hold a number of the given width.  Of an unsigned number
the bits beyond the width are clear; of a signed one all bits from the width's
sign bit upwards are equal. -/
def fits (payload width : Nat) (signed : Bool) : Bool :=
  if 7 ≤ width then
    true
  else if width = 0 then
    payload == 0
  else if signed then
    payload >>> (width - 1) == 0 ||
      payload >>> (width - 1) == 127 >>> (width - 1)
  else
    payload >>> width == 0

end Wasm.Leb128

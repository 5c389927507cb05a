/-!
# Floating-point numbers as bit patterns

A number is kept as its bit pattern, so the payload of a NaN survives.
Comparison follows the number that the pattern denotes: a NaN differs from
itself, and the two zeros are equal.
-/

namespace Wasm

/-- How the fields of a binary floating-point pattern are laid out: one sign
bit, then the exponent, then the fraction. -/
structure FloatFormat where
  exponentWidth : Nat
  fractionWidth : Nat

namespace FloatFormat

/-- The 32-bit format. -/
def single : FloatFormat :=
  ⟨8, 23⟩

/-- The 64-bit format. -/
def double : FloatFormat :=
  ⟨11, 52⟩

end FloatFormat

/-- The number that a bit pattern denotes. -/
inductive FloatClass where
  /-- Not a number. -/
  | nan
  /-- An infinity. -/
  | infinity (negative : Bool)
  /-- The number `significand * 2 ^ exponent`.  `narrow` says that the gap to
  the next smaller magnitude is half the gap to the next larger one. -/
  | finite (negative : Bool) (significand : Nat) (exponent : Int)
      (narrow : Bool)
deriving DecidableEq, Repr

namespace FloatClass

/-- Whether two classes denote the same number.  Nothing equals a NaN, and a
zero has no sign. -/
def equal : FloatClass → FloatClass → Bool
  | .infinity left, .infinity right => left == right
  | .finite _ 0 _ _, .finite _ 0 _ _ => true
  | .finite leftSign left leftExponent _,
      .finite rightSign right rightExponent _ =>
      leftSign == rightSign && left == right && leftExponent == rightExponent
  | _, _ => false

end FloatClass

namespace FloatFormat

/-- The number that the low bits of `bits` denote. -/
def classify (format : FloatFormat) (bits : Nat) : FloatClass :=
  let fraction := bits % (1 <<< format.fractionWidth)
  let exponent := (bits >>> format.fractionWidth) % (1 <<< format.exponentWidth)
  let negative := bits.testBit (format.exponentWidth + format.fractionWidth)
  let least : Int :=
    2 - Int.ofNat (1 <<< (format.exponentWidth - 1)) - format.fractionWidth
  if exponent = 1 <<< format.exponentWidth - 1 then
    if fraction = 0 then .infinity negative else .nan
  else if exponent = 0 then
    .finite negative fraction least false
  else
    .finite negative (1 <<< format.fractionWidth + fraction)
      (least + exponent - 1) (fraction = 0 && 1 < exponent)

end FloatFormat

/-- A 32-bit floating-point number. -/
structure Binary32 where
  bits : UInt32
deriving DecidableEq, Repr

/-- A 64-bit floating-point number. -/
structure Binary64 where
  bits : UInt64
deriving DecidableEq, Repr

namespace Binary32

/-- The number that the pattern denotes. -/
def classify (number : Binary32) : FloatClass :=
  FloatFormat.single.classify number.bits.toNat

/-- Comparison of the numbers denoted. -/
def equal (left right : Binary32) : Bool :=
  left.classify.equal right.classify

end Binary32

namespace Binary64

/-- The number that the pattern denotes. -/
def classify (number : Binary64) : FloatClass :=
  FloatFormat.double.classify number.bits.toNat

/-- Comparison of the numbers denoted. -/
def equal (left right : Binary64) : Bool :=
  left.classify.equal right.classify

end Binary64

end Wasm

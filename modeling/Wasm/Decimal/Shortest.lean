/-!
# Shortest decimals

A binary floating-point number stands for all reals that round to it.  The
shortest decimal is the one with the fewest digits among these reals and, of
several, the nearest to the number itself.
-/

namespace Wasm

/-- The number `digits * 10 ^ exponent`. -/
structure Decimal where
  digits : Nat
  exponent : Int
deriving DecidableEq, Repr

namespace Decimal

/-- A positive number with the reals around it that round to it, all three over
the same denominator.  The ends belong to the interval when it is closed. -/
structure Interval where
  low : Nat
  value : Nat
  high : Nat
  denominator : Nat
  closed : Bool
deriving DecidableEq, Repr

namespace Interval

/-- The interval of `significand * 2 ^ exponent`.  Its lower half is half as
wide as the upper one when the number is `narrow`, and its ends round to an even
significand. -/
def ofBinary (significand : Nat) (exponent : Int) (narrow : Bool) : Interval :=
  let scale := 1 <<< (exponent - 2).toNat
  { low := (4 * significand - if narrow then 1 else 2) * scale
    value := 4 * significand * scale
    high := (4 * significand + 2) * scale
    denominator := 1 <<< (2 - exponent).toNat
    closed := significand % 2 == 0 }

/-- The interval in units of `10 ^ exponent`. -/
def inUnits (interval : Interval) (exponent : Int) : Interval :=
  let factor := Nat.pow 10 (-exponent).toNat
  { interval with
    low := interval.low * factor
    value := interval.value * factor
    high := interval.high * factor
    denominator := interval.denominator * Nat.pow 10 exponent.toNat }

/-- Whether a whole number of units lies in the interval. -/
def contains (interval : Interval) (units : Nat) : Bool :=
  let number := units * interval.denominator
  if interval.closed then
    interval.low ≤ number && number ≤ interval.high
  else
    interval.low < number && number < interval.high

/-- The whole number of units nearest to the value, if one of its two neighbours
lies in the interval.  A tie goes up. -/
def nearest? (interval : Interval) : Option Nat :=
  let below := interval.value / interval.denominator
  let remainder := interval.value % interval.denominator
  match interval.contains below, interval.contains (below + 1) with
  | true, true =>
      some (if 2 * remainder < interval.denominator then below else below + 1)
  | true, false => some below
  | false, true => some (below + 1)
  | false, false => none

/-- Number of digits that the value has before the point.  It counts the zeros
behind the point down from zero when the value is less than one tenth. -/
def magnitude (interval : Interval) : Int :=
  let digitCount (number : Nat) : Nat :=
    if number = 0 then 0 else (Nat.toDigits 10 number).length
  if interval.denominator ≤ interval.value then
    digitCount (interval.value / interval.denominator)
  else
    1 - digitCount ((interval.denominator - 1) / interval.value)

end Interval

/-- The same number without zeros at the end of its digits. -/
def stripZeros (digits : Nat) (exponent : Int) : Decimal :=
  if digits = 0 then
    ⟨0, 0⟩
  else if digits % 10 = 0 then
    stripZeros (digits / 10) (exponent + 1)
  else
    ⟨digits, exponent⟩
termination_by digits
decreasing_by omega

/-- The shortest decimal that rounds to a positive number of at most 53 bits,
for which seventeen digits are enough. -/
def shortest (significand : Nat) (exponent : Int) (narrow : Bool) : Decimal :=
  let interval := Interval.ofBinary significand exponent narrow
  let candidate? (count : Nat) : Option Decimal :=
    let unit := interval.magnitude - count
    (interval.inUnits unit).nearest?.map fun units => stripZeros units unit
  ((List.range' 1 17).findSome? candidate?).getD ⟨0, 0⟩

end Decimal

end Wasm

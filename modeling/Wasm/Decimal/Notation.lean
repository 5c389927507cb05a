import Wasm.Decimal.Shortest
import Wasm.Syntax.FloatBits

/-!
# Decimal notation

How floating-point numbers are written: with the fewest digits that read back,
positionally for moderate magnitudes and with an exponent for others.
-/

namespace Wasm

/-- The choices that a notation leaves open. -/
structure DecimalStyle where
  /-- Least exponent of the leading digit that is written positionally. -/
  least : Int
  /-- Greatest exponent of the leading digit that is written positionally. -/
  greatest : Int
  /-- What follows a whole number in positional notation. -/
  wholeMark : String
  /-- What stands between digits and exponent. -/
  exponentMark : String
  nan : String
  infinity : String

namespace DecimalStyle

/-- Digits with a point behind the first of them, unless it is the only one. -/
def pointed : List Char → String
  | [] => ""
  | [digit] => String.ofList [digit]
  | digit :: others => String.ofList (digit :: '.' :: others)

/-- Text of a positive decimal. -/
def decimal (style : DecimalStyle) (number : Decimal) : String :=
  let figures := Nat.toDigits 10 number.digits
  let leading : Int := number.exponent + figures.length - 1
  if style.least ≤ leading && leading ≤ style.greatest then
    if 0 ≤ number.exponent then
      String.ofList (figures ++ List.replicate number.exponent.toNat '0') ++
        style.wholeMark
    else if 0 ≤ leading then
      let whole := leading.toNat + 1
      String.ofList (figures.take whole ++ '.' :: figures.drop whole)
    else
      String.ofList
        ('0' :: '.' :: List.replicate (-leading - 1).toNat '0' ++ figures)
  else
    pointed figures ++ style.exponentMark ++ leading.repr

/-- Text of a floating-point number.  Zero keeps its sign and a NaN has none. -/
def float (style : DecimalStyle) : FloatClass → String
  | .nan => style.nan
  | .infinity negative => (if negative then "-" else "") ++ style.infinity
  | .finite negative significand exponent narrow =>
      (if negative then "-" else "") ++
        if significand = 0 then
          "0" ++ style.wholeMark
        else
          style.decimal (Decimal.shortest significand exponent narrow)

end DecimalStyle

end Wasm

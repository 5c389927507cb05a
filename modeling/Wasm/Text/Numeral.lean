import Wasm.Text.CharClass
import Wasm.Text.Token

/-!
# Numerals

A numeral is decimal, or hexadecimal behind `0x`.  Single underscores may stand
between digits.  Its value is exact; one that does not fit in 64 bits is no
token.
-/

namespace Wasm.Text.Numeral

/-- The digits that a text starts with.  An underscore counts when a digit
follows it. -/
def digits (radix : Nat) : List Char → List Char
  | [] => []
  | character :: rest =>
      if isDigit radix character ||
        (character == '_' && rest.head?.any (isDigit radix)) then
        character :: digits radix rest
      else
        []

/-- The number that digits denote.  Underscores do not count. -/
def value (radix : Nat) (text : List Char) : Nat :=
  (text.filterMap (digitValue? radix)).foldl (fun total digit =>
    total * radix + digit) 0

/-- The radix of the numeral that a text starts with, and what stands before its
digits.  Without a hexadecimal digit behind it, `0x` starts the numeral `0`. -/
def radixMark : List Char → Nat × List Char
  | '0' :: 'x' :: character :: _ =>
      if isDigit 16 character then (16, ['0', 'x']) else (10, [])
  | _ => (10, [])

/-- The numeral that a text starts with. -/
def scan (text : List Char) : Lexeme :=
  let (radix, mark) := radixMark text
  let figures := digits radix (text.drop mark.length)
  let number := value radix figures
  if number < 0x10000000000000000 then
    ⟨.unsigned (UInt64.ofNat number), mark ++ figures⟩
  else
    .unknown (mark ++ figures)

theorem scan_text_ne_nil {character : Char} {rest : List Char}
    (decimal : isDigit 10 character = true) :
    (scan (character :: rest)).text ≠ [] := by
  have text : (scan (character :: rest)).text =
      (radixMark (character :: rest)).2 ++
        digits (radixMark (character :: rest)).1
          ((character :: rest).drop
            (radixMark (character :: rest)).2.length) := by
    unfold scan
    dsimp only
    split <;> rfl
  rw [text]
  unfold radixMark
  split
  · split
    · simp
    · simp [digits, decimal]
  · simp [digits, decimal]

end Wasm.Text.Numeral

/-!
# Classes of characters

Only ASCII characters are blanks, digits or part of an identifier.  Control
characters are the two Unicode ranges of that name.
-/

namespace Wasm.Text

/-- Characters that separate tokens and mean nothing. -/
def isBlank (character : Char) : Bool :=
  character == ' ' || character == '\t' || character == '\n' ||
    character == '\r'

/-- The value of a hexadecimal digit of either case. -/
def hexValue? (character : Char) : Option Nat :=
  if '0' ≤ character && character ≤ '9' then
    some (character.toNat - 48)
  else if 'a' ≤ character && character ≤ 'f' then
    some (character.toNat - 87)
  else if 'A' ≤ character && character ≤ 'F' then
    some (character.toNat - 55)
  else
    none

/-- The value of a digit in a radix of at most sixteen. -/
def digitValue? (radix : Nat) (character : Char) : Option Nat :=
  (hexValue? character).filter (· < radix)

/-- Whether a character is a digit in a radix of at most sixteen. -/
def isDigit (radix : Nat) (character : Char) : Bool :=
  (digitValue? radix character).isSome

/-- Punctuation that may stand in an identifier. -/
def identifierPunctuation : List Char :=
  "!#$%&'*+-./:<=>?@\\^_`|~".toList

/-- Characters of identifiers: letters, digits and some punctuation. -/
def isIdentifier (character : Char) : Bool :=
  character.isAlphanum || identifierPunctuation.contains character

/-- Control characters, which do not stand in a string as themselves. -/
def isControl (character : Char) : Bool :=
  character.toNat ≤ 0x1F || (0x7F ≤ character.toNat && character.toNat ≤ 0x9F)

end Wasm.Text

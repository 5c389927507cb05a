import Wasm.Text.CharClass
import Wasm.Text.Printable

/-!
# Quoted text

Text is shown in double quotes.  Quotes, backslashes and characters that do not
print are escaped, so that the quoted text stays on one line.
-/

namespace Wasm.Text.Quoted

/-- A character as it stands between quotes. -/
def escape (character : Char) : List Char :=
  if character = '"' then ['\\', '"']
  else if character = '\\' then ['\\', '\\']
  else if character = '\n' then ['\\', 'n']
  else if character = '\r' then ['\\', 'r']
  else if character = '\t' then ['\\', 't']
  else if character.toNat = 0 then ['\\', '0']
  else if isControl character || isUnprintable character then
    '\\' :: 'u' :: '{' :: Nat.toDigits 16 character.toNat ++ ['}']
  else [character]

/-- A text in double quotes. -/
def quote (text : String) : String :=
  String.ofList ('"' :: text.toList.flatMap escape ++ ['"'])

end Wasm.Text.Quoted

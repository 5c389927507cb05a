import Wasm.Text.CharClass
import Wasm.Text.Token

/-!
# String literals

A string literal is read one character at a time.  Characters stand for their
UTF-8 bytes, and a backslash starts an escape: a named character, two
hexadecimal digits for one byte, or `\u` and the code of a character in braces.
The digits of a code are counted in a signed number of 32 bits, which wraps
around behind its largest value.
-/

namespace Wasm.Text.StringLiteral

/-- Where the reading of a literal stands between two characters. -/
inductive State where
  /-- Between items. -/
  | plain
  /-- Behind a backslash. -/
  | escape
  /-- Behind a backslash and the first of two hexadecimal digits. -/
  | byte (high : Nat)
  /-- Behind a backslash and a `u`. -/
  | brace
  /-- Within the braces, behind digits that denote `code` and were counted. -/
  | digits (code : Nat) (count : Int32)
deriving DecidableEq, Repr

/-- What a character does to the reading of a literal. -/
inductive Step where
  /-- It ends the literal. -/
  | close
  /-- It may not stand there. -/
  | refuse
  /-- It completes the given bytes, and the reading goes on. -/
  | go (bytes : List UInt8) (next : State)
deriving DecidableEq, Repr

/-- The byte of an escape that names a character. -/
def namedEscape? (character : Char) : Option UInt8 :=
  if character = 't' then some 0x09
  else if character = 'n' then some 0x0A
  else if character = 'r' then some 0x0D
  else if character = '"' then some 0x22
  else if character.toNat = 0x27 then some 0x27
  else if character = '\\' then some 0x5C
  else none

/-- The next step on a hexadecimal digit within braces.  A code of 32 bits or
more is refused at the digit that makes it so. -/
def digitStep (code : Nat) (count : Int32) (character : Char) : Step :=
  match hexValue? character with
  | none => .refuse
  | some digit =>
      if code * 16 + digit < 0x100000000 then
        .go [] (.digits (code * 16 + digit) (count + 1))
      else
        .refuse

/-- The step that the next character makes. -/
def step : State → Char → Step
  | .plain, character =>
      if character = '"' then .close
      else if character = '\\' then .go [] .escape
      else if isControl character then .refuse
      else .go (String.utf8EncodeChar character) .plain
  | .escape, character =>
      match namedEscape? character with
      | some byte => .go [byte] .plain
      | none =>
          if character = 'u' then .go [] .brace
          else
            match hexValue? character with
            | some high => .go [] (.byte high)
            | none => .refuse
  | .byte high, character =>
      match hexValue? character with
      | some low => .go [UInt8.ofNat (high * 16 + low)] .plain
      | none => .refuse
  | .brace, character =>
      if character = '{' then .go [] (.digits 0 0) else .refuse
  | .digits code count, character =>
      if character = '}' ∧ 0 < count then
        if code.isValidChar then
          .go (String.utf8EncodeChar (Char.ofNat code)) .plain
        else
          .refuse
      else if character = '_' ∧ 0 < count then
        .go [] (.digits code count)
      else
        digitStep code count character

/-- Whether the step takes a digit that the count has no room for.  There the
count wraps around, and a checked addition fails. -/
def overflows : State → Char → Bool
  | .digits code count, character =>
      count == Int32.maxValue && digitStep code count character != .refuse
  | _, _ => false

/-- Reads on from a state.  The result is the bytes, or nothing when a character
is refused or the text ends, and the characters that were read. -/
def scanFrom : State → List Char → Option (List UInt8) × List Char
  | _, [] => (none, [])
  | state, character :: rest =>
      match step state character with
      | .close => (some [], [character])
      | .refuse => (none, [character])
      | .go bytes next =>
          let (others, text) := scanFrom next rest
          (others.map (bytes ++ ·), character :: text)

/-- The literal whose opening quote stands before the text. -/
def scan (text : List Char) : Lexeme :=
  match scanFrom .plain text with
  | (some bytes, read) => ⟨.string bytes, '"' :: read⟩
  | (none, read) => .unknown ('"' :: read)

theorem scan_text_ne_nil (text : List Char) : (scan text).text ≠ [] := by
  unfold scan
  split <;> simp [Lexeme.unknown]

end Wasm.Text.StringLiteral

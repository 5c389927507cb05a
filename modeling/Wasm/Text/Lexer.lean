import Wasm.Text.Cursor
import Wasm.Text.Numeral
import Wasm.Text.StringLiteral
import Wasm.Text.Trivia

/-!
# Lexer

Tokens are read one after the other, each behind the trivia before it.  Text
that is no token makes one last token `unknown`, and the lexer stays where it
is.
-/

namespace Wasm

namespace Lexeme

open Text

/-- The lexeme that a text without leading trivia starts with. -/
def first? : List Char → Option Lexeme
  | [] => none
  | '(' :: rest =>
      if rest.head? = some ';' then some (.unknown ('(' :: rest))
      else some ⟨.leftParen, ['(']⟩
  | ')' :: _ => some ⟨.rightParen, [')']⟩
  | '"' :: rest => some (StringLiteral.scan rest)
  | character :: rest =>
      if isDigit 10 character then
        some (Numeral.scan (character :: rest))
      else if isIdentifier character then
        let text := character :: rest.takeWhile isIdentifier
        some ⟨.keyword (String.ofList text), text⟩
      else
        some (.unknown [character])

/-- A lexeme is never empty. -/
theorem text_ne_nil_of_first? {text : List Char} {lexeme : Lexeme}
    (found : first? text = some lexeme) : lexeme.text ≠ [] := by
  unfold first? at found
  split at found
  · cases found
  · split at found
    · cases found
      simp [unknown]
    · cases found
      simp
  · cases found
    simp
  · cases found
    exact StringLiteral.scan_text_ne_nil _
  · split at found
    · rename_i decimal
      cases found
      exact Numeral.scan_text_ne_nil decimal
    · split at found
      · cases found
        simp
      · cases found
        simp [unknown]

end Lexeme

/-- A lexer at some place of its source. -/
structure Lexer where
  cursor : TextCursor
  /-- Whether an unknown token has been read. -/
  halted : Bool
deriving DecidableEq, Repr

namespace Lexer

open Text

/-- Lexer at the start of a source. -/
def ofString (source : String) : Lexer :=
  ⟨TextCursor.ofString source, false⟩

/-- Byte offset of the next character. -/
def position (lexer : Lexer) : Nat :=
  lexer.cursor.position

/-- Reads the next token, if there is one.  At the end of the source the lexer
has passed all trivia. -/
def next (lexer : Lexer) : Option Token × Lexer :=
  if lexer.halted then
    (none, lexer)
  else
    let start := lexer.cursor.pass (Trivia.leading lexer.cursor.rest).length
    match Lexeme.first? start.rest with
    | none => (none, ⟨start, false⟩)
    | some lexeme =>
        (some lexeme.token,
          ⟨start.pass lexeme.text.length, lexeme.token.isUnknown⟩)

/-- Reading a token leaves less text. -/
theorem length_rest_lt_of_next {lexer after : Lexer} {token : Token}
    (step : lexer.next = (some token, after)) :
    after.cursor.rest.length < lexer.cursor.rest.length := by
  unfold next at step
  split at step
  · cases step
  · dsimp only at step
    split at step
    · cases step
    · rename_i lexeme found
      cases step
      have nonempty :=
        List.length_pos_iff.mpr (Lexeme.text_ne_nil_of_first? found)
      have remaining :
          (lexer.cursor.pass (Trivia.leading lexer.cursor.rest).length).rest ≠
            [] := by
        intro atEnd
        rw [atEnd] at found
        cases found
      have positive := List.length_pos_iff.mpr remaining
      simp only [TextCursor.rest_pass, List.length_drop] at positive ⊢
      omega

/-- Reads tokens up to the end.  The result is every token with the position
right behind it, and the lexer that has no more tokens. -/
def run (lexer : Lexer) : List (Token × Nat) × Lexer :=
  match _step : lexer.next with
  | (none, last) => ([], last)
  | (some token, after) =>
      let (tokens, last) := after.run
      ((token, after.position) :: tokens, last)
termination_by lexer.cursor.rest.length
decreasing_by exact length_rest_lt_of_next _step

end Lexer

end Wasm

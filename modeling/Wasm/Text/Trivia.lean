import Wasm.Text.CharClass

/-!
# Blanks and comments

Trivia is what stands between tokens: blanks, comments from `;;` to the end of
the line, and comments from `(;` to the first `;)`.  Comments do not nest, and
one that is not closed is no trivia.
-/

namespace Wasm.Text.Trivia

/-- The text up to and including the first `;)`. -/
def throughBlockEnd? : List Char → Option (List Char)
  | ';' :: ')' :: _ => some [';', ')']
  | character :: rest => (throughBlockEnd? rest).map (character :: ·)
  | [] => none

/-- The blank or comment that a text starts with.  The newline behind a line
comment is not part of it. -/
def piece? : List Char → Option (List Char)
  | ';' :: ';' :: rest => some (';' :: ';' :: rest.takeWhile (· != '\n'))
  | '(' :: ';' :: rest =>
      (throughBlockEnd? rest).map fun body => '(' :: ';' :: body
  | character :: _ => if isBlank character then some [character] else none
  | [] => none

theorem length_drop_piece?_lt {text piece : List Char}
    (found : piece? text = some piece) :
    (text.drop piece.length).length < text.length := by
  have nonempty : piece ≠ [] ∧ text ≠ [] := by
    unfold piece? at found
    split at found
    · cases found
      simp
    · obtain ⟨body, _, rfl⟩ := Option.map_eq_some_iff.mp found
      simp
    · split at found
      · cases found
        simp
      · cases found
    · cases found
  have piecePositive := List.length_pos_iff.mpr nonempty.1
  have textPositive := List.length_pos_iff.mpr nonempty.2
  rw [List.length_drop]
  omega

/-- All the trivia that a text starts with. -/
def leading (text : List Char) : List Char :=
  match _found : piece? text with
  | none => []
  | some piece => piece ++ leading (text.drop piece.length)
termination_by text.length
decreasing_by exact length_drop_piece?_lt _found

end Wasm.Text.Trivia

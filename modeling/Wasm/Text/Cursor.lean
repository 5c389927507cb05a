/-!
# Cursors over text

A cursor stands between two characters of a source.  Its position counts UTF-8
bytes, so it can be compared with offsets into the encoded source.
-/

namespace Wasm

/-- A place in a source text. -/
structure TextCursor where
  /-- Offset of the next character, in UTF-8 bytes from the start. -/
  position : Nat
  /-- Characters before the cursor, the latest first. -/
  passed : List Char
  /-- Characters behind the cursor, in order. -/
  rest : List Char
deriving DecidableEq, Repr

namespace TextCursor

/-- Cursor at the start of a source. -/
def ofString (source : String) : TextCursor :=
  ⟨0, [], source.toList⟩

/-- The next character, which is not passed. -/
def peek? (cursor : TextCursor) : Option Char :=
  cursor.rest.head?

/-- The next character and the cursor behind it. -/
def next? (cursor : TextCursor) : Option (Char × TextCursor) :=
  match cursor.rest with
  | [] => none
  | character :: rest =>
      some (character,
        ⟨cursor.position + character.utf8Size,
          character :: cursor.passed, rest⟩)

/-- The cursor behind the next `count` characters, or at the end of the source
when there are fewer. -/
def pass (cursor : TextCursor) : Nat → TextCursor
  | 0 => cursor
  | count + 1 =>
      match cursor.next? with
      | none => cursor
      | some (_, next) => next.pass count

/-- The characters that end at `position` and start at offset `start`, taken
from `passed`, the latest first, and put before `taken`. -/
def sliceBack? (start : Nat) : Nat → List Char → List Char → Option (List Char)
  | position, taken, [] => if position = start then some taken else none
  | position, taken, character :: passed =>
      if position = start then some taken
      else if position < start then none
      else
        sliceBack? start (position - character.utf8Size)
          (character :: taken) passed

/-- The text from a byte offset to the cursor.  There is none when the offset
lies behind the cursor or within a character. -/
def sliceFrom? (cursor : TextCursor) (start : Nat) : Option String :=
  (sliceBack? start cursor.position [] cursor.passed).map String.ofList

@[simp]
theorem rest_pass (cursor : TextCursor) (count : Nat) :
    (cursor.pass count).rest = cursor.rest.drop count := by
  induction count generalizing cursor with
  | zero => rfl
  | succ count induction =>
      unfold pass next?
      split
      · rename_i atEnd
        split at atEnd
        · rename_i empty
          simp [empty]
        · cases atEnd
      · rename_i step
        split at step
        · cases step
        · rename_i remaining
          cases step
          rw [induction]
          simp [remaining]

end TextCursor

end Wasm

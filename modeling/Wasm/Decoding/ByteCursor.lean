/-!
# Cursors over byte input

A cursor is the offset of the next byte together with the bytes still to be
read.  A window split off from a cursor keeps the absolute offsets, so whatever
is reported while reading the window still points into the whole input.
-/

namespace Wasm

/-- A place in a byte input.  Nothing before `position` is kept, and `rest`
ends where the cursor's window ends. -/
structure ByteCursor where
  /-- Offset of the next byte from the start of the whole input. -/
  position : Nat
  /-- Bytes not yet read, in order. -/
  rest : List UInt8
deriving DecidableEq, Repr

namespace ByteCursor

/-- Cursor at the start of an input. -/
def ofBytes (bytes : List UInt8) : ByteCursor :=
  ⟨0, bytes⟩

/-- The next byte, which stays unread. -/
def peek? (cursor : ByteCursor) : Option UInt8 :=
  cursor.rest.head?

/-- The next byte and the cursor behind it. -/
def next? (cursor : ByteCursor) : Option (UInt8 × ByteCursor) :=
  match cursor.rest with
  | [] => none
  | byte :: rest => some (byte, ⟨cursor.position + 1, rest⟩)

/-- Whether every byte of the window has been read. -/
def isEmpty (cursor : ByteCursor) : Bool :=
  cursor.rest.isEmpty

/-- Number of bytes still to be read. -/
def length (cursor : ByteCursor) : Nat :=
  cursor.rest.length

/-- Splits off a window over the next `count` bytes and returns it with the
cursor behind it, or nothing when fewer bytes remain. -/
def splitAt? (cursor : ByteCursor) (count : Nat) :
    Option (ByteCursor × ByteCursor) :=
  if count ≤ cursor.rest.length then
    some
      (⟨cursor.position, cursor.rest.take count⟩,
        ⟨cursor.position + count, cursor.rest.drop count⟩)
  else
    none

theorem splitAt?_eq_some_iff {cursor window after : ByteCursor} {count : Nat} :
    cursor.splitAt? count = some (window, after) ↔
      count ≤ cursor.rest.length ∧
        window = ⟨cursor.position, cursor.rest.take count⟩ ∧
        after = ⟨cursor.position + count, cursor.rest.drop count⟩ := by
  unfold splitAt?
  split
  · rename_i enough
    simp only [Option.some.injEq, Prod.mk.injEq, enough, true_and]
    constructor
    · rintro ⟨rfl, rfl⟩
      exact ⟨rfl, rfl⟩
    · rintro ⟨rfl, rfl⟩
      exact ⟨rfl, rfl⟩
  · rename_i short
    simp [short]

/-- A window and what follows it are the bytes that were there before. -/
theorem rest_append_rest_of_splitAt? {cursor window after : ByteCursor}
    {count : Nat} (split : cursor.splitAt? count = some (window, after)) :
    window.rest ++ after.rest = cursor.rest := by
  obtain ⟨_, rfl, rfl⟩ := splitAt?_eq_some_iff.mp split
  exact List.take_append_drop count cursor.rest

/-- The cursor behind a window stands at the window's end. -/
theorem position_of_splitAt? {cursor window after : ByteCursor} {count : Nat}
    (split : cursor.splitAt? count = some (window, after)) :
    after.position = window.position + window.rest.length := by
  obtain ⟨enough, rfl, rfl⟩ := splitAt?_eq_some_iff.mp split
  simp [Nat.min_eq_left enough]

end ByteCursor

end Wasm

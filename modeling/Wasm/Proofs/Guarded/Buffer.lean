import Mathlib.Data.List.Basic
import Wasm.Decoding.Decoder

/-!
# Guarded decoding

A decoder can be run on a buffer and an offset into it.  Each slice, difference,
sum, shift and conversion on the way is guarded: where it is not defined,
decoding stops with a fault.  An outcome without a fault is compared with the
outcome of a decoder on a cursor.
-/

namespace Wasm

/-- A step that is not defined. -/
inductive Fault where
  /-- A slice does not lie within its buffer. -/
  | slice
  /-- There is no byte at an index. -/
  | index
  /-- Bytes are copied to a place for another number of bytes. -/
  | copy
  /-- A difference is negative. -/
  | underflow
  /-- A sum does not fit in 32 bits. -/
  | overflow
  /-- A word is shifted by its width or more. -/
  | shift
  /-- A length does not fit in 32 bits. -/
  | truncation
  /-- A loop does not move on. -/
  | stall
deriving DecidableEq, Repr

/-- Bytes and the offset of the next one.  They end where the window ends. -/
structure Buffer where
  bytes : List UInt8
  position : Nat
deriving DecidableEq, Repr

/-- The outcome of guarded decoding. -/
abbrev Outcome (α : Type) := Except Fault (Except Failure (α × Buffer))

/-- Decoding on a buffer with every step guarded. -/
abbrev Guarded := StateT Buffer (ExceptT Failure (Except Fault))

namespace Buffer

/-- The cursor over what is left of a buffer. -/
def cursor (buffer : Buffer) : ByteCursor :=
  ⟨buffer.position, buffer.bytes.drop buffer.position⟩

/-- The offset lies in the buffer or at its end. -/
def Valid (buffer : Buffer) : Prop :=
  buffer.position ≤ buffer.bytes.length

instance (buffer : Buffer) : Decidable buffer.Valid :=
  inferInstanceAs (Decidable (buffer.position ≤ buffer.bytes.length))

/-- The next byte. -/
def next? (buffer : Buffer) : Option UInt8 :=
  buffer.bytes[buffer.position]?

/-- The buffer behind the next byte. -/
def advanced (buffer : Buffer) : Buffer :=
  ⟨buffer.bytes, buffer.position + 1⟩

/-- The error for what stands at the offset. -/
def error (buffer : Buffer) : DecodeError :=
  match buffer.next? with
  | none => .unexpectedEnd
  | some byte => .unexpected byte buffer.position

/-- The bytes from the offset on. -/
def remaining (buffer : Buffer) : Except Fault (List UInt8) :=
  if buffer.position ≤ buffer.bytes.length then
    .ok (buffer.bytes.drop buffer.position)
  else
    .error .slice

/-- The number of bytes from the offset on. -/
def inputLength (buffer : Buffer) : Except Fault Nat :=
  if buffer.position ≤ buffer.bytes.length then
    .ok (buffer.bytes.length - buffer.position)
  else
    .error .underflow

/-- The first bytes of a sequence. -/
def prefixOf (bytes : List UInt8) (count : Nat) : Except Fault (List UInt8) :=
  if count ≤ bytes.length then .ok (bytes.take count) else .error .slice

/-- A window over the next bytes, and the buffer behind it. -/
def splitAt? (buffer : Buffer) (count : Nat) :
    Except Fault (Option (Buffer × Buffer)) :=
  if buffer.bytes.length < buffer.position + count then
    .ok none
  else
    (prefixOf buffer.bytes (buffer.position + count)).map fun front =>
      some (⟨front, buffer.position⟩, ⟨buffer.bytes, buffer.position + count⟩)

variable {buffer : Buffer}

theorem next?_eq (buffer : Buffer) :
    buffer.next? = buffer.cursor.rest.head? := by
  rw [next?, cursor, List.head?_drop]

theorem next?_of_nil (ended : buffer.cursor.rest = []) :
    buffer.next? = none := by
  rw [next?_eq, ended]
  rfl

theorem next?_of_cons {byte : UInt8} {rest : List UInt8}
    (ahead : buffer.cursor.rest = byte :: rest) : buffer.next? = some byte := by
  rw [next?_eq, ahead]
  rfl

theorem cursor_advanced {byte : UInt8} {rest : List UInt8}
    (ahead : buffer.cursor.rest = byte :: rest) :
    buffer.advanced.cursor = ⟨buffer.position + 1, rest⟩ := by
  have tail : (buffer.bytes.drop buffer.position).tail = rest := by
    change buffer.cursor.rest.tail = rest
    rw [ahead]
    rfl
  rw [List.tail_drop] at tail
  rw [cursor, advanced, tail]

theorem valid_advanced {byte : UInt8} {rest : List UInt8}
    (ahead : buffer.cursor.rest = byte :: rest) :
    buffer.advanced.Valid := by
  have length := congrArg List.length ahead
  simp only [cursor, List.length_drop, List.length_cons] at length
  change buffer.position + 1 ≤ buffer.bytes.length
  omega

theorem error_eq (buffer : Buffer) :
    buffer.error = .atCursor buffer.cursor := by
  rw [error, DecodeError.atCursor, next?_eq]
  cases buffer.cursor.rest with
  | nil => rfl
  | cons byte rest => rfl

theorem isEmpty_cursor_iff :
    buffer.cursor.isEmpty = true ↔ buffer.bytes.length ≤ buffer.position := by
  rw [ByteCursor.isEmpty, List.isEmpty_iff]
  exact List.drop_eq_nil_iff

theorem remaining_eq (valid : buffer.Valid) :
    buffer.remaining = .ok buffer.cursor.rest :=
  if_pos valid

theorem inputLength_eq (valid : buffer.Valid) :
    buffer.inputLength = .ok buffer.cursor.rest.length := by
  rw [cursor, List.length_drop]
  exact if_pos valid

theorem prefixOf_eq {bytes : List UInt8} {count : Nat}
    (enough : count ≤ bytes.length) :
    prefixOf bytes count = .ok (bytes.take count) := by
  rw [prefixOf, if_pos enough]

/-- A window starts at the same offset, and what follows it is behind its
end. -/
theorem splitAt?_of_le (valid : buffer.Valid) {count : Nat}
    (enough : count ≤ buffer.cursor.rest.length) :
    ∃ part : Buffer, buffer.splitAt? count =
        .ok (some (part, ⟨buffer.bytes, buffer.position + count⟩)) ∧
      part.Valid ∧ part.position = buffer.position ∧
      part.cursor.rest = buffer.cursor.rest.take count := by
  have inside : buffer.position ≤ buffer.bytes.length := valid
  rw [cursor, List.length_drop] at enough
  have stop : buffer.position + count ≤ buffer.bytes.length := by omega
  refine ⟨⟨buffer.bytes.take (buffer.position + count), buffer.position⟩, ?_,
    ?_, rfl, ?_⟩
  · rw [splitAt?, if_neg (Nat.not_lt.mpr stop), prefixOf_eq stop]
    rfl
  · change buffer.position ≤
      (buffer.bytes.take (buffer.position + count)).length
    rw [List.length_take]
    omega
  · simp only [cursor, List.drop_take, Nat.add_sub_cancel_left]

theorem splitAt?_of_lt {count : Nat}
    (short : buffer.cursor.rest.length < count) :
    buffer.splitAt? count = .ok none := by
  rw [cursor, List.length_drop] at short
  rw [splitAt?, if_pos (by omega)]

end Buffer

/-- The outcome on a buffer has no fault and is the outcome on its cursor.  A
decoder that reads leaves the bytes as they are and does not go back or beyond
their end. -/
inductive Agrees {α : Type} (buffer : Buffer) :
    Outcome α → Except Failure (α × ByteCursor) → Prop where
  | fails (failure : Failure) :
      Agrees buffer (.ok (.error failure)) (.error failure)
  | reads (value : α) {after : Buffer} (same : after.bytes = buffer.bytes)
      (later : buffer.position ≤ after.position) (valid : after.Valid) :
      Agrees buffer (.ok (.ok (value, after))) (.ok (value, after.cursor))

namespace Agrees

variable {α : Type} {buffer after : Buffer} {outcome : Outcome α} {value : α}
  {failure : Failure} {plain : Except Failure (α × ByteCursor)}

theorem ne_fault (agrees : Agrees buffer outcome plain) (fault : Fault) :
    outcome ≠ .error fault := by
  cases agrees with
  | fails failure => exact nofun
  | reads value => exact nofun

theorem eq_of_fails (agrees : Agrees buffer (.ok (.error failure)) plain) :
    plain = .error failure := by
  cases agrees with
  | fails => rfl

theorem eq_of_reads (agrees : Agrees buffer (.ok (.ok (value, after))) plain) :
    plain = .ok (value, after.cursor) ∧ after.Valid := by
  cases agrees with
  | reads _ _ _ valid => exact ⟨rfl, valid⟩

/-- What is read from a later place is read from here. -/
theorem from_earlier {middle : Buffer} (agrees : Agrees middle outcome plain)
    (same : middle.bytes = buffer.bytes)
    (later : buffer.position ≤ middle.position) :
    Agrees buffer outcome plain := by
  cases agrees with
  | fails failure => exact .fails failure
  | reads value sameBehind laterBehind valid =>
      exact .reads value (sameBehind.trans same)
        (Nat.le_trans later laterBehind) valid

end Agrees

end Wasm

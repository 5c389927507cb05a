import Wasm.Machine.Value

/-!
# Frames

A frame holds the locals of a call: the arguments and then the declared locals,
which start as zeros.
-/

namespace Wasm

/-- The locals of a call. -/
structure Frame where
  /-- The locals in the order of their indices. -/
  locals : List Value
deriving DecidableEq, Repr

namespace Frame

/-- The frame of a call with some arguments and declared locals. -/
def ofCall (arguments : List Value) (declared : List ValueType) : Frame :=
  ⟨arguments ++ declared.map Value.zero⟩

/-- The value of a local. -/
def get (frame : Frame) (index : LocalIndex) : Except Trap Value :=
  match frame.locals[index.toNat]? with
  | none => .error (.localOutOfRange index)
  | some value => .ok value

/-- The frame with another value in a local.  A local keeps its type. -/
def set (frame : Frame) (index : LocalIndex) (value : Value) :
    Except Trap Frame :=
  match frame.locals[index.toNat]? with
  | none => .error (.localOutOfRange index)
  | some current =>
      if value.type = current.type then
        .ok ⟨frame.locals.set index.toNat value⟩
      else
        .error (.typeMismatch current.type value.type)

/-- The types of the locals. -/
def types (frame : Frame) : List ValueType :=
  frame.locals.map Value.type

@[simp]
theorem types_ofCall (arguments : List Value) (declared : List ValueType) :
    (ofCall arguments declared).types =
      arguments.map Value.type ++ declared := by
  have zeros : Value.type ∘ Value.zero = id := funext Value.type_zero
  simp [ofCall, types, zeros]

end Frame

end Wasm

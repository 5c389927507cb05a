import Wasm.Decoding.ByteCursor

/-!
# Why decoding fails

`DecodeError` is what a caller is told.  `Failure` adds what a combinator needs
to know: whether another alternative may still be tried.
-/

namespace Wasm

/-- Upper-case hexadecimal text of a byte, always two digits. -/
def hexByte (byte : UInt8) : String :=
  String.ofList ([byte.toNat / 16, byte.toNat % 16].map fun digit =>
    (Nat.digitChar digit).toUpper)

/-- The reason why some bytes are not of the expected form. -/
inductive DecodeError where
  /-- The input ends where another byte is needed. -/
  | unexpectedEnd
  /-- The byte at an offset fits nothing that may stand there. -/
  | unexpected (byte : UInt8) (location : Nat)
  /-- The length written at an offset is not allowed for the vector. -/
  | vectorInvalidLength (length : UInt32) (location : Nat)
deriving DecidableEq, Repr

namespace DecodeError

/-- The error for whatever stands at the cursor. -/
def atCursor (cursor : ByteCursor) : DecodeError :=
  match cursor.rest with
  | [] => .unexpectedEnd
  | byte :: _ => .unexpected byte cursor.position

/-- Text of the error. -/
def message : DecodeError → String
  | .unexpectedEnd => "unexpected end of input"
  | .unexpected byte location =>
      "unexpected byte 0x" ++ hexByte byte ++ " at offset " ++ location.repr
  | .vectorInvalidLength length location =>
      "invalid vector length " ++ length.toNat.repr ++ " at offset " ++
        location.repr

end DecodeError

/-- How a decoder gives up. -/
inductive Failure where
  /-- Another alternative may be tried from the same place. -/
  | recoverable (error : DecodeError)
  /-- No alternative is tried. -/
  | fatal (error : DecodeError)
  /-- More input is needed before anything can be said. -/
  | incomplete
deriving DecidableEq, Repr

namespace Failure

/-- What the caller of a whole decode is told.  Missing input is an input that
ends too early. -/
def error : Failure → DecodeError
  | .recoverable error => error
  | .fatal error => error
  | .incomplete => .unexpectedEnd

/-- The same failure with no alternative left to try. -/
def committed : Failure → Failure
  | .recoverable error => .fatal error
  | .fatal error => .fatal error
  | .incomplete => .incomplete

end Failure

end Wasm

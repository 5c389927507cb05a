import Wasm.Decoding.Leb128.Bounded
import Wasm.Decoding.Utf8

/-!
# Length-prefixed data

Vectors, byte strings and names are written as a 32-bit length and then that
many items.
-/

namespace Wasm.Decoder

variable {α : Type}

/-- A vector of any length. -/
def vector (element : Decoder α) : Decoder (List α) := do
  let length ← Leb128.uint32
  element.replicate length.toNat

/-- A vector with at least one element.  A zero length is an error at the offset
of the length. -/
def nonemptyVector (element : Decoder α) : Decoder (List α) := do
  let start ← get
  let length ← Leb128.uint32
  if length = 0 then
    reject (.vectorInvalidLength length start.position)
  else
    element.replicate length.toNat

/-- A vector of raw bytes. -/
def byteVector : Decoder (List UInt8) := do
  let length ← Leb128.uint32
  take length

/-- A vector of bytes that are UTF-8 text.  The length alone decides how much is
read; text that is not well formed is an error at its first ill-formed
sequence. -/
def name : Decoder String := do
  let length ← Leb128.uint32
  let part ← window length
  match Utf8.decode part.rest with
  | (characters, []) => pure (String.ofList characters)
  | (_, byte :: remaining) =>
      reject (.unexpected byte
        (part.position + part.rest.length - (remaining.length + 1)))

end Wasm.Decoder

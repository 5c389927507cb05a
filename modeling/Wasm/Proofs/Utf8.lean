import Wasm.Decoding.Utf8

/-!
# Decoding UTF-8 text

Decoding splits bytes into the encodings of characters and a remainder that
starts with no encoding.  It is the only such split, so a text is decoded from
its own encoding alone.
-/

namespace Wasm.Utf8

/-- The encoding of a sequence of characters. -/
def encode (characters : List Char) : List UInt8 :=
  characters.flatMap String.utf8EncodeChar

theorem encode_decode_append (bytes : List UInt8) :
    encode (decode bytes).1 ++ (decode bytes).2 = bytes := by
  fun_induction decode bytes with
  | case1 bytes split => rfl
  | case2 bytes character rest split characters remaining decoded induction =>
      rw [decoded] at induction
      have whole := splitChar?_eq_some_iff.mp split
      simp only [encode, List.flatMap_cons, List.append_assoc] at induction ⊢
      rw [induction, whole]

theorem decode_encode_append (characters : List Char) (rest : List UInt8) :
    decode (encode characters ++ rest) =
      (characters ++ (decode rest).1, (decode rest).2) := by
  induction characters with
  | nil => rfl
  | cons character characters induction =>
      have split : splitChar? (encode (character :: characters) ++ rest) =
          some (character, encode characters ++ rest) := by
        apply splitChar?_eq_some_iff.mpr
        simp [encode]
      rw [decode]
      split
      · rename_i none
        rw [split] at none
        cases none
      · rename_i found behind some
        rw [split] at some
        cases some
        rw [induction]
        rfl

/-- Bytes are decoded without a remainder exactly if they are the encoding of
the characters. -/
theorem decode_eq_nil_iff {bytes : List UInt8} {characters : List Char} :
    decode bytes = (characters, []) ↔ bytes = encode characters := by
  constructor
  · intro decoded
    have whole := encode_decode_append bytes
    rw [decoded, List.append_nil] at whole
    exact whole.symm
  · intro equal
    subst equal
    have empty : decode [] = ([], []) := by
      rw [decode]
      split
      · rfl
      · rename_i character rest split
        have impossible := length_lt_of_splitChar? split
        cases impossible
    have decoded := decode_encode_append characters []
    rw [List.append_nil, empty, List.append_nil] at decoded
    exact decoded

end Wasm.Utf8

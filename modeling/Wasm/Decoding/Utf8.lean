/-!
# UTF-8 text

Text is read from bytes one character at a time.  `splitChar?_eq_some_iff` says
that a character is split off exactly when the bytes start with its encoding, so
overlong forms, surrogates and truncated sequences stop the reading where they
begin.
-/

namespace Wasm.Utf8

/-- The character whose encoding the bytes start with, and the bytes behind it.
No encoding is longer than four bytes. -/
def splitChar? (bytes : List UInt8) : Option (Char × List UInt8) :=
  ((bytes.take 4).toByteArray.utf8DecodeChar? 0).map fun character =>
    (character, bytes.drop character.utf8Size)

private theorem decode_take_encode (character : Char) (rest : List UInt8) :
    ((String.utf8EncodeChar character ++
      rest).take 4).toByteArray.utf8DecodeChar? 0 = some character := by
  have short : (String.utf8EncodeChar character).length ≤ 4 := by
    simpa using character.utf8Size_le_four
  rw [List.take_append, List.take_of_length_le short, List.toByteArray_append]
  exact ByteArray.utf8DecodeChar?_utf8EncodeChar_append

private theorem eq_encode_append_of_decode {bytes : List UInt8}
    {character : Char}
    (decoded : bytes.toByteArray.utf8DecodeChar? 0 = some character) :
    bytes = String.utf8EncodeChar character ++
      bytes.drop character.utf8Size := by
  obtain ⟨tail, whole⟩ := ByteArray.exists_of_utf8DecodeChar?_eq_some decoded
  have listed := congrArg (fun array => array.data.toList) whole
  simp at listed
  rw [listed]
  simp

/-- A character is split off exactly when the bytes start with its encoding. -/
theorem splitChar?_eq_some_iff
    {bytes rest : List UInt8} {character : Char} :
    splitChar? bytes = some (character, rest) ↔
      bytes = String.utf8EncodeChar character ++ rest := by
  constructor
  · intro split
    obtain ⟨found, decoded, pair⟩ := Option.map_eq_some_iff.mp split
    obtain ⟨rfl, rfl⟩ := Prod.mk.inj pair
    have front := eq_encode_append_of_decode decoded
    have whole := congrArg (· ++ bytes.drop 4) front
    simp only [List.take_append_drop, List.append_assoc] at whole
    have length : (String.utf8EncodeChar found).length = found.utf8Size := by
      simp
    have dropped := congrArg (List.drop found.utf8Size) whole
    rw [← length, List.drop_left] at dropped
    rw [length] at dropped
    rw [← dropped] at whole
    exact whole
  · rintro rfl
    rw [splitChar?, decode_take_encode]
    simp

/-- Splitting off a character leaves fewer bytes. -/
theorem length_lt_of_splitChar?
    {bytes rest : List UInt8} {character : Char}
    (split : splitChar? bytes = some (character, rest)) :
    rest.length < bytes.length := by
  rw [splitChar?_eq_some_iff.mp split]
  have := character.utf8Size_pos
  simp
  omega

/-- The characters that the bytes start with, as far as they are well formed,
and the bytes from the first ill-formed sequence on. -/
def decode (bytes : List UInt8) : List Char × List UInt8 :=
  match _split : splitChar? bytes with
  | none => ([], bytes)
  | some (character, rest) =>
      let (characters, remaining) := decode rest
      (character :: characters, remaining)
termination_by bytes.length
decreasing_by exact length_lt_of_splitChar? _split

end Wasm.Utf8

import Wasm.Proofs.BinaryGrammar.Recognition
import Wasm.Proofs.Decoding.SelfDelimiting
import Wasm.Proofs.Utf8.Sequences

/-!
# Names

A name is a size and a window of that size, all of which has to be UTF-8 text.
The size is judged first, then whether the window is there, and only then what
it holds.  Text that is not well formed is refused where its first ill-formed
sequence starts.
-/

namespace Wasm.Decoder

open Utf8

variable {cursor : ByteCursor} {size : UInt32}

theorem name_of_size_error {failure : Failure}
    (failed : Leb128.uint32 cursor = .error failure) :
    name cursor = .error failure :=
  bind_of_error failed

theorem name_of_short {after : ByteCursor}
    (sized : Leb128.uint32 cursor = .ok (size, after))
    (short : after.rest.length < size.toNat) :
    name cursor = .error (.recoverable .unexpectedEnd) := by
  rw [name, bind_of_ok sized]
  exact bind_of_error (window_of_short short)

section Window

variable {position : Nat} {part rest : List UInt8} {characters : List Char}
  (sized : Leb128.uint32 cursor = .ok (size, ⟨position, part ++ rest⟩))
  (length : part.length = size.toNat)

include sized length

/-- If the window is there, its bytes decide. -/
theorem name_of_window :
    name cursor = (match Utf8.decode part with
      | (characters, []) => pure (String.ofList characters)
      | (_, byte :: remaining) =>
          reject (.unexpected byte
            (position + part.length - (remaining.length + 1))))
      ⟨position + size.toNat, rest⟩ := by
  have split : window size ⟨position, part ++ rest⟩ =
      .ok (⟨position, part⟩, ⟨position + size.toNat, rest⟩) :=
    window_eq_ok_iff.mpr ⟨length, rfl, rfl, rfl⟩
  rw [name, bind_of_ok sized]
  exact bind_of_ok split

theorem name_of_text (decoded : Utf8.decode part = (characters, [])) :
    name cursor =
      .ok (String.ofList characters, ⟨position + size.toNat, rest⟩) := by
  rw [name_of_window sized length, decoded]
  rfl

theorem name_of_remainder {byte : UInt8} {behind : List UInt8}
    (decoded : Utf8.decode part = (characters, byte :: behind)) :
    name cursor =
      .error (.recoverable
        (.unexpected byte (position + (encode characters).length))) := by
  have whole := congrArg List.length (encode_decode_append part)
  rw [decoded, List.length_append, List.length_cons] at whole
  have place : position + part.length - (behind.length + 1) =
      position + (encode characters).length := by
    rw [← whole, ← Nat.add_assoc, Nat.add_sub_cancel]
  rw [name_of_window sized length, decoded, ← place]
  rfl

theorem name_eq_ok_iff {text : String} {after : ByteCursor} :
    name cursor = .ok (text, after) ↔
      Spells text.toList part ∧ after = ⟨position + size.toNat, rest⟩ := by
  rw [spells_iff, ← decode_eq_nil_iff]
  cases decoded : Utf8.decode part with
  | mk characters remaining =>
      cases remaining with
      | nil =>
          rw [name_of_text sized length decoded]
          constructor
          · intro same
            cases same
            rw [String.toList_ofList]
            exact ⟨rfl, rfl⟩
          · rintro ⟨same, rfl⟩
            cases same
            rw [String.ofList_toList]
      | cons byte behind =>
          rw [name_of_remainder sized length decoded]
          constructor
          · nofun
          · rintro ⟨same, _⟩
            cases same

theorem name_succeeds_iff :
    (∃ result, name cursor = .ok result) ↔ WellFormed part := by
  rw [wellFormed_iff]
  constructor
  · rintro ⟨⟨text, after⟩, read⟩
    obtain ⟨spells, _⟩ := (name_eq_ok_iff sized length).mp read
    exact ⟨text.toList, spells_iff.mp spells⟩
  · rintro ⟨characters, equal⟩
    exact ⟨_, name_of_text sized length (decode_eq_nil_iff.mpr equal)⟩

/-- Text that is not well formed is refused behind its longest well-formed
part. -/
theorem name_of_illFormed (illFormed : ¬ WellFormed part) :
    ∃ valid byte behind, part = valid ++ byte :: behind ∧ WellFormed valid ∧
      (∀ other, other <+: part → WellFormed other →
        other.length ≤ valid.length) ∧
      name cursor =
        .error (.recoverable (.unexpected byte (position + valid.length))) := by
  have whole := encode_decode_append part
  have longest : ∀ other, other <+: part → WellFormed other →
      other.length ≤ (encode (Utf8.decode part).1).length :=
    fun _ start wellFormed => length_le_of_wellFormed start wellFormed
  rw [wellFormed_iff_decode] at illFormed
  cases decoded : Utf8.decode part with
  | mk characters remaining =>
      rw [decoded] at whole longest illFormed
      cases remaining with
      | nil => exact absurd rfl illFormed
      | cons byte behind =>
          exact ⟨encode characters, byte, behind, whole.symm,
            wellFormed_iff.mpr ⟨_, rfl⟩, longest,
            name_of_remainder sized length decoded⟩

end Window

/-- A name is read exactly if its size is, its window is there and the window
holds UTF-8 text.  Otherwise the first of these that is missing is the error;
text that is not well formed is refused behind its longest well-formed part. -/
theorem names_are_exactly_utf8 (cursor : ByteCursor) :
    (∀ failure, Leb128.uint32 cursor = .error failure →
      name cursor = .error failure) ∧
    (∀ size after, Leb128.uint32 cursor = .ok (size, after) →
      after.rest.length < size.toNat →
      name cursor = .error (.recoverable .unexpectedEnd)) ∧
    ∀ size position part rest,
      Leb128.uint32 cursor = .ok (size, ⟨position, part ++ rest⟩) →
        part.length = size.toNat →
        ((∃ result, name cursor = .ok result) ↔ WellFormed part) ∧
        (∀ text after, name cursor = .ok (text, after) ↔
          Spells text.toList part ∧ after = ⟨position + size.toNat, rest⟩) ∧
        (∀ text after, name cursor = .ok (text, after) →
          text.toUTF8 = part.toByteArray) ∧
        (¬ WellFormed part →
          ∃ valid byte behind, part = valid ++ byte :: behind ∧
            WellFormed valid ∧
            (∀ other, other <+: part → WellFormed other →
              other.length ≤ valid.length) ∧
            name cursor =
              .error (.recoverable
                (.unexpected byte (position + valid.length)))) := by
  refine ⟨fun failure => name_of_size_error,
    fun size after => name_of_short, ?_⟩
  intro size position part rest sized length
  refine ⟨name_succeeds_iff sized length,
    fun text after => name_eq_ok_iff sized length, ?_,
    name_of_illFormed sized length⟩
  intro text after read
  obtain ⟨spells, _⟩ := (name_eq_ok_iff sized length).mp read
  have encoded := @String.toByteArray_ofList text.toList
  rw [String.ofList_toList] at encoded
  rw [spells_iff.mp spells, String.toUTF8_eq_toByteArray, encoded]
  rfl

/-- A euro sign is read from its three bytes; a surrogate behind a letter is
refused at its first byte, so its bytes are not UTF-8 text. -/
theorem names_with_euro_sign_and_surrogate :
    name ⟨0, [0x03, 0xE2, 0x82, 0xAC, 0xFF]⟩ = .ok ("€", ⟨4, [0xFF]⟩) ∧
    name ⟨0, [0x04, 0x61, 0xED, 0xA0, 0x80]⟩ =
      .error (.recoverable (.unexpected 0xED 2)) ∧
    ¬ WellFormed [0x61, 0xED, 0xA0, 0x80] := by
  have euro : Sequence '€'.toNat [0xE2, 0x82, 0xAC] :=
    @Sequence.triple 0x2 0x02 0x2C (by decide) (by decide) (by decide)
      (by decide) (by decide)
  obtain ⟨_, _, reads⟩ :=
    names_are_exactly_utf8 ⟨0, [0x03, 0xE2, 0x82, 0xAC, 0xFF]⟩
  obtain ⟨_, text, _⟩ := reads 3 1 [0xE2, 0x82, 0xAC] [0xFF] rfl rfl
  obtain ⟨_, _, refuses⟩ :=
    names_are_exactly_utf8 ⟨0, [0x04, 0x61, 0xED, 0xA0, 0x80]⟩
  obtain ⟨succeeds, _⟩ := refuses 4 1 [0x61, 0xED, 0xA0, 0x80] [] rfl rfl
  have refused : name ⟨0, [0x04, 0x61, 0xED, 0xA0, 0x80]⟩ =
      .error (.recoverable (.unexpected 0xED 2)) := by decide +kernel
  refine ⟨(text _ _).mpr ⟨.cons euro .nil, rfl⟩, refused, ?_⟩
  intro wellFormed
  obtain ⟨result, read⟩ := succeeds.mpr wellFormed
  rw [refused] at read
  cases read

end Wasm.Decoder

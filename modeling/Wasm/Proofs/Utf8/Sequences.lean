import Wasm.Proofs.Utf8

/-!
# Well-formed UTF-8 sequences

A scalar value is written in one to four bytes, which share its bits.  Only the
shortest sequence is well formed, and surrogates have none.  The encoding of a
character is the one sequence of its scalar value, so decoding reads as far as
the bytes are well formed.
-/

namespace Wasm.Utf8

/-- The well-formed sequence of a scalar value. -/
inductive Sequence : Nat → List UInt8 → Prop where
  /-- `0xxxxxxx` -/
  | single {bits : Nat} : bits < 0x80 → Sequence bits [UInt8.ofNat bits]
  /-- `110xxxxx 10xxxxxx` -/
  | double {high low : Nat} :
      high < 0x20 → low < 0x40 → 0x80 ≤ high * 64 + low →
        Sequence (high * 64 + low) [UInt8.ofNat (high + 0xC0),
          UInt8.ofNat (low + 0x80)]
  /-- `1110xxxx 10xxxxxx 10xxxxxx` -/
  | triple {high middle low : Nat} :
      high < 0x10 → middle < 0x40 → low < 0x40 →
      0x800 ≤ (high * 64 + middle) * 64 + low →
      ¬ (0xD800 ≤ (high * 64 + middle) * 64 + low ∧
        (high * 64 + middle) * 64 + low ≤ 0xDFFF) →
        Sequence ((high * 64 + middle) * 64 + low)
          [UInt8.ofNat (high + 0xE0), UInt8.ofNat (middle + 0x80),
            UInt8.ofNat (low + 0x80)]
  /-- `11110xxx 10xxxxxx 10xxxxxx 10xxxxxx` -/
  | quadruple {high upper lower low : Nat} :
      high < 0x08 → upper < 0x40 → lower < 0x40 → low < 0x40 →
      0x10000 ≤ ((high * 64 + upper) * 64 + lower) * 64 + low →
      ((high * 64 + upper) * 64 + lower) * 64 + low ≤ 0x10FFFF →
        Sequence (((high * 64 + upper) * 64 + lower) * 64 + low)
          [UInt8.ofNat (high + 0xF0), UInt8.ofNat (upper + 0x80),
            UInt8.ofNat (lower + 0x80), UInt8.ofNat (low + 0x80)]

theorem Sequence.isValidChar {scalar : Nat} {bytes : List UInt8}
    (sequence : Sequence scalar bytes) : scalar.isValidChar := by
  unfold Nat.isValidChar
  cases sequence with
  | single small => omega
  | double high low least => omega
  | triple high middle low least surrogate => omega
  | quadruple high upper lower low least most => omega

theorem sequence_utf8EncodeChar (character : Char) :
    Sequence character.toNat (String.utf8EncodeChar character) := by
  have valid : character.toNat.isValidChar := character.valid
  unfold Nat.isValidChar at valid
  unfold String.utf8EncodeChar
  rw [Char.toNat_val]
  generalize character.toNat = scalar at valid
  dsimp only
  split
  · exact .single (by omega)
  · split
    · have parts : scalar / 64 % 32 * 64 + scalar % 64 = scalar := by omega
      have sequence := @Sequence.double (scalar / 64 % 32) (scalar % 64)
      rw [parts] at sequence
      exact sequence (by omega) (by omega) (by omega)
    · split
      · have parts :
            (scalar / 4096 % 16 * 64 + scalar / 64 % 64) * 64 + scalar % 64 =
              scalar := by
          omega
        have sequence :=
          @Sequence.triple (scalar / 4096 % 16) (scalar / 64 % 64) (scalar % 64)
        rw [parts] at sequence
        exact sequence (by omega) (by omega) (by omega) (by omega) (by omega)
      · have parts : ((scalar / 262144 % 8 * 64 + scalar / 4096 % 64) * 64 +
            scalar / 64 % 64) * 64 + scalar % 64 = scalar := by
          omega
        have sequence :=
          @Sequence.quadruple (scalar / 262144 % 8) (scalar / 4096 % 64)
            (scalar / 64 % 64) (scalar % 64)
        rw [parts] at sequence
        exact sequence (by omega) (by omega) (by omega) (by omega) (by omega)
          (by omega)

theorem Sequence.eq_utf8EncodeChar {character : Char} {bytes : List UInt8}
    (sequence : Sequence character.toNat bytes) :
    bytes = String.utf8EncodeChar character := by
  unfold String.utf8EncodeChar
  rw [Char.toNat_val]
  generalize character.toNat = scalar at sequence
  dsimp only
  cases sequence with
  | single small => rw [if_pos (by omega)]
  | @double high low highBound lowBound least =>
      have lead : (high * 64 + low) / 64 % 32 = high := by omega
      have last : (high * 64 + low) % 64 = low := by omega
      rw [if_neg (by omega), if_pos (by omega), lead, last]
  | @triple high middle low highBound middleBound lowBound least _ =>
      have lead : ((high * 64 + middle) * 64 + low) / 4096 % 16 = high := by
        omega
      have second : ((high * 64 + middle) * 64 + low) / 64 % 64 = middle := by
        omega
      have last : ((high * 64 + middle) * 64 + low) % 64 = low := by omega
      rw [if_neg (by omega), if_neg (by omega), if_pos (by omega), lead,
        second, last]
  | @quadruple high upper lower low highBound upperBound lowerBound lowBound
      least most =>
      have lead :
          (((high * 64 + upper) * 64 + lower) * 64 + low) / 262144 % 8 =
            high := by omega
      have second :
          (((high * 64 + upper) * 64 + lower) * 64 + low) / 4096 % 64 =
            upper := by omega
      have third :
          (((high * 64 + upper) * 64 + lower) * 64 + low) / 64 % 64 =
            lower := by omega
      have last :
          (((high * 64 + upper) * 64 + lower) * 64 + low) % 64 = low := by omega
      rw [if_neg (by omega), if_neg (by omega), if_neg (by omega), lead,
        second, third, last]

/-- The sequences are the encodings of characters. -/
theorem sequence_iff {scalar : Nat} {bytes : List UInt8} :
    Sequence scalar bytes ↔
      ∃ character : Char, character.toNat = scalar ∧
        bytes = String.utf8EncodeChar character := by
  constructor
  · intro sequence
    refine ⟨Char.ofNatAux scalar sequence.isValidChar, rfl, ?_⟩
    exact Sequence.eq_utf8EncodeChar sequence
  · rintro ⟨character, rfl, rfl⟩
    exact sequence_utf8EncodeChar character

/-! ## Texts -/

/-- The bytes are the sequences of the characters, one after the other. -/
inductive Spells : List Char → List UInt8 → Prop where
  | nil : Spells [] []
  | cons {character : Char} {characters : List Char}
      {sequence bytes : List UInt8} :
      Sequence character.toNat sequence → Spells characters bytes →
        Spells (character :: characters) (sequence ++ bytes)

/-- The bytes are well-formed sequences, one after the other. -/
inductive WellFormed : List UInt8 → Prop where
  | nil : WellFormed []
  | cons {scalar : Nat} {sequence bytes : List UInt8} :
      Sequence scalar sequence → WellFormed bytes →
        WellFormed (sequence ++ bytes)

theorem spells_iff {characters : List Char} {bytes : List UInt8} :
    Spells characters bytes ↔ bytes = encode characters := by
  constructor
  · intro spells
    induction spells with
    | nil => rfl
    | cons sequence _ induction =>
        rw [sequence.eq_utf8EncodeChar, induction]
        rfl
  · rintro rfl
    induction characters with
    | nil => exact .nil
    | cons character characters induction =>
        exact .cons (sequence_utf8EncodeChar character) induction

theorem Spells.wellFormed {characters : List Char} {bytes : List UInt8}
    (spells : Spells characters bytes) : WellFormed bytes := by
  induction spells with
  | nil => exact .nil
  | cons sequence _ induction => exact .cons sequence induction

theorem wellFormed_iff {bytes : List UInt8} :
    WellFormed bytes ↔ ∃ characters, bytes = encode characters := by
  constructor
  · intro wellFormed
    induction wellFormed with
    | nil => exact ⟨[], rfl⟩
    | cons sequence _ induction =>
        obtain ⟨character, _, rfl⟩ := sequence_iff.mp sequence
        obtain ⟨characters, rfl⟩ := induction
        exact ⟨character :: characters, rfl⟩
  · rintro ⟨characters, equal⟩
    exact (spells_iff.mpr equal).wellFormed

/-- Bytes are well formed exactly if nothing of them is left. -/
theorem wellFormed_iff_decode {bytes : List UInt8} :
    WellFormed bytes ↔ (decode bytes).2 = [] := by
  rw [wellFormed_iff]
  constructor
  · rintro ⟨characters, equal⟩
    rw [decode_eq_nil_iff.mpr equal]
  · intro nothing
    exact ⟨(decode bytes).1, decode_eq_nil_iff.mp (Prod.ext rfl nothing)⟩

/-- What is decoded is the longest well-formed part that the bytes start
with. -/
theorem length_le_of_wellFormed {bytes front : List UInt8}
    (start : front <+: bytes) (wellFormed : WellFormed front) :
    front.length ≤ (encode (decode bytes).1).length := by
  obtain ⟨characters, rfl⟩ := wellFormed_iff.mp wellFormed
  obtain ⟨rest, rfl⟩ := start
  rw [decode_encode_append]
  unfold encode
  rw [List.flatMap_append, List.length_append]
  exact Nat.le_add_right _ _

end Wasm.Utf8

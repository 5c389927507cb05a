import Wasm.Proofs.Leb128.Agreement
import Wasm.Proofs.Leb128.GroupSums

/-!
# What the typed decoders answer on every input

The first byte whose highest bit is clear ends an integer.  If it comes before
the last permitted group, the integer is read as it is; at the last permitted
group the range of the type decides; behind it, or without such a byte, the
input is too long or ends too early.  This covers every input, so a typed
decoder is known by its number of groups and its range.
-/

namespace Wasm.Leb128

/-- The exact integer that groups denote: their sum, and if the sign in bit 6 of
the last group of a signed integer is set, less the power of two behind the last
group. -/
def denoted (signed : Bool) (groups : List UInt8) : Int :=
  if signed = true ∧
    groups.getLast?.any (fun byte => byte.toNat.testBit 6) = true then
    groupSum groups - 2 ^ (7 * groups.length)
  else
    groupSum groups

/-- The answers of a decoder that takes at most `groups` groups and whose values
are the integers from `least` up to but not including `bound`. -/
structure ReadsExactly {α : Type} (decoder : Decoder α) (integer : α → Int)
    (signed : Bool) (groups : Nat) (least bound : Int) : Prop where
  /-- Fewer groups than permitted are always in range. -/
  early : ∀ (cursor : ByteCursor) (last : Nat),
    finalIndex? cursor.rest = some last →
    last < groups - 1 →
      ∃ value, integer value = denoted signed (cursor.rest.take (last + 1)) ∧
        decoder cursor =
          .ok (value, ⟨cursor.position + last + 1, cursor.rest.drop (last + 1)⟩)
  /-- With all permitted groups an integer in range is read. -/
  inside : ∀ (cursor : ByteCursor) (last : Nat),
    finalIndex? cursor.rest = some last →
    last = groups - 1 →
    least ≤ denoted signed (cursor.rest.take (last + 1)) →
    denoted signed (cursor.rest.take (last + 1)) < bound →
      ∃ value, integer value = denoted signed (cursor.rest.take (last + 1)) ∧
        decoder cursor =
          .ok (value, ⟨cursor.position + last + 1, cursor.rest.drop (last + 1)⟩)
  /-- With all permitted groups an integer out of range is refused at the last
  one. -/
  outside : ∀ (cursor : ByteCursor) (last : Nat),
    finalIndex? cursor.rest = some last →
    last = groups - 1 →
    ¬(least ≤ denoted signed (cursor.rest.take (last + 1)) ∧
      denoted signed (cursor.rest.take (last + 1)) < bound) →
      Refuses decoder cursor (groups - 1)
  /-- Groups that all announce another one, with nothing behind the permitted
  ones. -/
  ending : ∀ cursor : ByteCursor,
    (∀ byte ∈ cursor.rest.take groups, 128 ≤ byte.toNat) →
    cursor.rest.length ≤ groups →
      decoder cursor = .error (.recoverable .unexpectedEnd)
  /-- Groups that all announce another one, with a byte behind the permitted
  ones. -/
  overlong : ∀ cursor : ByteCursor,
    (∀ byte ∈ cursor.rest.take groups, 128 ≤ byte.toNat) →
    groups < cursor.rest.length →
      Refuses decoder cursor (groups - 1)

theorem testBit_payload {bit : Nat} (low : bit < 7) (byte : UInt8) :
    (payload byte).testBit bit = byte.toNat.testBit bit := by
  have power : payload byte = byte.toNat % 2 ^ 7 := rfl
  rw [power, Nat.testBit_mod_two_pow, decide_eq_true low, Bool.true_and]

theorem Encoding.number_groupSign (encoding : Encoding) (signed : Bool) :
    encoding.number (groupSign signed) = denoted signed encoding.bytes := by
  cases signed with
  | false => exact encoding.number_none
  | true =>
      have last : encoding.bytes.getLast? = some encoding.final :=
        List.getLast?_concat
      have same := testBit_payload (by decide : 6 < 7) encoding.final
      have wide :
          7 * encoding.initial.length + 6 + 1 = 7 * encoding.bytes.length := by
        rw [encoding.length_bytes, length]
        omega
      change encoding.number (some 6) = _
      cases sign : encoding.final.toNat.testBit 6 with
      | false =>
          rw [encoding.number_of_sign_clear (same.trans sign)]
          simp [denoted, last, sign]
      | true =>
          rw [encoding.number_of_sign_set (same.trans sign), wide,
            Nat.mod_eq_of_lt (groupSum_lt encoding.bytes)]
          simp [denoted, last, sign]

namespace FixedWidth

variable {α : Type} (type : FixedWidth α)

/-- Up to the last permitted group an integer is read if the width holds it. -/
theorem reads_of_finalIndex? {cursor : ByteCursor} {last : Nat}
    (found : finalIndex? cursor.rest = some last)
    (permitted : last < type.groups)
    (representable :
      Representable type.signed type.width
        (denoted type.signed (cursor.rest.take (last + 1)))) :
    ∃ value, type.integer value =
      denoted type.signed (cursor.rest.take (last + 1)) ∧
      type.decoder cursor =
        .ok (value,
          ⟨cursor.position + last + 1, cursor.rest.drop (last + 1)⟩) := by
  obtain ⟨encoding, whole, front, rfl⟩ := exists_encoding_of_finalIndex? found
  rw [front, ← encoding.number_groupSign] at representable ⊢
  have room := (type.length_le_groups_iff encoding).mp permitted
  have run := bounded_encoding encoding room representable cursor.position
    (cursor.rest.drop (encoding.initial.length + 1))
  rw [← whole] at run
  exact ⟨_, type.integer_narrow _ representable, type.decoder_of_ok run⟩

/-- The permitted groups of a width, all of which announce another one. -/
theorem refuses_of_unfinished {cursor : ByteCursor}
    (unfinished : ∀ byte ∈ cursor.rest.take type.groups, continues byte = true)
    (long : type.groups < cursor.rest.length) :
    Refuses type.decoder cursor (type.groups - 1) := by
  have positive := type.positive
  have groups : type.groups = (type.width + 6) / 7 := rfl
  have offset : type.groups - 1 = (type.width - 1) / 7 := by omega
  have taken : (cursor.rest.take type.groups).length = type.groups :=
    List.length_take_of_le long.le
  obtain ⟨next, behind, split⟩ :
    ∃ next behind, cursor.rest.drop type.groups = next :: behind :=
    ⟨_, _, List.drop_eq_getElem_cons long⟩
  obtain ⟨byte, present, failure⟩ :=
    bounded_overlong type.signed unfinished positive
      (by omega) cursor.position next behind
  rw [← split, List.take_append_drop] at present failure
  rw [offset]
  exact ⟨byte, present, type.decoder_of_error failure⟩

theorem readsExactly {least bound : Int}
    (range : ∀ number, Representable type.signed type.width number ↔
      least ≤ number ∧ number < bound) :
    ReadsExactly type.decoder type.integer type.signed type.groups least
      bound := by
  have positive := type.positive
  have groups : type.groups = (type.width + 6) / 7 := rfl
  constructor
  · intro cursor last found early
    apply type.reads_of_finalIndex? found (by omega)
    obtain ⟨encoding, _, front, rfl⟩ := exists_encoding_of_finalIndex? found
    rw [front, ← encoding.number_groupSign]
    apply (encoding.representable_length type.signed).mono
    unfold Encoding.length
    omega
  · intro cursor last found final above below
    exact type.reads_of_finalIndex? found (by omega)
      ((range _).mpr ⟨above, below⟩)
  · intro cursor last found final outside
    obtain ⟨encoding, whole, front, rfl⟩ := exists_encoding_of_finalIndex? found
    have all : encoding.length = type.groups := by
      unfold Encoding.length
      omega
    rw [front, ← encoding.number_groupSign, ← range] at outside
    have refused :=
      type.refuses_unrepresentable encoding all outside cursor.position
        (cursor.rest.drop (encoding.initial.length + 1))
    rw [← whole] at refused
    exact refused
  · intro cursor unfinished short
    rw [List.take_of_length_le short] at unfinished
    apply type.decoder_of_error
    exact bounded_unfinished
      (fun byte member => le_toNat_iff_continues.mp (unfinished byte member))
      (by omega) cursor.position
  · intro cursor unfinished long
    exact type.refuses_of_unfinished
      (fun byte member =>
        le_toNat_iff_continues.mp (unfinished byte member)) long

end FixedWidth

/-- The typed decoders answer on every input by the first group that announces
no other, by its number and by their range. -/
theorem typed_decoders_are_exact :
    ReadsExactly uint32 (fun value => value.toNat) false 5 0 (2 ^ 32) ∧
    ReadsExactly sint32 Int32.toInt true 5 (-2 ^ 31) (2 ^ 31) ∧
    ReadsExactly sint64 Int64.toInt true 10 (-2 ^ 63) (2 ^ 63) := by
  refine ⟨FixedWidth.unsigned32.readsExactly ?_,
    FixedWidth.signed32.readsExactly ?_, FixedWidth.signed64.readsExactly ?_⟩
  · intro number
    exact Iff.rfl
  · intro number
    change -2 ^ 32 ≤ 2 * number ∧ 2 * number < 2 ^ 32 ↔
      -2 ^ 31 ≤ number ∧ number < 2 ^ 31
    omega
  · intro number
    change -2 ^ 64 ≤ 2 * number ∧ 2 * number < 2 ^ 64 ↔
      -2 ^ 63 ≤ number ∧ number < 2 ^ 63
    omega

/-- A last permitted group that is in range, one that is not, and one that
announces another group with a byte and with nothing behind it. -/
theorem typed_decoders_are_exact_at_last_group :
    (∃ value, sint32 ⟨3, [0x80, 0x80, 0x80, 0x80, 0x78, 0x05]⟩ =
      .ok (value, ⟨8, [0x05]⟩) ∧
      value.toInt = -2 ^ 31) ∧
    Refuses sint32 ⟨0, [0xFF, 0xFF, 0xFF, 0xFF, 0x4F]⟩ 4 ∧
    Refuses uint32 ⟨0, [0x80, 0x80, 0x80, 0x80, 0x80, 0x00]⟩ 4 ∧
    uint32 ⟨0, [0x80, 0x80, 0x80, 0x80, 0x80]⟩ =
      .error (.recoverable .unexpectedEnd) := by
  obtain ⟨unsigned, signed, _⟩ := typed_decoders_are_exact
  refine ⟨?_, ?_, ?_, ?_⟩
  · have number : denoted true [0x80, 0x80, 0x80, 0x80, 0x78] = -2 ^ 31 := by
      decide
    obtain ⟨value, integer, read⟩ :=
      signed.inside ⟨3, [0x80, 0x80, 0x80, 0x80, 0x78, 0x05]⟩ 4 rfl
        rfl number.ge (number.trans_lt (by decide))
    exact ⟨value, read, integer.trans number⟩
  · exact signed.outside ⟨0, [0xFF, 0xFF, 0xFF, 0xFF, 0x4F]⟩ 4 rfl rfl
      (by decide)
  · exact unsigned.overlong ⟨0, [0x80, 0x80, 0x80, 0x80, 0x80, 0x00]⟩ (by simp)
      (by decide)
  · exact unsigned.ending ⟨0, [0x80, 0x80, 0x80, 0x80, 0x80]⟩ (by simp)
      (by decide)

end Wasm.Leb128

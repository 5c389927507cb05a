import Wasm.Decoding.Progress
import Wasm.Proofs.Leb128.Exactness

/-!
# Integer types of a fixed width

The three typed decoders cut the word that they have read down to their type.  A
`FixedWidth` says how that is done and that nothing is lost by it, so what holds
of one typed decoder holds of all of them.
-/

namespace Wasm.Leb128

/-- An integer type: its values are the integers that its width holds, and a
word is cut down to the value that it stands for. -/
structure FixedWidth (α : Type) where
  width : Nat
  signed : Bool
  narrow : UInt64 → α
  integer : α → Int
  positive : 0 < width
  integer_injective : Function.Injective integer
  representable : ∀ value, Representable signed width (integer value)
  integer_narrow : ∀ number, Representable signed width number →
    integer (narrow (UInt64.ofInt number)) = number

namespace FixedWidth

variable {α : Type}

/-- The decoder of an integer type. -/
def decoder (type : FixedWidth α) : Decoder α := do
  let word ← bounded type.width type.signed
  pure (type.narrow word)

/-- The greatest number of groups that a value may have. -/
def groups (type : FixedWidth α) : Nat :=
  (type.width + 6) / 7

def unsigned32 : FixedWidth UInt32 where
  width := 32
  signed := false
  narrow := UInt64.toUInt32
  integer := fun value => value.toNat
  positive := by decide
  integer_injective := by
    intro left right equal
    exact UInt32.toNat_inj.mp (Int.natCast_inj.mp equal)
  representable := by
    intro value
    have small := value.toNat_lt
    change 0 ≤ (value.toNat : Int) ∧ (value.toNat : Int) < 2 ^ 32
    omega
  integer_narrow := by
    intro number representable
    obtain ⟨least, greatest⟩ : 0 ≤ number ∧ number < 2 ^ 32 := representable
    rw [toUInt32_ofInt]
    unfold UInt32.ofInt
    rw [UInt32.toNat_ofNat']
    omega

def signed32 : FixedWidth Int32 where
  width := 32
  signed := true
  narrow := fun word => word.toUInt32.toInt32
  integer := Int32.toInt
  positive := by decide
  integer_injective := fun _ _ equal => Int32.toInt.inj equal
  representable := by
    intro value
    have least := value.le_toInt
    have greatest := value.toInt_lt
    change -2 ^ 32 ≤ 2 * value.toInt ∧ 2 * value.toInt < 2 ^ 32
    omega
  integer_narrow := by
    intro number representable
    obtain ⟨least, greatest⟩ : -2 ^ 32 ≤ 2 * number ∧ 2 * number < 2 ^ 32 :=
      representable
    rw [toUInt32_ofInt, toInt32_ofInt]
    exact Int32.toInt_ofInt_of_le (by omega) (by omega)

def signed64 : FixedWidth Int64 where
  width := 64
  signed := true
  narrow := UInt64.toInt64
  integer := Int64.toInt
  positive := by decide
  integer_injective := fun _ _ equal => Int64.toInt.inj equal
  representable := by
    intro value
    have least := value.le_toInt
    have greatest := value.toInt_lt
    change -2 ^ 64 ≤ 2 * value.toInt ∧ 2 * value.toInt < 2 ^ 64
    omega
  integer_narrow := by
    intro number representable
    obtain ⟨least, greatest⟩ : -2 ^ 64 ≤ 2 * number ∧ 2 * number < 2 ^ 64 :=
      representable
    rw [toInt64_ofInt]
    exact Int64.toInt_ofInt_of_le (by omega) (by omega)

theorem decoder_unsigned32 : unsigned32.decoder = uint32 :=
  rfl

theorem decoder_signed32 : signed32.decoder = sint32 :=
  rfl

theorem decoder_signed64 : signed64.decoder = sint64 :=
  rfl

variable (type : FixedWidth α)

/-- The integers of a type are told apart by words, so they have no more bits
than a word. -/
theorem width_le : type.width ≤ 64 := by
  by_contra wide
  have wider : 65 ≤ type.width := Nat.lt_of_not_le wide
  have zero : Representable type.signed 65 0 := by
    cases type.signed with
    | false => exact ⟨by decide, by decide⟩
    | true => exact ⟨by decide, by decide⟩
  have twin : ∃ number : Int, number ≠ 0 ∧ Representable type.signed 65 number ∧
      UInt64.ofInt number = UInt64.ofInt 0 := by
    cases type.signed with
    | false => exact ⟨2 ^ 64, by decide, ⟨by decide, by decide⟩, by decide⟩
    | true => exact ⟨-2 ^ 64, by decide, ⟨by decide, by decide⟩, by decide⟩
  obtain ⟨number, nonzero, representable, same⟩ := twin
  apply nonzero
  rw [← type.integer_narrow number (representable.mono wider), same,
    type.integer_narrow 0 (zero.mono wider)]

theorem length_le_groups_iff (encoding : Encoding) :
    encoding.length ≤ type.groups ↔
      7 * encoding.initial.length < type.width := by
  unfold Encoding.length groups
  omega

theorem decoder_of_ok {cursor after : ByteCursor} {word : UInt64}
    (run : bounded type.width type.signed cursor = .ok (word, after)) :
    type.decoder cursor = .ok (type.narrow word, after) :=
  Decoder.bind_eq_ok_iff.mpr ⟨word, after, run, rfl⟩

theorem decoder_of_error {cursor : ByteCursor} {failure : Failure}
    (run : bounded type.width type.signed cursor = .error failure) :
    type.decoder cursor = .error failure := by
  change (bounded type.width type.signed cursor >>= _) = _
  rw [run]
  rfl

/-- A byte is refused only as the last group that the type permits. -/
theorem decoder_refuses_last {cursor : ByteCursor} {failure : Failure}
    {byte : UInt8} {location : Nat}
    (failed : type.decoder cursor = .error failure)
    (unexpected : failure.error = .unexpected byte location) :
    location = cursor.position + (type.groups - 1) := by
  cases run : bounded type.width type.signed cursor with
  | ok result => cases (type.decoder_of_ok run).symm.trans failed
  | error reason =>
      cases (type.decoder_of_error run).symm.trans failed
      have place := bounded_refuses_last type.positive run unexpected
      have groups : type.groups - 1 = (type.width - 1) / 7 := by
        unfold FixedWidth.groups
        omega
      rw [place, groups]

/-- A typed decoder reads exactly the encodings of at most the permitted number
of groups whose integer is a value of the type. -/
theorem decoder_eq_ok_iff {cursor after : ByteCursor} {value : α} :
    type.decoder cursor = .ok (value, after) ↔
      ∃ encoding : Encoding,
        encoding.length ≤ type.groups ∧
        encoding.number (groupSign type.signed) = type.integer value ∧
        cursor.rest = encoding.bytes ++ after.rest ∧
        after.position = cursor.position + encoding.length := by
  constructor
  · intro run
    obtain ⟨word, between, ran, result⟩ := Decoder.bind_eq_ok_iff.mp run
    cases result
    obtain ⟨encoding, room, representable, bytes, position, rfl⟩ :=
      (bounded_eq_ok_iff type.positive).mp ran
    refine ⟨encoding, (type.length_le_groups_iff encoding).mpr room, ?_,
      bytes, position⟩
    exact (type.integer_narrow _ representable).symm
  · intro parts
    obtain ⟨encoding, short, number, bytes, position⟩ := parts
    have room := (type.length_le_groups_iff encoding).mp short
    have representable := type.representable value
    rw [← number] at representable
    have ran := type.decoder_of_ok ((bounded_eq_ok_iff type.positive).mpr
      ⟨encoding, room, representable, bytes, position, rfl⟩)
    have same :
        type.narrow (UInt64.ofInt (encoding.number (groupSign type.signed))) =
          value :=
      type.integer_injective
        ((type.integer_narrow _ representable).trans number)
    rw [same] at ran
    exact ran

end FixedWidth

end Wasm.Leb128

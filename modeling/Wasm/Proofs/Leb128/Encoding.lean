import Mathlib.Tactic.IntervalCases
import Wasm.Decoding.Leb128.Bounded
import Wasm.Decoding.Leb128.Wrapping
import Wasm.Proofs.Leb128.Word

/-!
# LEB128 encodings and the integers that they denote

An encoding is a sequence of groups of which exactly the last announces no
other.  The integer that it denotes is exact: nothing is cut off at the width of
a word.  Whether an integer of some width can hold it is decided by the final
group alone, which is what the decoders test.
-/

namespace Wasm.Leb128

/-- Groups that each announce another one, and the final group. -/
structure Encoding where
  initial : List UInt8
  final : UInt8
  continuing : ∀ byte ∈ initial, continues byte = true
  finished : continues final = false

/-- A final group as an integer.  If its sign bit is set, the bits behind the
sign bit count as set, however many they are. -/
def finalNumber (sign : Option Nat) (byte : UInt8) : Int :=
  match sign with
  | none => payload byte
  | some bit =>
      if (payload byte).testBit bit then
        (payload byte % 2 ^ (bit + 1) : Nat) - 2 ^ (bit + 1)
      else
        payload byte

/-- The integer with the given groups below a more significant part. -/
def groupsBelow (groups : List UInt8) (higher : Int) : Int :=
  groups.foldr (fun byte number => payload byte + 128 * number) higher

/-- The sign bit of a final group of seven bits. -/
def groupSign (signed : Bool) : Option Nat :=
  if signed then some 6 else none

namespace Encoding

def bytes (encoding : Encoding) : List UInt8 :=
  encoding.initial ++ [encoding.final]

def length (encoding : Encoding) : Nat :=
  encoding.initial.length + 1

/-- The integer that an encoding denotes. -/
def number (encoding : Encoding) (sign : Option Nat) : Int :=
  groupsBelow encoding.initial (finalNumber sign encoding.final)

@[simp] theorem length_bytes (encoding : Encoding) :
    encoding.bytes.length = encoding.length := by
  simp [bytes, length]

theorem bytes_append (encoding : Encoding) (rest : List UInt8) :
    encoding.bytes ++ rest = encoding.initial ++ encoding.final :: rest := by
  simp [bytes]

/-- Bytes start with an encoding unless all of them announce another group. -/
theorem starts_or_unfinished (input : List UInt8) :
    (∃ encoding : Encoding, ∃ rest, input = encoding.bytes ++ rest) ∨
      ∀ byte ∈ input, continues byte = true := by
  induction input with
  | nil => exact .inr (by simp)
  | cons byte rest induction =>
      cases more : continues byte with
      | false =>
          exact .inl ⟨⟨[], byte, by simp, more⟩, rest, by simp [bytes]⟩
      | true =>
          rcases induction with ⟨encoding, behind, rfl⟩ | unfinished
          · left
            refine ⟨⟨byte :: encoding.initial, encoding.final, ?_,
              encoding.finished⟩, behind, by simp [bytes]⟩
            intro candidate member
            rcases List.mem_cons.mp member with rfl | later
            · exact more
            · exact encoding.continuing candidate later
          · right
            intro candidate member
            rcases List.mem_cons.mp member with rfl | later
            · exact more
            · exact unfinished candidate later

end Encoding

/-- Whether an integer of a width can hold a number.  Twice a signed number lies
within the bounds of the width, so width zero holds only zero. -/
def Representable (signed : Bool) (width : Nat) (number : Int) : Prop :=
  match signed with
  | false => 0 ≤ number ∧ number < 2 ^ width
  | true => -2 ^ width ≤ 2 * number ∧ 2 * number < 2 ^ width

theorem Representable.mono {signed : Bool} {small large : Nat} {number : Int}
    (representable : Representable signed small number)
    (wider : small ≤ large) :
    Representable signed large number := by
  have bounds : (2 : Int) ^ small ≤ 2 ^ large :=
    pow_le_pow_right₀ (by decide) wider
  cases signed with
  | false => exact ⟨representable.1, lt_of_lt_of_le representable.2 bounds⟩
  | true =>
      exact ⟨le_trans (neg_le_neg bounds) representable.1,
        lt_of_lt_of_le representable.2 bounds⟩

theorem testBit_payload_six (byte : UInt8) :
    (payload byte).testBit 6 = decide (64 ≤ payload byte) := by
  have small := payload_lt byte
  rw [Nat.testBit_eq_decide_div_mod_eq, decide_eq_decide]
  omega

theorem finalNumber_groupSign (signed : Bool) (byte : UInt8) :
    finalNumber (groupSign signed) byte =
      if signed = true ∧ 64 ≤ payload byte then (payload byte : Int) - 128
      else payload byte := by
  have small := payload_lt byte
  cases signed with
  | false => rfl
  | true =>
      have reduced : payload byte % 2 ^ (6 + 1) = payload byte :=
        Nat.mod_eq_of_lt small
      change (if (payload byte).testBit 6 then
        ((payload byte % 2 ^ (6 + 1) : Nat) : Int) - 2 ^ (6 + 1)
          else (payload byte : Int)) = _
      rw [testBit_payload_six, reduced]
      simp

/-- The test of a final group is the test of its number. -/
theorem fits_iff_representable (byte : UInt8) (width : Nat) (signed : Bool) :
    fits (payload byte) width signed = true ↔
      Representable signed width (finalNumber (groupSign signed) byte) := by
  have small := payload_lt byte
  rw [finalNumber_groupSign]
  generalize payload byte = bits at small
  rcases Nat.lt_or_ge width 7 with narrow | wide
  · interval_cases width <;> cases signed <;>
      simp [fits, Representable, Nat.shiftRight_eq_div_pow] <;> omega
  · have seven :
        Representable signed 7 (if signed = true ∧ 64 ≤ bits then
          (bits : Int) - 128
        else bits) := by
      cases signed <;> simp [Representable] <;> omega
    simp [fits, wide, seven.mono wide]

theorem representable_group_iff {signed : Bool} {width : Nat} (wide : 7 < width)
    (byte : UInt8) (number : Int) :
    Representable signed width (payload byte + 128 * number) ↔
      Representable signed (width - 7) number := by
  have small := payload_lt byte
  obtain ⟨rest, rfl⟩ : ∃ rest, width = rest + 1 + 7 := ⟨width - 8, by omega⟩
  have outer : (2 : Int) ^ (rest + 1 + 7) = 256 * 2 ^ rest := by ring
  have inner : (2 : Int) ^ (rest + 1 + 7 - 7) = 2 * 2 ^ rest := by
    rw [Nat.add_sub_cancel, pow_succ, mul_comm]
  cases signed <;> simp only [Representable, outer, inner] <;> omega

theorem representable_groupsBelow_iff {signed : Bool} {groups : List UInt8}
    {width : Nat} (wide : 7 * groups.length < width) (number : Int) :
    Representable signed width (groupsBelow groups number) ↔
      Representable signed (width - 7 * groups.length) number := by
  induction groups generalizing width with
  | nil => rfl
  | cons byte groups induction =>
      rw [List.length_cons] at wide
      have step : groupsBelow (byte :: groups) number =
          payload byte + 128 * groupsBelow groups number := rfl
      rw [step,
        representable_group_iff (by omega), induction (by omega),
        List.length_cons]
      have widths :
          width - 7 - 7 * groups.length = width - 7 * (groups.length + 1) := by
        omega
      rw [widths]

/-- The final group alone decides whether an integer of a width can hold the
number. -/
theorem Encoding.representable_iff_fits (encoding : Encoding) {signed : Bool}
    {width : Nat} (wide : 7 * encoding.initial.length < width) :
    Representable signed width (encoding.number (groupSign signed)) ↔
      fits (payload encoding.final) (width - 7 * encoding.initial.length)
        signed = true := by
  rw [Encoding.number, representable_groupsBelow_iff wide,
    fits_iff_representable]

theorem Encoding.representable_length (encoding : Encoding) (signed : Bool) :
    Representable signed (7 * encoding.length)
      (encoding.number (groupSign signed)) := by
  have wide : 7 * encoding.initial.length < 7 * encoding.length := by
    simp [Encoding.length]
  apply (encoding.representable_iff_fits wide).mpr
  have rest : 7 * encoding.length - 7 * encoding.initial.length = 7 := by
    simp only [Encoding.length]
    omega
  simp [fits, rest]

end Wasm.Leb128

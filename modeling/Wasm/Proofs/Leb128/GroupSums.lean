import Mathlib.Algebra.BigOperators.Fin
import Wasm.Proofs.Leb128.FixedWidth

/-!
# Groups by their index

An encoding is found in an input by the index of its final group, and its number
is a sum over the indices of its groups.  Neither the index nor the sum mentions
a word: the sum is exact, however many groups there are.
-/

namespace Wasm.Leb128

/-- The index of the first byte whose highest bit is clear. -/
def finalIndex? (bytes : List UInt8) : Option Nat :=
  bytes.findIdx? fun byte => byte.toNat < 128

/-- The sum of the low seven bits of all bytes, each seven bits above the one
before it. -/
def groupSum (bytes : List UInt8) : Nat :=
  ∑ index :
    Fin bytes.length, (bytes.get index).toNat % 128 * 2 ^ (7 * index.val)

/-! ## The final group -/

theorem toNat_lt_iff_not_continues {byte : UInt8} :
    byte.toNat < 128 ↔ continues byte = false := by
  simp [continues]

theorem le_toNat_iff_continues {byte : UInt8} :
    128 ≤ byte.toNat ↔ continues byte = true :=
  decide_eq_true_iff.symm

theorem finalIndex?_eq_none_iff {bytes : List UInt8} :
    finalIndex? bytes = none ↔ ∀ byte ∈ bytes, continues byte = true := by
  simp [finalIndex?, List.findIdx?_eq_none_iff, continues]

theorem Encoding.finalIndex?_bytes_append (encoding : Encoding)
    (rest : List UInt8) :
    finalIndex? (encoding.bytes ++ rest) = some encoding.initial.length := by
  have earlier : finalIndex? encoding.initial = none :=
    finalIndex?_eq_none_iff.mpr encoding.continuing
  have last : encoding.final.toNat < 128 :=
    toNat_lt_iff_not_continues.mpr encoding.finished
  unfold finalIndex? at earlier ⊢
  rw [encoding.bytes_append, List.findIdx?_append, earlier, List.findIdx?_cons]
  simp [last]

/-- A final group ends an encoding, behind which the rest of the input
stands. -/
theorem exists_encoding_of_finalIndex? {bytes : List UInt8} {last : Nat}
    (found : finalIndex? bytes = some last) :
    ∃ encoding : Encoding,
      bytes = encoding.bytes ++ bytes.drop (last + 1) ∧
      bytes.take (last + 1) = encoding.bytes ∧
      encoding.initial.length = last := by
  rcases Encoding.starts_or_unfinished bytes with
      ⟨encoding, rest, rfl⟩ | unfinished
  · rw [encoding.finalIndex?_bytes_append] at found
    obtain rfl := Option.some.inj found
    have length : encoding.initial.length + 1 = encoding.bytes.length :=
      encoding.length_bytes.symm
    refine ⟨encoding, ?_, ?_, rfl⟩
    · rw [length, List.drop_left]
    · rw [length, List.take_left]
  · rw [finalIndex?_eq_none_iff.mpr unfinished] at found
    cases found

/-! ## Sums -/

@[simp] theorem groupSum_nil : groupSum [] = 0 :=
  rfl

theorem groupSum_cons (byte : UInt8) (bytes : List UInt8) :
    groupSum (byte :: bytes) = payload byte + 128 * groupSum bytes := by
  have first :
      ((byte :: bytes).get 0).toNat % 128 * 2 ^ (7 * 0) = payload byte := by
    simp [payload]
  have others : ∀ index : Fin bytes.length,
      ((byte :: bytes).get index.succ).toNat % 128 * 2 ^ (7 * index.succ.val) =
        128 * ((bytes.get index).toNat % 128 * 2 ^ (7 * index.val)) := by
    intro index
    have power : 2 ^ (7 * index.succ.val) = 128 * 2 ^ (7 * index.val) := by
      rw [Fin.val_succ, Nat.mul_succ, Nat.pow_add, Nat.mul_comm]
    rw [power, List.get_cons_succ']
    ring
  calc groupSum (byte :: bytes)
      = ((byte :: bytes).get 0).toNat % 128 * 2 ^ (7 * 0) +
          ∑ index : Fin bytes.length,
            ((byte :: bytes).get index.succ).toNat % 128 *
              2 ^ (7 * index.succ.val) :=
        Fin.sum_univ_succ _
    _ = payload byte + 128 * groupSum bytes := by
        rw [first, Finset.sum_congr rfl fun index _ => others index,
          ← Finset.mul_sum]
        rfl

theorem groupSum_lt (bytes : List UInt8) :
    groupSum bytes < 2 ^ (7 * bytes.length) := by
  induction bytes with
  | nil => decide
  | cons byte bytes induction =>
      have small := payload_lt byte
      have power :
          2 ^ (7 * (byte :: bytes).length) = 128 * 2 ^ (7 * bytes.length) := by
        rw [List.length_cons, Nat.mul_succ, Nat.pow_add, Nat.mul_comm]
      rw [groupSum_cons, power]
      omega

theorem groupsBelow_eq_groupSum_add (groups : List UInt8) (higher : Int) :
    groupsBelow groups higher =
      groupSum groups + 2 ^ (7 * groups.length) * higher := by
  induction groups with
  | nil => simp [groupsBelow]
  | cons byte groups induction =>
      have step : groupsBelow (byte :: groups) higher =
          payload byte + 128 * groupsBelow groups higher := rfl
      have power :
          (2 : Int) ^ (7 * (byte :: groups).length) =
            128 * 2 ^ (7 * groups.length) := by
        rw [List.length_cons, Nat.mul_succ, pow_add, mul_comm]
        rfl
      rw [step, induction, groupSum_cons, power]
      push_cast
      ring

namespace Encoding

variable (encoding : Encoding)

theorem groupSum_bytes :
    groupSum encoding.bytes =
      groupSum encoding.initial + 2 ^ (7 * encoding.initial.length) *
        payload encoding.final := by
  have whole : groupsBelow encoding.bytes 0 =
      groupsBelow encoding.initial (payload encoding.final) := by
    simp [groupsBelow, bytes]
  rw [groupsBelow_eq_groupSum_add, groupsBelow_eq_groupSum_add] at whole
  rw [← Int.natCast_inj]
  push_cast
  rw [← whole, mul_zero, add_zero]

theorem number_none : encoding.number none = groupSum encoding.bytes := by
  have final : finalNumber none encoding.final = payload encoding.final := rfl
  rw [number, final, groupsBelow_eq_groupSum_add, groupSum_bytes]
  push_cast
  rfl

theorem number_of_sign_clear {bit : Nat}
    (clear : (payload encoding.final).testBit bit = false) :
    encoding.number (some bit) = groupSum encoding.bytes := by
  have final :
      finalNumber (some bit) encoding.final =
        finalNumber none encoding.final := by
    simp [finalNumber, clear]
  rw [← encoding.number_none, number, number, final]

/-- The bits behind a sign bit that is set count as set, so the number lies
below zero by what is missing up to the power of two behind the sign bit. -/
theorem number_of_sign_set {bit : Nat}
    (set : (payload encoding.final).testBit bit = true) :
    encoding.number (some bit) =
      (groupSum encoding.bytes % 2 ^ (7 * encoding.initial.length + bit + 1) :
        Nat) -
        2 ^ (7 * encoding.initial.length + bit + 1) := by
  have low := groupSum_lt encoding.initial
  have power : 2 ^ (7 * encoding.initial.length + bit + 1) =
      2 ^ (7 * encoding.initial.length) * 2 ^ (bit + 1) := by
    rw [Nat.add_assoc, Nat.pow_add]
  have reduced :
      groupSum encoding.bytes % 2 ^ (7 * encoding.initial.length + bit + 1) =
      groupSum encoding.initial +
        2 ^ (7 * encoding.initial.length) *
          (payload encoding.final % 2 ^ (bit + 1)) := by
    rw [groupSum_bytes, power, Nat.mod_mul, Nat.add_mul_mod_self_left,
      Nat.mod_eq_of_lt low, Nat.add_mul_div_left _ _ (Nat.two_pow_pos _),
      Nat.div_eq_of_lt low, Nat.zero_add]
  have final : finalNumber (some bit) encoding.final =
      (payload encoding.final % 2 ^ (bit + 1) : Nat) - 2 ^ (bit + 1) := by
    rw [finalNumber, set, if_pos rfl]
  have powerInt : (2 : Int) ^ (7 * encoding.initial.length + bit + 1) =
      2 ^ (7 * encoding.initial.length) * 2 ^ (bit + 1) := by
    exact_mod_cast power
  rw [number, final, groupsBelow_eq_groupSum_add, reduced, powerInt]
  push_cast
  ring

end Encoding

end Wasm.Leb128

import Mathlib.Tactic.Ring
import Wasm.Decoding.Leb128.Group

/-!
# Words as integers modulo 2 ^ 64

The groups of an integer are put together by bitwise disjunction.  Here the
words that occur are written as integers modulo 2 ^ 64: a payload in its place
is a multiple of a power of two, the ones from a bit upwards are the negative of
that power, and a disjunction of words that do not overlap is a sum.
-/

namespace Wasm.Leb128

theorem payload_lt (byte : UInt8) : payload byte < 128 :=
  Nat.mod_lt _ (by decide)

theorem toNat_ofInt (number : Int) :
    ((UInt64.ofInt number).toNat : Int) = number % 2 ^ 64 := by
  unfold UInt64.ofInt
  rw [UInt64.toNat_ofNat']
  omega

theorem ofInt_natCast (number : Nat) :
    UInt64.ofInt number = UInt64.ofNat number := by
  apply UInt64.toNat_inj.mp
  rw [← Int.natCast_inj, toNat_ofInt, UInt64.toNat_ofNat']
  norm_cast

theorem toInt64_ofInt (number : Int) :
    (UInt64.ofInt number).toInt64 = Int64.ofInt number := by
  apply Int64.toBitVec.inj
  apply BitVec.eq_of_toNat_eq
  change (UInt64.ofInt number).toNat = (BitVec.ofInt 64 number).toNat
  rw [← Int.natCast_inj, toNat_ofInt, BitVec.toNat_ofInt]
  omega

theorem toUInt32_ofInt (number : Int) :
    (UInt64.ofInt number).toUInt32 = UInt32.ofInt number := by
  apply UInt32.toNat_inj.mp
  rw [UInt64.toNat_toUInt32, ← Int.natCast_inj]
  push_cast
  rw [toNat_ofInt]
  unfold UInt32.ofInt
  rw [UInt32.toNat_ofNat']
  omega

theorem toInt32_ofInt (number : Int) :
    (UInt32.ofInt number).toInt32 = Int32.ofInt number := by
  apply Int32.toBitVec.inj
  apply BitVec.eq_of_toNat_eq
  change (UInt32.ofInt number).toNat = (BitVec.ofInt 32 number).toNat
  unfold UInt32.ofInt
  rw [UInt32.toNat_ofNat', BitVec.toNat_ofInt]
  omega

theorem two_pow_dvd_toNat_ofInt (start : Nat) (number : Int) :
    2 ^ start ∣ (UInt64.ofInt (2 ^ start * number)).toNat := by
  apply Int.natCast_dvd_natCast.mp
  rw [toNat_ofInt]
  rcases Nat.le_total start 64 with below | above
  · have divides : (2 : Int) ^ start ∣ 2 ^ 64 := pow_dvd_pow 2 below
    rw [Int.emod_def]
    push_cast
    exact Int.dvd_sub (Int.dvd_mul_right _ _) (divides.mul_right _)
  · -- A multiple of such a power leaves nothing in the word.
    have vanishes : (2 : Int) ^ 64 ∣ 2 ^ start * number :=
      Dvd.dvd.mul_right (pow_dvd_pow 2 above) number
    rw [Int.emod_eq_zero_of_dvd vanishes]
    exact Int.dvd_zero _

theorem toNat_ofInt_lt {part width : Nat} (small : part < 2 ^ width)
    (shift : Nat) :
    (UInt64.ofInt (2 ^ shift * part)).toNat < 2 ^ (shift + width) := by
  have bound : 2 ^ shift * part < 2 ^ (shift + width) := by
    rw [Nat.pow_add]
    exact Nat.mul_lt_mul_of_pos_left small (Nat.two_pow_pos shift)
  have cast : (2 : Int) ^ shift * part = ((2 ^ shift * part : Nat) : Int) := by
    norm_cast
  rw [cast, ofInt_natCast, UInt64.toNat_ofNat']
  exact Nat.lt_of_le_of_lt (Nat.mod_le _ _) bound

/-- A word and a multiple of a power of two that exceeds it have no bit in
common. -/
theorem or_ofInt_eq_add {low : UInt64} {start : Nat}
    (small : low.toNat < 2 ^ start) (number : Int) :
    low ||| UInt64.ofInt (2 ^ start * number) =
      low + UInt64.ofInt (2 ^ start * number) := by
  obtain ⟨high, multiple⟩ := two_pow_dvd_toNat_ofInt start number
  have disjoint :
      low.toNat ||| 2 ^ start * high = low.toNat + 2 ^ start * high := by
    rw [Nat.or_comm, ← Nat.two_pow_add_eq_or_of_lt small, Nat.add_comm]
  have bounded : low.toNat + 2 ^ start * high < 2 ^ 64 := by
    rw [← disjoint]
    exact Nat.or_lt_two_pow low.toNat_lt (multiple ▸ UInt64.toNat_lt _)
  apply UInt64.toNat_inj.mp
  rw [UInt64.toNat_or, UInt64.toNat_add, multiple, disjoint,
    Nat.mod_eq_of_lt bounded]

theorem placed_eq_ofInt (shift : Nat) (byte : UInt8) :
    placed shift byte = UInt64.ofInt (2 ^ shift * payload byte) := by
  have cast :
      (2 : Int) ^ shift * payload byte =
        ((2 ^ shift * payload byte : Nat) : Int) := by
    norm_cast
  rw [cast, ofInt_natCast]
  apply UInt64.toNat_inj.mp
  unfold placed
  split
  · rename_i inside
    have small := payload_lt byte
    have payloadWord : (UInt64.ofNat (payload byte)).toNat = payload byte := by
      rw [UInt64.toNat_ofNat']
      omega
    have shiftWord : (UInt64.ofNat shift).toNat = shift := by
      rw [UInt64.toNat_ofNat']
      omega
    rw [UInt64.toNat_shiftLeft, payloadWord, shiftWord, Nat.mod_eq_of_lt inside,
      Nat.shiftLeft_eq, Nat.mul_comm, UInt64.toNat_ofNat']
  · rename_i outside
    have vanishes : 2 ^ 64 ∣ 2 ^ shift * payload byte :=
      Dvd.dvd.mul_right (pow_dvd_pow 2 (by omega)) _
    rw [UInt64.toNat_ofNat', Nat.mod_eq_zero_of_dvd vanishes]
    rfl

theorem placed_or_ofInt (shift : Nat) (byte : UInt8) (number : Int) :
    placed shift byte ||| UInt64.ofInt (2 ^ (shift + 7) * number) =
      UInt64.ofInt (2 ^ shift * (payload byte + 128 * number)) := by
  have small : (placed shift byte).toNat < 2 ^ (shift + 7) := by
    rw [placed_eq_ofInt]
    exact toNat_ofInt_lt (payload_lt byte) shift
  rw [or_ofInt_eq_add small, placed_eq_ofInt, ← UInt64.ofInt_add]
  congr 1
  ring

theorem onesFrom_eq_ofInt (start : Nat) :
    onesFrom start = UInt64.ofInt (2 ^ start * -1) := by
  apply UInt64.toNat_inj.mp
  rw [← Int.natCast_inj, toNat_ofInt]
  unfold onesFrom
  split
  · rename_i inside
    have wrapped :
        (2 : Int) ^ start * -1 % 2 ^ 64 =
          (2 ^ 64 - 1) * 2 ^ start % 2 ^ 64 := by
      have shifted :
          (2 ^ 64 - 1) * (2 : Int) ^ start =
            2 ^ start * -1 + 2 ^ 64 * 2 ^ start := by
        ring
      rw [shifted, Int.add_mul_emod_self_left]
    have startWord : (UInt64.ofNat start).toNat = start := by
      rw [UInt64.toNat_ofNat']
      omega
    rw [wrapped, UInt64.toNat_shiftLeft, startWord, Nat.mod_eq_of_lt inside,
      Nat.shiftLeft_eq]
    push_cast
    rfl
  · rename_i outside
    have vanishes : (2 : Int) ^ 64 ∣ 2 ^ start * -1 :=
      Dvd.dvd.mul_right (pow_dvd_pow 2 (by omega)) _
    rw [Int.emod_eq_zero_of_dvd vanishes]
    rfl

theorem testBit_toNat_onesFrom (start index : Nat) :
    (onesFrom start).toNat.testBit index =
      decide (start ≤ index ∧ index < 64) := by
  unfold onesFrom
  split
  · rename_i inside
    have ones : (0xFFFFFFFFFFFFFFFF : UInt64).toNat = 2 ^ 64 - 1 := rfl
    have startWord : (UInt64.ofNat start).toNat = start := by
      rw [UInt64.toNat_ofNat']
      omega
    rw [UInt64.toNat_shiftLeft, startWord, ones, Nat.mod_eq_of_lt inside,
      Nat.testBit_mod_two_pow, Nat.testBit_shiftLeft,
      Nat.testBit_two_pow_sub_one]
    by_cases above : start ≤ index
    · by_cases below : index < 64
      · have near : index - start < 64 := by omega
        simp [above, below, near]
      · simp [below]
    · simp [above]
  · rename_i outside
    have none : ¬(start ≤ index ∧ index < 64) := by omega
    simp [none]

theorem or_onesFrom_of_dvd {word : UInt64} {start : Nat}
    (multiple : 2 ^ start ∣ word.toNat) :
    word ||| onesFrom start = onesFrom start := by
  obtain ⟨high, factored⟩ := multiple
  apply UInt64.toNat_inj.mp
  apply Nat.eq_of_testBit_eq
  intro index
  rw [UInt64.toNat_or, Nat.testBit_or, testBit_toNat_onesFrom]
  by_cases set : word.toNat.testBit index = true
  · have below : index < 64 := by
      by_contra outside
      have larger : 2 ^ 64 ≤ 2 ^ index :=
        Nat.pow_le_pow_right (by decide) (Nat.le_of_not_lt outside)
      rw [Nat.testBit_lt_two_pow
        (Nat.lt_of_lt_of_le word.toNat_lt larger)] at set
      cases set
    have above : start ≤ index := by
      rw [factored, Nat.mul_comm, ← Nat.shiftLeft_eq,
        Nat.testBit_shiftLeft] at set
      simp only [ge_iff_le, Bool.and_eq_true, decide_eq_true_eq] at set
      exact set.1
    simp [above, below]
  · simp [set]

/-- Ones from behind bit `bit` of a payload upwards replace the payload's bits
there, so only the bits up to `bit` are left of it. -/
theorem placed_or_onesFrom (shift bit : Nat) (byte : UInt8) :
    placed shift byte ||| onesFrom (shift + bit + 1) =
      UInt64.ofInt
        (2 ^ shift *
          ((payload byte % 2 ^ (bit + 1) : Nat) - 2 ^ (bit + 1))) := by
  have parts : (2 : Int) ^ shift * payload byte =
      2 ^ shift * (payload byte % 2 ^ (bit + 1) : Nat) +
        2 ^ (shift + bit + 1) * (payload byte / 2 ^ (bit + 1) : Nat) := by
    have divided := Nat.mod_add_div (payload byte) (2 ^ (bit + 1))
    calc (2 : Int) ^ shift * payload byte
        = 2 ^ shift * ((payload byte % 2 ^ (bit + 1) +
            2 ^ (bit + 1) * (payload byte / 2 ^ (bit + 1)) : Nat) : Int) := by
          rw [divided]
      _ = _ := by
          push_cast
          ring
  have small :
      (UInt64.ofInt (2 ^ shift * (payload byte % 2 ^ (bit + 1) : Nat))).toNat <
      2 ^ (shift + bit + 1) :=
    toNat_ofInt_lt (Nat.mod_lt _ (Nat.two_pow_pos _)) shift
  rw [placed_eq_ofInt, parts, UInt64.ofInt_add, ← or_ofInt_eq_add small,
    UInt64.or_assoc, or_onesFrom_of_dvd (two_pow_dvd_toNat_ofInt _ _),
    onesFrom_eq_ofInt, or_ofInt_eq_add small, ← UInt64.ofInt_add]
  congr 1
  ring

end Wasm.Leb128

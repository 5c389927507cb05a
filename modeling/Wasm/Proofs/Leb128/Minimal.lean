import Mathlib.Data.Nat.Bitwise
import Wasm.Proofs.Leb128.Agreement

/-!
# Minimal encodings

`encodeUnsigned` and `encodeSigned` write an integer with as few groups as it
needs.  `Shortest` says of the bytes what both have in common: a group is final
as soon as seven bits hold what is left.  Every decoder whose width holds the
integer reads it back, and no other encoding of it is shorter.
-/

namespace Wasm.Leb128

theorem toNat_shiftRight_seven (value : UInt64) :
    (value >>> 7).toNat = value.toNat / 128 := by
  rw [UInt64.toNat_shiftRight, Nat.shiftRight_eq_div_pow]
  rfl

theorem toInt_shiftRight_seven (value : Int64) :
    (value >>> 7).toInt = value.toInt / 128 := by
  change (value.toBitVec.sshiftRight' ((7 : Int64).toBitVec.smod 64)).toInt = _
  rw [BitVec.toInt_sshiftRight', Int.shiftRight_eq_div_pow]
  rfl

/-- The shortest encoding of an unsigned integer. -/
def encodeUnsigned (value : UInt64) : List UInt8 :=
  let byte := (value &&& 0x7F).toUInt8
  let higher := value >>> 7
  if higher = 0 then
    [byte]
  else
    (byte ||| 0x80) :: encodeUnsigned higher
termination_by value.toNat
decreasing_by
  rename_i more
  have nonzero : (value >>> 7).toNat ≠ 0 := fun zero =>
    more (UInt64.toNat_inj.mp zero)
  rw [toNat_shiftRight_seven] at nonzero ⊢
  omega

/-- The shortest encoding of a signed integer.  A group is final when what is
left above it repeats its sign bit. -/
def encodeSigned (value : Int64) : List UInt8 :=
  let byte := (value &&& 0x7F).toUInt64.toUInt8
  let higher := value >>> 7
  if (higher = 0 ∧ byte &&& 0x40 = 0) ∨ (higher = -1 ∧ byte &&& 0x40 ≠ 0) then
    [byte]
  else
    (byte ||| 0x80) :: encodeSigned higher
termination_by value.toInt.natAbs
decreasing_by
  rename_i more
  rw [toInt_shiftRight_seven]
  -- Only zero and minus one are left unchanged by the shift, and both are
  -- final.
  have nonzero : value.toInt ≠ 0 := by
    intro zero
    have same : value = 0 := Int64.toInt.inj zero
    exact more (by subst same; decide)
  have notMinusOne : value.toInt ≠ -1 := by
    intro minusOne
    have same : value = -1 := Int64.toInt.inj minusOne
    exact more (by subst same; decide)
  omega

/-- Groups of an integer, the last of which is the first that holds what is
left. -/
inductive Shortest (signed : Bool) : Int → List UInt8 → Prop where
  | final {number : Int} {byte : UInt8} :
      Representable signed 7 number →
      (byte.toNat : Int) = number % 128 →
      Shortest signed number [byte]
  | more {number : Int} {byte : UInt8} {rest : List UInt8} :
      ¬Representable signed 7 number →
      (byte.toNat : Int) = number % 128 + 128 →
      Shortest signed (number / 128) rest →
      Shortest signed number (byte :: rest)

namespace Shortest

variable {signed : Bool} {number : Int} {bytes : List UInt8}

theorem exists_encoding (shortest : Shortest signed number bytes) :
    ∃ encoding : Encoding,
      encoding.bytes = bytes ∧ encoding.number (groupSign signed) = number := by
  induction shortest with
  | @final number byte representable low =>
      have finished : continues byte = false := by
        simp only [continues, decide_eq_false_iff_not]
        omega
      have value : finalNumber (groupSign signed) byte = number := by
        have payloadLow : (payload byte : Int) = number % 128 := by
          unfold payload
          omega
        rw [finalNumber_groupSign]
        cases signed with
        | false =>
            obtain ⟨least, greatest⟩ : 0 ≤ number ∧ number < 2 ^ 7 :=
              representable
            simp
            omega
        | true =>
            obtain ⟨least, greatest⟩ :
              -2 ^ 7 ≤ 2 * number ∧ 2 * number < 2 ^ 7 :=
              representable
            simp
            split <;> omega
      exact ⟨⟨[], byte, by simp, finished⟩, rfl, value⟩
  | @more number byte rest notYet low shortest induction =>
      obtain ⟨encoding, rfl, higher⟩ := induction
      have more : continues byte = true := by
        simp only [continues, decide_eq_true_eq]
        omega
      have continuing : ∀ candidate ∈ byte :: encoding.initial,
          continues candidate = true := by
        intro candidate member
        rcases List.mem_cons.mp member with rfl | later
        · exact more
        · exact encoding.continuing candidate later
      refine ⟨⟨byte :: encoding.initial, encoding.final, continuing,
        encoding.finished⟩, rfl, ?_⟩
      change (payload byte : Int) + 128 * encoding.number (groupSign signed) =
        number
      rw [higher]
      unfold payload
      omega

/-- The number of groups is the least whose bits hold the integer. -/
theorem length_le_iff (shortest : Shortest signed number bytes) {count : Nat}
    (positive : 0 < count) :
    bytes.length ≤ count ↔ Representable signed (7 * count) number := by
  induction shortest generalizing count with
  | final representable low =>
      constructor
      · exact fun _ => representable.mono (by omega)
      · exact fun _ => positive
  | @more number byte rest notYet low shortest induction =>
      rw [List.length_cons]
      obtain ⟨fewer, rfl⟩ : ∃ fewer, count = fewer + 1 := ⟨count - 1, by omega⟩
      rcases Nat.eq_zero_or_pos fewer with rfl | several
      · have some : 0 < rest.length := by
          cases shortest <;> simp
        constructor
        · intro single
          omega
        · exact fun representable => (notYet representable).elim
      · have parts : number = payload byte + 128 * (number / 128) := by
          unfold payload
          omega
        have width : 7 * (fewer + 1) - 7 = 7 * fewer := by omega
        have step : Representable signed (7 * (fewer + 1)) number ↔
            Representable signed (7 * fewer) (number / 128) := by
          conv_lhs => rw [parts]
          rw [representable_group_iff (by omega), width]
        rw [step, ← induction several]
        omega

end Shortest

theorem toNat_low_unsigned (value : UInt64) :
    (value &&& 0x7F).toUInt8.toNat = value.toNat % 128 := by
  have mask : (0x7F : UInt64).toNat = 2 ^ 7 - 1 := rfl
  rw [UInt64.toNat_toUInt8, UInt64.toNat_and, mask,
    Nat.and_two_pow_sub_one_eq_mod]
  omega

theorem toNat_low_signed (value : Int64) :
    ((value &&& 0x7F).toUInt64.toUInt8.toNat : Int) = value.toInt % 128 := by
  have same : value.toUInt64 = UInt64.ofInt value.toInt := by
    rw [← UInt64.toUInt64_toInt64 (UInt64.ofInt value.toInt), toInt64_ofInt,
      Int64.ofInt_toInt]
  have word := toNat_ofInt value.toInt
  change ((value.toUInt64 &&& 0x7F).toUInt8.toNat : Int) = _
  rw [toNat_low_unsigned, same]
  omega

theorem toNat_or_continuation {byte : UInt8} (low : byte.toNat < 128) :
    (byte ||| 0x80).toNat = byte.toNat + 128 := by
  have flag : (0x80 : UInt8).toNat = 2 ^ 7 * 1 := rfl
  rw [UInt8.toNat_or, flag, Nat.or_comm, ← Nat.two_pow_add_eq_or_of_lt low,
    Nat.add_comm]

theorem and_sign_eq_zero_iff {byte : UInt8} (low : byte.toNat < 128) :
    byte &&& 0x40 = 0 ↔ byte.toNat < 64 := by
  have flag : (0x40 : UInt8).toNat = 2 ^ 6 := rfl
  have zero : (0 : UInt8).toNat = 0 := rfl
  rw [← UInt8.toNat_inj, UInt8.toNat_and, flag, zero, Nat.and_two_pow,
    Nat.testBit_eq_decide_div_mod_eq, Nat.mul_eq_zero, Bool.toNat_eq_zero,
    decide_eq_false_iff_not]
  omega

theorem shortest_encodeUnsigned (value : UInt64) :
    Shortest false value.toNat (encodeUnsigned value) := by
  fun_induction encodeUnsigned value with
  | case1 value byte higher done =>
      have small := toNat_shiftRight_seven value
      have low := toNat_low_unsigned value
      have zero : (value >>> 7).toNat = 0 := congrArg UInt64.toNat done
      refine .final ⟨by omega, by omega⟩ ?_
      rw [low]
      omega
  | case2 value byte higher more induction =>
      have small := toNat_shiftRight_seven value
      have low : byte.toNat = value.toNat % 128 := toNat_low_unsigned value
      have nonzero : (value >>> 7).toNat ≠ 0 := fun zero =>
          more (UInt64.toNat_inj.mp zero)
      have large : ¬Representable false 7 value.toNat := by
        intro parts
        obtain ⟨least, greatest⟩ := parts
        omega
      have rest : ((value >>> 7).toNat : Int) = (value.toNat : Int) / 128 := by
        omega
      rw [rest] at induction
      refine .more large ?_ induction
      rw [toNat_or_continuation (by omega), low]
      omega

theorem shortest_encodeSigned (value : Int64) :
    Shortest true value.toInt (encodeSigned value) := by
  -- The stopping test says that seven bits hold the value.
  have stops : ∀ value : Int64,
      ((value >>> 7 = 0 ∧ (value &&& 0x7F).toUInt64.toUInt8 &&& 0x40 = 0) ∨
        (value >>> 7 = -1 ∧ (value &&& 0x7F).toUInt64.toUInt8 &&& 0x40 ≠ 0)) ↔
      Representable true 7 value.toInt := by
    intro value
    have shifted := toInt_shiftRight_seven value
    have low := toNat_low_signed value
    have zero : (0 : Int64).toInt = 0 := rfl
    have minusOne : (-1 : Int64).toInt = -1 := rfl
    rw [Ne,
      and_sign_eq_zero_iff (by omega), ← Int64.toInt_inj, ← Int64.toInt_inj,
      shifted, zero, minusOne]
    change _ ↔ -2 ^ 7 ≤ 2 * value.toInt ∧ 2 * value.toInt < 2 ^ 7
    omega
  fun_induction encodeSigned value with
  | case1 value byte higher done =>
      exact .final ((stops value).mp done) (toNat_low_signed value)
  | case2 value byte higher more induction =>
      have low : (byte.toNat : Int) = value.toInt % 128 :=
        toNat_low_signed value
      have rest : (value >>> 7).toInt = value.toInt / 128 :=
        toInt_shiftRight_seven value
      rw [rest] at induction
      refine .more (fun representable => more ((stops value).mpr representable))
        ?_ induction
      rw [toNat_or_continuation (by omega)]
      omega

section Reading

variable {α : Type}

/-- The decoder reads the bytes as the value and stops behind them, whatever
follows. -/
def Reads (decoder : Decoder α) (bytes : List UInt8) (value : α) : Prop :=
  ∀ position rest, decoder ⟨position, bytes ++ rest⟩ =
    .ok (value, ⟨position + bytes.length, rest⟩)

/-- The decoder reads the value only from that many bytes or more. -/
def Needs (decoder : Decoder α) (value : α) (count : Nat) : Prop :=
  ∀ cursor after, decoder cursor = .ok (value, after) →
    ∃ consumed, cursor.rest = consumed ++ after.rest ∧
      after.position = cursor.position + consumed.length ∧
        count ≤ consumed.length

theorem FixedWidth.reads_shortest (type : FixedWidth α) {value : α}
    {bytes : List UInt8}
    (shortest : Shortest type.signed (type.integer value) bytes) :
    Reads type.decoder bytes value := by
  intro position rest
  have positive : 0 < type.groups := by
    have := type.positive
    unfold FixedWidth.groups
    omega
  have short : bytes.length ≤ type.groups := by
    apply (shortest.length_le_iff positive).mpr
    apply (type.representable value).mono
    unfold FixedWidth.groups
    omega
  obtain ⟨encoding, rfl, number⟩ := shortest.exists_encoding
  rw [encoding.length_bytes] at short ⊢
  exact type.decoder_eq_ok_iff.mpr ⟨encoding, short, number, rfl, rfl⟩

theorem FixedWidth.needs_shortest (type : FixedWidth α) {value : α}
    {bytes : List UInt8}
    (shortest : Shortest type.signed (type.integer value) bytes) :
    Needs type.decoder value bytes.length := by
  intro cursor after run
  obtain ⟨encoding, short, number, same, position⟩ :=
    type.decoder_eq_ok_iff.mp run
  refine ⟨encoding.bytes, same, by simpa using position, ?_⟩
  have representable := encoding.representable_length type.signed
  rw [number] at representable
  rw [encoding.length_bytes]
  exact (shortest.length_le_iff (Nat.succ_pos _)).mpr representable

end Reading

theorem singleGroup_of_fits {byte : UInt8} {width : Nat} {signed : Bool}
    (finished : continues byte = false)
    (fitting : fits (payload byte) width signed = true) (position : Nat)
    (rest : List UInt8) :
    singleGroup width signed ⟨position, byte :: rest⟩ =
      .ok (UInt64.ofInt (finalNumber (groupSign signed) byte),
        ⟨position + 1, rest⟩) := by
  have word := finalGroup_eq_ofInt signed 0 byte
  rw [pow_zero, one_mul] at word
  rw [← word]
  unfold singleGroup Decoder.byteMap finalGroup
  simp only [finished, fitting, Bool.not_true, Bool.or_self, Bool.false_eq_true,
    if_false]
  cases signed && (payload byte).testBit 6 <;> rfl

/-- A decoder of any length reads the shortest encoding of every integer that
its width holds. -/
theorem wrapping_reads_shortest {rule : SignRule} {bits : Nat}
    (narrow : bits ≤ 64) {number : Int} {bytes : List UInt8}
    (shortest : Shortest rule.isSigned number bytes)
    (representable : Representable rule.isSigned bits number) :
    Reads (wrapping rule bits) bytes (UInt64.ofInt number) := by
  intro position rest
  have width : min bits 64 = bits := Nat.min_eq_left narrow
  by_cases single : bits ≤ 7
  · have fitting := representable
    cases shortest with
    | @final _ byte seven low =>
        obtain ⟨encoding, bytes, value⟩ :=
          (Shortest.final seven low).exists_encoding
        obtain ⟨initial, final, continuing, finished⟩ := encoding
        have empty : initial = [] := by
          have length := congrArg List.length bytes
          simpa [Encoding.bytes] using length
        subst empty
        obtain rfl : final = byte := by simpa [Encoding.bytes] using bytes
        change finalNumber (groupSign rule.isSigned) final = number at value
        rw [← value] at fitting ⊢
        have run := singleGroup_of_fits finished
          ((fits_iff_representable final bits rule.isSigned).mpr fitting)
            position rest
        unfold wrapping
        simp only [width, single, if_true]
        exact run
    | more notYet low later => exact (notYet (representable.mono single)).elim
  · have short : bytes.length ≤ (bits + 6) / 7 :=
      (shortest.length_le_iff (by omega)).mpr (representable.mono (by omega))
    obtain ⟨encoding, rfl, value⟩ := shortest.exists_encoding
    have room : 7 * encoding.initial.length < bits := by
      rw [encoding.length_bytes] at short
      unfold Encoding.length at short
      omega
    have held := representable
    rw [← value] at held
    rw [wrapping_encoding (by omega), width,
      encoding.number_signBit room held, value, encoding.length_bytes]

/-- The integers of a signed type of some bits. -/
def SignedRange (bits : Nat) (number : Int) : Prop :=
  match bits with
  | 0 => number = 0
  | rest + 1 => -2 ^ rest ≤ number ∧ number < 2 ^ rest

theorem representable_of_signedRange {bits : Nat} {number : Int}
    (inside : SignedRange bits number) : Representable true bits number := by
  cases bits with
  | zero =>
      obtain rfl : number = 0 := inside
      exact ⟨by decide, by decide⟩
  | succ rest =>
      obtain ⟨least, greatest⟩ : -2 ^ rest ≤ number ∧ number < 2 ^ rest :=
        inside
      have power : (2 : Int) ^ (rest + 1) = 2 * 2 ^ rest := by ring
      change -2 ^ (rest + 1) ≤ 2 * number ∧ 2 * number < 2 ^ (rest + 1)
      omega

theorem wrapping_reads_encodeSigned {rule : SignRule} {bits : Nat}
    (signed : rule.isSigned = true) (narrow : bits ≤ 64) {value : Int64}
    (inside : SignedRange bits value.toInt) :
    Reads (do let word ← wrapping rule bits; pure word.toInt64)
      (encodeSigned value) value := by
  intro position rest
  have shortest := shortest_encodeSigned value
  have representable := representable_of_signedRange inside
  rw [← signed] at shortest representable
  have run :=
    wrapping_reads_shortest narrow shortest representable position rest
  have same : (UInt64.ofInt value.toInt).toInt64 = value := by
    rw [toInt64_ofInt, Int64.ofInt_toInt]
  apply Decoder.bind_eq_ok_iff.mpr
  refine ⟨_, _, run, ?_⟩
  rw [same]
  rfl

/-- The shortest encoding of an integer is read back by every decoder whose
width holds the integer, and the typed decoders read no shorter one. -/
theorem shortest_encodings_are_read_back :
    (∀ value : UInt32,
      Reads uint32 (encodeUnsigned value.toUInt64) value ∧
      Needs uint32 value (encodeUnsigned value.toUInt64).length) ∧
    (∀ value : Int32,
      Reads sint32 (encodeSigned value.toInt64) value ∧
      Needs sint32 value (encodeSigned value.toInt64).length) ∧
    (∀ value : Int64,
      Reads sint64 (encodeSigned value) value ∧
      Needs sint64 value (encodeSigned value).length) ∧
    (∀ bits, bits ≤ 64 → ∀ value : UInt64, value.toNat < 2 ^ bits →
      Reads (uint bits) (encodeUnsigned value) value) ∧
    (∀ bits, bits ≤ 64 → ∀ value : Int64, SignedRange bits value.toInt →
      Reads (sint bits) (encodeSigned value) value ∧
      Reads (int bits) (encodeSigned value) value) := by
  refine ⟨?_, ?_, ?_, ?_, ?_⟩
  · intro value
    have shortest :
        Shortest false value.toNat (encodeUnsigned value.toUInt64) :=
      shortest_encodeUnsigned value.toUInt64
    exact ⟨FixedWidth.unsigned32.reads_shortest shortest,
      FixedWidth.unsigned32.needs_shortest shortest⟩
  · intro value
    have shortest := shortest_encodeSigned value.toInt64
    rw [Int32.toInt_toInt64] at shortest
    exact ⟨FixedWidth.signed32.reads_shortest shortest,
      FixedWidth.signed32.needs_shortest shortest⟩
  · intro value
    have shortest := shortest_encodeSigned value
    exact ⟨FixedWidth.signed64.reads_shortest shortest,
      FixedWidth.signed64.needs_shortest shortest⟩
  · intro bits narrow value inside
    have representable : Representable false bits value.toNat :=
      ⟨by omega, by exact_mod_cast inside⟩
    have read : Reads (wrapping .unsigned bits) (encodeUnsigned value) _ :=
      wrapping_reads_shortest narrow (shortest_encodeUnsigned value)
        representable
    rw [ofInt_natCast, UInt64.ofNat_toNat] at read
    exact read
  · intro bits narrow value inside
    have signed : ∀ rule : SignRule, rule.isSigned = true →
        Reads (do let word ← wrapping rule bits; pure word.toInt64)
          (encodeSigned value) value :=
      fun rule signed => wrapping_reads_encodeSigned signed narrow inside
    exact ⟨signed .finalGroup rfl, signed .belowWidth rfl⟩

theorem greatest_and_least_eight_bits_are_read_back :
    (encodeUnsigned 255 = [0xFF, 0x01] ∧ (255 : UInt64).toNat < 2 ^ 8 ∧
      Reads (uint 8) [0xFF, 0x01] 255) ∧
    (encodeSigned (-128) = [0x80, 0x7F] ∧ SignedRange 8 (-128 : Int64).toInt ∧
      Reads (sint 8) [0x80, 0x7F] (-128) ∧
        Reads (int 8) [0x80, 0x7F] (-128)) := by
  obtain ⟨_, _, _, unsigned, signed⟩ := shortest_encodings_are_read_back
  have large : encodeUnsigned 255 = [0xFF, 0x01] := by
    rw [encodeUnsigned, encodeUnsigned]
    rfl
  have least : encodeSigned (-128) = [0x80, 0x7F] := by
    rw [encodeSigned, encodeSigned]
    rfl
  have below : (255 : UInt64).toNat < 2 ^ 8 := by decide
  have inside : SignedRange 8 (-128 : Int64).toInt := ⟨by decide, by decide⟩
  have readUnsigned := unsigned 8 (by decide) 255 below
  have readSigned := signed 8 (by decide) (-128) inside
  rw [large] at readUnsigned
  rw [least] at readSigned
  exact ⟨⟨large, below, readUnsigned⟩, least, inside, readSigned⟩

end Wasm.Leb128

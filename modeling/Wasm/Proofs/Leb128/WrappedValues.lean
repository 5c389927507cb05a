import Wasm.Proofs.Leb128.ExactValues
import Wasm.Proofs.Leb128.Minimal

/-!
# What the decoders of any length answer on every input

An integer of at most seven bits is one group, whose number has to lie in the
range of the width.  Any wider integer goes up to the first byte whose highest
bit is clear, and its groups are summed modulo 2 ^ 64.  A sign that lies in the
word fills the word from the sign upwards; the three decoders differ only in
where they look for it.
-/

namespace Wasm.Leb128

/-! ## Numbers -/

/-- The low seven bits of a byte as a number, in two's complement if it is
signed. -/
def sevenBitNumber (signed : Bool) (byte : UInt8) : Int :=
  if signed = true ∧ 64 ≤ byte.toNat % 128 then
    (byte.toNat % 128 : Nat) - 128
  else
    (byte.toNat % 128 : Nat)

/-- The range of a width.  A signed number without bits is zero. -/
def InWidth (signed : Bool) (width : Nat) (number : Int) : Prop :=
  match signed with
  | false => 0 ≤ number ∧ number < 2 ^ width
  | true => SignedRange width number

/-- The sum of groups as a signed 64-bit integer, where bit `sign` of the last
group is the sign.  A sign that is set fills the word if it lies below the
word's own sign. -/
def signedSum (sign last : Nat) (groups : List UInt8) : Int :=
  if groups.getLast?.any (fun byte => byte.toNat.testBit sign) = true ∧
      7 * last + sign + 1 < 64 then
    (groupSum groups % 2 ^ (7 * last + sign + 1) : Nat) -
      2 ^ (7 * last + sign + 1)
  else
    (UInt64.ofNat (groupSum groups)).toInt64.toInt

/-- The highest bit of a group that lies below a width, or bit 6 of a group
beyond it. -/
def signBelow (width last : Nat) : Nat :=
  if 7 * last < width then min 6 (width - 7 * last - 1) else 6

theorem inWidth_iff_representable {signed : Bool} {width : Nat} {number : Int} :
    InWidth signed width number ↔ Representable signed width number := by
  cases signed with
  | false => exact Iff.rfl
  | true =>
      constructor
      · exact representable_of_signedRange
      · intro representable
        obtain ⟨least, greatest⟩ :
          -2 ^ width ≤ 2 * number ∧ 2 * number < 2 ^ width := representable
        cases width with
        | zero =>
            change number = 0
            omega
        | succ rest =>
            have power : (2 : Int) ^ (rest + 1) = 2 * 2 ^ rest := by ring
            change -2 ^ rest ≤ number ∧ number < 2 ^ rest
            omega

theorem finalNumber_eq_sevenBitNumber (signed : Bool) (byte : UInt8) :
    finalNumber (groupSign signed) byte = sevenBitNumber signed byte :=
  finalNumber_groupSign signed byte

theorem sevenBitNumber_bounds (signed : Bool) (byte : UInt8) :
    -64 ≤ sevenBitNumber signed byte ∧ sevenBitNumber signed byte < 128 := by
  unfold sevenBitNumber
  split <;> omega

/-- A sign behind the word changes nothing in the word. -/
theorem ofInt_sub_two_pow {width : Nat} (wide : 64 ≤ width) (number : Nat) :
    UInt64.ofInt ((number % 2 ^ width : Nat) - 2 ^ width) =
      UInt64.ofNat number := by
  have multiple : (2 : Int) ^ 64 ∣ 2 ^ width := pow_dvd_pow 2 wide
  rw [← ofInt_natCast]
  apply UInt64.toNat_inj.mp
  rw [← Int.natCast_inj, toNat_ofInt, toNat_ofInt, Int.natCast_mod,
    Nat.cast_pow, Nat.cast_ofNat, Int.sub_emod,
    Int.emod_eq_zero_of_dvd multiple, sub_zero, Int.emod_emod,
    Int.emod_emod_of_dvd _ multiple]

theorem Encoding.toInt_number (encoding : Encoding) {sign : Nat}
    (low : sign < 7) :
    (UInt64.ofInt (encoding.number (some sign))).toInt64.toInt =
      signedSum sign encoding.initial.length encoding.bytes := by
  have last : encoding.bytes.getLast? = some encoding.final :=
    List.getLast?_concat
  have same := testBit_payload low encoding.final
  unfold signedSum
  rw [last, Option.any_some]
  cases set : encoding.final.toNat.testBit sign with
  | false =>
      rw [encoding.number_of_sign_clear (same.trans set), ofInt_natCast]
      simp
  | true =>
      rw [encoding.number_of_sign_set (same.trans set)]
      generalize 7 * encoding.initial.length + sign + 1 = width
      by_cases inside : width < 64
      · have bound : (2 : Int) ^ width ≤ 2 ^ 63 :=
          pow_le_pow_right₀ (by decide) (Nat.le_of_lt_succ inside)
        have small : groupSum encoding.bytes % 2 ^ width < 2 ^ width :=
          Nat.mod_lt _ (Nat.two_pow_pos width)
        have smallInt :
            ((groupSum encoding.bytes % 2 ^ width : Nat) : Int) <
              2 ^ width := by
          exact_mod_cast small
        rw [if_pos ⟨rfl, inside⟩, toInt64_ofInt]
        exact Int64.toInt_ofInt_of_le (by omega) (by omega)
      · rw [if_neg (by simp [inside]),
          ofInt_sub_two_pow (Nat.le_of_not_lt inside)]

/-! ## Answers -/

/-- The answers of a decoder that reads one group and checks its range. -/
structure ReadsOneGroup {α : Type} (decoder : Decoder α) (integer : α → Int)
    (signed : Bool) (width : Nat) : Prop where
  ending :
    ∀ position, decoder ⟨position, []⟩ = .error (.recoverable .unexpectedEnd)
  reads : ∀ position byte rest, byte.toNat < 128 →
    InWidth signed width (sevenBitNumber signed byte) →
      ∃ value, integer value = sevenBitNumber signed byte ∧
        decoder ⟨position, byte :: rest⟩ = .ok (value, ⟨position + 1, rest⟩)
  refuses : ∀ position byte rest,
    ¬(byte.toNat < 128 ∧ InWidth signed width (sevenBitNumber signed byte)) →
      decoder ⟨position, byte :: rest⟩ =
        .error (.recoverable (.unexpected byte position))

/-- The answers of a decoder that reads all groups, of which the integer that
`answer` says is made.  It fails only if there is no final group. -/
structure ReadsAllGroups {α : Type} (decoder : Decoder α) (integer : α → Int)
    (answer : Nat → List UInt8 → Int) : Prop where
  ending : ∀ cursor : ByteCursor, finalIndex? cursor.rest = none →
    decoder cursor = .error (.recoverable .unexpectedEnd)
  reads : ∀ (cursor : ByteCursor) (last : Nat),
    finalIndex? cursor.rest = some last →
    ∃ value, integer value = answer last (cursor.rest.take (last + 1)) ∧
      decoder cursor =
        .ok (value, ⟨cursor.position + last + 1, cursor.rest.drop (last + 1)⟩)

section Words

variable {α : Type} {rule : SignRule} {bits : Nat} {convert : UInt64 → α}
  {integer : α → Int}

theorem singleGroup_of_not_fits {byte : UInt8} {width : Nat} {signed : Bool}
    (unfit :
      ¬(continues byte = false ∧ fits (payload byte) width signed = true))
    (position : Nat) (rest : List UInt8) :
    singleGroup width signed ⟨position, byte :: rest⟩ =
      .error (.recoverable (.unexpected byte position)) := by
  have refused :
      (continues byte || !fits (payload byte) width signed) = true := by
    cases more : continues byte with
    | true => rfl
    | false =>
        cases fitting : fits (payload byte) width signed with
        | true => exact absurd ⟨more, fitting⟩ unfit
        | false => rfl
  unfold singleGroup Decoder.byteMap
  simp only [refused, if_true]

/-- Words that are converted are read as the words are. -/
theorem readsOneGroup_of_words (single : min bits 64 ≤ 7)
    (converted : ∀ number : Int, -64 ≤ number → number < 128 →
      (rule.isSigned = false → 0 ≤ number) →
        integer (convert (UInt64.ofInt number)) = number) :
    ReadsOneGroup (do let word ← wrapping rule bits; pure (convert word))
      integer rule.isSigned (min bits 64) := by
  have run : wrapping rule bits = singleGroup (min bits 64) rule.isSigned := by
    unfold wrapping
    simp only [single, if_true]
  rw [run]
  constructor
  · intro position
    rfl
  · intro position byte rest low inside
    have bounds := sevenBitNumber_bounds rule.isSigned byte
    have fitting : fits (payload byte) (min bits 64) rule.isSigned = true := by
      rw [fits_iff_representable, finalNumber_eq_sevenBitNumber]
      exact inWidth_iff_representable.mp inside
    have read :=
      singleGroup_of_fits (toNat_lt_iff_not_continues.mp low) fitting
        position rest
    rw [finalNumber_eq_sevenBitNumber] at read
    have unsigned : rule.isSigned = false →
        0 ≤ sevenBitNumber rule.isSigned byte := by
      intro plain
      rw [sevenBitNumber, plain]
      exact Int.natCast_nonneg _
    exact ⟨_, converted _ bounds.1 bounds.2 unsigned,
      Decoder.bind_eq_ok_iff.mpr ⟨_, _, read, rfl⟩⟩
  · intro position byte rest outside
    have unfit : ¬(continues byte = false ∧
        fits (payload byte) (min bits 64) rule.isSigned = true) := by
      rw [fits_iff_representable, finalNumber_eq_sevenBitNumber,
        ← inWidth_iff_representable, ← toNat_lt_iff_not_continues]
      exact outside
    change (singleGroup _ _ ⟨position, byte :: rest⟩ >>= _) = _
    rw [singleGroup_of_not_fits unfit]
    rfl

theorem readsAllGroups_of_words (wide : 7 < bits)
    {answer : Nat → List UInt8 → Int}
    (converted : ∀ encoding : Encoding,
      integer (convert (UInt64.ofInt (encoding.number
          (rule.signBit? (min bits 64) (7 * encoding.initial.length))))) =
        answer encoding.initial.length encoding.bytes) :
    ReadsAllGroups (do let word ← wrapping rule bits; pure (convert word))
      integer answer := by
  constructor
  · intro cursor absent
    have failed :
        wrapping rule bits cursor = .error (.recoverable .unexpectedEnd) :=
      wrapping_unfinished wide (finalIndex?_eq_none_iff.mp absent)
        cursor.position
    change (wrapping rule bits cursor >>= _) = _
    rw [failed]
    rfl
  · intro cursor last found
    obtain ⟨encoding, whole, front, rfl⟩ := exists_encoding_of_finalIndex? found
    have run : wrapping rule bits ⟨cursor.position, _⟩ = _ :=
      wrapping_encoding wide encoding cursor.position
        (cursor.rest.drop (encoding.initial.length + 1))
    rw [← whole] at run
    rw [front]
    exact ⟨_, converted encoding, Decoder.bind_eq_ok_iff.mpr ⟨_, _, run, rfl⟩⟩

/-- Only the rule that looks below the width depends on the width. -/
theorem wrapping_eq_of_signBit? {other : Nat} (wide : 7 < bits)
    (otherWide : 7 < other)
    (same : ∀ shift, rule.signBit? (min other 64) shift =
      rule.signBit? (min bits 64) shift) :
    wrapping rule other = wrapping rule bits := by
  funext cursor
  obtain ⟨position, input⟩ := cursor
  rcases Encoding.starts_or_unfinished input with
      ⟨encoding, rest, rfl⟩ | unfinished
  · rw [wrapping_encoding wide, wrapping_encoding otherWide, same]
  · rw [wrapping_unfinished wide unfinished,
      wrapping_unfinished otherWide unfinished]

end Words

/-- A decoder of any length reads one group in range or all groups wrapped, by
its width, and where the width is not looked at for a sign it makes no other
difference. -/
theorem generic_decoders_wrap (bits : Nat) :
    (min bits 64 ≤ 7 →
      ReadsOneGroup (uint bits) (fun value => value.toNat) false (min bits 64) ∧
      ReadsOneGroup (sint bits) Int64.toInt true (min bits 64) ∧
      ReadsOneGroup (int bits) Int64.toInt true (min bits 64)) ∧
    (7 < min bits 64 →
      ReadsAllGroups (uint bits) (fun value => value.toNat)
        (fun _ groups => (groupSum groups % 2 ^ 64 : Nat)) ∧
      ReadsAllGroups (sint bits) Int64.toInt (fun last => signedSum 6 last) ∧
      ReadsAllGroups (int bits) Int64.toInt
        (fun last => signedSum (signBelow (min bits 64) last) last) ∧
      ∀ other, 7 < other → uint other = uint bits ∧
        sint other = sint bits) := by
  have plain :
      uint bits = (do let word ← wrapping .unsigned bits; pure (id word)) :=
    (bind_pure _).symm
  rw [plain]
  constructor
  · intro single
    have signed : ∀ number : Int, -64 ≤ number → number < 128 →
        (true = false → 0 ≤ number) →
        (UInt64.ofInt number).toInt64.toInt = number := by
      intro number least greatest _
      rw [toInt64_ofInt]
      exact Int64.toInt_ofInt_of_le (by omega) (by omega)
    refine ⟨readsOneGroup_of_words single ?_,
      readsOneGroup_of_words single signed,
      readsOneGroup_of_words single signed⟩
    intro number _ greatest unsigned
    have positive := unsigned rfl
    rw [id, toNat_ofInt]
    omega
  · intro wide
    have wider : 7 < bits := by omega
    have signs : ∀ last, signBelow (min bits 64) last < 7 := by
      intro last
      unfold signBelow
      split <;> omega
    refine ⟨readsAllGroups_of_words wider ?_, readsAllGroups_of_words wider ?_,
      readsAllGroups_of_words wider ?_, ?_⟩
    · intro encoding
      change ((UInt64.ofInt (encoding.number none)).toNat : Int) = _
      rw [encoding.number_none, ofInt_natCast, UInt64.toNat_ofNat']
    · intro encoding
      exact encoding.toInt_number (by decide)
    · intro encoding
      exact encoding.toInt_number (signs encoding.initial.length)
    · intro other otherWide
      rw [← plain]
      have unsigned : wrapping .unsigned other = wrapping .unsigned bits :=
        wrapping_eq_of_signBit? wider otherWide fun _ => rfl
      have final : wrapping .finalGroup other = wrapping .finalGroup bits :=
        wrapping_eq_of_signBit? wider otherWide fun _ => rfl
      refine ⟨unsigned, ?_⟩
      rw [sint, final]
      rfl

/-- A final group that straddles the width, read by both signed decoders, a
group out of the range of one bit, and ten groups whose sum goes beyond the
word. -/
theorem generic_decoders_wrap_at_straddling_group :
    (∃ value, int 8 ⟨3, [0x80, 0x01, 0x05]⟩ = .ok (value, ⟨5, [0x05]⟩) ∧
      value.toInt = -128) ∧
    (∃ value, sint 8 ⟨3, [0x80, 0x01, 0x05]⟩ = .ok (value, ⟨5, [0x05]⟩) ∧
      value.toInt = 128) ∧
    sint 1 ⟨0, [0x01]⟩ = .error (.recoverable (.unexpected 0x01 0)) ∧
    (∃ value, uint 200 ⟨0, List.replicate 9 0x80 ++ [0x03]⟩ =
      .ok (value, ⟨10, []⟩) ∧
      (value.toNat : Int) = 2 ^ 63) := by
  obtain ⟨_, signed, plain, _⟩ := (generic_decoders_wrap 8).2 (by decide)
  obtain ⟨_, single, _⟩ := (generic_decoders_wrap 1).1 (by decide)
  obtain ⟨unsigned, _⟩ := (generic_decoders_wrap 200).2 (by decide)
  refine ⟨?_, ?_, ?_, ?_⟩
  · obtain ⟨value, integer, read⟩ := plain.reads ⟨3, [0x80, 0x01, 0x05]⟩ 1 rfl
    exact ⟨value, read, integer.trans (by decide)⟩
  · obtain ⟨value, integer, read⟩ := signed.reads ⟨3, [0x80, 0x01, 0x05]⟩ 1 rfl
    exact ⟨value, read, integer.trans (by decide)⟩
  · refine single.refuses 0 0x01 [] ?_
    rintro ⟨_, inside⟩
    have impossible : ¬((1 : Int) < 2 ^ 0) := by decide
    exact impossible inside.2
  · obtain ⟨value, integer, read⟩ :=
      unsigned.reads ⟨0, List.replicate 9 0x80 ++ [0x03]⟩ 9 rfl
    exact ⟨value, read, integer.trans (by decide)⟩

end Wasm.Leb128

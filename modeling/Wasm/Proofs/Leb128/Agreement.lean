import Wasm.Proofs.Leb128.FixedWidth

/-!
# Agreement of the integer decoders

A decoder of a fixed width answers as the decoder of any length does, except
that it refuses an encoding at the last permitted group.  The two rules for the
sign of an integer of any length differ only where the final group straddles the
width with bits that disagree.
-/

namespace Wasm.Leb128

/-- The bits of a final group at bit `shift` settle its sign for both sign
rules: the group does not straddle the width, or its bits from the width's sign
bit upwards are equal. -/
def SignSettled (width shift : Nat) (byte : UInt8) : Prop :=
  shift + 7 ≤ width ∨ width ≤ shift ∨
    (shift < width ∧ width < shift + 7 ∧
      ∀ bit, width - shift - 1 ≤ bit → bit ≤ 6 →
        (payload byte).testBit bit = (payload byte).testBit 6)

theorem finalNumber_succ {byte : UInt8} {bit : Nat}
    (equal : (payload byte).testBit bit = (payload byte).testBit (bit + 1)) :
    finalNumber (some (bit + 1)) byte = finalNumber (some bit) byte := by
  unfold finalNumber
  simp only [equal]
  cases negative : (payload byte).testBit (bit + 1) with
  | false => rfl
  | true =>
      have set : payload byte / 2 ^ (bit + 1) % 2 = 1 := by
        rwa [Nat.testBit_eq_decide_div_mod_eq, decide_eq_true_eq] at negative
      have higher : payload byte % 2 ^ (bit + 1 + 1) =
          payload byte % 2 ^ (bit + 1) + 2 ^ (bit + 1) := by
        rw [Nat.mod_pow_succ, set, Nat.mul_one]
      have power : (2 : Int) ^ (bit + 1 + 1) = 2 * 2 ^ (bit + 1) := by ring
      simp only [if_true, higher, power]
      push_cast
      ring

/-- Equal bits may all serve as the sign bit. -/
theorem finalNumber_of_equal_bits {byte : UInt8} {bit : Nat} (low : bit ≤ 6)
    (equal : ∀ index, bit ≤ index → index ≤ 6 →
      (payload byte).testBit index = (payload byte).testBit 6) :
    finalNumber (some bit) byte = finalNumber (some 6) byte := by
  have upwards : ∀ count, bit + count ≤ 6 →
      finalNumber (some (bit + count)) byte = finalNumber (some bit) byte := by
    intro count
    induction count with
    | zero => exact fun _ => rfl
    | succ count induction =>
        intro inside
        have step := (equal (bit + count) (by omega) (by omega)).trans
          (equal (bit + (count + 1)) (by omega) inside).symm
        exact (finalNumber_succ step).trans (induction (by omega))
  have top := upwards (6 - bit) (by omega)
  rw [Nat.add_sub_cancel' low] at top
  exact top.symm

theorem finalNumber_belowWidth {width shift : Nat} {byte : UInt8}
    (settled : SignSettled width shift byte) :
    finalNumber (SignRule.belowWidth.signBit? width shift) byte =
      finalNumber (some 6) byte := by
  unfold SignRule.signBit?
  rcases settled with below | above | ⟨inside, straddling, equal⟩
  · have bit : min 6 (width - shift - 1) = 6 := by omega
    have inside : shift < width := by omega
    simp only [inside, bit, if_true]
  · have outside : ¬shift < width := by omega
    simp only [outside, if_false]
  · have bit : min 6 (width - shift - 1) = width - shift - 1 := by omega
    simp only [inside, bit, if_true]
    exact finalNumber_of_equal_bits (by omega) equal

/-- A signed number that the width holds has its sign settled. -/
theorem signSettled_of_fits {width shift : Nat} {byte : UInt8}
    (inside : shift < width)
    (fitting : fits (payload byte) (width - shift) true = true) :
    SignSettled width shift byte := by
  by_cases below : shift + 7 ≤ width
  · exact .inl below
  · right
    right
    refine ⟨inside, by omega, ?_⟩
    intro bit above top
    have narrow : ¬7 ≤ width - shift := by omega
    have nonzero : ¬width - shift = 0 := by omega
    simp only [fits, narrow, nonzero, if_false, if_true, Bool.or_eq_true,
      beq_iff_eq] at fitting
    have moved : ∀ index, width - shift - 1 ≤ index →
        (payload byte).testBit index =
        (payload byte >>> (width - shift - 1)).testBit
          (index - (width - shift - 1)) := by
      intro index high
      rw [Nat.testBit_shiftRight, Nat.add_sub_cancel' high]
    rw [moved bit above, moved 6 (by omega)]
    rcases fitting with clear | full
    · simp [clear]
    · have ones : ∀ index, width - shift - 1 ≤ index → index ≤ 6 →
          (127 >>> (width - shift - 1)).testBit (index - (width - shift - 1)) =
            true := by
        intro index high low
        rw [Nat.testBit_shiftRight, Nat.add_sub_cancel' high]
        interval_cases index <;> rfl
      rw [full, ones bit above top, ones 6 (by omega) (by omega)]

/-- The decoder refuses the byte at an offset from the cursor. -/
def Refuses {α : Type} (decoder : Decoder α) (cursor : ByteCursor)
    (offset : Nat) : Prop :=
  ∃ byte, cursor.rest[offset]? = some byte ∧
    decoder cursor =
      .error (.recoverable (.unexpected byte (cursor.position + offset)))

/-- A strict decoder of at most `groups` groups beside a generic one: what the
strict one reads the generic one reads too, and what the generic one reads the
strict one reads or refuses, by the number of groups. -/
structure StricterThan {α β : Type} (strict : Decoder α) (generic : Decoder β)
    (widen : α → β) (groups : Nat) : Prop where
  success : ∀ {cursor after : ByteCursor} {value : α},
    strict cursor = .ok (value, after) →
      generic cursor = .ok (widen value, after)
  answer : ∀ {cursor after : ByteCursor} {wide : β},
    generic cursor = .ok (wide, after) →
      ∃ consumed : List UInt8,
        cursor.rest = consumed ++ after.rest ∧
        after.position = cursor.position + consumed.length ∧
        (consumed.length < groups →
          ∃ value, strict cursor = .ok (value, after) ∧ widen value = wide) ∧
        (consumed.length = groups →
          (∃ value, strict cursor = .ok (value, after) ∧ widen value = wide) ∨
            Refuses strict cursor (groups - 1)) ∧
        (groups < consumed.length → Refuses strict cursor (groups - 1))

theorem StricterThan.map {α β γ : Type} {strict : Decoder α}
    {generic : Decoder β} {widen : α → β} {groups : Nat}
    (stricter : StricterThan strict generic widen groups) (convert : β → γ) :
    StricterThan strict (do let wide ← generic; pure (convert wide))
      (fun value => convert (widen value)) groups := by
  constructor
  · intro cursor after value run
    exact Decoder.bind_eq_ok_iff.mpr ⟨_, _, stricter.success run, rfl⟩
  · intro cursor after wide run
    obtain ⟨middle, between, ran, result⟩ := Decoder.bind_eq_ok_iff.mp run
    cases result
    obtain ⟨consumed, bytes, position, short, exact, long⟩ :=
      stricter.answer ran
    refine ⟨consumed, bytes, position, ?_, ?_, long⟩
    · intro few
      obtain ⟨value, strictRun, same⟩ := short few
      exact ⟨value, strictRun, congrArg convert same⟩
    · intro all
      rcases exact all with ⟨value, strictRun, same⟩ | refused
      · exact .inl ⟨value, strictRun, congrArg convert same⟩
      · exact .inr refused

/-- Where a width holds the number, every sign rule of its signedness reads
it. -/
theorem Encoding.number_signBit (encoding : Encoding) {rule : SignRule}
    {width : Nat} (room : 7 * encoding.initial.length < width)
    (representable :
      Representable rule.isSigned width
        (encoding.number (groupSign rule.isSigned))) :
    encoding.number (rule.signBit? width (7 * encoding.initial.length)) =
      encoding.number (groupSign rule.isSigned) := by
  cases rule with
  | unsigned => rfl
  | finalGroup => rfl
  | belowWidth =>
      have fitting := (encoding.representable_iff_fits room).mp representable
      unfold Encoding.number
      rw [finalNumber_belowWidth (signSettled_of_fits room fitting)]
      rfl

section Strictness

variable {α : Type} (type : FixedWidth α) {rule : SignRule}

private theorem wrapping_of_representable (wide : 7 < type.width)
    (narrow : type.width ≤ 64) (signedness : rule.isSigned = type.signed)
    (encoding : Encoding) (room : 7 * encoding.initial.length < type.width)
    (representable :
      Representable type.signed type.width
        (encoding.number (groupSign type.signed))) (position : Nat)
    (rest : List UInt8) :
    wrapping rule type.width ⟨position, encoding.bytes ++ rest⟩ =
      .ok (UInt64.ofInt (encoding.number (groupSign type.signed)),
        ⟨position + encoding.length, rest⟩) := by
  rw [← signedness] at representable ⊢
  rw [wrapping_encoding wide, Nat.min_eq_left narrow,
    encoding.number_signBit room representable]

theorem FixedWidth.decoder_agrees (narrow : type.width ≤ 64)
    (signedness : rule.isSigned = type.signed) (encoding : Encoding)
    (room : 7 * encoding.initial.length < type.width)
    (representable :
      Representable type.signed type.width
        (encoding.number (groupSign type.signed))) (position : Nat)
    (rest : List UInt8) :
    ∃ value,
      type.decoder ⟨position, encoding.bytes ++ rest⟩ =
        .ok (value, ⟨position + encoding.length, rest⟩) ∧
      UInt64.ofInt (type.integer value) = UInt64.ofInt (encoding.number
        (rule.signBit? (min type.width 64) (7 * encoding.initial.length))) := by
  refine ⟨_,
    type.decoder_of_ok (bounded_encoding encoding room representable _ _), ?_⟩
  rw [type.integer_narrow _ representable, Nat.min_eq_left narrow]
  rw [← signedness] at representable ⊢
  rw [encoding.number_signBit room representable]

theorem FixedWidth.refuses_unrepresentable (encoding : Encoding)
    (last : encoding.length = type.groups)
    (unrepresentable :
      ¬Representable type.signed type.width
        (encoding.number (groupSign type.signed))) (position : Nat)
    (rest : List UInt8) :
    Refuses type.decoder ⟨position,
      encoding.bytes ++ rest⟩ (type.groups - 1) := by
  have room := (type.length_le_groups_iff encoding).mp (Nat.le_of_eq last)
  have offset : type.groups - 1 = encoding.initial.length := by
    rw [← last]
    rfl
  rw [offset]
  refine ⟨encoding.final, by simp [Encoding.bytes], ?_⟩
  exact type.decoder_of_error
    (bounded_unrepresentable encoding room unrepresentable position rest)

theorem FixedWidth.refuses_overlong (encoding : Encoding)
    (long : type.groups < encoding.length) (position : Nat)
    (rest : List UInt8) :
    Refuses type.decoder ⟨position,
      encoding.bytes ++ rest⟩ (type.groups - 1) := by
  have positive := type.positive
  have groups : type.groups = (type.width + 6) / 7 := rfl
  have length : encoding.length = encoding.initial.length + 1 := rfl
  have offset : type.groups - 1 = (type.width - 1) / 7 := by omega
  obtain ⟨byte, present, failure⟩ :=
    bounded_overlong type.signed encoding.continuing
    positive (by omega) position encoding.final rest
  rw [offset, encoding.bytes_append]
  exact ⟨byte, present, type.decoder_of_error failure⟩

/-- A typed decoder is stricter than a decoder of any length with its width and
signedness. -/
theorem FixedWidth.stricterThan (wide : 7 < type.width)
    (narrow : type.width ≤ 64) (signedness : rule.isSigned = type.signed) :
    StricterThan type.decoder (wrapping rule type.width)
      (fun value => UInt64.ofInt (type.integer value)) type.groups := by
  constructor
  · intro cursor after value run
    obtain ⟨encoding, short, number, bytes, position⟩ :=
      type.decoder_eq_ok_iff.mp run
    have representable := type.representable value
    rw [← number] at representable
    have generic :=
      wrapping_of_representable type wide narrow signedness encoding
        ((type.length_le_groups_iff encoding).mp short) representable
        cursor.position after.rest
    rw [← bytes, ← position, number] at generic
    exact generic
  · intro cursor after word run
    obtain ⟨position, input⟩ := cursor
    obtain ⟨encoding, bytes, behind, rfl⟩ := (wrapping_eq_ok_iff wide).mp run
    obtain ⟨afterPosition, rest⟩ := after
    change input = encoding.bytes ++ rest at bytes
    change afterPosition = position + encoding.length at behind
    subst bytes behind
    have agrees := type.decoder_agrees narrow signedness encoding
    refine ⟨encoding.bytes, rfl, by simp, ?_⟩
    rw [encoding.length_bytes]
    refine ⟨?_, ?_, ?_⟩
    · intro few
      have room := (type.length_le_groups_iff encoding).mp (Nat.le_of_lt few)
      have groups : type.groups = (type.width + 6) / 7 := rfl
      have representable := (encoding.representable_length type.signed).mono
        (show 7 * encoding.length ≤ type.width by omega)
      exact agrees room representable position rest
    · intro all
      have room := (type.length_le_groups_iff encoding).mp (Nat.le_of_eq all)
      by_cases representable :
          Representable type.signed type.width
            (encoding.number (groupSign type.signed))
      · exact .inl (agrees room representable position rest)
      · exact .inr
          (type.refuses_unrepresentable encoding all representable
            position rest)
    · intro many
      exact type.refuses_overlong encoding many position rest

end Strictness

/-- The two sign rules read the same bytes, and the same integer where the sign
is settled. -/
theorem sint_int_agree {bits : Nat} (wide : 7 < bits) (cursor : ByteCursor) :
    (∀ failure, sint bits cursor = .error failure ↔
      int bits cursor = .error failure) ∧
      ∀ value after, sint bits cursor = .ok (value, after) →
        ∃ initial final other,
          cursor.rest = initial ++ final :: after.rest ∧
          after.position = cursor.position + initial.length + 1 ∧
          int bits cursor = .ok (other, after) ∧
          (SignSettled (min bits 64) (7 * initial.length) final →
            other = value) := by
  obtain ⟨position, input⟩ := cursor
  rcases Encoding.starts_or_unfinished input with
      ⟨encoding, rest, rfl⟩ | unfinished
  · have read :
        ∀ rule, wrapping rule bits ⟨position, encoding.bytes ++ rest⟩ = _ :=
      fun rule => wrapping_encoding wide encoding position rest
    have signed : sint bits ⟨position, encoding.bytes ++ rest⟩ = .ok _ :=
      Decoder.bind_eq_ok_iff.mpr ⟨_, _, read .finalGroup, rfl⟩
    have plain : int bits ⟨position, encoding.bytes ++ rest⟩ = .ok _ :=
      Decoder.bind_eq_ok_iff.mpr ⟨_, _, read .belowWidth, rfl⟩
    constructor
    · intro failure
      rw [signed, plain]
      constructor <;> intro failed <;> cases failed
    · intro value after run
      rw [signed] at run
      cases run
      refine ⟨encoding.initial, encoding.final, _, encoding.bytes_append rest,
        rfl, plain, ?_⟩
      intro settled
      unfold Encoding.number
      rw [finalNumber_belowWidth settled]
      rfl
  · have failed : ∀ rule, wrapping rule bits ⟨position, input⟩ = _ :=
      fun rule => wrapping_unfinished wide unfinished position
    have signed :
        sint bits ⟨position, input⟩ = .error (.recoverable .unexpectedEnd) := by
      change (wrapping .finalGroup bits ⟨position, input⟩ >>= _) = _
      rw [failed]
      rfl
    have plain :
        int bits ⟨position, input⟩ = .error (.recoverable .unexpectedEnd) := by
      change (wrapping .belowWidth bits ⟨position, input⟩ >>= _) = _
      rw [failed]
      rfl
    rw [signed, plain]
    refine ⟨fun _ => Iff.rfl, ?_⟩
    intro value after run
    cases run

/-- The typed decoders are stricter than the decoders of any length, and the two
signed decoders of any length differ in nothing but an unsettled sign. -/
theorem integer_decoders_agree :
    StricterThan uint32 (uint 32) UInt32.toUInt64 5 ∧
    StricterThan sint32 (sint 32) Int32.toInt64 5 ∧
    StricterThan sint32 (int 32) Int32.toInt64 5 ∧
    StricterThan sint64 (sint 64) id 10 ∧
    StricterThan sint64 (int 64) id 10 ∧
    ∀ bits, 7 < bits → ∀ cursor : ByteCursor,
      (∀ failure, sint bits cursor = .error failure ↔
        int bits cursor = .error failure) ∧
        ∀ value after, sint bits cursor = .ok (value, after) →
          ∃ initial final other,
            cursor.rest = initial ++ final :: after.rest ∧
            after.position = cursor.position + initial.length + 1 ∧
            int bits cursor = .ok (other, after) ∧
            (SignSettled (min bits 64) (7 * initial.length) final →
              other = value) := by
  have widen32 :
      (fun value : UInt32 => UInt64.ofInt value.toNat) = UInt32.toUInt64 := by
    funext value
    rw [ofInt_natCast, UInt64.ofNat_uInt32ToNat]
  have extend32 :
      (fun value : Int32 => (UInt64.ofInt value.toInt).toInt64) =
        Int32.toInt64 := by
    funext value
    rw [toInt64_ofInt, Int64.ofInt_int32ToInt]
  have same64 :
      (fun value : Int64 => (UInt64.ofInt value.toInt).toInt64) = id := by
    funext value
    rw [toInt64_ofInt, Int64.ofInt_toInt]
    rfl
  have unsigned :
      StricterThan uint32 (uint 32) (fun value => UInt64.ofInt value.toNat) 5 :=
    FixedWidth.unsigned32.stricterThan (by decide) (by decide) rfl
  have signed32 : ∀ rule : SignRule, rule.isSigned = true →
      StricterThan sint32 (do let word ← wrapping rule 32; pure word.toInt64)
        (fun value => (UInt64.ofInt value.toInt).toInt64) 5 :=
    fun rule signedness =>
      (FixedWidth.signed32.stricterThan
        (by decide) (by decide) signedness).map _
  have signed64 : ∀ rule : SignRule, rule.isSigned = true →
      StricterThan sint64 (do let word ← wrapping rule 64; pure word.toInt64)
        (fun value => (UInt64.ofInt value.toInt).toInt64) 10 :=
    fun rule signedness =>
      (FixedWidth.signed64.stricterThan
        (by decide) (by decide) signedness).map _
  rw [widen32] at unsigned
  rw [extend32] at signed32
  rw [same64] at signed64
  exact ⟨unsigned, signed32 .finalGroup rfl, signed32 .belowWidth rfl,
    signed64 .finalGroup rfl, signed64 .belowWidth rfl,
    fun bits wide cursor => sint_int_agree wide cursor⟩

/-- The least 32-bit integer, and the least 8-bit one, whose final group
straddles the width. -/
theorem integer_decoders_agree_at_least_values :
    (sint32 ⟨0, [0x80, 0x80, 0x80, 0x80, 0x78]⟩ = .ok (-2147483648, ⟨5, []⟩) ∧
      int 32 ⟨0, [0x80, 0x80, 0x80, 0x80, 0x78]⟩ = .ok (-2147483648, ⟨5, []⟩)) ∧
    (sint 8 ⟨3, [0x80, 0x7F, 0x05]⟩ = .ok (-128, ⟨5, [0x05]⟩) ∧
      int 8 ⟨3, [0x80, 0x7F, 0x05]⟩ = .ok (-128, ⟨5, [0x05]⟩)) := by
  obtain ⟨_, _, strict, _, _, signed⟩ := integer_decoders_agree
  have typed :
      sint32 ⟨0, [0x80, 0x80, 0x80, 0x80, 0x78]⟩ = .ok (-2147483648, ⟨5, []⟩) :=
    rfl
  have read : sint 8 ⟨3, [0x80, 0x7F, 0x05]⟩ = .ok (-128, ⟨5, [0x05]⟩) := rfl
  obtain ⟨initial, final, other, bytes, position, run, agree⟩ :=
    (signed 8 (by decide) ⟨3, [0x80, 0x7F, 0x05]⟩).2 _ _ read
  have split : initial = [0x80] ∧ final = 0x7F := by
    have length : initial.length = 1 := by
      simp only at position
      omega
    obtain ⟨byte, rfl⟩ := List.length_eq_one_iff.mp length
    simp at bytes
    exact ⟨by simp [bytes], bytes.2.symm⟩
  obtain ⟨rfl, rfl⟩ := split
  have settled : SignSettled (min 8 64) (7 * [(0x80 : UInt8)].length) 0x7F := by
    refine .inr (.inr ⟨by decide, by decide, ?_⟩)
    intro bit _ top
    interval_cases bit <;> rfl
  obtain rfl := agree settled
  exact ⟨⟨typed, strict.success typed⟩, read, run⟩

end Wasm.Leb128

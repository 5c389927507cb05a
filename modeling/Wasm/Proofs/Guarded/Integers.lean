import Wasm.Decoding.Leb128.Bounded
import Wasm.Decoding.Leb128.Wrapping
import Wasm.Proofs.Guarded.Buffer
import Wasm.Proofs.Leb128.Word

/-!
# Guarded LEB128 integers

The integers are read with counters of 32 bits and a word of 64 bits.  The
counters stay small because a bounded integer has no more groups than its width
needs, and because the counter of an unbounded one stops at its greatest value.
-/

namespace Wasm.Guarded

/-! ## Arithmetic -/

/-- A sum of two counters. -/
def add (left right : Nat) : Except Fault Nat :=
  if left + right < 0x100000000 then .ok (left + right) else .error .overflow

/-- A sum of two counters, or the greatest counter. -/
def addSaturating (left right : Nat) : Nat :=
  min (left + right) 0xFFFFFFFF

/-- A difference of two counters. -/
def sub (left right : Nat) : Except Fault Nat :=
  if right ≤ left then .ok (left - right) else .error .underflow

/-- A word moved towards its high end. -/
def shiftLeft (word : UInt64) (amount : Nat) : Except Fault UInt64 :=
  if amount < 64 then .ok (word <<< UInt64.ofNat amount) else .error .shift

/-- A byte moved towards its high end. -/
def shiftByteLeft (byte : UInt8) (amount : Nat) : Except Fault UInt8 :=
  if amount < 8 then .ok (byte <<< UInt8.ofNat amount) else .error .shift

/-- A byte moved towards its low end. -/
def shiftByteRight (byte : UInt8) (amount : Nat) : Except Fault UInt8 :=
  if amount < 8 then .ok (byte >>> UInt8.ofNat amount) else .error .shift

/-- The seven bits that a byte carries. -/
def payload (byte : UInt8) : UInt8 :=
  byte &&& 0x7F

/-- Whether seven bits hold a number of the given width. -/
def fits (payload : UInt8) (width : Nat) (signed : Bool) : Except Fault Bool :=
  if 7 ≤ width then
    .ok true
  else if width = 0 then
    .ok (payload == 0)
  else if signed then do
    let sign ← sub width 1
    let ones ← shiftByteLeft 0x7F sign
    let mask := ones &&& 0x7F
    .ok (payload &&& mask == 0 || payload &&& mask == mask)
  else do
    let high ← shiftByteRight payload width
    .ok (high == 0)

/-! ## Bounded integers -/

/-- Whether the payload of a group may stand at bit `shift`.  Only that of the
last permitted group is looked at. -/
def admits (width : Nat) (signed isLast : Bool) (shift : Nat) (byte : UInt8) :
    Except Fault Bool :=
  if isLast then do
    let room ← sub width shift
    fits (payload byte) room signed
  else
    .ok true

/-- A final group at bit `shift` with the sign extension it asks for. -/
def finalGroup (signed : Bool) (shift : Nat) (byte : UInt8) :
    Except Fault UInt64 := do
  let moved ← shiftLeft (payload byte).toUInt64 shift
  let behind ← add shift 7
  if signed && behind < 64 && byte &&& 0x40 != 0 then
    let ones ← shiftLeft 0xFFFFFFFFFFFFFFFF behind
    .ok (moved ||| ones)
  else
    .ok moved

/-- The integer whose next group moves by `shift` bits and follows `group`
others, which make up `result`. -/
def boundedFrom (width : Nat) (signed : Bool) (result : UInt64)
    (shift group : Nat) (buffer : Buffer) :
    Except Fault (Except Failure (UInt64 × Buffer)) :=
  match _next : buffer.next? with
  | none => .ok (.error (.recoverable .unexpectedEnd))
  | some byte => do
      let count ← add group 1
      let isLast := count == (width + 6) / 7
      if isLast && Leb128.continues byte then
        let error := if buffer.advanced.next?.isNone then .unexpectedEnd
          else .unexpected byte buffer.position
        .ok (.error (.recoverable error))
      else
        let fitting ← admits width signed isLast shift byte
        if !fitting then
          .ok (.error (.recoverable (.unexpected byte buffer.position)))
        else if Leb128.continues byte then
          let moved ← shiftLeft (payload byte).toUInt64 shift
          let behind ← add shift 7
          boundedFrom width signed (result ||| moved) behind count
            buffer.advanced
        else
          let moved ← finalGroup signed shift byte
          .ok (.ok (result ||| moved, buffer.advanced))
termination_by buffer.bytes.length - buffer.position
decreasing_by
  obtain ⟨inside, _⟩ := List.getElem?_eq_some_iff.mp _next
  simp only [Buffer.advanced]
  omega

/-- An integer of a fixed width. -/
def bounded (width : Nat) (signed : Bool) : Guarded UInt64 :=
  boundedFrom width signed 0 0 0

/-! ## Integers of any length -/

/-- The sign bit within a final group that starts at bit `shift`. -/
def signBit? (rule : Leb128.SignRule) (width shift : Nat) :
    Except Fault (Option Nat) :=
  match rule with
  | .unsigned => .ok none
  | .finalGroup => .ok (some 6)
  | .belowWidth =>
      if shift < width then do
        let room ← sub width shift
        let highest ← sub room 1
        .ok (some (min highest 6))
      else
        .ok (some 6)

/-- The sign extension that a final group at bit `shift` asks for. -/
def extension (rule : Leb128.SignRule) (width shift : Nat) (byte : UInt8) :
    Except Fault UInt64 := do
  let sign ← signBit? rule width shift
  match sign with
  | none => .ok 0
  | some sign =>
      let behind ← add sign 1
      let start := addSaturating shift behind
      let low ← shiftByteRight (payload byte) sign
      if low &&& 1 != 0 && start < 64 then
        shiftLeft 0xFFFFFFFFFFFFFFFF start
      else
        .ok 0

/-- A group moved to its place.  One that lies beyond the word is left out. -/
def placed (shift : Nat) (byte : UInt8) : UInt64 :=
  (shiftLeft (payload byte).toUInt64 shift).toOption.getD 0

/-- The integer whose next group moves by `shift` bits, and whose other groups
make up `result`. -/
def wrappingFrom (rule : Leb128.SignRule) (width : Nat) (result : UInt64)
    (shift : Nat) (buffer : Buffer) :
    Except Fault (Except Failure (UInt64 × Buffer)) :=
  match _next : buffer.next? with
  | none => .ok (.error (.recoverable .unexpectedEnd))
  | some byte =>
      if Leb128.continues byte then
        wrappingFrom rule width (result ||| placed shift byte)
          (addSaturating shift 7) buffer.advanced
      else do
        let high ← extension rule width shift byte
        .ok (.ok (result ||| placed shift byte ||| high, buffer.advanced))
termination_by buffer.bytes.length - buffer.position
decreasing_by
  obtain ⟨inside, _⟩ := List.getElem?_eq_some_iff.mp _next
  simp only [Buffer.advanced]
  omega

/-- An integer of at most seven bits. -/
def singleGroup (width : Nat) (signed : Bool) (buffer : Buffer) :
    Except Fault (Except Failure (UInt64 × Buffer)) :=
  match buffer.next? with
  | none => .ok (.error (.recoverable .unexpectedEnd))
  | some byte => do
      let fitting ← fits (payload byte) width signed
      if Leb128.continues byte || !fitting then
        .ok (.error (.recoverable (.unexpected byte buffer.position)))
      else if signed && byte &&& 0x40 != 0 then
        let ones ← shiftLeft 0xFFFFFFFFFFFFFFFF 7
        .ok (.ok ((payload byte).toUInt64 ||| ones, buffer.advanced))
      else
        .ok (.ok ((payload byte).toUInt64, buffer.advanced))

/-- An integer of any length. -/
def wrapping (rule : Leb128.SignRule) (bits : Nat) : Guarded UInt64 :=
  let width := min bits 64
  if width ≤ 7 then
    singleGroup width rule.isSigned
  else
    wrappingFrom rule width 0 0

/-! ## Single steps -/

theorem add_of_lt {left right : Nat} (small : left + right < 0x100000000) :
    add left right = .ok (left + right) :=
  if_pos small

theorem sub_of_le {left right : Nat} (order : right ≤ left) :
    sub left right = .ok (left - right) :=
  if_pos order

theorem shiftLeft_of_lt (word : UInt64) {amount : Nat} (small : amount < 64) :
    shiftLeft word amount = .ok (word <<< UInt64.ofNat amount) :=
  if_pos small

theorem toNat_payload (byte : UInt8) :
    (payload byte).toNat = Leb128.payload byte := by
  rw [payload, UInt8.toNat_and]
  exact Nat.and_two_pow_sub_one_eq_mod byte.toNat 7

theorem ofNat_payload (byte : UInt8) :
    UInt8.ofNat (Leb128.payload byte) = payload byte := by
  rw [← toNat_payload, UInt8.ofNat_toNat]

theorem toUInt64_payload (byte : UInt8) :
    (payload byte).toUInt64 = UInt64.ofNat (Leb128.payload byte) := by
  have small := Leb128.payload_lt byte
  rw [← UInt64.toNat_inj, UInt8.toNat_toUInt64, toNat_payload,
    UInt64.toNat_ofNat']
  omega

theorem signBit_eq (byte : UInt8) :
    (byte &&& 0x40 != 0) = (Leb128.payload byte).testBit 6 := by
  have all : ∀ number < 256, (UInt8.ofNat number &&& 0x40 != 0) =
      (Leb128.payload (UInt8.ofNat number)).testBit 6 := by decide +kernel
  have here := all byte.toNat byte.toNat_lt
  rwa [UInt8.ofNat_toNat] at here

theorem fits_eq (byte : UInt8) (width : Nat) (signed : Bool) :
    fits (payload byte) width signed =
      .ok (Leb128.fits (Leb128.payload byte) width signed) := by
  have narrow : ∀ width < 7, ∀ number < 128, ∀ signed,
      (fits (UInt8.ofNat number) width signed).toOption =
        some (Leb128.fits number width signed) := by
    decide +kernel
  by_cases wide : 7 ≤ width
  · rw [fits, if_pos wide, Leb128.fits, if_pos wide]
  · have here :=
      narrow width (Nat.lt_of_not_le wide) _ (Leb128.payload_lt byte) signed
    rw [ofNat_payload] at here
    cases outcome : fits (payload byte) width signed with
    | error fault =>
        rw [outcome] at here
        cases here
    | ok fitting =>
        rw [outcome] at here
        exact congrArg Except.ok (Option.some.inj here)

theorem admits_eq {width shift : Nat} (signed isLast : Bool)
    (inside : shift ≤ width) (byte : UInt8) :
    admits width signed isLast shift byte =
      .ok (!isLast ||
        Leb128.fits (Leb128.payload byte) (width - shift) signed) := by
  cases isLast with
  | false => rfl
  | true =>
      rw [admits, if_pos rfl, sub_of_le inside]
      exact fits_eq byte (width - shift) signed

theorem moved_eq {shift : Nat} (small : shift < 64) (byte : UInt8) :
    shiftLeft (payload byte).toUInt64 shift =
      .ok (Leb128.placed shift byte) := by
  rw [shiftLeft_of_lt _ small, toUInt64_payload, Leb128.placed, if_pos small]

theorem placed_eq (shift : Nat) (byte : UInt8) :
    placed shift byte = Leb128.placed shift byte := by
  by_cases small : shift < 64
  · rw [placed, moved_eq small]
    rfl
  · rw [placed, shiftLeft, if_neg small, Leb128.placed, if_neg small]
    rfl

theorem onesFrom_eq {start : Nat} (small : start < 64) :
    shiftLeft 0xFFFFFFFFFFFFFFFF start = .ok (Leb128.onesFrom start) := by
  rw [shiftLeft_of_lt _ small, Leb128.onesFrom, if_pos small]

theorem finalGroup_eq (signed : Bool) {shift : Nat} (small : shift < 64)
    (byte : UInt8) :
    finalGroup signed shift byte =
      .ok (Leb128.finalGroup signed shift byte) := by
  have behind : shift + 7 < 0x100000000 := by omega
  simp only [finalGroup, moved_eq small, add_of_lt behind, Leb128.finalGroup,
    bind, Except.bind, signBit_eq]
  by_cases within : shift + 7 < 64
  · simp only [within, decide_true, Bool.and_true, onesFrom_eq within]
    split <;> rfl
  · have nothing : Leb128.onesFrom (shift + 7) = 0 := if_neg within
    simp only [within, decide_false, Bool.and_false, Bool.false_and,
      Bool.false_eq_true, if_false, nothing, UInt64.or_zero, ite_self]

theorem signBit?_eq (rule : Leb128.SignRule) (width shift : Nat) :
    signBit? rule width shift = .ok (rule.signBit? width shift) := by
  cases rule with
  | unsigned => rfl
  | finalGroup => rfl
  | belowWidth =>
      by_cases below : shift < width
      · have room : 1 ≤ width - shift := by omega
        simp only [signBit?, if_pos below, sub_of_le (Nat.le_of_lt below), bind,
          Except.bind, sub_of_le room, Leb128.SignRule.signBit?, Nat.min_comm]
      · simp only [signBit?, if_neg below, Leb128.SignRule.signBit?]

theorem sign_le_six {rule : Leb128.SignRule} {width shift sign : Nat}
    (found : rule.signBit? width shift = some sign) : sign ≤ 6 := by
  cases rule with
  | unsigned => cases found
  | finalGroup =>
      cases found
      exact Nat.le_refl 6
  | belowWidth =>
      cases found
      split <;> omega

theorem lowBit_eq (byte : UInt8) {sign : Nat} (small : sign ≤ 6) :
    ∃ low, shiftByteRight (payload byte) sign = .ok low ∧
      (low &&& 1 != 0) = (Leb128.payload byte).testBit sign := by
  have all : ∀ sign < 7, ∀ number < 128,
      (UInt8.ofNat number >>> UInt8.ofNat sign &&& 1 != 0) =
        number.testBit sign := by
    decide +kernel
  have here := all sign (Nat.lt_succ_of_le small) _ (Leb128.payload_lt byte)
  rw [ofNat_payload] at here
  exact ⟨_, if_pos (by omega), here⟩

/-- The counter of an unbounded integer is the place of the group as long as
that matters. -/
def saturated (shift : Nat) : Nat :=
  min shift 0xFFFFFFFF

theorem saturated_lt_iff {shift bound : Nat} (small : bound ≤ 64) :
    saturated shift < bound ↔ shift < bound := by
  unfold saturated
  omega

theorem addSaturating_saturated (shift more : Nat) :
    addSaturating (saturated shift) more = saturated (shift + more) := by
  unfold addSaturating saturated
  omega

theorem placed_saturated (shift : Nat) (byte : UInt8) :
    Leb128.placed (saturated shift) byte = Leb128.placed shift byte := by
  by_cases small : shift < 64
  · have same : saturated shift = shift := by
      unfold saturated
      omega
    rw [same]
  · have large : ¬ saturated shift < 64 :=
      mt (saturated_lt_iff (Nat.le_refl 64)).mp small
    rw [Leb128.placed, if_neg large, Leb128.placed, if_neg small]

theorem signBit?_saturated (rule : Leb128.SignRule) {width : Nat}
    (narrow : width ≤ 64) (shift : Nat) :
    rule.signBit? width (saturated shift) = rule.signBit? width shift := by
  cases rule with
  | unsigned => rfl
  | finalGroup => rfl
  | belowWidth =>
      simp only [Leb128.SignRule.signBit?, saturated_lt_iff narrow]
      split
      · have same : saturated shift = shift := by
          unfold saturated
          omega
        rw [same]
      · rfl

theorem extension_eq (rule : Leb128.SignRule) {width : Nat}
    (narrow : width ≤ 64) (shift : Nat) (byte : UInt8) :
    extension rule width (saturated shift) byte =
      .ok (rule.extension width shift byte) := by
  rw [extension, signBit?_eq, signBit?_saturated rule narrow,
    Leb128.SignRule.extension]
  cases found : rule.signBit? width shift with
  | none => rfl
  | some sign =>
      have small := sign_le_six found
      have behind : sign + 1 < 0x100000000 := by omega
      obtain ⟨low, shifted, bit⟩ := lowBit_eq byte small
      simp only [bind, Except.bind, add_of_lt behind, shifted, bit,
        addSaturating_saturated]
      by_cases within : shift + (sign + 1) < 64
      · have start : saturated (shift + (sign + 1)) = shift + sign + 1 := by
          unfold saturated
          omega
        have inside : shift + sign + 1 < 64 := within
        simp only [start, inside, decide_true, Bool.and_true,
          onesFrom_eq inside]
        split <;> rfl
      · have outside : ¬ saturated (shift + (sign + 1)) < 64 :=
          mt (saturated_lt_iff (Nat.le_refl 64)).mp within
        have nothing : Leb128.onesFrom (shift + sign + 1) = 0 := if_neg within
        simp only [outside, decide_false, Bool.and_false, Bool.false_eq_true,
          if_false, nothing, ite_self]

/-! ## Groups

What a group does when none of its guards is hit. -/

section Groups

variable {buffer : Buffer} {byte : UInt8} {rest : List UInt8} {width : Nat}

theorem isNone_next?_advanced (ahead : buffer.cursor.rest = byte :: rest) :
    buffer.advanced.next?.isNone = rest.isEmpty := by
  rw [Buffer.next?_eq, Buffer.cursor_advanced ahead]
  cases rest <;> rfl

theorem boundedFrom_nil (signed : Bool) (result : UInt64) (shift group : Nat)
    (ended : buffer.cursor.rest = []) :
    boundedFrom width signed result shift group buffer =
      .ok (.error (.recoverable .unexpectedEnd)) := by
  rw [boundedFrom]
  split
  · rfl
  · rename_i byte found
    rw [Buffer.next?_of_nil ended] at found
    cases found

-- The shift is less than the width, and a width is no more than that of a word.
theorem boundedFrom_cons (narrow : width ≤ 64) (signed : Bool) {group : Nat}
    (room : 7 * group < width) (result : UInt64)
    (ahead : buffer.cursor.rest = byte :: rest) :
    boundedFrom width signed result (7 * group) group buffer =
      if width ≤ 7 * group + 7 ∧ Leb128.continues byte = true then
        .ok (.error (.recoverable
          (if rest.isEmpty then .unexpectedEnd
            else .unexpected byte buffer.position)))
      else if width ≤ 7 * group + 7 ∧
          Leb128.fits (Leb128.payload byte) (width - 7 * group) signed =
            false then
        .ok (.error (.recoverable (.unexpected byte buffer.position)))
      else if Leb128.continues byte = true then
        boundedFrom width signed (result ||| Leb128.placed (7 * group) byte)
          (7 * (group + 1)) (group + 1) buffer.advanced
      else
        .ok (.ok
          (result ||| Leb128.finalGroup signed (7 * group) byte,
            buffer.advanced)) := by
  have small : 7 * group < 64 := Nat.lt_of_lt_of_le room narrow
  have counted : group + 1 < 0x100000000 := by omega
  have further : 7 * group + 7 < 0x100000000 := by omega
  have isLast :
      (group + 1 == (width + 6) / 7) = decide (width ≤ 7 * group + 7) := by
    rw [beq_eq_decide, decide_eq_decide]
    omega
  conv_lhs => rw [boundedFrom]
  split
  · rename_i ended
    rw [Buffer.next?_of_cons ahead] at ended
    cases ended
  · rename_i other found
    obtain rfl : byte = other :=
      Option.some.inj ((Buffer.next?_of_cons ahead).symm.trans found)
    simp only [add_of_lt counted, bind, Except.bind, isLast,
      admits_eq signed _ (Nat.le_of_lt room), moved_eq small, add_of_lt further,
      finalGroup_eq signed small, isNone_next?_advanced ahead, Bool.and_eq_true,
      decide_eq_true_eq, Bool.not_or, Bool.not_not, Bool.not_eq_true',
      Nat.mul_succ]

theorem wrappingFrom_nil (rule : Leb128.SignRule) (result : UInt64)
    (shift : Nat) (ended : buffer.cursor.rest = []) :
    wrappingFrom rule width result shift buffer =
      .ok (.error (.recoverable .unexpectedEnd)) := by
  rw [wrappingFrom]
  split
  · rfl
  · rename_i byte found
    rw [Buffer.next?_of_nil ended] at found
    cases found

theorem wrappingFrom_cons (rule : Leb128.SignRule) (narrow : width ≤ 64)
    (result : UInt64) (shift : Nat)
    (ahead : buffer.cursor.rest = byte :: rest) :
    wrappingFrom rule width result (saturated shift) buffer =
      if Leb128.continues byte = true then
        wrappingFrom rule width (result ||| Leb128.placed shift byte)
          (saturated (shift + 7)) buffer.advanced
      else
        .ok (.ok
          (result ||| (Leb128.placed shift byte |||
            rule.extension width shift byte), buffer.advanced)) := by
  conv_lhs => rw [wrappingFrom]
  split
  · rename_i ended
    rw [Buffer.next?_of_cons ahead] at ended
    cases ended
  · rename_i other found
    obtain rfl : byte = other :=
      Option.some.inj ((Buffer.next?_of_cons ahead).symm.trans found)
    simp only [placed_eq, placed_saturated, extension_eq rule narrow,
      addSaturating_saturated, bind, Except.bind, UInt64.or_assoc]

end Groups

/-! ## Agreement -/

/-- A group read as the last one. -/
theorem agrees_advanced {buffer : Buffer} {byte : UInt8} {rest : List UInt8}
    (ahead : buffer.cursor.rest = byte :: rest) (word : UInt64) :
    Agrees buffer (.ok (.ok (word, buffer.advanced)))
      (.ok (word, ⟨buffer.position + 1, rest⟩)) := by
  rw [← Buffer.cursor_advanced ahead]
  exact .reads word rfl (Nat.le_succ _) (Buffer.valid_advanced ahead)

/-- The groups before a word are put in front of it one by one or all at
once. -/
theorem map_or_or (result low : UInt64)
    (plain : Except Failure (UInt64 × ByteCursor)) :
    (plain.map fun (word, cursor) => (low ||| word, cursor)).map
        (fun (word, cursor) => (result ||| word, cursor)) =
      plain.map fun (word, cursor) => (result ||| low ||| word, cursor) := by
  cases plain with
  | error failure => rfl
  | ok parts => simp only [Except.map, UInt64.or_assoc]

theorem boundedFrom_agrees {width : Nat} (narrow : width ≤ 64) (signed : Bool)
    {rest : List UInt8} {group : Nat} (room : 7 * group < width)
    (result : UInt64) {buffer : Buffer} (ahead : buffer.cursor.rest = rest) :
    Agrees buffer (boundedFrom width signed result (7 * group) group buffer)
      ((Leb128.boundedFrom width signed (7 * group) buffer.position rest).map
        fun (word, cursor) => (result ||| word, cursor)) := by
  induction rest generalizing group result buffer with
  | nil =>
      rw [boundedFrom_nil signed result (7 * group) group ahead]
      exact .fails _
  | cons byte rest induction =>
      rw [boundedFrom_cons narrow signed room result ahead, Leb128.boundedFrom]
      by_cases final : width ≤ 7 * group + 7
      · simp only [final, true_and, if_true]
        by_cases more : Leb128.continues byte = true
        · simp only [more, if_true]
          split
          · exact .fails _
          · exact .fails _
        · simp only [more, Bool.false_eq_true, if_false]
          cases Leb128.fits (Leb128.payload byte) (width - 7 * group)
            signed with
          | false => exact .fails _
          | true => exact agrees_advanced ahead _
      · simp only [final, false_and, if_false]
        by_cases more : Leb128.continues byte = true
        · simp only [more, if_true, map_or_or]
          have later : 7 * (group + 1) < width := by omega
          have behind := Buffer.cursor_advanced ahead
          have higher :=
            induction later (result ||| Leb128.placed (7 * group) byte)
              (congrArg ByteCursor.rest behind)
          exact higher.from_earlier rfl (Nat.le_succ _)
        · simp only [more, Bool.false_eq_true, if_false]
          exact agrees_advanced ahead _

theorem map_zero_or (plain : Except Failure (UInt64 × ByteCursor)) :
    (plain.map fun (word, cursor) => (0 ||| word, cursor)) = plain := by
  cases plain with
  | error failure => rfl
  | ok parts => simp only [Except.map, UInt64.zero_or]

theorem bounded_agrees {width : Nat} (positive : 0 < width)
    (narrow : width ≤ 64) (signed : Bool) (buffer : Buffer) :
    Agrees buffer (bounded width signed buffer)
      (Leb128.bounded width signed buffer.cursor) := by
  have start : 7 * 0 < width := positive
  have agrees :=
    boundedFrom_agrees narrow signed start 0 (Eq.refl buffer.cursor.rest)
  rw [map_zero_or] at agrees
  exact agrees

theorem wrappingFrom_agrees (rule : Leb128.SignRule) {width : Nat}
    (narrow : width ≤ 64) {rest : List UInt8} (shift : Nat) (result : UInt64)
    {buffer : Buffer} (ahead : buffer.cursor.rest = rest) :
    Agrees buffer (wrappingFrom rule width result (saturated shift) buffer)
      ((Leb128.wrappingFrom rule width shift buffer.position rest).map
        fun (word, cursor) => (result ||| word, cursor)) := by
  induction rest generalizing shift result buffer with
  | nil =>
      rw [wrappingFrom_nil rule result (saturated shift) ahead]
      exact .fails _
  | cons byte rest induction =>
      rw [wrappingFrom_cons rule narrow result shift ahead, Leb128.wrappingFrom]
      by_cases more : Leb128.continues byte = true
      · simp only [more, if_true, map_or_or]
        have behind := Buffer.cursor_advanced ahead
        have higher :=
          induction (shift + 7) (result ||| Leb128.placed shift byte)
            (congrArg ByteCursor.rest behind)
        exact higher.from_earlier rfl (Nat.le_succ _)
      · simp only [more, Bool.false_eq_true, if_false]
        exact agrees_advanced ahead _

theorem singleGroup_agrees (width : Nat) (signed : Bool) (buffer : Buffer) :
    Agrees buffer (singleGroup width signed buffer)
      (Leb128.singleGroup width signed buffer.cursor) := by
  have ones : shiftLeft 0xFFFFFFFFFFFFFFFF 7 = .ok (Leb128.onesFrom 7) :=
    onesFrom_eq (by decide)
  have moved (byte : UInt8) :
      (payload byte).toUInt64 = Leb128.placed 0 byte := by
    rw [toUInt64_payload, Leb128.placed, if_pos (by decide)]
    exact (UInt64.shiftLeft_zero).symm
  unfold singleGroup Leb128.singleGroup Decoder.byteMap
  rw [Buffer.next?_eq]
  cases ahead : buffer.cursor.rest with
  | nil => exact .fails _
  | cons byte rest =>
      simp only [List.head?_cons, fits_eq, bind, Except.bind, signBit_eq, ones,
        moved]
      split
      · exact .fails _
      · split
        · exact agrees_advanced ahead _
        · exact agrees_advanced ahead _

theorem wrapping_agrees (rule : Leb128.SignRule) (bits : Nat)
    (buffer : Buffer) :
    Agrees buffer (wrapping rule bits buffer)
      (Leb128.wrapping rule bits buffer.cursor) := by
  unfold wrapping Leb128.wrapping
  split
  · exact singleGroup_agrees _ _ buffer
  · have agrees := wrappingFrom_agrees rule (Nat.min_le_right bits 64) 0 0
      (Eq.refl buffer.cursor.rest)
    rw [map_zero_or] at agrees
    exact agrees

end Wasm.Guarded

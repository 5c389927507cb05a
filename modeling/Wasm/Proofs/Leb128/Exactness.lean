import Wasm.Proofs.Leb128.Encoding

/-!
# What the integer decoders make of an encoding

Both loops pass the initial groups in the same way and differ only at the final
group.  The decoders of a fixed width return the exact integer if the width
holds it and refuse the encoding at its last permitted group otherwise; the
decoders of any length return the integer modulo 2 ^ 64.
-/

namespace Wasm.Leb128

/-- Groups from bit `shift` on, put below a word of higher groups. -/
def stacked (shift : Nat) : List UInt8 → UInt64 → UInt64
  | [], higher => higher
  | byte :: rest, higher =>
      placed shift byte ||| stacked (shift + 7) rest higher

theorem stacked_ofInt (shift : Nat) (groups : List UInt8) (number : Int) :
    stacked shift groups
      (UInt64.ofInt (2 ^ (shift + 7 * groups.length) * number)) =
      UInt64.ofInt (2 ^ shift * groupsBelow groups number) := by
  induction groups generalizing shift with
  | nil => rfl
  | cons byte groups induction =>
      have shifts :
          shift + 7 * (byte :: groups).length =
            shift + 7 + 7 * groups.length := by
        rw [List.length_cons]
        omega
      rw [stacked, shifts, induction, placed_or_ofInt]
      rfl

/-- The loop of a fixed width passes groups that announce another one, as long
as they are not the last permitted one. -/
theorem boundedFrom_append {width : Nat} {signed : Bool} {groups : List UInt8}
    (continuing : ∀ byte ∈ groups, continues byte = true) (shift position : Nat)
    (room : shift + 7 * groups.length < width) (tail : List UInt8) :
    boundedFrom width signed shift position (groups ++ tail) =
      (boundedFrom width signed (shift + 7 * groups.length)
        (position + groups.length) tail).map
        fun (higher, cursor) => (stacked shift groups higher, cursor) := by
  induction groups generalizing shift position with
  | nil =>
      change boundedFrom width signed shift position tail = _
      cases boundedFrom width signed shift position tail <;> rfl
  | cons byte groups induction =>
      rw [List.length_cons] at room
      have more : continues byte = true := continuing byte (by simp)
      have later : ∀ candidate ∈ groups, continues candidate = true :=
        fun candidate member => continuing candidate (by simp [member])
      have notLast : ¬width ≤ shift + 7 := by omega
      have shifts :
          shift + 7 * (byte :: groups).length =
            shift + 7 + 7 * groups.length := by
        rw [List.length_cons]
        omega
      have positions :
          position + (byte :: groups).length =
            position + 1 + groups.length := by
        rw [List.length_cons]
        omega
      rw [List.cons_append, boundedFrom, if_neg notLast, if_pos more,
        induction later (shift + 7) (position + 1) (by omega), shifts,
        positions]
      cases boundedFrom width signed (shift + 7 + 7 * groups.length)
        (position + 1 + groups.length) tail <;> rfl

/-- The loop of any length passes all groups that announce another one. -/
theorem wrappingFrom_append {rule : SignRule} {width : Nat}
    {groups : List UInt8} (continuing : ∀ byte ∈ groups, continues byte = true)
    (shift position : Nat) (tail : List UInt8) :
    wrappingFrom rule width shift position (groups ++ tail) =
      (wrappingFrom rule width (shift + 7 * groups.length)
        (position + groups.length) tail).map
        fun (higher, cursor) => (stacked shift groups higher, cursor) := by
  induction groups generalizing shift position with
  | nil =>
      change wrappingFrom rule width shift position tail = _
      cases wrappingFrom rule width shift position tail <;> rfl
  | cons byte groups induction =>
      have more : continues byte = true := continuing byte (by simp)
      have later : ∀ candidate ∈ groups, continues candidate = true :=
        fun candidate member => continuing candidate (by simp [member])
      have shifts :
          shift + 7 * (byte :: groups).length =
            shift + 7 + 7 * groups.length := by
        rw [List.length_cons]
        omega
      have positions :
          position + (byte :: groups).length =
            position + 1 + groups.length := by
        rw [List.length_cons]
        omega
      rw [List.cons_append, wrappingFrom, if_pos more,
        induction later (shift + 7) (position + 1), shifts, positions]
      cases wrappingFrom rule width (shift + 7 + 7 * groups.length)
        (position + 1 + groups.length) tail <;> rfl

theorem finalGroup_eq_ofInt (signed : Bool) (shift : Nat) (byte : UInt8) :
    finalGroup signed shift byte =
      UInt64.ofInt (2 ^ shift * finalNumber (groupSign signed) byte) := by
  cases signed with
  | false => exact placed_eq_ofInt shift byte
  | true =>
      cases negative : (payload byte).testBit 6 with
      | true =>
          simp only [finalGroup, groupSign, finalNumber, negative,
            Bool.true_and, if_true]
          exact placed_or_onesFrom shift 6 byte
      | false =>
          simp only [finalGroup, groupSign, finalNumber, negative,
            Bool.true_and, if_true]
          exact placed_eq_ofInt shift byte

theorem placed_or_extension_eq_ofInt (rule : SignRule) (width shift : Nat)
    (byte : UInt8) :
    placed shift byte ||| rule.extension width shift byte =
      UInt64.ofInt
        (2 ^ shift * finalNumber (rule.signBit? width shift) byte) := by
  unfold SignRule.extension
  cases rule.signBit? width shift with
  | none =>
      change placed shift byte ||| 0 = _
      rw [UInt64.or_zero]
      exact placed_eq_ofInt shift byte
  | some bit =>
      cases negative : (payload byte).testBit bit with
      | true =>
          simp only [finalNumber, negative, if_true]
          exact placed_or_onesFrom shift bit byte
      | false =>
          simp only [finalNumber, negative, Bool.false_eq_true, if_false,
            UInt64.or_zero]
          exact placed_eq_ofInt shift byte

section Bounded

variable {width : Nat} {signed : Bool}

/-- An encoding that the width permits is read as its exact number. -/
theorem bounded_encoding (encoding : Encoding)
    (room : 7 * encoding.initial.length < width)
    (representable :
      Representable signed width (encoding.number (groupSign signed)))
    (position : Nat) (rest : List UInt8) :
    bounded width signed ⟨position, encoding.bytes ++ rest⟩ =
      .ok (UInt64.ofInt (encoding.number (groupSign signed)),
        ⟨position + encoding.length, rest⟩) := by
  have fitting := (encoding.representable_iff_fits room).mp representable
  have final :
      boundedFrom width signed (0 + 7 * encoding.initial.length)
          (position + encoding.initial.length) (encoding.final :: rest) =
        .ok (finalGroup signed (0 + 7 * encoding.initial.length) encoding.final,
          ⟨position + encoding.initial.length + 1, rest⟩) := by
    rw [Nat.zero_add, boundedFrom]
    simp [encoding.finished, fitting]
  change boundedFrom width signed 0 position (encoding.bytes ++ rest) = _
  rw [encoding.bytes_append,
    boundedFrom_append encoding.continuing 0 position (by omega), final]
  have word := stacked_ofInt 0 encoding.initial
    (finalNumber (groupSign signed) encoding.final)
  rw [← finalGroup_eq_ofInt, pow_zero, one_mul] at word
  simp only [Except.map, word]
  rfl

/-- An encoding whose number the width does not hold is refused at its final
group, which is the last permitted one. -/
theorem bounded_unrepresentable (encoding : Encoding)
    (room : 7 * encoding.initial.length < width)
    (unrepresentable :
      ¬Representable signed width (encoding.number (groupSign signed)))
    (position : Nat) (rest : List UInt8) :
    bounded width signed ⟨position, encoding.bytes ++ rest⟩ =
      .error (.recoverable
        (.unexpected encoding.final (position + encoding.initial.length))) := by
  have unfitting :=
    mt (encoding.representable_iff_fits room).mpr unrepresentable
  have last : width ≤ 7 * encoding.initial.length + 7 := by
    by_contra wider
    exact unrepresentable ((encoding.representable_length signed).mono
      (by simp only [Encoding.length]; omega))
  change boundedFrom width signed 0 position (encoding.bytes ++ rest) = _
  rw [encoding.bytes_append,
    boundedFrom_append encoding.continuing 0 position (by omega),
    Nat.zero_add, boundedFrom, if_pos last]
  simp [encoding.finished, unfitting, Except.map]

/-- When the last permitted group announces another one and a byte follows, it
is refused there. -/
theorem bounded_overlong (signed : Bool) {groups : List UInt8}
    (continuing : ∀ candidate ∈ groups, continues candidate = true)
    (positive : 0 < width) (many : width ≤ 7 * groups.length) (position : Nat)
    (next : UInt8) (rest : List UInt8) :
    ∃ byte, (groups ++ next :: rest)[(width - 1) / 7]? = some byte ∧
      bounded width signed ⟨position, groups ++ next :: rest⟩ =
        .error (.recoverable
          (.unexpected byte (position + (width - 1) / 7))) := by
  have inside : (width - 1) / 7 < groups.length := by omega
  generalize last : (width - 1) / 7 = index at inside
  -- The groups before the last permitted one, that one, and the groups behind
  -- it.
  obtain ⟨byte, behind, split⟩ :
    ∃ byte behind, groups.drop index = byte :: behind :=
    ⟨_, _, List.drop_eq_getElem_cons inside⟩
  have whole :
      groups ++ next :: rest =
        groups.take index ++ byte :: (behind ++ next :: rest) := by
    rw [← List.cons_append, ← split, ← List.append_assoc, List.take_append_drop]
  have length : (groups.take index).length = index :=
    List.length_take_of_le inside.le
  have earlier : ∀ candidate ∈ groups.take index, continues candidate = true :=
    fun candidate member => continuing candidate (List.mem_of_mem_take member)
  have more : continues byte = true := by
    apply continuing byte
    apply List.mem_of_mem_drop
    rw [split]
    exact List.mem_cons_self
  have permitted : width ≤ 7 * index + 7 := by omega
  refine ⟨byte, ?_, ?_⟩
  · rw [whole, List.getElem?_append_right length.le, length, Nat.sub_self]
    rfl
  · have notEmpty : (behind ++ next :: rest).isEmpty = false := by simp
    change boundedFrom width signed 0 position (groups ++ next :: rest) = _
    rw [whole,
      boundedFrom_append earlier 0 position (by omega), length, Nat.zero_add,
      boundedFrom, if_pos permitted, if_pos more, notEmpty]
    rfl

/-- Groups that all announce another one are an input that ends too early, as
long as they are not more than the width permits. -/
theorem bounded_unfinished {groups : List UInt8}
    (continuing : ∀ candidate ∈ groups, continues candidate = true)
    (room : 7 * groups.length < width + 7) (position : Nat) :
    bounded width signed ⟨position, groups⟩ =
      .error (.recoverable .unexpectedEnd) := by
  change boundedFrom width signed 0 position groups = _
  rcases List.eq_nil_or_concat groups with rfl | ⟨initial, byte, rfl⟩
  · rfl
  · rw [List.length_concat] at room
    have more : continues byte = true := continuing byte (by simp)
    have earlier : ∀ candidate ∈ initial, continues candidate = true :=
      fun candidate member => continuing candidate (by simp [member])
    rw [List.concat_eq_append,
      boundedFrom_append earlier 0 position (by omega), boundedFrom,
      if_pos more, if_pos more]
    split <;> rfl

theorem boundedFrom_refuses_last {input : List UInt8}
    {shift position location : Nat} {failure : Failure} {byte : UInt8}
    (inside : shift < width)
    (failed : boundedFrom width signed shift position input = .error failure)
    (unexpected : failure.error = .unexpected byte location) :
    ∃ groups, location = position + groups ∧
      shift + 7 * groups < width ∧ width ≤ shift + 7 * groups + 7 := by
  induction input generalizing shift position with
  | nil =>
      cases failed
      cases unexpected
  | cons first rest induction =>
      unfold boundedFrom at failed
      split at failed
      · rename_i last
        have here : location = position := by
          split at failed
          · split at failed
            · cases failed
              cases unexpected
            · cases failed
              cases unexpected
              rfl
          · split at failed
            · cases failed
            · cases failed
              cases unexpected
              rfl
        exact ⟨0, here, inside, last⟩
      · rename_i further
        split at failed
        · cases behind :
            boundedFrom width signed (shift + 7) (position + 1) rest with
          | ok result =>
              rw [behind] at failed
              cases failed
          | error reason =>
              rw [behind] at failed
              cases failed
              obtain ⟨groups, place, least, greatest⟩ :=
                induction (by omega) behind
              exact ⟨groups + 1, by omega, by omega, by omega⟩
        · cases failed

/-- A byte is refused only as the last permitted group. -/
theorem bounded_refuses_last (positive : 0 < width) {cursor : ByteCursor}
    {failure : Failure} {byte : UInt8} {location : Nat}
    (failed : bounded width signed cursor = .error failure)
    (unexpected : failure.error = .unexpected byte location) :
    location = cursor.position + (width - 1) / 7 := by
  obtain ⟨groups, place, least, greatest⟩ :=
    boundedFrom_refuses_last positive failed unexpected
  omega

/-- A decoder of a fixed width succeeds on the encodings of the integers that
the width holds, and on nothing else. -/
theorem bounded_eq_ok_iff (positive : 0 < width) {cursor after : ByteCursor}
    {word : UInt64} :
    bounded width signed cursor = .ok (word, after) ↔
      ∃ encoding : Encoding,
        7 * encoding.initial.length < width ∧
        Representable signed width (encoding.number (groupSign signed)) ∧
        cursor.rest = encoding.bytes ++ after.rest ∧
        after.position = cursor.position + encoding.length ∧
        word = UInt64.ofInt (encoding.number (groupSign signed)) := by
  obtain ⟨position, input⟩ := cursor
  constructor
  · intro run
    rcases Encoding.starts_or_unfinished input with
        ⟨encoding, rest, rfl⟩ | unfinished
    · by_cases room : 7 * encoding.initial.length < width
      · by_cases representable :
            Representable signed width (encoding.number (groupSign signed))
        · rw [bounded_encoding encoding room representable] at run
          cases run
          exact ⟨encoding, room, representable, rfl, rfl, rfl⟩
        · rw [bounded_unrepresentable encoding room representable] at run
          cases run
      · obtain ⟨_, _, failure⟩ :=
          bounded_overlong signed encoding.continuing positive
            (Nat.le_of_not_lt room) position encoding.final rest
        rw [encoding.bytes_append, failure] at run
        cases run
    · by_cases room : 7 * input.length < width + 7
      · rw [bounded_unfinished unfinished room] at run
        cases run
      · rcases List.eq_nil_or_concat input with rfl | ⟨initial, last, rfl⟩
        · simp at room
        · rw [List.length_concat] at room
          have earlier : ∀ candidate ∈ initial, continues candidate = true :=
            fun candidate member => unfinished candidate (by simp [member])
          obtain ⟨_, _, failure⟩ :=
            bounded_overlong signed earlier positive (by omega)
            position last []
          rw [List.concat_eq_append, failure] at run
          cases run
  · intro parts
    obtain ⟨encoding, room, representable, bytes, behind, rfl⟩ := parts
    have run := bounded_encoding encoding room representable position after.rest
    rw [← bytes, ← behind] at run
    exact run

end Bounded

section Wrapping

variable {rule : SignRule} {bits : Nat}

/-- A decoder of any length reads an encoding as its number modulo 2 ^ 64. -/
theorem wrapping_encoding (wide : 7 < bits) (encoding : Encoding)
    (position : Nat) (rest : List UInt8) :
    wrapping rule bits ⟨position, encoding.bytes ++ rest⟩ =
      .ok (UInt64.ofInt (encoding.number
          (rule.signBit? (min bits 64) (7 * encoding.initial.length))),
        ⟨position + encoding.length, rest⟩) := by
  have notSingle : ¬min bits 64 ≤ 7 := by omega
  have word := stacked_ofInt 0 encoding.initial
    (finalNumber (rule.signBit? (min bits 64) (7 * encoding.initial.length))
      encoding.final)
  rw [pow_zero, one_mul, Nat.zero_add] at word
  unfold wrapping
  simp only [notSingle, if_false]
  rw [encoding.bytes_append, wrappingFrom_append encoding.continuing 0 position,
    Nat.zero_add, wrappingFrom, encoding.finished]
  simp only [Bool.false_eq_true, if_false, placed_or_extension_eq_ofInt,
    Except.map, word]
  rfl

theorem wrapping_unfinished (wide : 7 < bits) {groups : List UInt8}
    (continuing : ∀ byte ∈ groups, continues byte = true) (position : Nat) :
    wrapping rule bits ⟨position, groups⟩ =
      .error (.recoverable .unexpectedEnd) := by
  have notSingle : ¬min bits 64 ≤ 7 := by omega
  have run : wrappingFrom rule (min bits 64) 0 position (groups ++ []) = _ :=
    wrappingFrom_append continuing 0 position []
  rw [List.append_nil] at run
  unfold wrapping
  simp only [notSingle, if_false]
  rw [run]
  rfl

theorem wrapping_eq_ok_iff (wide : 7 < bits) {cursor after : ByteCursor}
    {word : UInt64} :
    wrapping rule bits cursor = .ok (word, after) ↔
      ∃ encoding : Encoding,
        cursor.rest = encoding.bytes ++ after.rest ∧
        after.position = cursor.position + encoding.length ∧
        word = UInt64.ofInt (encoding.number
          (rule.signBit? (min bits 64) (7 * encoding.initial.length))) := by
  obtain ⟨position, input⟩ := cursor
  constructor
  · intro run
    rcases Encoding.starts_or_unfinished input with
        ⟨encoding, rest, rfl⟩ | unfinished
    · rw [wrapping_encoding wide] at run
      cases run
      exact ⟨encoding, rfl, rfl, rfl⟩
    · rw [wrapping_unfinished wide unfinished] at run
      cases run
  · intro parts
    obtain ⟨encoding, bytes, behind, rfl⟩ := parts
    have run :
        wrapping rule bits ⟨position, encoding.bytes ++ after.rest⟩ = _ :=
      wrapping_encoding wide encoding position after.rest
    rw [← bytes, ← behind] at run
    exact run

end Wrapping

end Wasm.Leb128

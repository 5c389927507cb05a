import Wasm.Proofs.Decoding.SelfDelimiting
import Wasm.Proofs.Leb128.FixedWidth

/-!
# Elements of vectors

A vector is a length and then that many runs of its element decoder, each from
where the one before has stopped.  Whatever the element decoder does, the first
of its failures is the failure of the vector, of the same kind and with the same
error.
-/

namespace Wasm

/-- Groups without bits add nothing to a zero. -/
theorem Leb128.groupsBelow_padding (padding : Nat) :
    groupsBelow (List.replicate padding 0x80) 0 = 0 := by
  have group : payload 0x80 = 0 := by decide
  induction padding with
  | zero => rfl
  | succ padding induction =>
      unfold groupsBelow at induction ⊢
      rw [List.replicate_succ, List.foldr_cons, induction, group]
      rfl

/-- The error of a step around a step that has failed: the error of the step
within. -/
def DecodeError.enclosed (_origin : ByteCursor) (inner : DecodeError) :
    DecodeError :=
  inner

namespace Decoder

variable {α : Type} {element : Decoder α}

/-- Runs of a decoder one after the other, with the values they return and the
cursor behind the last of them. -/
inductive Chain (element : Decoder α) :
    ByteCursor → List α → ByteCursor → Prop where
  | nil {cursor : ByteCursor} : Chain element cursor [] cursor
  | cons {cursor between after : ByteCursor} {value : α} {values : List α} :
      element cursor = .ok (value, between) →
        Chain element between values after →
      Chain element cursor (value :: values) after

/-- A chain of fewer runs than are due, behind which the decoder fails. -/
def Breaks (element : Decoder α) (count : Nat) (first : ByteCursor)
    (failure : Failure) : Prop :=
  ∃ values stuck, values.length < count ∧ Chain element first values stuck ∧
    element stuck = .error failure

/-- Runs a decoder a number of times behind the values that are already there.
A failure that leaves alternatives open is given the error of the whole, which
has started at `origin`. -/
def collect (wrap : ByteCursor → DecodeError → DecodeError)
    (element : Decoder α) (origin : ByteCursor) :
    Nat → List α → Decoder (List α)
  | 0, values => pure values
  | count + 1, values => fun cursor =>
      match element cursor with
      | .ok (value, between) =>
          collect wrap element origin count (values ++ [value]) between
      | .error (.recoverable error) => .error (.recoverable (wrap origin error))
      | .error failure => .error failure

/-! ## Runs of the element decoder -/

theorem replicate_succ_of_ok {cursor between : ByteCursor} {value : α}
    (count : Nat) (ran : element cursor = .ok (value, between)) :
    element.replicate (count + 1) cursor =
      (do let others ← element.replicate count; pure (value :: others))
        between :=
  bind_of_ok ran

theorem replicate_succ_of_error {cursor : ByteCursor} {failure : Failure}
    (count : Nat) (failed : element cursor = .error failure) :
    element.replicate (count + 1) cursor = .error failure :=
  bind_of_error failed

theorem Chain.replicate {first after : ByteCursor} {values : List α}
    (chain : Chain element first values after) :
    element.replicate values.length first = .ok (values, after) := by
  induction chain with
  | nil => rfl
  | cons ran _ induction =>
      rw [List.length_cons, replicate_succ_of_ok _ ran]
      exact bind_of_ok induction

/-- Every number of runs ends with a chain of that many, or breaks before. -/
theorem replicate_cases (element : Decoder α) (count : Nat)
    (first : ByteCursor) :
    (∃ values after, values.length = count ∧ Chain element first values after ∧
      element.replicate count first = .ok (values, after)) ∨
    ∃ failure, Breaks element count first failure ∧
      element.replicate count first = .error failure := by
  induction count generalizing first with
  | zero => exact .inl ⟨[], first, rfl, .nil, rfl⟩
  | succ count induction =>
      cases ran : element first with
      | error failure =>
          exact .inr ⟨failure, ⟨[], first, Nat.succ_pos count, .nil, ran⟩,
            replicate_succ_of_error count ran⟩
      | ok result =>
          obtain ⟨value, between⟩ := result
          rw [replicate_succ_of_ok count ran]
          rcases induction between with ⟨values, after, length, chain, read⟩ |
            ⟨failure, ⟨values, stuck, short, chain, failed⟩, broken⟩
          · exact .inl ⟨value :: values, after, congrArg (· + 1) length,
              .cons ran chain, bind_of_ok read⟩
          · exact .inr ⟨failure,
              ⟨value :: values, stuck, Nat.succ_lt_succ short,
              .cons ran chain, failed⟩, bind_of_error broken⟩

theorem replicate_eq_ok_iff {count : Nat} {first after : ByteCursor}
    {values : List α} :
    element.replicate count first = .ok (values, after) ↔
      values.length = count ∧ Chain element first values after := by
  constructor
  · intro read
    rcases replicate_cases element count first with
        ⟨_, _, length, chain, same⟩ | ⟨_, _, failed⟩
    · rw [read] at same
      cases same
      exact ⟨length, chain⟩
    · rw [read] at failed
      cases failed
  · rintro ⟨rfl, chain⟩
    exact chain.replicate

/-- The runs before the decoder fails are the same whatever number of them is
due. -/
theorem Chain.replicate_of_error {first stuck : ByteCursor} {values : List α}
    {failure : Failure} (chain : Chain element first values stuck)
    (failed : element stuck = .error failure) {count : Nat}
    (short : values.length < count) :
    element.replicate count first = .error failure := by
  obtain ⟨rest, rfl⟩ := Nat.exists_eq_add_of_lt short
  induction chain with
  | nil =>
      rw [List.length_nil, Nat.zero_add]
      exact replicate_succ_of_error rest failed
  | @cons _ _ _ _ values ran _ induction =>
      have due :
          (values.length + 1) + rest + 1 = (values.length + rest + 1) + 1 := by
        omega
      rw [List.length_cons, due, replicate_succ_of_ok _ ran]
      exact bind_of_error (induction failed (by omega))

theorem replicate_eq_error_iff {count : Nat} {first : ByteCursor}
    {failure : Failure} :
    element.replicate count first = .error failure ↔
      Breaks element count first failure := by
  constructor
  · intro failed
    rcases replicate_cases element count first with
        ⟨_, _, _, _, read⟩ | ⟨_, breaks, same⟩
    · rw [failed] at read
      cases read
    · rw [failed] at same
      cases same
      exact breaks
  · rintro ⟨values, stuck, short, chain, failed⟩
    exact chain.replicate_of_error failed short

/-- Collecting values behind others is running the decoder, if an error is
passed on as it is. -/
theorem collect_eq {wrap : ByteCursor → DecodeError → DecodeError}
    (keeps : ∀ origin error, wrap origin error = error) (origin : ByteCursor)
    (count : Nat) (front : List α) (cursor : ByteCursor) :
    collect wrap element origin count front cursor =
      (do let values ← element.replicate count; pure (front ++ values))
        cursor := by
  induction count generalizing front cursor with
  | zero => simp [collect, replicate]
  | succ count induction =>
      cases ran : element cursor with
      | error failure =>
          rw [bind_of_error (replicate_succ_of_error count ran)]
          cases failure with
          | recoverable error => simp only [collect, ran, keeps]
          | fatal error => simp only [collect, ran]
          | incomplete => simp only [collect, ran]
      | ok result =>
          obtain ⟨value, between⟩ := result
          simp only [collect, ran, induction]
          rcases replicate_cases element count between with
              ⟨values, after, _, _, read⟩ |
              ⟨failure, _, failed⟩
          · have longer :
                element.replicate (count + 1) cursor =
                  .ok (value :: values, after) := by
              rw [replicate_succ_of_ok count ran]
              exact bind_of_ok read
            rw [bind_of_ok read, bind_of_ok longer, List.append_assoc]
            rfl
          · have broken :
                element.replicate (count + 1) cursor = .error failure := by
              rw [replicate_succ_of_ok count ran]
              exact bind_of_error failed
            rw [bind_of_error failed, bind_of_error broken]

/-! ## Lengths and elements -/

section Length

variable {start first : ByteCursor} {count : UInt32}

theorem vector_of_length (sized : Leb128.uint32 start = .ok (count, first)) :
    vector element start = element.replicate count.toNat first :=
  bind_of_ok sized

/-- The offset of the length is taken before the length is read. -/
theorem nonemptyVector_eq (element : Decoder α) (start : ByteCursor) :
    nonemptyVector element start =
      (Leb128.uint32 >>= fun length =>
        if length = 0 then reject (.vectorInvalidLength length start.position)
        else element.replicate length.toNat) start :=
  rfl

theorem nonemptyVector_of_length
    (sized : Leb128.uint32 start = .ok (count, first)) :
    nonemptyVector element start =
      (if count = 0 then reject (.vectorInvalidLength count start.position)
        else element.replicate count.toNat) first := by
  rw [nonemptyVector_eq, bind_of_ok sized]

theorem nonemptyVector_of_zero (sized : Leb128.uint32 start = .ok (0, first)) :
    nonemptyVector element start =
      .error (.recoverable (.vectorInvalidLength 0 start.position)) :=
  nonemptyVector_of_length sized

theorem nonemptyVector_of_ne_zero
    (sized : Leb128.uint32 start = .ok (count, first)) (nonzero : count ≠ 0) :
    nonemptyVector element start = vector element start := by
  rw [nonemptyVector_of_length sized, if_neg nonzero, vector_of_length sized]

end Length

/-- Groups without bits may stand before the last group of a zero. -/
theorem uint32_of_padded_zero {padding : Nat} (short : padding ≤ 4)
    (position : Nat) (rest : List UInt8) :
    Leb128.uint32 ⟨position, List.replicate padding 0x80 ++ 0x00 :: rest⟩ =
      .ok (0, ⟨position + padding + 1, rest⟩) := by
  have continuing : ∀ byte ∈ List.replicate padding (0x80 : UInt8),
      Leb128.continues byte = true := by
    intro byte member
    rw [List.eq_of_mem_replicate member]
    decide
  rw [← Leb128.FixedWidth.decoder_unsigned32,
    Leb128.FixedWidth.decoder_eq_ok_iff]
  refine ⟨⟨List.replicate padding 0x80, 0x00, continuing, by decide⟩, ?_,
    Leb128.groupsBelow_padding padding, ?_, ?_⟩
  · rw [Leb128.Encoding.length, List.length_replicate]
    exact Nat.succ_le_succ short
  · rw [Leb128.Encoding.bytes_append]
  · rw [Leb128.Encoding.length, List.length_replicate, Nat.add_assoc]

/-- If the length of a vector is read, the vector has exactly as many elements
as it says, each read from where the one before has stopped, or it fails as the
first element does that cannot be read.  A vector that may not be empty differs
only for a length of zero, which is refused at the offset of the length, however
the zero is written.  Neither changes if an error is passed through the steps
around the one that has failed. -/
theorem vectors_are_their_elements (element : Decoder α) (start : ByteCursor) :
    (∀ failure, Leb128.uint32 start = .error failure →
      vector element start = .error failure ∧
        nonemptyVector element start = .error failure) ∧
    (∀ count first, Leb128.uint32 start = .ok (count, first) →
      (∀ values after, vector element start = .ok (values, after) ↔
        values.length = count.toNat ∧ Chain element first values after) ∧
      (∀ failure, vector element start = .error failure ↔
        Breaks element count.toNat first failure) ∧
      (count = 0 → nonemptyVector element start =
        .error (.recoverable (.vectorInvalidLength 0 start.position))) ∧
      (count ≠ 0 → nonemptyVector element start = vector element start) ∧
      vector element start =
        collect DecodeError.enclosed element first count.toNat [] first) ∧
    ∀ padding rest, padding ≤ 4 →
      start.rest = List.replicate padding 0x80 ++ 0x00 :: rest →
      nonemptyVector element start =
        .error (.recoverable (.vectorInvalidLength 0 start.position)) := by
  refine ⟨?_, ?_, ?_⟩
  · intro failure failed
    rw [nonemptyVector_eq]
    exact ⟨bind_of_error failed, bind_of_error failed⟩
  · intro count first sized
    rw [vector_of_length sized]
    refine ⟨fun values after => replicate_eq_ok_iff,
      fun failure => replicate_eq_error_iff, ?_, ?_, ?_⟩
    · rintro rfl
      exact nonemptyVector_of_zero sized
    · intro nonzero
      rw [nonemptyVector_of_ne_zero sized nonzero, vector_of_length sized]
    · have keeps : ∀ origin error, DecodeError.enclosed origin error = error :=
        fun _ _ => rfl
      rw [collect_eq keeps]
      simp only [List.nil_append, bind_pure]
  · intro padding rest short bytes
    have sized := uint32_of_padded_zero short start.position rest
    rw [← bytes] at sized
    exact nonemptyVector_of_zero sized

/-- Two elements that take no bytes, a third element that may not be given up,
and a zero that is written in two groups. -/
theorem vectors_of_empty_and_committed_elements :
    vector (pure true) ⟨0, [0x02]⟩ = .ok ([true, true], ⟨1, []⟩) ∧
    vector (byte 0x01).commit ⟨0, [0x04, 0x01, 0x01, 0x05]⟩ =
      .error (.fatal (.unexpected 0x05 3)) ∧
    nonemptyVector (byte 0x01) ⟨1, [0x80, 0x00, 0x01]⟩ =
      .error (.recoverable (.vectorInvalidLength 0 1)) := by
  obtain ⟨_, empty, _⟩ := vectors_are_their_elements (pure true) ⟨0, [0x02]⟩
  obtain ⟨_, committed, _⟩ :=
    vectors_are_their_elements (byte 0x01).commit ⟨0, [0x04, 0x01, 0x01, 0x05]⟩
  obtain ⟨_, _, padded⟩ :=
    vectors_are_their_elements (byte 0x01) ⟨1, [0x80, 0x00, 0x01]⟩
  obtain ⟨reads, _⟩ := empty 2 ⟨1, []⟩ rfl
  obtain ⟨_, fails, _⟩ := committed 4 ⟨1, [0x01, 0x01, 0x05]⟩ rfl
  refine ⟨(reads _ _).mpr ⟨rfl, .cons rfl (.cons rfl .nil)⟩, (fails _).mpr ?_,
    padded 1 [0x01] (by decide) rfl⟩
  exact ⟨[0x01, 0x01], ⟨3, [0x05]⟩, by decide, .cons rfl (.cons rfl .nil), rfl⟩

end Decoder

end Wasm

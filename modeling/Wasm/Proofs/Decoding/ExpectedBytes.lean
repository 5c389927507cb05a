import Wasm.Proofs.BinaryGrammar.Recognition
import Wasm.Proofs.Guarded.Agreement

/-!
# Expected bytes

Expected bytes are compared with the input one after the other.  What both have
in common from their start decides the outcome: it is all that was expected, or
all that the input has, or the byte that stands behind it in the input is
refused.
-/

namespace Wasm

/-- The longest sequence with which both sequences start. -/
structure LongestCommonPrefix (left right common : List UInt8) : Prop where
  startsLeft : common <+: left
  startsRight : common <+: right
  longest : ∀ other, other <+: left → other <+: right →
    other.length ≤ common.length

theorem LongestCommonPrefix.unique {left right common other : List UInt8}
    (first : LongestCommonPrefix left right common)
    (second : LongestCommonPrefix left right other) : common = other := by
  have length : common.length = other.length :=
    Nat.le_antisymm (second.longest common first.startsLeft first.startsRight)
      (first.longest other second.startsLeft second.startsRight)
  have inside : common <+: other :=
    List.prefix_of_prefix_length_le first.startsLeft second.startsLeft length.le
  exact inside.eq_of_length length

/-- Where a comparison of expected bytes with an input ends, and what both have
in common up to there. -/
inductive Comparison : List UInt8 → List UInt8 → List UInt8 → Prop where
  /-- All that was expected is there. -/
  | complete (expected rest : List UInt8) :
      Comparison expected (expected ++ rest) expected
  /-- The input ends where more is expected. -/
  | cutOff (input : List UInt8) (wanted : UInt8) (missing : List UInt8) :
      Comparison (input ++ wanted :: missing) input input
  /-- The input has another byte than the expected one. -/
  | differs (common : List UInt8) {wanted found : UInt8}
      (missing rest : List UInt8) : found ≠ wanted →
      Comparison (common ++ wanted :: missing) (common ++ found :: rest) common

namespace Comparison

theorem cons (byte : UInt8) {expected input common : List UInt8}
    (comparison : Comparison expected input common) :
    Comparison (byte :: expected) (byte :: input) (byte :: common) := by
  cases comparison with
  | complete expected rest => exact .complete (byte :: expected) rest
  | cutOff input wanted missing => exact .cutOff (byte :: input) wanted missing
  | differs common missing rest different =>
      exact .differs (byte :: common) missing rest different

theorem exists_common (expected input : List UInt8) :
    ∃ common, Comparison expected input common := by
  induction expected generalizing input with
  | nil => exact ⟨[], .complete [] input⟩
  | cons wanted missing induction =>
      cases input with
      | nil => exact ⟨[], .cutOff [] wanted missing⟩
      | cons found rest =>
          by_cases same : found = wanted
          · subst same
            obtain ⟨common, comparison⟩ := induction rest
            exact ⟨found :: common, comparison.cons found⟩
          · exact ⟨[], .differs [] missing rest same⟩

theorem longestCommonPrefix {expected input common : List UInt8}
    (comparison : Comparison expected input common) :
    LongestCommonPrefix expected input common := by
  cases comparison with
  | complete =>
      exact ⟨List.prefix_rfl, List.prefix_append ..,
        fun _ starts _ => starts.length_le⟩
  | cutOff =>
      exact ⟨List.prefix_append .., List.prefix_rfl,
        fun _ _ starts => starts.length_le⟩
  | @differs _ wanted found missing rest different =>
      refine ⟨List.prefix_append .., List.prefix_append .., ?_⟩
      intro other startsLeft startsRight
      by_contra longer
      -- A longer common prefix would hold both bytes at the same place.
      have place : common.length < other.length := Nat.lt_of_not_le longer
      have left := List.prefix_iff_getElem?.mp startsLeft common.length place
      have right := List.prefix_iff_getElem?.mp startsRight common.length place
      rw [← left] at right
      simp only [List.getElem?_append_right, Nat.le_refl, Nat.sub_self,
        List.getElem?_cons_zero, Option.some.injEq] at right
      exact different right

end Comparison

namespace Decoder

/-- A failure behind bytes that are as expected is the failure of the whole. -/
theorem bytes_append_of_error {expected input : List UInt8} {failure : Failure}
    (common : List UInt8) {position : Nat}
    (failed : bytes expected ⟨position + common.length, input⟩ =
      .error failure) :
    bytes (common ++ expected) ⟨position, common ++ input⟩ =
      .error failure := by
  induction common generalizing position with
  | nil => exact failed
  | cons byte common induction =>
      have first : Decoder.byte byte ⟨position, byte :: (common ++ input)⟩ =
          .ok (byte, ⟨position + 1, common ++ input⟩) :=
        (recognises_byte byte).mpr ⟨[byte], ⟨rfl, rfl⟩, rfl, rfl⟩
      have place :
          position + 1 + common.length =
            position + (byte :: common).length := by
        rw [List.length_cons]
        omega
      rw [← place] at failed
      exact (bind_of_ok first).trans (bind_of_error (induction failed))

theorem bytes_of_complete (expected rest : List UInt8) (position : Nat) :
    bytes expected ⟨position, expected ++ rest⟩ =
      .ok (expected, ⟨position + expected.length, rest⟩) :=
  (recognises_bytes expected).mpr ⟨expected, ⟨rfl, rfl⟩, rfl, rfl⟩

theorem bytes_of_cutOff (input : List UInt8) (wanted : UInt8)
    (missing : List UInt8) (position : Nat) :
    bytes (input ++ wanted :: missing) ⟨position, input⟩ =
      .error (.recoverable .unexpectedEnd) := by
  have ended : bytes (wanted :: missing) ⟨position + input.length, []⟩ =
      .error (.recoverable .unexpectedEnd) := rfl
  have whole := bytes_append_of_error input ended
  rwa [List.append_nil] at whole

theorem bytes_of_differs (common : List UInt8) {wanted found : UInt8}
    (missing rest : List UInt8) (different : found ≠ wanted) (position : Nat) :
    bytes (common ++ wanted :: missing) ⟨position, common ++ found :: rest⟩ =
      .error (.recoverable (.unexpected found (position + common.length))) := by
  apply bytes_append_of_error
  apply bind_of_error
  simp only [Decoder.byte, byteIf, byteMap, beq_iff_eq, if_neg different]

/-- The slice of a buffer that matches the expected bytes is taken where the
comparison has started, and is there whenever the comparison succeeds. -/
theorem bytes_in_buffer {buffer : Buffer} (valid : buffer.Valid)
    (expected : List UInt8) :
    Guarded.bytes expected buffer =
      match bytes expected buffer.cursor with
      | .ok (value, _) =>
          .ok (.ok (value, ⟨buffer.bytes, buffer.position + expected.length⟩))
      | .error failure => .ok (.error failure) := by
  have agrees := Guarded.bytes_agrees valid expected
  cases plain : bytes expected buffer.cursor with
  | error failure =>
      rw [plain] at agrees
      generalize Guarded.bytes expected buffer = outcome at agrees ⊢
      cases agrees
      rfl
  | ok result =>
      obtain ⟨value, behind⟩ := result
      obtain ⟨consumed, ⟨_, same⟩, _, position⟩ :=
        (recognises_bytes expected).mp plain
      rw [same] at position
      rw [plain] at agrees
      generalize Guarded.bytes expected buffer = outcome at agrees ⊢
      cases agrees with
      | @reads _ after same later afterValid =>
          obtain ⟨bytes, place⟩ := after
          obtain rfl : bytes = buffer.bytes := same
          obtain rfl : place = buffer.position + expected.length := position
          rfl

/-- Expected bytes are read exactly if they are the common prefix with the
input.  If that prefix is all that the input has, the input ends too early;
otherwise the byte behind it is refused, at its own offset.  A slice of a buffer
from the start of the comparison holds the same bytes. -/
theorem expected_bytes_end_at_divergence (expected : List UInt8)
    (cursor : ByteCursor) :
    (∃ common, LongestCommonPrefix expected cursor.rest common) ∧
    (∀ common, LongestCommonPrefix expected cursor.rest common →
      (∀ value after, bytes expected cursor = .ok (value, after) ↔
        common.length = expected.length ∧ value = expected ∧
          after = ⟨cursor.position + expected.length,
            cursor.rest.drop expected.length⟩) ∧
      (bytes expected cursor = .error (.recoverable .unexpectedEnd) ↔
        common.length = cursor.rest.length ∧
          cursor.rest.length < expected.length) ∧
      (common.length ≠ expected.length →
        ¬ (common.length = cursor.rest.length ∧
          cursor.rest.length < expected.length) →
        ∃ byte, cursor.rest[common.length]? = some byte ∧
          bytes expected cursor =
            .error (.recoverable
              (.unexpected byte (cursor.position + common.length))))) ∧
    ∀ buffer : Buffer, buffer.Valid → buffer.cursor = cursor →
      Guarded.bytes expected buffer =
        match bytes expected cursor with
        | .ok (value, _) =>
            .ok (.ok (value, ⟨buffer.bytes, buffer.position + expected.length⟩))
        | .error failure => .ok (.error failure) := by
  obtain ⟨position, input⟩ := cursor
  obtain ⟨common, comparison⟩ := Comparison.exists_common expected input
  have shared := comparison.longestCommonPrefix
  refine ⟨⟨common, shared⟩, ?_, ?_⟩
  · intro other longest
    obtain rfl := shared.unique longest
    cases comparison with
    | complete expected rest =>
        rw [bytes_of_complete]
        simp [eq_comm]
    | cutOff input wanted missing =>
        rw [bytes_of_cutOff]
        simp
    | differs common missing rest different =>
        rw [bytes_of_differs common missing rest different]
        simp
  · intro buffer valid same
    rw [← same]
    exact bytes_in_buffer valid expected

/-- The last of four expected bytes is missing, the third one is another byte,
and all are there in front of more. -/
theorem expected_bytes_end_at_third_byte :
    bytes [0x00, 0x61, 0x73, 0x6D] ⟨2, [0x00, 0x61, 0x73]⟩ =
      .error (.recoverable .unexpectedEnd) ∧
    bytes [0x00, 0x61, 0x73, 0x6D] ⟨2, [0x00, 0x61, 0x62, 0x6D]⟩ =
      .error (.recoverable (.unexpected 0x62 4)) ∧
    Guarded.bytes [0x00, 0x61, 0x73, 0x6D]
        ⟨[0xFF, 0x00, 0x61, 0x73, 0x6D, 0xFF], 1⟩ =
      .ok (.ok ([0x00, 0x61, 0x73, 0x6D],
        ⟨[0xFF, 0x00, 0x61, 0x73, 0x6D, 0xFF], 5⟩)) := by
  have short :
      Comparison [0x00, 0x61, 0x73, 0x6D] [0x00, 0x61, 0x73]
        [0x00, 0x61, 0x73] :=
    .cutOff [0x00, 0x61, 0x73] 0x6D []
  have wrong :
      Comparison [0x00, 0x61, 0x73, 0x6D] [0x00, 0x61, 0x62, 0x6D]
        [0x00, 0x61] :=
    .differs [0x00, 0x61] [0x6D] [0x6D] (by decide)
  obtain ⟨_, ends, _⟩ :=
    expected_bytes_end_at_divergence [0x00, 0x61, 0x73, 0x6D] ⟨2,
      [0x00, 0x61, 0x73]⟩
  obtain ⟨_, refuses, _⟩ :=
    expected_bytes_end_at_divergence [0x00, 0x61, 0x73, 0x6D] ⟨2,
      [0x00, 0x61, 0x62, 0x6D]⟩
  obtain ⟨_, _, sliced⟩ :=
    expected_bytes_end_at_divergence [0x00, 0x61, 0x73, 0x6D] ⟨1,
      [0x00, 0x61, 0x73, 0x6D, 0xFF]⟩
  obtain ⟨_, ended, _⟩ := ends _ short.longestCommonPrefix
  obtain ⟨_, _, refused⟩ := refuses _ wrong.longestCommonPrefix
  obtain ⟨byte, there, failed⟩ := refused (by decide) (by decide)
  obtain rfl : 0x62 = byte := Option.some.inj there
  exact ⟨ended.mpr (by decide), failed, sliced _ (by decide) rfl⟩

end Decoder

end Wasm

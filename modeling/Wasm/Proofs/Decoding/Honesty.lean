import Wasm.Proofs.Decoding.Composed
import Wasm.Proofs.Decoding.FormatErrors

/-!
# Honest error reports

An error names a byte and an offset, or a length and an offset.  Both are in the
input that the decoder was given, however deep in windows, alternatives and
vectors the error arose.
-/

namespace Wasm

namespace ErrorLaw

/-- An unexpected byte stands where the error says, and a refused length is a
zero that stands there. -/
def truthful : ErrorLaw where
  Holds cursor error :=
    match error with
    | .unexpectedEnd => True
    | .unexpected byte location => cursor.Shows location [byte]
    | .vectorInvalidLength length location =>
        length = 0 ∧ ∃ number, Production.natural 0 number ∧
          cursor.Shows location number
  ending := fun _ => trivial
  unexpected := fun _ _ _ shown => shown
  widen := by
    intro cursor part error inside holds
    cases error with
    | unexpectedEnd => trivial
    | unexpected byte location => exact inside.trans holds
    | vectorInvalidLength length location =>
        obtain ⟨zero, number, written, shown⟩ := holds
        exact ⟨zero, number, written, inside.trans shown⟩

/-- No length is refused. -/
def acceptsLengths : ErrorLaw where
  Holds _ error :=
    ∀ length location, error ≠ .vectorInvalidLength length location
  ending := fun _ _ _ equal => nomatch equal
  unexpected := fun _ _ _ _ _ _ equal => nomatch equal
  widen := fun _ _ _ _ holds => holds

theorem truthful_nonemptyVector {α : Type} {element : Decoder α}
    (obeys : truthful.Obeys element) :
    truthful.Obeys element.nonemptyVector := by
  intro cursor
  have here : truthful.Answers cursor ((get : Decoder ByteCursor) cursor) :=
    ByteCursor.Reaches.refl cursor
  have counted : truthful.Answers cursor (Leb128.uint32 cursor) :=
    obeys_uint32 cursor
  apply answers_bind here
  intro start _ got
  cases got
  apply answers_bind counted
  intro length between run
  rw [run] at counted
  split
  · rename_i zero
    subst zero
    obtain ⟨number, written, rest, _⟩ := Decoder.recognises_natural.mp run
    exact ⟨rfl, number, written, [], between.rest, rest, rfl⟩
  · have elements : truthful.Obeys (element.replicate length.toNat) :=
      (SequenceLaw.obeys truthful).replicate obeys length.toNat
    exact (elements between).advance counted

/-- The errors of a composed decoder are true, whatever it is composed of. -/
theorem truthful_of_composed {α : Type} {decoder : Decoder α}
    (composed : decoder.Composed) :
    truthful.Obeys decoder := by
  induction composed with
  | elementary elementary =>
      exact (SequenceLaw.obeys truthful).elementary elementary
  | window count =>
      have whole : truthful.Obeys (Decoder.window count >>= pure) :=
        obeys_window fun _ _ => rfl
      rw [bind_pure] at whole
      exact whole
  | nonemptyVector _ induction => exact truthful_nonemptyVector induction
  | vector _ induction =>
      exact (SequenceLaw.obeys truthful).vector induction
  | pair _ _ left right =>
      exact left.bind fun _ => right.bind fun _ => obeys_pure _
  | preceded _ _ left right => exact left.bind fun _ => right
  | alternative _ _ left right => exact left.alternative right
  | map convert _ induction => exact induction.map convert
  | exhaust _ induction => exact induction.exhaust
  | commit _ induction => exact induction.commit
  | within count _ induction => exact induction.within count

end ErrorLaw

/-- The cursor at an offset of an input. -/
def ByteCursor.inBytes (bytes : List UInt8) (position : Nat) : ByteCursor :=
  ⟨position, bytes.drop position⟩

/-- What an error says is so in the input, at or behind the place where decoding
started. -/
def DecodeError.TrueOf (bytes : List UInt8) (start : Nat) : DecodeError → Prop
  | .unexpectedEnd => True
  | .unexpected byte location =>
      start ≤ location ∧ location < bytes.length ∧ bytes[location]? = some byte
  | .vectorInvalidLength length location =>
      length = 0 ∧ start ≤ location ∧ location < bytes.length ∧
        ∃ after, Leb128.uint32 (.inBytes bytes location) = .ok (0, after)

section Offsets

variable {bytes : List UInt8} {position : Nat}

theorem ByteCursor.reaches_inBytes (inside : position ≤ bytes.length)
    {after : ByteCursor}
    (reaches : (ByteCursor.inBytes bytes position).Reaches after) :
    ∃ stop, after = .inBytes bytes stop ∧ position ≤ stop ∧
      stop ≤ bytes.length := by
  obtain ⟨consumed, rest, stop⟩ := reaches
  change bytes.drop position = consumed ++ after.rest at rest
  change after.position = position + consumed.length at stop
  have length := congrArg List.length rest
  rw [List.length_drop, List.length_append] at length
  refine ⟨position + consumed.length, ?_, by omega, by omega⟩
  have remaining : bytes.drop (position + consumed.length) = after.rest := by
    rw [← List.drop_drop, rest, List.drop_left]
  unfold ByteCursor.inBytes
  rw [remaining, ← stop]

theorem ByteCursor.shows_inBytes (inside : position ≤ bytes.length)
    {location : Nat} {shown : List UInt8}
    (shows : (ByteCursor.inBytes bytes position).Shows location shown) :
    position ≤ location ∧ location + shown.length ≤ bytes.length ∧
      ∃ behind, bytes.drop location = shown ++ behind := by
  obtain ⟨before, behind, rest, rfl⟩ := shows
  change bytes.drop position = before ++ (shown ++ behind) at rest
  have length := congrArg List.length rest
  simp only [List.length_drop, List.length_append] at length
  change position ≤ position + before.length ∧
    position + before.length + shown.length ≤ _ ∧
    ∃ behind, bytes.drop (position + before.length) = shown ++ behind
  refine ⟨by omega, by omega, behind, ?_⟩
  rw [← List.drop_drop, rest, List.drop_left]

theorem DecodeError.trueOf_of_truthful (inside : position ≤ bytes.length)
    {error : DecodeError}
    (holds : ErrorLaw.truthful.Holds (.inBytes bytes position) error) :
    error.TrueOf bytes position := by
  cases error with
  | unexpectedEnd => trivial
  | unexpected byte location =>
      obtain ⟨above, below, behind, rest⟩ :=
        ByteCursor.shows_inBytes inside holds
      have first := congrArg List.head? rest
      rw [List.head?_drop] at first
      exact ⟨above, below, first⟩
  | vectorInvalidLength length location =>
      obtain ⟨zero, number, written, shown⟩ := holds
      obtain ⟨above, below, behind, rest⟩ :=
        ByteCursor.shows_inBytes inside shown
      have run : Leb128.uint32 (.inBytes bytes location) =
          .ok (0, ⟨location + number.length, behind⟩) :=
        Decoder.recognises_natural.mpr ⟨number, written, rest, rfl⟩
      have shorter := Leb128.uint32_consuming run
      have nonempty : 0 < (bytes.drop location).length :=
        Nat.zero_lt_of_lt shorter
      rw [List.length_drop] at nonempty
      exact ⟨zero, above, by omega, _, run⟩

end Offsets

/-- Every composed decoder moves forwards within its input and reports only what
is so; decoding a module does too, and never refuses a length. -/
theorem error_reports_are_honest :
    (∀ {α : Type} (decoder : Decoder α), decoder.Composed →
      ∀ (bytes : List UInt8) (position : Nat), position ≤ bytes.length →
        (∀ value after, decoder (.inBytes bytes position) = .ok (value, after) →
          ∃ stop, after = .inBytes bytes stop ∧ position ≤ stop ∧
            stop ≤ bytes.length) ∧
        (∀ failure, decoder (.inBytes bytes position) = .error failure →
          failure.error.TrueOf bytes position)) ∧
    (∀ (bytes : List UInt8) (error : DecodeError),
      Module.decode bytes = .error error →
      error.TrueOf bytes 0 ∧
        ∀ length location, error ≠ .vectorInvalidLength length location) := by
  constructor
  · intro α decoder composed bytes position inside
    have outcome :=
      ErrorLaw.truthful_of_composed composed (.inBytes bytes position)
    constructor
    · intro value after run
      rw [run] at outcome
      exact ByteCursor.reaches_inBytes inside outcome
    · intro failure run
      rw [run] at outcome
      exact DecodeError.trueOf_of_truthful inside outcome
  · intro bytes error failed
    have honest : ErrorLaw.truthful.Holds (.ofBytes bytes) error :=
      ErrorLaw.holds_of_decode failed
    have accepted : ErrorLaw.acceptsLengths.Holds (.ofBytes bytes) error :=
      ErrorLaw.holds_of_decode failed
    exact ⟨DecodeError.trueOf_of_truthful (Nat.zero_le _) honest, accepted⟩

/-- A padded zero inside a window, and a wrong byte in the header of a
module. -/
theorem error_reports_are_honest_in_window_and_header :
    (Decoder.within 2 ValueType.decoder.nonemptyVector.commit
        (.inBytes [0xAA, 0x80, 0x00, 0x7F] 1) =
          .error (.fatal (.vectorInvalidLength 0 1)) ∧
      (DecodeError.vectorInvalidLength 0 1).TrueOf [0xAA, 0x80, 0x00, 0x7F] 1) ∧
    (Module.decode [0x00, 0x62] = .error (.unexpected 0x62 1) ∧
      (DecodeError.unexpected 0x62 1).TrueOf [0x00, 0x62] 0) := by
  obtain ⟨composed, module⟩ := error_reports_are_honest
  have refused : Decoder.within 2 ValueType.decoder.nonemptyVector.commit
      (.inBytes [0xAA, 0x80, 0x00, 0x7F] 1) =
        .error (.fatal (.vectorInvalidLength 0 1)) := rfl
  have wrong : Module.decode [0x00, 0x62] = .error (.unexpected 0x62 1) := rfl
  have answers :=
    composed _ (.within 2 (.commit (.nonemptyVector (.elementary .valueType))))
      [0xAA, 0x80, 0x00, 0x7F] 1 (by decide)
  exact ⟨⟨refused, answers.2 _ refused⟩, wrong, (module _ _ wrong).1⟩

end Wasm

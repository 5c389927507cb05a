import Wasm.Proofs.Decoding.Composed
import Wasm.Proofs.Decoding.SequenceLaw

/-!
# Self-delimiting decoders

On every input a self-delimiting decoder does one of three things: it reads some
bytes whatever follows them, it refuses the input whatever follows it, or it
runs out of input.  Encodings can therefore be put one behind the other, and no
encoding starts another one.
-/

namespace Wasm

/-- The failure says that the input ends too early. -/
def Failure.RunsOut (failure : Failure) : Prop :=
  failure = .recoverable .unexpectedEnd ∨ failure = .fatal .unexpectedEnd

instance (failure : Failure) : Decidable failure.RunsOut :=
  inferInstanceAs (Decidable (_ ∨ _))

/-- The same place with more input behind it. -/
def ByteCursor.followedBy (cursor : ByteCursor) (tail : List UInt8) :
    ByteCursor :=
  ⟨cursor.position, cursor.rest ++ tail⟩

namespace Decoder

variable {α β : Type}

/-- What a decoder makes of an input that may go on. -/
inductive Verdict (decoder : Decoder α) (position : Nat) (input : List UInt8) :
    Prop where
  | reads (value : α) (consumed rest : List UInt8)
      (whole : input = consumed ++ rest)
      (always : ∀ tail, decoder ⟨position, consumed ++ tail⟩ =
        .ok (value, ⟨position + consumed.length, tail⟩))
  | refuses (failure : Failure)
      (always : ∀ tail, decoder ⟨position, input ++ tail⟩ = .error failure)
  | runsOut (failure : Failure) (short : failure.RunsOut)
      (ran : decoder ⟨position, input⟩ = .error failure)

def SelfDelimiting (decoder : Decoder α) : Prop :=
  ∀ position input, decoder.Verdict position input

section Runs

variable {decoder : Decoder α} {cursor after : ByteCursor} {value : α}
  {failure : Failure}

theorem SelfDelimiting.of_ok (delimiting : decoder.SelfDelimiting)
    (run : decoder cursor = .ok (value, after)) :
    ∃ consumed,
      cursor.rest = consumed ++ after.rest ∧
      after.position = cursor.position + consumed.length ∧
      ∀ tail, decoder ⟨cursor.position, consumed ++ tail⟩ =
        .ok (value, ⟨after.position, tail⟩) := by
  obtain ⟨position, input⟩ := cursor
  cases delimiting position input with
  | reads found consumed rest whole always =>
      subst whole
      rw [always rest] at run
      cases run
      exact ⟨consumed, rfl, rfl, always⟩
  | refuses failure always =>
      have failed := always []
      rw [List.append_nil, run] at failed
      cases failed
  | runsOut failure short ran =>
      rw [run] at ran
      cases ran

theorem SelfDelimiting.followedBy_of_ok (delimiting : decoder.SelfDelimiting)
    (run : decoder cursor = .ok (value, after)) (tail : List UInt8) :
    decoder (cursor.followedBy tail) = .ok (value, after.followedBy tail) := by
  obtain ⟨consumed, rest, position, always⟩ := delimiting.of_ok run
  unfold ByteCursor.followedBy
  rw [rest, List.append_assoc]
  exact always (after.rest ++ tail)

theorem SelfDelimiting.followedBy_of_error (delimiting : decoder.SelfDelimiting)
    (run : decoder cursor = .error failure) (final : ¬ failure.RunsOut)
    (tail : List UInt8) :
    decoder (cursor.followedBy tail) = .error failure := by
  obtain ⟨position, input⟩ := cursor
  cases delimiting position input with
  | reads value consumed rest whole always =>
      subst whole
      rw [always rest] at run
      cases run
  | refuses found always =>
      have failed := always []
      rw [List.append_nil, run] at failed
      cases failed
      exact always tail
  | runsOut found short ran =>
      rw [run] at ran
      cases ran
      exact absurd short final

end Runs

/-! ## Sequences -/

theorem selfDelimiting_pure (value : α) :
    (pure value : Decoder α).SelfDelimiting :=
  fun _ input => .reads value [] input rfl fun _ => rfl

theorem selfDelimiting_fail (failure : Failure) :
    SelfDelimiting (fun _ => .error failure : Decoder α) :=
  fun _ _ => .refuses failure fun _ => rfl

theorem bind_of_ok {first : Decoder α} {second : α → Decoder β}
    {cursor between : ByteCursor} {value : α}
    (run : first cursor = .ok (value, between)) :
    (first >>= second) cursor = second value between := by
  change (first cursor >>= fun result => second result.1 result.2) = _
  rw [run]
  rfl

theorem bind_of_error {first : Decoder α} {second : α → Decoder β}
    {cursor : ByteCursor} {failure : Failure}
    (run : first cursor = .error failure) :
    (first >>= second) cursor = .error failure := by
  change (first cursor >>= fun result => second result.1 result.2) = _
  rw [run]
  rfl

theorem Verdict.bind {first : Decoder α} {second : α → Decoder β}
    {position : Nat} {input : List UInt8}
    (before : first.Verdict position input)
    (behind : ∀ value position input, (second value).Verdict position input) :
    (first >>= second).Verdict position input := by
  cases before with
  | refuses failure always =>
      exact .refuses failure fun tail => bind_of_error (always tail)
  | runsOut failure short ran =>
      exact .runsOut failure short (bind_of_error ran)
  | reads value consumed rest whole always =>
      subst whole
      cases behind value (position + consumed.length) rest with
      | reads result more remaining whole alwaysBehind =>
          subst whole
          refine .reads result (consumed ++ more) remaining
            (List.append_assoc ..).symm ?_
          intro tail
          rw [List.append_assoc, bind_of_ok (always (more ++ tail)),
            alwaysBehind, List.length_append, Nat.add_assoc]
      | refuses failure alwaysBehind =>
          refine .refuses failure ?_
          intro tail
          rw [List.append_assoc, bind_of_ok (always (rest ++ tail)),
            alwaysBehind]
      | runsOut failure short ran =>
          refine .runsOut failure short ?_
          rw [bind_of_ok (always rest), ran]

theorem SelfDelimiting.bind {first : Decoder α} {second : α → Decoder β}
    (before : first.SelfDelimiting)
    (behind : ∀ value, (second value).SelfDelimiting) :
    (first >>= second).SelfDelimiting :=
  fun position input => (before position input).bind behind

theorem SelfDelimiting.commit {decoder : Decoder α}
    (delimiting : decoder.SelfDelimiting) :
    decoder.commit.SelfDelimiting := by
  intro position input
  unfold Decoder.commit
  cases delimiting position input with
  | reads value consumed rest whole always =>
      refine .reads value consumed rest whole ?_
      intro tail
      rw [always tail]
      rfl
  | refuses failure always =>
      refine .refuses failure.committed ?_
      intro tail
      rw [always tail]
      rfl
  | runsOut failure short ran =>
      refine .runsOut failure.committed ?_ ?_
      · rcases short with rfl | rfl <;> exact .inr rfl
      · rw [ran]
        rfl

/-- Where a decoder started may be looked at, because it is the same whatever
follows. -/
theorem selfDelimiting_atStart {behind : Nat → Decoder α}
    (delimiting : ∀ start, (behind start).SelfDelimiting) :
    SelfDelimiting (get >>= fun cursor =>
      behind cursor.position : Decoder α) := by
  intro position input
  cases delimiting position position input with
  | reads value consumed rest whole always =>
      exact .reads value consumed rest whole always
  | refuses failure always => exact .refuses failure always
  | runsOut failure short ran => exact .runsOut failure short ran

/-! ## Bytes and integers -/

theorem selfDelimiting_byteMap (read : UInt8 → Option α) :
    (byteMap read).SelfDelimiting := by
  intro position input
  cases input with
  | nil => exact .runsOut _ (.inl rfl) rfl
  | cons byte rest =>
      cases found : read byte with
      | none =>
          refine .refuses (.recoverable (.unexpected byte position)) ?_
          intro tail
          simp only [byteMap, List.cons_append, found]
      | some value =>
          refine .reads value [byte] rest rfl ?_
          intro tail
          simp only [byteMap, List.cons_append, List.nil_append, found,
            List.length_singleton]

/-- One more group in front of an integer. -/
private theorem Verdict.consGroup
    {step : Nat → Nat → List UInt8 → Except Failure (UInt64 × ByteCursor)}
    {shift position : Nat} {byte : UInt8} {rest : List UInt8}
    (continues : ∀ input, step shift position (byte :: input) =
      (step (shift + 7) (position + 1) input).map fun (higher, cursor) =>
        (Leb128.placed shift byte ||| higher, cursor))
    (higher :
      Verdict (fun cursor => step (shift + 7) cursor.position cursor.rest)
        (position + 1) rest) :
    Verdict (fun cursor => step shift cursor.position cursor.rest) position
      (byte :: rest) := by
  cases higher with
  | reads word consumed remaining whole always =>
      subst whole
      refine .reads (Leb128.placed shift byte ||| word) (byte :: consumed)
        remaining rfl ?_
      intro tail
      have ran := always tail
      simp only at ran
      simp only [List.cons_append, continues, ran, List.length_cons, Except.map,
        Nat.add_comm consumed.length 1, Nat.add_assoc]
  | refuses failure always =>
      refine .refuses failure ?_
      intro tail
      have ran := always tail
      simp only at ran
      simp only [List.cons_append, continues, ran, Except.map]
  | runsOut failure short ran =>
      refine .runsOut failure short ?_
      simp only at ran
      simp only [continues, ran, Except.map]

private theorem verdict_boundedFrom (width : Nat) (signed : Bool)
    (input : List UInt8) (shift position : Nat) :
    Verdict (fun cursor =>
      Leb128.boundedFrom width signed shift cursor.position cursor.rest)
      position input := by
  induction input generalizing shift position with
  | nil => exact .runsOut _ (.inl rfl) rfl
  | cons byte rest induction =>
      by_cases last : width ≤ shift + 7
      · by_cases more : Leb128.continues byte = true
        -- Only here is the next byte looked at, and only to tell the two
        -- failures apart.
        · cases rest with
          | nil =>
              refine .runsOut (.recoverable .unexpectedEnd) (.inl rfl) ?_
              simp [Leb128.boundedFrom, last, more]
          | cons next rest =>
              refine .refuses (.recoverable (.unexpected byte position)) ?_
              intro tail
              simp [Leb128.boundedFrom, last, more]
        · by_cases fits :
            Leb128.fits (Leb128.payload byte) (width - shift) signed = true
          · refine .reads (Leb128.finalGroup signed shift byte) [byte]
              rest rfl ?_
            intro tail
            simp [Leb128.boundedFrom, last, more, fits]
          · refine .refuses (.recoverable (.unexpected byte position)) ?_
            intro tail
            simp [Leb128.boundedFrom, last, more, fits]
      · by_cases more : Leb128.continues byte = true
        · refine Verdict.consGroup ?_ (induction (shift + 7) (position + 1))
          intro input
          simp [Leb128.boundedFrom, last, more]
        · refine .reads (Leb128.finalGroup signed shift byte) [byte] rest rfl ?_
          intro tail
          simp [Leb128.boundedFrom, last, more]

private theorem verdict_wrappingFrom (rule : Leb128.SignRule) (width : Nat)
    (input : List UInt8) (shift position : Nat) :
    Verdict (fun cursor =>
      Leb128.wrappingFrom rule width shift cursor.position cursor.rest)
      position input := by
  induction input generalizing shift position with
  | nil => exact .runsOut _ (.inl rfl) rfl
  | cons byte rest induction =>
      by_cases more : Leb128.continues byte = true
      · refine Verdict.consGroup ?_ (induction (shift + 7) (position + 1))
        intro input
        simp [Leb128.wrappingFrom, more]
      · let word := Leb128.placed shift byte ||| rule.extension width shift byte
        refine .reads word [byte] rest rfl ?_
        intro tail
        simp [Leb128.wrappingFrom, more, word]

theorem selfDelimiting_bounded (width : Nat) (signed : Bool) :
    (Leb128.bounded width signed).SelfDelimiting :=
  fun position input => verdict_boundedFrom width signed input 0 position

theorem selfDelimiting_wrapping (rule : Leb128.SignRule) (bits : Nat) :
    (Leb128.wrapping rule bits).SelfDelimiting := by
  unfold Leb128.wrapping
  simp only
  split
  · exact selfDelimiting_byteMap _
  · exact fun position input => verdict_wrappingFrom rule _ input 0 position

/-! ## Windows -/

theorem selfDelimiting_window (count : UInt32) :
    (window count).SelfDelimiting := by
  intro position input
  by_cases enough : count.toNat ≤ input.length
  · have length : (input.take count.toNat).length = count.toNat :=
      List.length_take_of_le enough
    refine .reads ⟨position, input.take count.toNat⟩ (input.take count.toNat)
      (input.drop count.toNat) (List.take_append_drop ..).symm ?_
    intro tail
    have room : count.toNat ≤ (input.take count.toNat ++ tail).length := by
      rw [List.length_append, length]
      exact Nat.le_add_right ..
    simp only [window, ByteCursor.splitAt?, if_pos room, List.take_left' length,
      List.drop_left' length, length]
  · refine .runsOut (.recoverable .unexpectedEnd) (.inl rfl) ?_
    simp only [window, ByteCursor.splitAt?, if_neg enough]

theorem selfDelimiting_take (count : UInt32) : (take count).SelfDelimiting :=
  (selfDelimiting_window count).bind fun _ => selfDelimiting_pure _

/-- A window ends where its size says, whatever is read in it. -/
theorem selfDelimiting_within (count : UInt32) (inside : Decoder α) :
    (within count inside).SelfDelimiting := by
  apply (selfDelimiting_window count).bind
  intro part
  cases inside.exhaust part with
  | ok result => exact selfDelimiting_pure result.1
  | error failure => exact selfDelimiting_fail failure

private theorem selfDelimiting_uint32 : Leb128.uint32.SelfDelimiting :=
  (selfDelimiting_bounded 32 false).bind fun _ => selfDelimiting_pure _

theorem selfDelimiting_name : name.SelfDelimiting := by
  apply selfDelimiting_uint32.bind
  intro length
  apply (selfDelimiting_window length).bind
  intro part
  cases Utf8.decode part.rest with
  | mk characters remaining =>
      cases remaining with
      | nil => exact selfDelimiting_pure _
      | cons byte remaining => exact selfDelimiting_fail _

end Decoder

/-- Decoding the binary format does not depend on what follows. -/
def SequenceLaw.selfDelimiting : SequenceLaw where
  Holds := Decoder.SelfDelimiting
  pure := Decoder.selfDelimiting_pure
  bind := Decoder.SelfDelimiting.bind
  byteMap := Decoder.selfDelimiting_byteMap
  bounded width signed _ _ := Decoder.selfDelimiting_bounded width signed
  wrapping := Decoder.selfDelimiting_wrapping
  take := Decoder.selfDelimiting_take
  name := Decoder.selfDelimiting_name

namespace Decoder

variable {α β : Type}

theorem SelfDelimiting.nonemptyVector {element : Decoder α}
    (delimiting : element.SelfDelimiting) :
    element.nonemptyVector.SelfDelimiting := by
  have counted : ∀ start : Nat, SelfDelimiting (do
      let length ← Leb128.uint32
      if length = 0 then
        reject (.vectorInvalidLength length start)
      else
        element.replicate length.toNat) := by
    intro start
    apply selfDelimiting_uint32.bind
    intro length
    split
    · exact selfDelimiting_fail _
    · exact SequenceLaw.selfDelimiting.replicate delimiting length.toNat
  exact selfDelimiting_atStart counted

theorem selfDelimiting_functionBody : FunctionBody.decoder.SelfDelimiting :=
  selfDelimiting_uint32.bind fun size =>
    selfDelimiting_within size FunctionBody.contents

/-- Decoders composed of such parts only as tell by themselves where they end.
A window may hold any decoder, also one that reads on to the end or starts
again. -/
inductive Delimited : {α : Type} → Decoder α → Prop where
  | elementary {α : Type} {decoder : Decoder α} :
      Elementary decoder → Delimited decoder
  | window (count : UInt32) : Delimited (window count)
  -- entries of sections
  | importEntry : Delimited Import.decoder
  | globalEntry : Delimited Global.decoder
  | exportEntry : Delimited Export.decoder
  | elementSegment : Delimited ElementSegment.decoder
  | functionBody : Delimited FunctionBody.decoder
  | dataSegment : Delimited DataSegment.decoder
  -- combinators
  | nonemptyVector {α : Type} {element : Decoder α} :
      Delimited element → Delimited element.nonemptyVector
  | vector {α : Type} {element : Decoder α} :
      Delimited element → Delimited element.vector
  | pair {α β : Type} {first : Decoder α} {second : Decoder β} :
      Delimited first → Delimited second → Delimited (first.pair second)
  | preceded {α β : Type} {first : Decoder α} {second : Decoder β} :
      Delimited first → Delimited second → Delimited (first.preceded second)
  | map {α β : Type} {decoder : Decoder α} (convert : α → β) :
      Delimited decoder → Delimited (convert <$> decoder)
  | commit {α : Type} {decoder : Decoder α} :
      Delimited decoder → Delimited decoder.commit
  | within {α : Type} (count : UInt32) (inside : Decoder α) :
      Delimited (within count inside)

theorem Delimited.selfDelimiting {decoder : Decoder α}
    (delimited : decoder.Delimited) :
    decoder.SelfDelimiting := by
  induction delimited with
  | elementary elementary =>
      exact SequenceLaw.selfDelimiting.elementary elementary
  | window count => exact selfDelimiting_window count
  | importEntry => exact SequenceLaw.selfDelimiting.importEntry
  | globalEntry => exact SequenceLaw.selfDelimiting.globalEntry
  | exportEntry => exact SequenceLaw.selfDelimiting.exportEntry
  | elementSegment => exact SequenceLaw.selfDelimiting.elementSegment
  | functionBody => exact selfDelimiting_functionBody
  | dataSegment => exact SequenceLaw.selfDelimiting.dataSegment
  | nonemptyVector _ induction => exact induction.nonemptyVector
  | vector _ induction => exact SequenceLaw.selfDelimiting.vector induction
  | pair _ _ left right =>
      exact SequenceLaw.selfDelimiting.pair left right Prod.mk
  | preceded _ _ left right => exact left.bind fun _ => right
  | map convert _ induction =>
      exact SequenceLaw.selfDelimiting.map induction convert
  | commit _ induction => exact induction.commit
  | within count inside => exact selfDelimiting_within count inside

/-- The decoder reads the whole input. -/
def Accepts (decoder : Decoder α) (input : List UInt8) : Prop :=
  ∃ value after, decoder (.ofBytes input) = .ok (value, after) ∧ after.rest = []

/-- What a delimited decoder has read, it reads again whatever comes next; what
it refuses, it refuses however it goes on; and nothing that it accepts starts
something else that it accepts. -/
theorem delimited_decoders_stop_by_themselves {decoder : Decoder α}
    (delimited : decoder.Delimited) :
    (∀ position input value after,
      decoder ⟨position, input⟩ = .ok (value, after) →
      ∃ count ≤ input.length,
        after = ⟨position + count, input.drop count⟩ ∧
        ∀ tail, decoder ⟨position, input.take count ++ tail⟩ =
          .ok (value, ⟨position + count, tail⟩)) ∧
    (∀ position input failure, decoder ⟨position, input⟩ = .error failure →
      ¬ failure.RunsOut →
        ∀ tail, decoder ⟨position, input ++ tail⟩ = .error failure) ∧
    (∀ input tail, decoder.Accepts input → decoder.Accepts (input ++ tail) →
      tail = []) := by
  have delimiting := delimited.selfDelimiting
  refine ⟨?_, ?_, ?_⟩
  · intro position input value after run
    obtain ⟨afterPosition, remaining⟩ := after
    obtain ⟨consumed, rest, stop, always⟩ := delimiting.of_ok run
    simp only at rest stop always
    subst rest stop
    refine ⟨consumed.length, by simp, ?_, ?_⟩
    · rw [List.drop_left]
    · rw [List.take_left]
      exact always
  · intro position input failure run final tail
    exact delimiting.followedBy_of_error run final tail
  · rintro input tail ⟨value, after, run, empty⟩ ⟨other, behind, runOn, emptyOn⟩
    have again := delimiting.followedBy_of_ok run tail
    change decoder (.ofBytes (input ++ tail)) = _ at again
    rw [runOn] at again
    cases again
    simpa [ByteCursor.followedBy, empty] using emptyOn

/-- A function body in a vector, read and refused before other bytes. -/
theorem function_bodies_stop_by_themselves :
    (FunctionBody.decoder.vector ⟨3, [0x01, 0x02, 0x00, 0x0B, 0xFF]⟩ =
        .ok ([⟨[], [0x0B]⟩], ⟨7, [0xFF]⟩) ∧
      FunctionBody.decoder.vector ⟨3, [0x01, 0x02, 0x00, 0x0B] ++ [0x80]⟩ =
        .ok ([⟨[], [0x0B]⟩], ⟨7, [0x80]⟩)) ∧
    (FunctionBody.decoder.vector ⟨3, [0x01, 0x03, 0x01, 0x01, 0x0B]⟩ =
        .error (.recoverable (.unexpected 0x0B 7)) ∧
      FunctionBody.decoder.vector ⟨3,
        [0x01, 0x03, 0x01, 0x01, 0x0B] ++ [0x0B]⟩ =
        .error (.recoverable (.unexpected 0x0B 7))) := by
  have delimited : FunctionBody.decoder.vector.Delimited :=
    .vector .functionBody
  obtain ⟨reads, refuses, _⟩ := delimited_decoders_stop_by_themselves delimited
  have read : FunctionBody.decoder.vector ⟨3, [0x01, 0x02, 0x00, 0x0B, 0xFF]⟩ =
      .ok ([⟨[], [0x0B]⟩], ⟨7, [0xFF]⟩) := rfl
  have refused :
      FunctionBody.decoder.vector ⟨3, [0x01, 0x03, 0x01, 0x01, 0x0B]⟩ =
      .error (.recoverable (.unexpected 0x0B 7)) := rfl
  obtain ⟨count, _, stop, again⟩ := reads _ _ _ _ read
  have length : count = 4 := by
    have position := congrArg ByteCursor.position stop
    simp only at position
    omega
  subst length
  exact ⟨⟨read, again [0x80]⟩, refused,
    refuses _ _ _ refused (by decide) [0x0B]⟩

end Decoder

end Wasm

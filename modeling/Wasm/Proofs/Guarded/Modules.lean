import Wasm.Proofs.BinaryGrammar.SectionLoop
import Wasm.Proofs.Guarded.Agreement
import Wasm.Proofs.Guarded.FormatPlans

/-!
# Modules are decoded without faults

A module is decoded on a buffer by the plans of its header and of its sections,
in a loop that has to move on.  It has no fault, whatever the bytes are, and it
finds what decoding finds.
-/

namespace Wasm

open Decoder

/-! ## The next section -/

namespace Section

/-- Reads the next section and its contents, or fails if it is out of order. -/
def nextOr (misplaced : DecodeError) (last : Option SectionKind) :
    Decoder (SectionKind × Section) := do
  let header ← SectionHeader.decoder
  if header.kind.mayFollow last then
    let entry ← within header.size (Section.decoder header.kind)
    pure (header.kind, entry)
  else
    reject misplaced

/-- Reads the next section and its contents.  A section out of order is an error
at its first byte. -/
def next (last : Option SectionKind) : Decoder (SectionKind × Section) := do
  let start ← get
  nextOr (.atCursor start) last

/-- The contents of a section that has been split off, with its kind. -/
def ofFrame (frame : SectionFrame) : Decoder (SectionKind × Section) :=
  match frame.read with
  | .error failure => throw failure
  | .ok entry => pure (frame.header.kind, entry)

theorem next_eq (last : Option SectionKind) :
    next last = SectionFrame.decoder last >>= ofFrame := by
  have contents : ∀ header : SectionHeader,
      (do
        let entry ← within header.size (Section.decoder header.kind)
        pure (header.kind, entry)) =
      (do
        let contents ← window header.size
        ofFrame ⟨header, contents⟩) := by
    intro header
    rw [within, bind_assoc]
    congr 1
    funext part
    rw [ofFrame, SectionFrame.read]
    cases (Section.decoder header.kind).exhaust part with
    | error failure => rfl
    | ok result => rfl
  rw [next, SectionFrame.decoder, bind_assoc]
  congr 1
  funext start
  rw [nextOr, bind_assoc]
  congr 1
  funext header
  split
  · rw [contents, bind_assoc]
    rfl
  · rfl

variable {last : Option SectionKind} {cursor after : ByteCursor}
  {kind : SectionKind} {entry : Section} {failure : Failure}

theorem frame_of_next (read : next last cursor = .ok ((kind, entry), after)) :
    ∃ frame, SectionFrame.decoder last cursor = .ok (frame, after) ∧
      frame.read = .ok entry ∧ frame.header.kind = kind := by
  rw [next_eq] at read
  obtain ⟨frame, behind, split, found⟩ := bind_eq_ok_iff.mp read
  cases contents : frame.read with
  | error failure =>
      rw [ofFrame, contents] at found
      cases found
  | ok inside =>
      rw [ofFrame, contents] at found
      cases found
      exact ⟨frame, split, contents, rfl⟩

theorem next_consuming (last : Option SectionKind) : (next last).Consuming := by
  intro cursor after value read
  obtain ⟨frame, split, _, _⟩ := frame_of_next read
  exact SectionFrame.decoder_consuming last split

/-- A section that is read is the first one of the result. -/
theorem result_of_next (read : next last cursor = .ok ((kind, entry), after)) :
    (SectionReading.ofCursor last cursor).result =
      (SectionReading.ofCursor (kind.lastAfter last) after).result.map
        (entry :: ·) := by
  obtain ⟨frame, split, contents, rfl⟩ := frame_of_next read
  rw [SectionReading.result_of_split split, contents]

/-- A section that fails is the failure of the result. -/
theorem result_of_next_error (nonempty : ¬ cursor.isEmpty = true)
    (failed : next last cursor = .error failure) :
    (SectionReading.ofCursor last cursor).result = .error failure := by
  rw [next_eq] at failed
  cases split : SectionFrame.decoder last cursor with
  | error reason =>
      rw [bind_of_error split] at failed
      cases failed
      exact SectionReading.result_of_split_error nonempty split
  | ok parts =>
      obtain ⟨frame, behind⟩ := parts
      rw [bind_of_ok split, ofFrame] at failed
      rw [SectionReading.result_of_split split]
      cases contents : frame.read with
      | error reason =>
          rw [contents] at failed
          cases failed
          rfl
      | ok inside =>
          rw [contents] at failed
          cases failed

end Section

namespace Plan

variable {scope : Scope}

def nextSectionOr (misplaced : DecodeError) (last : Option SectionKind) :
    Plan scope (Section.nextOr misplaced last) :=
  .bind sectionHeader fun header =>
    .branch (.bind (.within header.size (sectionContents header.kind)) fun _ =>
      .pure _) (.reject misplaced)

/-- The plan of the next section.  Its contents are in a window of the size that
it gives. -/
def nextSection (last : Option SectionKind) : Plan scope (Section.next last) :=
  show Plan scope (fun cursor =>
      Section.nextOr (.atCursor cursor) last cursor) from
    .placed fun _ misplaced => nextSectionOr misplaced last

end Plan

/-! ## The loop -/

namespace Guarded

/-- Reads sections up to the end of a buffer.  Each of them has to move on. -/
def sections (last : Option SectionKind) (buffer : Buffer) :
    Except Fault (Except Failure (List Section)) :=
  if buffer.bytes.length ≤ buffer.position then
    .ok (.ok [])
  else
    match (Plan.nextSection last : Plan .anywhere _).guarded buffer with
    | .error fault => .error fault
    | .ok (.error failure) => .ok (.error failure)
    | .ok (.ok ((kind, entry), after)) =>
        if after.bytes.length - after.position <
          buffer.bytes.length - buffer.position then
          (sections (kind.lastAfter last) after).map (Except.map (entry :: ·))
        else
          .error .stall
termination_by buffer.bytes.length - buffer.position

/-- Decodes a module with every step guarded. -/
def decodeModule (input : List UInt8) :
    Except Fault (Except DecodeError Module) :=
  match (Plan.moduleHeader : Plan .anywhere _).guarded ⟨input, 0⟩ with
  | .error fault => .error fault
  | .ok (.error failure) => .ok (.error failure.error)
  | .ok (.ok (_, buffer)) =>
      (sections none buffer).map fun result =>
        (result.map Module.ofSections).mapError Failure.error

theorem sections_eq (last : Option SectionKind) {buffer : Buffer}
    (valid : buffer.Valid) :
    sections last buffer =
      .ok (SectionReading.ofCursor last buffer.cursor).result := by
  have steps : ∀ (last : Option SectionKind) {buffer : Buffer}, buffer.Valid →
      Agrees buffer ((Plan.nextSection last : Plan .anywhere _).guarded buffer)
        (Section.next last buffer.cursor) :=
    fun last _ valid => (Plan.nextSection last).agrees ⟨valid, nofun⟩
  fun_induction sections last buffer with
  | case1 last buffer ended =>
      rw [SectionReading.result_of_empty (Buffer.isEmpty_cursor_iff.mpr ended)]
  | case2 last buffer more fault ran =>
      exact absurd ran ((steps last valid).ne_fault fault)
  | case3 last buffer more failure ran =>
      have agrees := steps last valid
      rw [ran] at agrees
      rw [Section.result_of_next_error (mt Buffer.isEmpty_cursor_iff.mp more)
        agrees.eq_of_fails]
  | case4 last buffer more kind entry after ran moved induction =>
      have agrees := steps last valid
      rw [ran] at agrees
      obtain ⟨read, afterValid⟩ := agrees.eq_of_reads
      rw [Section.result_of_next read, induction afterValid]
      rfl
  | case5 last buffer more kind entry after ran stalls =>
      have agrees := steps last valid
      rw [ran] at agrees
      obtain ⟨read, _⟩ := agrees.eq_of_reads
      have consumed := Section.next_consuming last read
      simp only [Buffer.cursor, List.length_drop] at consumed
      exact absurd consumed stalls

/-- Decoding a module has no fault and is decoding. -/
theorem decodeModule_eq (input : List UInt8) :
    decodeModule input = .ok (Module.decode input) := by
  have start : (Buffer.mk input 0).Valid := Nat.zero_le _
  have agrees := (Plan.moduleHeader : Plan .anywhere _).agrees ⟨start, nofun⟩
  rw [decodeModule, Module.decode, Module.readSections]
  split
  · rename_i fault ran
    exact absurd ran (agrees.ne_fault fault)
  · rename_i failure ran
    rw [ran] at agrees
    have failed : Module.header (.ofBytes input) = .error failure :=
      agrees.eq_of_fails
    rw [failed]
  · rename_i value buffer ran
    rw [ran] at agrees
    obtain ⟨read, valid⟩ := agrees.eq_of_reads
    have headed : Module.header (.ofBytes input) = .ok (value, buffer.cursor) :=
      read
    rw [headed, sections_eq none valid]
    cases (SectionReading.ofCursor none buffer.cursor).result with
    | error failure => rfl
    | ok entries => rfl

end Guarded

/-! ## What remains of a window -/

section Windows

variable {last : Option SectionKind} {cursor part middle after : ByteCursor}
  {size : UInt32}

theorem Decoder.SelfDelimiting.rest_le {α : Type} {decoder : Decoder α}
    {value : α} (delimiting : decoder.SelfDelimiting)
    (run : decoder cursor = .ok (value, after)) :
    after.rest.length ≤ cursor.rest.length := by
  obtain ⟨consumed, whole, _⟩ := delimiting.of_ok run
  rw [whole, List.length_append]
  exact Nat.le_add_left ..

/-- The data of a custom section are all the bytes behind its name. -/
theorem CustomSection.decoder_in_frame {frame : SectionFrame} {title : String}
    (split : SectionFrame.decoder last cursor = .ok (frame, after))
    (named : Decoder.name frame.contents = .ok (title, middle)) :
    CustomSection.decoder frame.contents =
      .ok (⟨title, middle.rest⟩,
        ⟨middle.position + middle.rest.length, []⟩) := by
  have small : middle.rest.length < 2 ^ 32 :=
    Nat.lt_of_le_of_lt (selfDelimiting_name.rest_le named)
      (SectionFrame.contents_small split)
  refine (bind_of_ok named).trans ?_
  exact bind_of_ok (takeRest_of_small small)

/-- The body of a function is all the bytes behind its locals. -/
theorem FunctionBody.contents_in_window {locals : List LocalGroup}
    (split : window size cursor = .ok (part, after))
    (declared : LocalGroup.decoder.vector part = .ok (locals, middle)) :
    FunctionBody.contents part =
      if middle.rest.getLast? = some Opcode.finish.toByte then
        .ok (⟨locals, middle.rest⟩, ⟨middle.position + middle.rest.length, []⟩)
      else
        .error (.recoverable .unexpectedEnd) := by
  have delimiting : LocalGroup.decoder.vector.SelfDelimiting :=
    SequenceLaw.selfDelimiting.vector SequenceLaw.selfDelimiting.localGroup
  have small : middle.rest.length < 2 ^ 32 := by
    have smaller := delimiting.rest_le declared
    rw [(window_eq_ok_iff.mp split).1] at smaller
    exact Nat.lt_of_le_of_lt smaller size.toNat_lt
  refine (bind_of_ok declared).trans
    ((bind_of_ok (takeRest_of_small small)).trans ?_)
  split <;> rfl

end Windows

/-- Decoding has no faults.  A decoder that has a plan, carried out by it on a
buffer whose offset is not behind its end, has the outcome it has on a cursor; a
composed decoder has a plan that may be carried out anywhere; and so may a
module, whatever its bytes.  What a custom section and a function take of their
windows is all that remains there. -/
theorem decoding_has_no_faults :
    (∀ {scope : Scope} {α : Type} {decoder : Decoder α}
      (plan : Plan scope decoder) (buffer : Buffer), scope.Admits buffer →
        Agrees buffer (plan.guarded buffer) (decoder buffer.cursor)) ∧
    (∀ {α : Type} {decoder : Decoder α}, decoder.Composed →
      ∃ plan : Plan .anywhere decoder, ∀ buffer : Buffer,
        buffer.position ≤ buffer.bytes.length →
        Agrees buffer (plan.guarded buffer) (decoder buffer.cursor)) ∧
    (∀ input, Guarded.decodeModule input = .ok (Module.decode input)) ∧
    (∀ {last : Option SectionKind} {cursor after middle : ByteCursor}
      {frame : SectionFrame}
      {title : String}, SectionFrame.decoder last cursor = .ok (frame, after) →
      Decoder.name frame.contents = .ok (title, middle) →
        CustomSection.decoder frame.contents =
          .ok (⟨title, middle.rest⟩,
            ⟨middle.position + middle.rest.length, []⟩)) ∧
    (∀ {size : UInt32} {cursor part after middle : ByteCursor}
      {locals : List LocalGroup},
      window size cursor = .ok (part, after) →
      LocalGroup.decoder.vector part = .ok (locals, middle) →
        FunctionBody.contents part =
          if middle.rest.getLast? = some Opcode.finish.toByte then
            .ok (⟨locals, middle.rest⟩,
              ⟨middle.position + middle.rest.length, []⟩)
          else
            .error (.recoverable .unexpectedEnd)) := by
  refine ⟨?_, ?_, Guarded.decodeModule_eq, CustomSection.decoder_in_frame,
    FunctionBody.contents_in_window⟩
  · intro scope α decoder plan buffer admits
    exact plan.agrees admits
  · intro α decoder composed
    obtain ⟨plan⟩ := Plan.nonempty_of_composed composed
    refine ⟨plan, ?_⟩
    intro buffer valid
    exact plan.agrees ⟨valid, nofun⟩

/-- A function body in a window, text that is not well formed at the end of a
buffer, a custom section behind its name and a function body behind its
locals. -/
theorem decoding_has_no_faults_at_ends :
    Agrees ⟨[0xFF, 0x00, 0x0B], 1⟩
        (Plan.functionContents.guarded ⟨[0xFF, 0x00, 0x0B], 1⟩)
        (.ok (⟨[], [0x0B]⟩, ⟨3, []⟩)) ∧
      (∃ plan : Plan .anywhere Decoder.name,
        Agrees ⟨[0xFF, 0x02, 0x61, 0xFF], 1⟩
          (plan.guarded ⟨[0xFF, 0x02, 0x61, 0xFF], 1⟩)
          (.error (.recoverable (.unexpected 0xFF 3)))) ∧
      CustomSection.decoder ⟨2, [0x01, 0x61, 0x05, 0x06]⟩ =
        .ok (⟨"a", [0x05, 0x06]⟩, ⟨6, []⟩) ∧
      FunctionBody.contents ⟨1, [0x00, 0x0B]⟩ =
        .ok (⟨[], [0x0B]⟩, ⟨3, []⟩) := by
  obtain ⟨plans, composed, _, customs, bodies⟩ := decoding_has_no_faults
  have frame :
      SectionFrame.decoder none ⟨0, [0x00, 0x04, 0x01, 0x61, 0x05, 0x06]⟩ =
      .ok (⟨⟨.custom, 4⟩, ⟨2, [0x01, 0x61, 0x05, 0x06]⟩⟩, ⟨6, []⟩) := rfl
  have part :
      window 2 ⟨1, [0x00, 0x0B, 0xFF]⟩ = .ok (⟨1, [0x00, 0x0B]⟩, ⟨3, [0xFF]⟩) :=
    rfl
  have title :
      Decoder.name ⟨2, [0x01, 0x61, 0x05, 0x06]⟩ =
        .ok ("a", ⟨4, [0x05, 0x06]⟩) := by
    decide +kernel
  have broken : Decoder.name ⟨1, [0x02, 0x61, 0xFF]⟩ =
      .error (.recoverable (.unexpected 0xFF 3)) := by
    decide +kernel
  have locals :
      LocalGroup.decoder.vector ⟨1, [0x00, 0x0B]⟩ = .ok ([], ⟨2, [0x0B]⟩) := rfl
  refine ⟨plans Plan.functionContents ⟨_, 1⟩ ⟨by decide, fun _ => by decide⟩,
    ?_, ?_, ?_⟩
  · obtain ⟨plan, agrees⟩ := composed (.elementary .name)
    rw [← broken]
    exact ⟨plan, agrees ⟨[0xFF, 0x02, 0x61, 0xFF], 1⟩ (by decide)⟩
  · exact customs frame title
  · exact bodies part locals

end Wasm

import Wasm.Proofs.BinaryGrammar.Modules
import Wasm.Proofs.Decoding.ErrorLaw
import Wasm.Proofs.Decoding.SequenceLaw

/-!
# Errors of the binary format

Every decoder of the binary format obeys every error law, and so does reading a
whole module: what a window reports is an error about the input.
-/

namespace Wasm

/-- To obey an error law is a law that sequences keep. -/
def SequenceLaw.obeys (law : ErrorLaw) : SequenceLaw where
  Holds := law.Obeys
  pure := ErrorLaw.obeys_pure
  bind := ErrorLaw.Obeys.bind
  byteMap := ErrorLaw.obeys_byteMap
  bounded width signed _ _ := ErrorLaw.obeys_bounded width signed
  wrapping := ErrorLaw.obeys_wrapping
  take := ErrorLaw.obeys_take
  name := ErrorLaw.obeys_name

namespace ErrorLaw

open Decoder

variable {law : ErrorLaw}

/-! ## Sections -/

theorem obeys_takeRest : law.Obeys takeRest :=
  fun cursor => obeys_take _ cursor

theorem obeys_functionBody : law.Obeys FunctionBody.decoder := by
  have groups : law.Obeys LocalGroup.decoder.vector :=
    (SequenceLaw.obeys law).vector (SequenceLaw.obeys law).localGroup
  have contents : law.Obeys FunctionBody.contents := by
    apply groups.bind
    intro locals
    apply obeys_takeRest.bind
    intro body
    split
    · exact obeys_pure _
    · exact law.ending
  exact obeys_uint32.bind fun size => contents.within size

theorem obeys_customSection : law.Obeys CustomSection.decoder := by
  apply obeys_name.bind
  intro title
  exact obeys_takeRest.bind fun _ => obeys_pure _

theorem obeys_section (kind : SectionKind) :
    law.Obeys (Section.decoder kind) := by
  let format := SequenceLaw.obeys law
  cases kind with
  | custom => exact obeys_customSection.map _
  | types => exact format.map (format.vector format.functionType) _
  | imports => exact format.map (format.vector format.importEntry) _
  | functions => exact format.map (format.vector format.uint32) _
  | tables => exact format.map (format.vector format.tableType) _
  | memories => exact format.map (format.vector format.limits) _
  | globals => exact format.map (format.vector format.globalEntry) _
  | exports => exact format.map (format.vector format.exportEntry) _
  | start => exact format.map format.uint32 _
  | elements => exact format.map (format.vector format.elementSegment) _
  | code => exact format.map (format.vector obeys_functionBody) _
  | data => exact format.map (format.vector format.dataSegment) _

/-! ## Modules -/

theorem obeys_sectionFrame (last : Option SectionKind) :
    law.Obeys (SectionFrame.decoder last) := by
  intro cursor
  have here : law.Answers cursor ((get : Decoder ByteCursor) cursor) :=
    ByteCursor.Reaches.refl cursor
  have headed : law.Answers cursor (SectionHeader.decoder cursor) :=
    (SequenceLaw.obeys law).sectionHeader cursor
  apply answers_bind here
  intro start _ got
  cases got
  apply answers_bind headed
  intro header between run
  rw [run] at headed
  split
  · have framed : law.Obeys (do
        let contents ← window header.size
        pure (SectionFrame.mk header contents)) :=
      obeys_window fun _ _ => rfl
    exact (framed between).advance headed
  · exact holds_atCursor cursor

theorem contents_shown {last : Option SectionKind} {cursor after : ByteCursor}
    {frame : SectionFrame}
    (split : SectionFrame.decoder last cursor = .ok (frame, after)) :
    cursor.Shows frame.contents.position frame.contents.rest := by
  obtain ⟨_, between, headed, taken⟩ := SectionFrame.decoder_eq_ok_iff.mp split
  obtain ⟨_, start, rest, _⟩ := window_eq_ok_iff.mp taken
  obtain ⟨consumed, _, headerRest, headerPosition⟩ :=
    recognises_sectionHeader.mp headed
  refine ⟨consumed, after.rest, ?_, ?_⟩
  · rw [headerRest, rest]
  · rw [start, headerPosition]

theorem holds_of_read {frame : SectionFrame} {failure : Failure}
    (failed : frame.read = .error failure) :
    law.Holds frame.contents failure.error := by
  have whole : law.Obeys (Section.decoder frame.header.kind).exhaust :=
    (obeys_section frame.header.kind).exhaust
  have outcome := whole frame.contents
  unfold SectionFrame.read at failed
  cases run : (Section.decoder frame.header.kind).exhaust frame.contents with
  | ok result =>
      rw [run] at failed
      cases failed
  | error reason =>
      rw [run] at failed outcome
      cases failed
      exact outcome

theorem holds_of_ofCursor {last : Option SectionKind} {cursor : ByteCursor}
    {failure : Failure}
    (failed : (SectionReading.ofCursor last cursor).result = .error failure) :
    law.Holds cursor failure.error := by
  have frames : ∀ last, law.Obeys (SectionFrame.decoder last) :=
    obeys_sectionFrame
  fun_induction SectionReading.ofCursor last cursor with
  | case1 last cursor empty => cases failed
  | case2 last cursor nonempty reason split =>
      cases failed
      have outcome := frames last cursor
      rw [split] at outcome
      exact outcome
  | case3 last cursor nonempty frame after split reason read =>
      cases failed
      exact law.widen _ _ _ (contents_shown split) (holds_of_read read)
  | case4 last cursor nonempty frame after split entry contents others =>
      rename_i induction
      cases behind : others.result with
      | ok sections =>
          rw [behind] at failed
          cases failed
      | error reason =>
          rw [behind] at failed
          cases failed
          have reaches := frames last cursor
          rw [split] at reaches
          exact law.widen _ _ _ reaches.shows (induction behind)

theorem holds_of_decode {input : List UInt8} {error : DecodeError}
    (failed : Module.decode input = .error error) :
    law.Holds (.ofBytes input) error := by
  have header : law.Obeys Module.header := (SequenceLaw.obeys law).moduleHeader
  have outcome := header (.ofBytes input)
  unfold Module.decode Module.readSections at failed
  cases run : Module.header (.ofBytes input) with
  | error failure =>
      rw [run] at failed outcome
      cases failed
      exact outcome
  | ok result =>
      obtain ⟨_, cursor⟩ := result
      rw [run] at failed outcome
      cases read : (SectionReading.ofCursor none cursor).result with
      | ok sections =>
          simp only [read] at failed
          cases failed
      | error failure =>
          simp only [read] at failed
          cases failed
          exact law.widen _ _ _ outcome.shows (holds_of_ofCursor read)

end ErrorLaw

end Wasm

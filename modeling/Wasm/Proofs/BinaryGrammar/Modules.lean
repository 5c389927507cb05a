import Wasm.Format.Module
import Wasm.Proofs.BinaryGrammar.Assembly
import Wasm.Proofs.BinaryGrammar.Entities

/-!
# Recognition of modules

A section is split off before its contents are read, and the order of sections
is checked in between.  One section of the loop is a production in front of the
cursor; the loop as a whole is a sequence of them that ends where the input
does.
-/

namespace Wasm

open Decoder

theorem recognises_sectionHeader :
    SectionHeader.decoder.Recognises fun header bytes =>
      ∃ size, Production.natural header.size size ∧
        bytes = header.kind.toByte :: size := by
  have kind := recognises_byteMap_of_inverse SectionKind.ofByte?_eq_some_iff
  apply (kind.pair recognises_natural SectionHeader.mk).congr
  intro header bytes
  constructor
  · intro parts
    obtain ⟨kind, size, _, back, rfl, rfl, written, rfl⟩ := parts
    exact ⟨back, written, rfl⟩
  · intro parts
    obtain ⟨back, written, rfl⟩ := parts
    exact ⟨header.kind, header.size, [header.kind.toByte], back, rfl, rfl,
      written, rfl⟩

namespace SectionFrame

theorem decoder_eq_ok_iff {last : Option SectionKind}
    {cursor after : ByteCursor} {frame : SectionFrame} :
    SectionFrame.decoder last cursor = .ok (frame, after) ↔
      frame.header.kind.mayFollow last = true ∧
        ∃ between,
          SectionHeader.decoder cursor = .ok (frame.header, between) ∧
          window frame.header.size between = .ok (frame.contents, after) := by
  unfold SectionFrame.decoder
  constructor
  · intro run
    obtain ⟨start, _, got, rest⟩ := bind_eq_ok_iff.mp run
    cases got
    obtain ⟨header, between, ran, rest⟩ := bind_eq_ok_iff.mp rest
    split at rest
    · rename_i allowed
      obtain ⟨contents, behind, split, result⟩ := bind_eq_ok_iff.mp rest
      cases result
      exact ⟨allowed, between, ran, split⟩
    · cases rest
  · intro parts
    obtain ⟨allowed, between, ran, split⟩ := parts
    refine bind_eq_ok_iff.mpr ⟨cursor, cursor, rfl, ?_⟩
    refine bind_eq_ok_iff.mpr ⟨frame.header, between, ran, ?_⟩
    rw [if_pos allowed]
    exact bind_eq_ok_iff.mpr ⟨frame.contents, after, split, rfl⟩

theorem read_eq_ok_iff {frame : SectionFrame} {entry : Section}
    (small : frame.contents.rest.length < 2 ^ 32) :
    frame.read = .ok entry ↔
      entry.kind = frame.header.kind ∧ entry.Contents frame.contents.rest := by
  have fills := fills_section frame.header.kind
  unfold read
  constructor
  · intro ran
    cases run : (Section.decoder frame.header.kind).exhaust frame.contents with
    | error failure =>
        rw [run] at ran
        cases ran
    | ok result =>
        rw [run] at ran
        cases ran
        exact ((fills small).mp run).1
  · intro written
    rw [(fills small).mpr ⟨written, rfl⟩]
    rfl

theorem contents_small {last : Option SectionKind} {cursor after : ByteCursor}
    {frame : SectionFrame}
    (split : SectionFrame.decoder last cursor = .ok (frame, after)) :
    frame.contents.rest.length < 2 ^ 32 := by
  obtain ⟨_, between, _, taken⟩ := decoder_eq_ok_iff.mp split
  rw [(window_eq_ok_iff.mp taken).1]
  exact frame.header.size.toNat_lt

theorem written_of_read {last : Option SectionKind} {cursor after : ByteCursor}
    {frame : SectionFrame} {entry : Section}
    (split : SectionFrame.decoder last cursor = .ok (frame, after))
    (read : frame.read = .ok entry) :
    frame.header.kind = entry.kind ∧
      entry.kind.mayFollow last = true ∧
      ∃ consumed, entry.Written consumed ∧
        cursor.rest = consumed ++ after.rest := by
  obtain ⟨same, written⟩ := (read_eq_ok_iff (contents_small split)).mp read
  obtain ⟨allowed, between, headed, taken⟩ := decoder_eq_ok_iff.mp split
  obtain ⟨_, ⟨size, sizeWritten, rfl⟩, headerRest, _⟩ :=
    recognises_sectionHeader.mp headed
  obtain ⟨length, _, contentsRest, _⟩ := window_eq_ok_iff.mp taken
  rw [← same] at allowed headerRest
  refine ⟨same.symm, allowed,
    entry.kind.toByte :: (size ++ frame.contents.rest), ?_, ?_⟩
  · exact ⟨_,
      ⟨frame.header.size, size, frame.contents.rest, sizeWritten, length.symm,
      written, rfl⟩, rfl⟩
  · rw [headerRest, contentsRest]
    simp

theorem read_of_written {last : Option SectionKind} {cursor : ByteCursor}
    {entry : Section} {consumed remaining : List UInt8}
    (allowed : entry.kind.mayFollow last = true)
    (written : entry.Written consumed)
    (rest : cursor.rest = consumed ++ remaining) :
    ∃ frame,
      SectionFrame.decoder last cursor =
        .ok (frame, ⟨cursor.position + consumed.length, remaining⟩) ∧
      frame.header.kind = entry.kind ∧
      frame.read = .ok entry := by
  obtain ⟨_,
    ⟨size, sizeBytes, payload, sizeWritten, length, contentsWritten, rfl⟩,
    rfl⟩ := written
  let header : SectionHeader := ⟨entry.kind, size⟩
  let between : ByteCursor :=
    ⟨cursor.position + (sizeBytes.length + 1), payload ++ remaining⟩
  let contents : ByteCursor := ⟨between.position, payload⟩
  have headed : SectionHeader.decoder cursor = .ok (header, between) := by
    refine recognises_sectionHeader.mpr
      ⟨entry.kind.toByte :: sizeBytes, ⟨sizeBytes, sizeWritten, rfl⟩, ?_, rfl⟩
    rw [rest]
    simp [between]
  have taken : window size between =
      .ok (contents, ⟨between.position + size.toNat, remaining⟩) :=
    window_eq_ok_iff.mpr ⟨length.symm, rfl, rfl, rfl⟩
  have stop :
      cursor.position + (entry.kind.toByte :: (sizeBytes ++ payload)).length =
      between.position + size.toNat := by
    simp only [between, length, List.length_cons, List.length_append]
    omega
  have small : payload.length < 2 ^ 32 := by
    rw [← length]
    exact size.toNat_lt
  rw [stop]
  refine ⟨⟨header, contents⟩, ?_, rfl, ?_⟩
  · exact decoder_eq_ok_iff.mpr ⟨allowed, between, headed, taken⟩
  · exact (read_eq_ok_iff small).mpr ⟨rfl, contentsWritten⟩

end SectionFrame

namespace SectionReading

/-- What holds of the end, and of a section and more if it holds of what the
loop reads behind that section, holds of all that the loop reads. -/
@[elab_as_elim]
theorem induction_of_ok
    {motive : Option SectionKind → ByteCursor → List Section → Prop}
    (done : ∀ {last : Option SectionKind} {cursor : ByteCursor},
      cursor.isEmpty = true → motive last cursor [])
    (step : ∀ {last : Option SectionKind} {cursor after : ByteCursor}
      {frame : SectionFrame} {entry : Section} {others : List Section},
      SectionFrame.decoder last cursor = .ok (frame, after) →
      frame.read = .ok entry →
      motive (frame.header.kind.lastAfter last) after others →
      motive last cursor (entry :: others))
    {last : Option SectionKind} {cursor : ByteCursor} {sections : List Section}
    (read : (ofCursor last cursor).result = .ok sections) :
    motive last cursor sections := by
  fun_induction ofCursor last cursor generalizing sections with
  | case1 last cursor empty =>
      cases read
      exact done empty
  | case2 last cursor nonempty failure split => cases read
  | case3 last cursor nonempty frame after split failure failed => cases read
  | case4 last cursor nonempty frame after split entry contents others =>
      rename_i induction
      cases behind : others.result with
      | error failure =>
          rw [behind] at read
          cases read
      | ok remaining =>
          rw [behind] at read
          cases read
          exact step split contents (induction behind)

theorem ofCursor_sound {last : Option SectionKind} {cursor : ByteCursor}
    {sections : List Section}
    (read : (ofCursor last cursor).result = .ok sections) :
    Section.OrderedAfter last sections ∧
      ∃ chunks, List.Forall₂ Section.Written sections chunks ∧
        cursor.rest = chunks.flatten := by
  refine induction_of_ok ?done ?step read
  case done =>
    intro last cursor empty
    exact ⟨trivial, [], .nil, List.isEmpty_iff.mp empty⟩
  case step =>
    rintro last cursor after frame entry others split contents
      ⟨ordered, chunks, othersWritten, othersRest⟩
    obtain ⟨same, allowed, consumed, written, rest⟩ :=
      SectionFrame.written_of_read split contents
    rw [same] at ordered
    refine ⟨⟨allowed, ordered⟩, consumed :: chunks,
      .cons written othersWritten, ?_⟩
    rw [rest, othersRest]
    rfl

theorem ofCursor_complete {last : Option SectionKind} {cursor : ByteCursor}
    {sections : List Section} {chunks : List (List UInt8)}
    (ordered : Section.OrderedAfter last sections)
    (written : List.Forall₂ Section.Written sections chunks)
    (rest : cursor.rest = chunks.flatten) :
    (ofCursor last cursor).result = .ok sections := by
  -- The sections that were written decide the steps of the loop.  Each of them
  -- takes at least one byte, so the loop is not over before the last one.
  induction written generalizing last cursor with
  | nil =>
      have empty : cursor.isEmpty = true := List.isEmpty_iff.mpr rest
      rw [ofCursor, if_pos empty]
  | @cons entry consumed sections chunks entryWritten _ induction =>
      obtain ⟨allowed, ordered⟩ := ordered
      obtain ⟨frame, split, same, read⟩ :=
        SectionFrame.read_of_written allowed entryWritten rest
      have nonempty : ¬ cursor.isEmpty = true := by
        intro empty
        have consuming := SectionFrame.decoder_consuming last split
        rw [List.isEmpty_iff.mp empty] at consuming
        cases consuming
      rw [ofCursor, if_neg nonempty]
      split
      · rename_i failure failed
        rw [split] at failed
        cases failed
      · rename_i found after ran
        rw [split] at ran
        cases ran
        rw [read]
        simp only
        rw [same, induction ordered rfl]
        rfl

theorem ofCursor_eq_ok_iff {last : Option SectionKind} {cursor : ByteCursor}
    {sections : List Section} :
    (ofCursor last cursor).result = .ok sections ↔
      Section.OrderedAfter last sections ∧
        ∃ chunks,
          List.Forall₂ Section.Written sections chunks ∧
            cursor.rest = chunks.flatten := by
  constructor
  · exact ofCursor_sound
  · intro parts
    obtain ⟨ordered, chunks, written, rest⟩ := parts
    exact ofCursor_complete ordered written rest

end SectionReading

namespace Module

theorem recognises_header :
    Module.header.Recognises fun _ bytes =>
      bytes = [0x00, 0x61, 0x73, 0x6D, 0x01, 0x00, 0x00, 0x00] := by
  have both :=
    (recognises_bytes Module.magic).pair (recognises_bytes Module.versionBytes)
    fun _ _ => ()
  apply both.congr
  intro result bytes
  constructor
  · intro parts
    obtain ⟨_, _, _, _, _, ⟨rfl, rfl⟩, ⟨rfl, rfl⟩, rfl⟩ := parts
    rfl
  · intro equal
    subst equal
    exact ⟨_, _, _, _, rfl, ⟨rfl, rfl⟩, ⟨rfl, rfl⟩, rfl⟩

theorem readSections_eq_ok_iff {input : List UInt8} {sections : List Section} :
    (Module.readSections input).result = .ok sections ↔
      Section.Ordered sections ∧
        ∃ chunks,
          List.Forall₂ Section.Written sections chunks ∧
          input = [0x00, 0x61, 0x73, 0x6D, 0x01, 0x00, 0x00, 0x00] ++
            chunks.flatten := by
  unfold Module.readSections
  constructor
  · intro read
    split at read
    · cases read
    · rename_i cursor ran
      obtain ⟨_, rfl, rest, _⟩ := recognises_header.mp ran
      obtain ⟨ordered, chunks, written, behind⟩ :=
        SectionReading.ofCursor_eq_ok_iff.mp read
      rw [behind] at rest
      exact ⟨Section.orderedAfter_none_iff.mp ordered, chunks, written, rest⟩
  · intro parts
    obtain ⟨ordered, chunks, written, rfl⟩ := parts
    have ran : Module.header (ByteCursor.ofBytes
        ([0x00, 0x61, 0x73, 0x6D, 0x01, 0x00, 0x00, 0x00] ++ chunks.flatten)) =
        .ok ((), ⟨8, chunks.flatten⟩) :=
      recognises_header.mpr ⟨_, rfl, rfl, rfl⟩
    rw [ran]
    exact SectionReading.ofCursor_complete
      (Section.orderedAfter_none_iff.mpr ordered) written rfl

/-- Decoding succeeds exactly on the bytes that are written for a module, and
returns that module. -/
theorem decode_eq_ok_iff_written {input : List UInt8} {module : Module} :
    Module.decode input = .ok module ↔ module.Written input := by
  unfold Module.decode
  constructor
  · intro decoded
    split at decoded
    · cases decoded
    · rename_i sections read
      cases decoded
      obtain ⟨ordered, chunks, written, rest⟩ := readSections_eq_ok_iff.mp read
      exact ⟨sections, chunks, written, ordered, holds_ofSections ordered, rest⟩
  · intro parts
    obtain ⟨sections, chunks, written, ordered, holds, rest⟩ := parts
    rw [readSections_eq_ok_iff.mpr ⟨ordered, chunks, written, rest⟩]
    rw [(holds_iff_eq_ofSections ordered).mp holds]

end Module

end Wasm

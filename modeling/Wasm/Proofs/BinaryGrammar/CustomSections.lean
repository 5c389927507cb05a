import Wasm.Proofs.BinaryGrammar.Stability

/-!
# Custom sections are transparent

A custom section that is inserted between two sections of an input adds itself
to the custom sections of the module and moves the errors behind it.  It changes
nothing else: the order check passes it over, and what follows is read as
before.
-/

namespace Wasm

namespace Module

variable {module : Module}

theorem insert_withCustoms (customs : List CustomSection) (entry : Section) :
    ({ module with customs := customs } : Module).insert entry =
      { module.insert entry with
        customs := customs ++ entry.custom?.toList } := by
  cases entry <;> simp [insert, Section.custom?]

theorem foldl_insert_withCustoms (customs : List CustomSection)
    (sections : List Section) :
    sections.foldl insert { module with customs := customs } =
      { sections.foldl insert module with
        customs := customs ++ sections.filterMap Section.custom? } := by
  induction sections generalizing module customs with
  | nil => simp
  | cons entry others induction =>
      have collected : (entry :: others).filterMap Section.custom? =
          entry.custom?.toList ++ others.filterMap Section.custom? := by
        cases entry <;> rfl
      rw [List.foldl_cons, insert_withCustoms, induction, collected,
        List.append_assoc]
      rfl

theorem customs_foldl_insert (sections : List Section) :
    (sections.foldl insert module).customs =
      module.customs ++ sections.filterMap Section.custom? :=
  congrArg Module.customs (foldl_insert_withCustoms module.customs sections)

/-- A custom section between others only adds itself to the custom sections. -/
theorem ofSections_insert_custom (front later : List Section)
    (added : CustomSection) :
    ofSections (front ++ [.custom added] ++ later) =
      { ofSections (front ++ later) with
        customs :=
          (ofSections front).customs ++ [added] ++
            later.filterMap Section.custom? } := by
  unfold ofSections
  rw [List.foldl_append, List.foldl_append, List.foldl_append]
  exact foldl_insert_withCustoms _ later

theorem customs_ofSections_append (front later : List Section) :
    (ofSections (front ++ later)).customs =
      (ofSections front).customs ++ later.filterMap Section.custom? := by
  unfold ofSections
  rw [List.foldl_append]
  exact customs_foldl_insert later

/-- A module without anything but custom sections was made of custom
sections. -/
theorem sections_eq_of_only_customs {sections : List Section}
    {customs : List CustomSection} (ordered : Section.Ordered sections)
    (only : ofSections sections = { empty with customs := customs }) :
    sections = customs.map .custom := by
  have holds := holds_ofSections ordered
  rw [only] at holds
  have custom : ∀ entry ∈ sections, entry.kind = .custom := by
    intro entry member
    by_contra proper
    have found := (holds.sections entry proper).mpr member
    cases entry <;> cases found
  have collected : customs = sections.filterMap Section.custom? := holds.customs
  rw [collected]
  clear only holds collected ordered
  induction sections with
  | nil => rfl
  | cons entry others induction =>
      have first := custom entry List.mem_cons_self
      have rest := induction fun other member =>
          custom other (List.mem_cons_of_mem _ member)
      cases entry with
      | custom contents => simpa [Section.custom?] using rest
      | _ => cases first

theorem written_of_only_custom {chunk : List UInt8} {added : CustomSection}
    (decoded : decode (preamble ++ chunk) =
      .ok { empty with customs := [added] }) :
    (Section.custom added).Written chunk := by
  obtain ⟨sections, read, only⟩ := decode_eq_ok_iff.mp decoded
  obtain ⟨ordered, chunks, written, whole⟩ := readSections_eq_ok_iff.mp read
  obtain rfl : chunk = chunks.flatten := List.append_cancel_left whole
  rw [sections_eq_of_only_customs ordered only.symm] at written
  cases written with
  | cons written none =>
      cases none
      simpa using written

theorem readSections_preamble (rest : List UInt8) :
    readSections (preamble ++ rest) =
      SectionReading.ofCursor none ⟨8, rest⟩ := by
  have ran :
      Module.header (ByteCursor.ofBytes (preamble ++ rest)) =
        .ok ((), ⟨8, rest⟩) :=
    recognises_header.mpr ⟨_, rfl, rfl, rfl⟩
  unfold readSections
  rw [ran]

theorem readSections_of_written {sections : List Section}
    {chunks : List (List UInt8)} (ordered : Section.Ordered sections)
    (written : List.Forall₂ Section.Written sections chunks)
    (remaining : List UInt8) :
    (readSections (preamble ++ chunks.flatten ++ remaining)).result =
      (SectionReading.ofCursor (SectionReading.lastOf none sections)
        ⟨8 + chunks.flatten.length, remaining⟩).result.map (sections ++ ·) := by
  rw [List.append_assoc, readSections_preamble]
  exact SectionReading.result_of_written
    (Section.orderedAfter_none_iff.mpr ordered) written 8 _

/-- The order check does not see a custom section, and what follows is read as
it would be without it, only further on. -/
theorem readSections_insert_custom {sections : List Section}
    {chunks : List (List UInt8)} {chunk : List UInt8} {added : CustomSection}
    (ordered : Section.Ordered sections)
    (written : List.Forall₂ Section.Written sections chunks)
    (addedWritten : (Section.custom added).Written chunk) (tail : List UInt8) :
    ∃ later : Except Failure (List Section),
      (readSections (preamble ++ chunks.flatten ++ tail)).result =
        later.map (sections ++ ·) ∧
      (readSections (preamble ++ chunks.flatten ++ chunk ++ tail)).result =
        (later.mapError (Failure.moved chunk.length)).map
          (sections ++ [.custom added] ++ ·) := by
  refine ⟨_, readSections_of_written ordered written tail, ?_⟩
  have stillOrdered : Section.Ordered (sections ++ [.custom added]) := by
    simpa [Section.Ordered, Section.kind] using ordered
  have bothWritten : List.Forall₂ Section.Written (sections ++ [.custom added])
      (chunks ++ [chunk]) :=
    List.rel_append written (.cons addedWritten .nil)
  have sameLast : SectionReading.lastOf none (sections ++ [.custom added]) =
      SectionReading.lastOf none sections := by
    simp [SectionReading.lastOf, Section.kind, SectionKind.lastAfter]
  have further : (⟨8 + (chunks ++ [chunk]).flatten.length, tail⟩ : ByteCursor) =
      ByteCursor.moved chunk.length ⟨8 + chunks.flatten.length, tail⟩ := by
    simp [ByteCursor.moved, Nat.add_assoc]
  have read := readSections_of_written stillOrdered bothWritten tail
  rw [sameLast, further, SectionReading.result_moved] at read
  rw [← read]
  simp

/-- A custom section that is inserted behind a module, whatever follows there,
adds itself to the custom sections and moves the errors; nothing else
changes. -/
theorem custom_sections_are_transparent {front tail chunk : List UInt8}
    {part : Module} {added : CustomSection}
    (decodedFront : decode front = .ok part)
    (decodedChunk : decode (preamble ++ chunk) =
      .ok { empty with customs := [added] }) :
    (∀ module, decode (front ++ tail) = .ok module →
      part.customs <+: module.customs ∧
      decode (front ++ chunk ++ tail) = .ok { module with
        customs :=
          part.customs ++ [added] ++
            module.customs.drop part.customs.length }) ∧
    (∀ error, decode (front ++ tail) = .error error →
      decode (front ++ chunk ++ tail) = .error (error.moved chunk.length)) := by
  obtain ⟨sections, readFront, rfl⟩ := decode_eq_ok_iff.mp decodedFront
  obtain ⟨ordered, chunks, written, whole⟩ :=
    readSections_eq_ok_iff.mp readFront
  obtain rfl : front = preamble ++ chunks.flatten := whole
  obtain ⟨later, without, within⟩ :=
    readSections_insert_custom ordered written
      (written_of_only_custom decodedChunk) tail
  constructor
  · intro module decoded
    obtain ⟨found, read, rfl⟩ := decode_eq_ok_iff.mp decoded
    rw [without] at read
    cases later with
    | error failure => cases read
    | ok behind =>
        cases read
        rw [customs_ofSections_append, List.drop_left]
        refine ⟨List.prefix_append .., ?_⟩
        exact decode_eq_ok_iff.mpr ⟨_, within,
          (ofSections_insert_custom ..).symm⟩
  · intro error decoded
    obtain ⟨failure, read, rfl⟩ := decode_eq_error_iff.mp decoded
    rw [without] at read
    cases later with
    | ok behind => cases read
    | error reason =>
        cases read
        exact decode_eq_error_iff.mpr ⟨_, within, Failure.error_moved ..⟩

/-- A custom section behind a start section, before a code section and before a
type section that comes too late. -/
theorem custom_section_behind_start_is_transparent :
    decode (preamble ++ [0x08, 0x01, 0x07] ++ [0x00, 0x03, 0x01, 0x61, 0xFF] ++
        [0x0A, 0x01, 0x00]) =
      .ok { empty with
        customs := [⟨"a", [0xFF]⟩], start := some 7, code := some [] } ∧
    decode (preamble ++ [0x08, 0x01, 0x07] ++ [0x00, 0x03, 0x01, 0x61, 0xFF] ++
        [0x01, 0x01, 0x00]) =
      .error (.unexpected 0x01 16) := by
  have front :
      decode (preamble ++ [0x08, 0x01, 0x07]) =
        .ok { empty with start := some 7 } := by
    decide +kernel
  have chunk : decode (preamble ++ [0x00, 0x03, 0x01, 0x61, 0xFF]) =
      .ok { empty with customs := [⟨"a", [0xFF]⟩] } := by
    decide +kernel
  have accepted :
      decode (preamble ++ [0x08, 0x01, 0x07] ++ [0x0A, 0x01, 0x00]) =
      .ok { empty with start := some 7, code := some [] } := by
    decide +kernel
  have refused : decode (preamble ++ [0x08, 0x01, 0x07] ++ [0x01, 0x01, 0x00]) =
      .error (.unexpected 0x01 11) := by
    decide +kernel
  exact ⟨((custom_sections_are_transparent front chunk).1 _ accepted).2,
    (custom_sections_are_transparent front chunk).2 _ refused⟩

end Module

end Wasm

import Mathlib.Data.List.Forall2
import Wasm.Proofs.BinaryGrammar.SectionLoop

/-!
# Verdicts on longer and on shorter inputs

An error in a module stays when more bytes follow, unless it says that the input
ends too early.  A module that is cut off is a module again if the cut is
between two of its sections, and ends too early otherwise.
-/

namespace Wasm

open Decoder

namespace Section

theorem Written.ne_nil {entry : Section} {bytes : List UInt8}
    (written : entry.Written bytes) :
    bytes ≠ [] := by
  obtain ⟨rest, _, rfl⟩ := written
  exact List.cons_ne_nil _ rest

/-- A section in front of other bytes can be told apart from them in one way
only. -/
theorem Written.append_inj {left right : Section}
    {front back other rest : List UInt8} (leftWritten : left.Written front)
    (rightWritten : right.Written other)
    (whole : front ++ back = other ++ rest) :
    left = right ∧ front = other ∧ back = rest := by
  have first : ∀ entry : Section, entry.kind.mayFollow none = true := by
    intro entry
    simp [SectionKind.mayFollow]
  let start : ByteCursor := ⟨0, front ++ back⟩
  have leftRest : start.rest = front ++ back := rfl
  obtain ⟨frame, split, _, read⟩ :=
    SectionFrame.read_of_written (first left) leftWritten leftRest
  obtain ⟨frame', split', _, read'⟩ :=
    SectionFrame.read_of_written (first right) rightWritten
      (leftRest.trans whole)
  rw [split] at split'
  simp only [Except.ok.injEq, Prod.mk.injEq, ByteCursor.mk.injEq] at split'
  obtain ⟨rfl, _, rfl⟩ := split'
  rw [read] at read'
  cases read'
  exact ⟨rfl, List.append_cancel_right whole, rfl⟩

/-- Sections that fill the front of other sections are the first ones of
them. -/
theorem written_prefix {sections others : List Section}
    {chunks pieces : List (List UInt8)} {rest : List UInt8}
    (written : List.Forall₂ Written sections chunks)
    (othersWritten : List.Forall₂ Written others pieces)
    (whole : chunks.flatten ++ rest = pieces.flatten) :
    sections <+: others ∧ chunks <+: pieces := by
  induction written generalizing others pieces with
  | nil => exact ⟨List.nil_prefix, List.nil_prefix⟩
  | @cons entry front sections chunks entryWritten _ induction =>
      rw [List.flatten_cons, List.append_assoc] at whole
      cases othersWritten with
      | nil =>
          exact absurd (List.append_eq_nil_iff.mp whole).1 entryWritten.ne_nil
      | @cons other piece others pieces otherWritten othersWritten =>
          rw [List.flatten_cons] at whole
          obtain ⟨rfl, rfl, behind⟩ :=
            entryWritten.append_inj otherWritten whole
          obtain ⟨sectionsPrefix, chunksPrefix⟩ :=
            induction othersWritten behind
          exact ⟨(List.prefix_cons_inj _).mpr sectionsPrefix,
            (List.prefix_cons_inj _).mpr chunksPrefix⟩

theorem Ordered.take {sections : List Section} (ordered : Ordered sections)
    (count : Nat) :
    Ordered (sections.take count) :=
  List.Pairwise.sublist ((List.take_sublist count sections).filter _) ordered

end Section

namespace Module

/-- The eight bytes that every module starts with. -/
def preamble : List UInt8 :=
  magic ++ versionBytes

/-- The input is the header and then the chunks, each of which is a section. -/
def Divides (input : List UInt8) (chunks : List (List UInt8)) : Prop :=
  ∃ sections, List.Forall₂ Section.Written sections chunks ∧
    input = preamble ++ chunks.flatten

theorem decode_eq_ok_iff {input : List UInt8} {module : Module} :
    decode input = .ok module ↔
      ∃ sections, (readSections input).result = .ok sections ∧
        module = ofSections sections := by
  unfold decode
  cases (readSections input).result with
  | error failure => simp
  | ok sections => simp [eq_comm]

theorem decode_eq_error_iff {input : List UInt8} {error : DecodeError} :
    decode input = .error error ↔
      ∃ failure, (readSections input).result = .error failure ∧
        failure.error = error := by
  unfold decode
  cases (readSections input).result with
  | error failure => simp
  | ok sections => simp

theorem readSections_append_of_error {input : List UInt8} {failure : Failure}
    (failed : (readSections input).result = .error failure)
    (final : ¬ failure.RunsOut) (tail : List UInt8) :
    (readSections (input ++ tail)).result = .error failure := by
  have header : Module.header.SelfDelimiting :=
    SequenceLaw.selfDelimiting.moduleHeader
  have longer :
      ByteCursor.ofBytes (input ++ tail) =
        (ByteCursor.ofBytes input).followedBy tail :=
    rfl
  unfold readSections at failed ⊢
  rw [longer]
  cases run : Module.header (.ofBytes input) with
  | error reason =>
      rw [run] at failed
      cases failed
      rw [header.followedBy_of_error run final tail]
  | ok result =>
      obtain ⟨_, cursor⟩ := result
      rw [run] at failed
      rw [header.followedBy_of_ok run tail]
      exact SectionReading.followedBy_of_error failed final tail

theorem decode_append_of_error {input : List UInt8} {error : DecodeError}
    (failed : decode input = .error error) (final : error ≠ .unexpectedEnd)
    (tail : List UInt8) :
    decode (input ++ tail) = .error error := by
  obtain ⟨failure, stopped, rfl⟩ := decode_eq_error_iff.mp failed
  have definite : ¬ failure.RunsOut := by
    rintro (rfl | rfl)
    · exact final rfl
    · exact final rfl
  exact decode_eq_error_iff.mpr ⟨failure,
    readSections_append_of_error stopped definite tail, rfl⟩

/-- What starts a module is a module or ends too early. -/
theorem decode_prefix {input front : List UInt8} {module : Module}
    (decoded : decode input = .ok module) (starts : front <+: input) :
    (∃ part, decode front = .ok part) ∨
      decode front = .error .unexpectedEnd := by
  obtain ⟨tail, rfl⟩ := starts
  cases verdict : decode front with
  | ok part => exact .inl ⟨part, rfl⟩
  | error error =>
      by_cases ending : error = .unexpectedEnd
      · exact .inr (by rw [ending])
      · rw [decode_append_of_error verdict ending tail] at decoded
        cases decoded

theorem exists_divides {input : List UInt8} {module : Module}
    (decoded : decode input = .ok module) : ∃ chunks, Divides input chunks := by
  obtain ⟨sections, read, _⟩ := decode_eq_ok_iff.mp decoded
  obtain ⟨_, chunks, written, whole⟩ := readSections_eq_ok_iff.mp read
  exact ⟨chunks, sections, written, whole⟩

theorem decode_prefix_eq_ok_iff {input front : List UInt8} {module : Module}
    {chunks : List (List UInt8)} (decoded : decode input = .ok module)
    (divides : Divides input chunks) (starts : front <+: input) :
    (∃ part, decode front = .ok part) ↔
      ∃ count, front = preamble ++ (chunks.take count).flatten := by
  obtain ⟨sections, written, rfl⟩ := divides
  constructor
  · rintro ⟨part, decodedPart⟩
    obtain ⟨partChunks, partSections, partWritten, rfl⟩ :=
      exists_divides decodedPart
    obtain ⟨tail, whole⟩ := starts
    rw [List.append_assoc, List.append_cancel_left_eq] at whole
    obtain ⟨_, chunksPrefix⟩ := Section.written_prefix partWritten written whole
    exact ⟨partChunks.length, by rw [← List.prefix_iff_eq_take.mp chunksPrefix]⟩
  · rintro ⟨count, rfl⟩
    obtain ⟨known, read, _⟩ := decode_eq_ok_iff.mp decoded
    obtain ⟨ordered, pieces, knownWritten, whole⟩ :=
      readSections_eq_ok_iff.mp read
    -- The input can be divided in one way only, so its sections are in order.
    have same : chunks.flatten ++ [] = pieces.flatten := by
      rw [List.append_nil]
      exact List.append_cancel_left whole
    obtain ⟨sectionsPrefix, _⟩ :=
      Section.written_prefix written knownWritten same
    have prefixOrdered : Section.Ordered sections := by
      rw [List.prefix_iff_eq_take.mp sectionsPrefix]
      exact ordered.take _
    have partRead :
        (readSections (preamble ++ (chunks.take count).flatten)).result =
        .ok (sections.take count) :=
      readSections_eq_ok_iff.mpr
        ⟨prefixOrdered.take count, chunks.take count,
          List.forall₂_take count written, rfl⟩
    exact ⟨_, decode_eq_ok_iff.mpr ⟨_, partRead, rfl⟩⟩

/-- An error other than a too early end stays when bytes are appended, and a
module that is cut off is accepted exactly where a section ends and ends too
early elsewhere. -/
theorem verdicts_are_stable :
    (∀ input tail error, decode input = .error error → error ≠ .unexpectedEnd →
      decode (input ++ tail) = .error error) ∧
    (∀ input module, decode input = .ok module →
      (∃ chunks, Divides input chunks) ∧
      ∀ chunks, Divides input chunks → ∀ front, front <+: input →
        ((∃ part, decode front = .ok part) ↔
          ∃ count, front = preamble ++ (chunks.take count).flatten) ∧
        ((¬ ∃ count, front = preamble ++ (chunks.take count).flatten) →
          decode front = .error .unexpectedEnd)) := by
  constructor
  · intro input tail error failed final
    exact decode_append_of_error failed final tail
  · intro input module decoded
    refine ⟨exists_divides decoded, ?_⟩
    intro chunks divides front starts
    have accepted := decode_prefix_eq_ok_iff decoded divides starts
    refine ⟨accepted, ?_⟩
    intro between
    rcases decode_prefix decoded starts with whole | ending
    · exact absurd (accepted.mp whole) between
    · exact ending

/-- A size of too many groups with a byte behind it, and a custom section with a
padded size in front of a start section. -/
theorem verdicts_are_stable_for_sizes :
    (decode (preamble ++ [0x08, 0x81, 0x80, 0x80, 0x80, 0x80, 0x00]) =
        .error (.unexpected 0x80 13) ∧
      decode (preamble ++ [0x08, 0x81, 0x80, 0x80, 0x80, 0x80, 0x00] ++
          [0x0B]) =
        .error (.unexpected 0x80 13)) ∧
    (decode (preamble ++ [0x00, 0x82, 0x00, 0x01, 0x61, 0x08, 0x01, 0x07]) =
        .ok { empty with customs := [⟨"a", []⟩], start := some 7 } ∧
      ∃ chunks,
        Divides (preamble ++ [0x00, 0x82, 0x00, 0x01, 0x61, 0x08, 0x01, 0x07])
          chunks ∧
        ((∃ part, decode (preamble ++ [0x00, 0x82, 0x00, 0x01, 0x61]) =
          .ok part) ↔
          ∃ count, preamble ++ [0x00, 0x82, 0x00, 0x01, 0x61] =
            preamble ++ (chunks.take count).flatten)) := by
  obtain ⟨longer, shorter⟩ := verdicts_are_stable
  have refused :
      decode (preamble ++ [0x08, 0x81, 0x80, 0x80, 0x80, 0x80, 0x00]) =
      .error (.unexpected 0x80 13) := by decide +kernel
  have accepted :
      decode (preamble ++ [0x00, 0x82, 0x00, 0x01, 0x61, 0x08, 0x01, 0x07]) =
      .ok { empty with customs := [⟨"a", []⟩], start := some 7 } := by
    decide +kernel
  obtain ⟨⟨chunks, divides⟩, cut⟩ := shorter _ _ accepted
  exact ⟨⟨refused, longer _ _ _ refused (by decide)⟩, accepted, chunks, divides,
    (cut chunks divides _ (by decide)).1⟩

end Module

end Wasm

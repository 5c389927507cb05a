import Wasm.Proofs.BinaryGrammar.Modules
import Wasm.Proofs.Decoding.Relocation
import Wasm.Proofs.Decoding.SelfDelimiting

/-!
# Two runs over the sections of a module

Reading sections is a loop whose state is the place and the last section that
was not custom.  The loop is compared with itself on an input that goes on, on
the same bytes at another place, and behind sections that are known to be well
formed.
-/

namespace Wasm

open Decoder

namespace SectionFrame

variable {last : Option SectionKind} {amount : Nat}

def moved (amount : Nat) (frame : SectionFrame) : SectionFrame :=
  ⟨frame.header, frame.contents.moved amount⟩

theorem mirrors_decoder :
    Mirrors amount (fun here there => there = here.moved amount)
      (SectionFrame.decoder last) (SectionFrame.decoder last) := by
  apply mirrors_get.bind
  rintro start _ rfl
  apply Mirrors.bind (SequenceLaw.placeFree.sectionHeader amount)
  rintro header _ rfl
  split
  · apply (mirrors_window header.size).bind
    rintro contents _ rfl
    exact mirrors_pure rfl
  · rw [DecodeError.atCursor_moved]
    exact mirrors_reject _

theorem read_moved (frame : SectionFrame) :
    (frame.moved amount).read = frame.read.mapError (Failure.moved amount) := by
  have whole := (placeFree_section frame.header.kind amount).exhaust
  change ((Section.decoder frame.header.kind).exhaust
    (frame.contents.moved amount)).map Prod.fst =
    (((Section.decoder frame.header.kind).exhaust frame.contents).map
      Prod.fst).mapError _
  cases run : (Section.decoder frame.header.kind).exhaust frame.contents with
  | ok result =>
      obtain ⟨_, rfl, ran⟩ := whole.of_ok run
      rw [ran]
      rfl
  | error failure =>
      rw [whole.of_error run]
      rfl

-- A section out of order is reported by the first byte of the input.  Once that
-- byte is known, what is left is a sequence of self-delimiting steps.
theorem selfDelimiting_decoder :
    (SectionFrame.decoder last).SelfDelimiting := by
  intro position input
  cases input with
  | nil => exact .runsOut (.recoverable .unexpectedEnd) (.inl rfl) rfl
  | cons byte rest =>
      let known : Decoder SectionFrame := do
        let header ← SectionHeader.decoder
        if header.kind.mayFollow last then
          let contents ← window header.size
          pure ⟨header, contents⟩
        else
          reject (.unexpected byte position)
      have same : ∀ tail, SectionFrame.decoder last ⟨position, byte :: tail⟩ =
          known ⟨position, byte :: tail⟩ :=
        fun _ => rfl
      have delimiting : known.SelfDelimiting := by
        apply SelfDelimiting.bind SequenceLaw.selfDelimiting.sectionHeader
        intro header
        split
        · exact (selfDelimiting_window header.size).bind fun _ =>
            selfDelimiting_pure _
        · exact selfDelimiting_fail _
      have consuming : known.Consuming := by
        apply SectionHeader.decoder_consuming.bind
        intro header
        split
        · exact (window_nonGrowing header.size).bind fun _ => pure_nonGrowing _
        · exact reject_nonGrowing _
      cases delimiting position (byte :: rest) with
      | reads frame consumed remaining whole always =>
          have read := consuming (always [])
          cases consumed with
          | nil => cases read
          | cons first others =>
              obtain rfl : byte = first := (List.cons.inj whole).1
              exact .reads frame (byte :: others) remaining whole
                fun tail => (same (others ++ tail)).trans (always tail)
      | refuses failure always =>
          exact .refuses failure fun tail =>
            (same (rest ++ tail)).trans (always tail)
      | runsOut failure short ran =>
          exact .runsOut failure short ((same rest).trans ran)

end SectionFrame

namespace SectionReading

variable {last : Option SectionKind} {cursor after : ByteCursor}
  {frame : SectionFrame} {entry : Section} {failure : Failure}

/-! ## One step of the loop -/

theorem ofCursor_of_empty (empty : cursor.isEmpty = true) :
    ofCursor last cursor = ⟨[], .ok []⟩ := by
  rw [ofCursor, if_pos empty]

theorem not_isEmpty_of_split
    (split : SectionFrame.decoder last cursor = .ok (frame, after)) :
    ¬ cursor.isEmpty = true := by
  intro empty
  have consuming := SectionFrame.decoder_consuming last split
  rw [List.isEmpty_iff.mp empty] at consuming
  cases consuming

theorem ofCursor_of_split_error (nonempty : ¬ cursor.isEmpty = true)
    (failed : SectionFrame.decoder last cursor = .error failure) :
    ofCursor last cursor = ⟨[], .error failure⟩ := by
  rw [ofCursor, if_neg nonempty]
  split
  · rename_i found ran
    rw [failed] at ran
    cases ran
    rfl
  · rename_i found behind ran
    rw [failed] at ran
    cases ran

theorem ofCursor_of_split
    (split : SectionFrame.decoder last cursor = .ok (frame, after)) :
    ofCursor last cursor =
      match frame.read with
      | .error failure => ⟨[frame.header], .error failure⟩
      | .ok entry =>
          let others := ofCursor (frame.header.kind.lastAfter last) after
          ⟨frame.header :: others.reached, others.result.map (entry :: ·)⟩ := by
  rw [ofCursor, if_neg (not_isEmpty_of_split split)]
  split
  · rename_i found ran
    rw [split] at ran
    cases ran
  · rename_i found behind ran
    rw [split] at ran
    cases ran
    rfl

theorem result_of_empty (empty : cursor.isEmpty = true) :
    (ofCursor last cursor).result = .ok [] := by
  rw [ofCursor_of_empty empty]

theorem result_of_split_error (nonempty : ¬ cursor.isEmpty = true)
    (failed : SectionFrame.decoder last cursor = .error failure) :
    (ofCursor last cursor).result = .error failure := by
  rw [ofCursor_of_split_error nonempty failed]

theorem result_of_split
    (split : SectionFrame.decoder last cursor = .ok (frame, after)) :
    (ofCursor last cursor).result =
      match frame.read with
      | .error failure => .error failure
      | .ok entry =>
          (ofCursor (frame.header.kind.lastAfter last) after).result.map
            (entry :: ·) := by
  rw [ofCursor_of_split split]
  cases frame.read with
  | error failure => rfl
  | ok entry => rfl

/-! ## An input that goes on -/

theorem followedBy_of_error
    (failed : (ofCursor last cursor).result = .error failure)
    (final : ¬ failure.RunsOut) (tail : List UInt8) :
    (ofCursor last (cursor.followedBy tail)).result = .error failure := by
  have frames : ∀ last, (SectionFrame.decoder last).SelfDelimiting :=
    fun _ => SectionFrame.selfDelimiting_decoder
  fun_induction ofCursor last cursor with
  | case1 last cursor empty => cases failed
  | case2 last cursor nonempty reason split =>
      cases failed
      apply result_of_split_error
      · intro empty
        rw [ByteCursor.isEmpty, List.isEmpty_iff] at nonempty empty
        exact nonempty (List.append_eq_nil_iff.mp empty).1
      · exact (frames last).followedBy_of_error split final tail
  | case3 last cursor nonempty frame after split reason read =>
      cases failed
      rw [result_of_split ((frames last).followedBy_of_ok split tail), read]
  | case4 last cursor nonempty frame after split entry read others =>
      rename_i induction
      rw [result_of_split ((frames last).followedBy_of_ok split tail), read]
      cases behind : others.result with
      | ok sections =>
          rw [behind] at failed
          cases failed
      | error reason =>
          rw [behind] at failed
          cases failed
          simp only [induction behind]
          rfl

/-! ## Another place -/

theorem result_moved (amount : Nat) :
    (ofCursor last (cursor.moved amount)).result =
      (ofCursor last cursor).result.mapError (Failure.moved amount) := by
  have frames :
      ∀ last, Mirrors amount (fun here there => there = here.moved amount)
        (SectionFrame.decoder last) (SectionFrame.decoder last) :=
    fun _ => SectionFrame.mirrors_decoder
  fun_induction ofCursor last cursor with
  | case1 last cursor empty => exact result_of_empty empty
  | case2 last cursor nonempty reason split =>
      exact result_of_split_error nonempty ((frames last).of_error split)
  | case3 last cursor nonempty frame after split reason read =>
      obtain ⟨_, rfl, there⟩ := (frames last).of_ok split
      rw [result_of_split there, SectionFrame.read_moved, read]
      rfl
  | case4 last cursor nonempty frame after split entry read others =>
      rename_i induction
      obtain ⟨_, rfl, there⟩ := (frames last).of_ok split
      rw [result_of_split there, SectionFrame.read_moved, read]
      change Except.map _
        (ofCursor (frame.header.kind.lastAfter last)
          (after.moved amount)).result = _
      rw [induction]
      change _ = (others.result.map _).mapError _
      cases others.result with
      | ok sections => rfl
      | error reason => rfl

/-! ## Sections that are known -/

/-- The last section that is not custom, after some sections. -/
def lastOf (last : Option SectionKind) (sections : List Section) :
    Option SectionKind :=
  sections.foldl (fun last entry => entry.kind.lastAfter last) last

theorem result_of_written {sections : List Section} {chunks : List (List UInt8)}
    (ordered : Section.OrderedAfter last sections)
    (written : List.Forall₂ Section.Written sections chunks) (position : Nat)
    (remaining : List UInt8) :
    (ofCursor last ⟨position, chunks.flatten ++ remaining⟩).result =
      (ofCursor (lastOf last sections)
        ⟨position + chunks.flatten.length, remaining⟩).result.map
        (sections ++ ·) := by
  induction written generalizing last position with
  | nil =>
      change (ofCursor last ⟨position, remaining⟩).result = Except.map id _
      rw [Except.map_id]
      rfl
  | @cons entry consumed sections chunks entryWritten _ induction =>
      obtain ⟨allowed, ordered⟩ := ordered
      let start : ByteCursor :=
        ⟨position, consumed ++ (chunks.flatten ++ remaining)⟩
      obtain ⟨frame, split, same, read⟩ :
          ∃ frame,
            SectionFrame.decoder last start =
              .ok (frame,
                ⟨position + consumed.length, chunks.flatten ++ remaining⟩) ∧
            frame.header.kind = entry.kind ∧
            frame.read = .ok entry :=
        SectionFrame.read_of_written allowed entryWritten rfl
      have first := result_of_split split
      simp only [read, same] at first
      rw [List.flatten_cons, List.append_assoc, first, induction ordered,
        List.length_append, Nat.add_assoc]
      change Except.map _
        (Except.map _ (ofCursor (lastOf last (entry :: sections)) _).result) = _
      cases (ofCursor (lastOf last (entry :: sections)) _).result with
      | ok later => rfl
      | error failure => rfl

end SectionReading

end Wasm

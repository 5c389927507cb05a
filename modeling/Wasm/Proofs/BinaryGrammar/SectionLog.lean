import Wasm.Log
import Wasm.Proofs.BinaryGrammar.NextSection

/-!
# Sections that are reached

The log of decoding a module names the sections whose contents were looked at.
Where these stand is described on the input alone: each opens where the one
before it stops, and only the last one may be unreadable.  A run of the loop
follows this description, so the log, the end of the input and the place of an
error are read off from it.
-/

namespace Wasm

open Decoder

/-- What the header of a section says, and where it stands in an input. -/
structure SectionPlace where
  header : SectionHeader
  /-- The offset of the header. -/
  start : Nat
  /-- The number of bytes of the header. -/
  headerLength : Nat

namespace SectionPlace

/-- The offset of the contents. -/
def contentsStart (place : SectionPlace) : Nat :=
  place.start + place.headerLength

/-- The offset behind the contents. -/
def stop (place : SectionPlace) : Nat :=
  place.contentsStart + place.header.size.toNat

/-- The number of bytes of the section. -/
def length (place : SectionPlace) : Nat :=
  place.headerLength + place.header.size.toNat

/-- The contents as they stand in the input. -/
def contents (place : SectionPlace) (input : List UInt8) : ByteCursor :=
  ⟨place.contentsStart,
    (input.drop place.contentsStart).take place.header.size.toNat⟩

/-- The offset is that of a byte of the contents. -/
def Covers (place : SectionPlace) (location : Nat) : Prop :=
  place.contentsStart ≤ location ∧ location < place.stop

/-- The contents are read as the section. -/
def Reads (input : List UInt8) (place : SectionPlace) (entry : Section) :
    Prop :=
  place.header.kind.Reads (place.contents input) entry

theorem stop_eq (place : SectionPlace) :
    place.stop = place.start + place.length :=
  Nat.add_assoc ..

/-! ## Sections that open -/

/-- A section opens at an offset: its header is read there, its kind may follow,
and the input is long enough for its contents. -/
structure OpensAt (input : List UInt8) (last : Option SectionKind)
    (offset : Nat) (place : SectionPlace) : Prop where
  start : place.start = offset
  headed : SectionHeader.decoder (.inBytes input place.start) =
    .ok (place.header, .inBytes input place.contentsStart)
  inOrder : ¬ SectionKind.TooLate last place.header.kind.toByte
  enough : place.stop ≤ input.length

variable {input : List UInt8} {last : Option SectionKind}
  {offset location : Nat} {place other : SectionPlace}
  {places others : List SectionPlace} {byte : UInt8} {failure : Failure}

namespace OpensAt

theorem unique (first : OpensAt input last offset place)
    (second : OpensAt input last offset other) : place = other := by
  obtain ⟨header, start, headerLength⟩ := place
  obtain ⟨otherHeader, otherStart, otherLength⟩ := other
  obtain rfl : start = offset := first.start
  obtain rfl : otherStart = start := second.start
  have same := first.headed.symm.trans second.headed
  simp only [Except.ok.injEq, Prod.mk.injEq] at same
  obtain ⟨rfl, between⟩ := same
  have position : otherStart + headerLength = otherStart + otherLength :=
    congrArg ByteCursor.position between
  obtain rfl := Nat.add_left_cancel position
  rfl

theorem split (opens : OpensAt input last offset place) :
    SectionFrame.decoder last (.inBytes input offset) =
      .ok (⟨place.header, place.contents input⟩,
        .inBytes input place.stop) := by
  have length :
      place.header.size.toNat ≤ (input.drop place.contentsStart).length := by
    have enough :
        place.contentsStart + place.header.size.toNat ≤ input.length :=
      opens.enough
    rw [List.length_drop]
    omega
  have framed :=
    SectionFrame.decoder_of_enough opens.headed opens.inOrder length
  rw [opens.start] at framed
  refine framed.trans ?_
  simp only [ByteCursor.inBytes, contents, stop, List.drop_drop]

theorem start_lt_stop (opens : OpensAt input last offset place) :
    offset < place.stop := by
  have consuming := SectionFrame.decoder_consuming last opens.split
  simp only [ByteCursor.inBytes, List.length_drop] at consuming
  omega

/-- The offsets in the contents are behind the start of the section. -/
theorem le_of_covers (opens : OpensAt input last offset place)
    (covers : place.Covers location) :
    offset ≤ location := by
  have above : place.start + place.headerLength ≤ location := covers.1
  have start := opens.start
  omega

end OpensAt

theorem exists_opensAt_of_split {frame : SectionFrame} {after : ByteCursor}
    (split : SectionFrame.decoder last (.inBytes input offset) =
      .ok (frame, after)) :
    ∃ place, OpensAt input last offset place := by
  have nonempty : offset < input.length := by
    have consuming := SectionFrame.decoder_consuming last split
    simp only [ByteCursor.inBytes, List.length_drop] at consuming
    omega
  obtain ⟨allowed, between, headed, taken⟩ :=
    SectionFrame.decoder_eq_ok_iff.mp split
  obtain ⟨bytes, _, rest, position⟩ := recognises_sectionHeader.mp headed
  obtain ⟨stop, rfl, _, inside⟩ :=
    ByteCursor.reaches_inBytes nonempty.le ⟨bytes, rest, position⟩
  obtain ⟨length, _, whole, _⟩ := window_eq_ok_iff.mp taken
  obtain rfl : stop = offset + bytes.length := position
  refine ⟨⟨frame.header, offset, bytes.length⟩, rfl, headed,
    SectionKind.mayFollow_iff.mp allowed, ?_⟩
  have room := congrArg List.length whole
  simp only [ByteCursor.inBytes, List.length_drop, List.length_append,
    length] at room
  change offset + bytes.length + frame.header.size.toNat ≤ input.length
  omega

/-! ## The sections that are reached -/

/-- The sections that are reached from an offset on, in order.  There is none if
no section opens, and one that cannot be read is the last. -/
inductive ReachedFrom (input : List UInt8) :
    Option SectionKind → Nat → List SectionPlace → Prop where
  | stopped {last : Option SectionKind} {offset : Nat} :
      (∀ place, ¬ OpensAt input last offset place) →
      ReachedFrom input last offset []
  | unread {last : Option SectionKind} {offset : Nat} {place : SectionPlace} :
      OpensAt input last offset place →
      (∀ entry, ¬ place.Reads input entry) →
      ReachedFrom input last offset [place]
  | read {last : Option SectionKind} {offset : Nat} {place : SectionPlace}
      {entry : Section} {places : List SectionPlace} :
      OpensAt input last offset place →
      place.Reads input entry →
      ReachedFrom input (place.header.kind.lastAfter last) place.stop places →
      ReachedFrom input last offset (place :: places)

theorem exists_reachedFrom (input : List UInt8) (last : Option SectionKind)
    (offset : Nat) :
    ∃ places, ReachedFrom input last offset places := by
  by_cases opening : ∃ place, OpensAt input last offset place
  · obtain ⟨place, opens⟩ := opening
    by_cases readable : ∃ entry, place.Reads input entry
    · obtain ⟨entry, reads⟩ := readable
      obtain ⟨places, others⟩ :=
        exists_reachedFrom input (place.header.kind.lastAfter last) place.stop
      exact ⟨place :: places, .read opens reads others⟩
    · exact ⟨[place], .unread opens (not_exists.mp readable)⟩
  · exact ⟨[], .stopped (not_exists.mp opening)⟩
termination_by input.length - offset
decreasing_by
  have onwards := opens.start_lt_stop
  have inside := opens.enough
  omega

/-- The offset behind the last of the sections, or the one where they were to
begin. -/
def endOf (offset : Nat) (places : List SectionPlace) : Nat :=
  (places.getLast?.map stop).getD offset

theorem endOf_cons (offset : Nat) (place : SectionPlace)
    (places : List SectionPlace) :
    endOf offset (place :: places) = endOf place.stop places := by
  unfold endOf
  rw [List.getLast?_cons]
  cases places.getLast? <;> rfl

/-- An error in the header of a section is at its first byte or at the fifth one
of its size. -/
def InHeader (offset location : Nat) : Prop :=
  location = offset ∨ location = offset + 5

/-- An error is in the contents of the last section, or else in no contents and
in the header of the section behind it. -/
def Locates (offset : Nat) (places : List SectionPlace) (location : Nat) :
    Prop :=
  (∃ last ∈ places.getLast?, last.Covers location) ∨
  (∀ place ∈ places, ¬ place.Covers location) ∧
    InHeader (endOf offset places) location

theorem Locates.cons (behind : place.stop ≤ location)
    (located : Locates place.stop places location) :
    Locates offset (place :: places) location := by
  rcases located with ⟨last, member, covers⟩ | ⟨outside, headed⟩
  · left
    refine ⟨last, ?_, covers⟩
    rw [List.getLast?_cons, member]
    rfl
  · right
    rw [endOf_cons]
    refine ⟨?_, headed⟩
    intro other member
    rcases List.mem_cons.mp member with rfl | later
    · intro covers
      exact Nat.not_lt_of_le behind covers.2
    · exact outside other later

theorem sectionHeader_unexpected {cursor : ByteCursor}
    (failed : SectionHeader.decoder cursor = .error failure)
    (unexpected : failure.error = .unexpected byte location) :
    InHeader cursor.position location := by
  obtain ⟨position, rest⟩ := cursor
  cases rest with
  | nil =>
      cases failed
      cases unexpected
  | cons id rest =>
      by_cases large : 11 < id
      · rw [SectionHeader.decoder_of_unknown large position] at failed
        cases failed
        cases unexpected
        exact .inl rfl
      · obtain ⟨kind, known⟩ :=
          SectionKind.exists_toByte_eq (UInt8.not_lt.mp large)
        have byKind : SectionKind.decoder ⟨position, id :: rest⟩ =
            .ok (kind, ⟨position + 1, rest⟩) :=
          SectionKind.decoder_of_toByte known position
        unfold SectionHeader.decoder at failed
        rw [bind_of_ok byKind] at failed
        cases sized : Leb128.uint32 ⟨position + 1, rest⟩ with
        | ok result =>
            rw [bind_of_ok sized] at failed
            cases failed
        | error reason =>
            rw [bind_of_error sized] at failed
            cases failed
            exact .inr
              (Leb128.FixedWidth.unsigned32.decoder_refuses_last sized
                unexpected)

theorem sectionFrame_unexpected {cursor : ByteCursor}
    (failed : SectionFrame.decoder last cursor = .error failure)
    (unexpected : failure.error = .unexpected byte location) :
    InHeader cursor.position location := by
  cases headed : SectionHeader.decoder cursor with
  | error reason =>
      rw [SectionFrame.decoder_of_header_error headed] at failed
      cases failed
      exact sectionHeader_unexpected headed unexpected
  | ok result =>
      obtain ⟨header, between⟩ := result
      by_cases late : SectionKind.TooLate last header.kind.toByte
      · rw [SectionFrame.decoder_of_too_late headed late] at failed
        cases failed
        obtain ⟨position, rest⟩ := cursor
        cases rest with
        | nil => cases unexpected
        | cons first others =>
            cases unexpected
            exact .inl rfl
      · by_cases enough : header.size.toNat ≤ between.rest.length
        · rw [SectionFrame.decoder_of_enough headed late enough] at failed
          cases failed
        · rw [SectionFrame.decoder_of_short headed late
            (Nat.lt_of_not_le enough)] at failed
          cases failed
          cases unexpected

namespace ReachedFrom

theorem unique (first : ReachedFrom input last offset places)
    (second : ReachedFrom input last offset others) : places = others := by
  induction first generalizing others with
  | stopped none =>
      cases second with
      | stopped => rfl
      | unread opens => exact absurd opens (none _)
      | read opens => exact absurd opens (none _)
  | unread opens unread =>
      cases second with
      | stopped none => exact absurd opens (none _)
      | unread same => rw [opens.unique same]
      | read same reads =>
          rw [opens.unique same] at unread
          exact absurd reads (unread _)
  | read opens reads behind induction =>
      cases second with
      | stopped none => exact absurd opens (none _)
      | unread same unread =>
          rw [opens.unique same] at reads
          exact absurd reads (unread _)
      | read same _ further =>
          obtain rfl := opens.unique same
          rw [induction further]

/-! ## The run of the loop -/

theorem ofCursor_of_none (none : ∀ place, ¬ OpensAt input last offset place) :
    (input.length ≤ offset ∧
      SectionReading.ofCursor last (.inBytes input offset) = ⟨[], .ok []⟩) ∨
    ∃ failure, SectionFrame.decoder last (.inBytes input offset) =
      .error failure ∧
      SectionReading.ofCursor last (.inBytes input offset) =
        ⟨[], .error failure⟩ := by
  by_cases empty : (ByteCursor.inBytes input offset).isEmpty = true
  · left
    have beyond : input.drop offset = [] := List.isEmpty_iff.mp empty
    exact ⟨List.drop_eq_nil_iff.mp beyond,
      SectionReading.ofCursor_of_empty empty⟩
  · cases split : SectionFrame.decoder last (.inBytes input offset) with
    | ok result =>
        obtain ⟨place, opens⟩ := exists_opensAt_of_split split
        exact absurd opens (none place)
    | error failure =>
        exact .inr ⟨failure, rfl,
          SectionReading.ofCursor_of_split_error empty split⟩

theorem ofCursor_of_unread (opens : OpensAt input last offset place)
    (unread : ∀ entry, ¬ place.Reads input entry) :
    ∃ failure, SectionFrame.read ⟨place.header, place.contents input⟩ =
      .error failure ∧
      SectionReading.ofCursor last (.inBytes input offset) =
        ⟨[place.header], .error failure⟩ := by
  cases read : SectionFrame.read ⟨place.header, place.contents input⟩ with
  | ok entry =>
      exact absurd (SectionFrame.read_eq_ok_iff_reads.mp read) (unread entry)
  | error failure =>
      refine ⟨failure, rfl, ?_⟩
      rw [SectionReading.ofCursor_of_split opens.split, read]

theorem ofCursor_of_reads {entry : Section}
    (opens : OpensAt input last offset place)
    (reads : place.Reads input entry) :
    SectionReading.ofCursor last (.inBytes input offset) =
      ⟨place.header ::
          (SectionReading.ofCursor (place.header.kind.lastAfter last)
            (.inBytes input place.stop)).reached,
        (SectionReading.ofCursor (place.header.kind.lastAfter last)
          (.inBytes input place.stop)).result.map (entry :: ·)⟩ := by
  have read := SectionFrame.read_eq_ok_iff_reads.mpr reads
  rw [SectionReading.ofCursor_of_split opens.split, read]

theorem reached_eq (reached : ReachedFrom input last offset places) :
    (SectionReading.ofCursor last (.inBytes input offset)).reached =
      places.map header := by
  induction reached with
  | stopped none =>
      rcases ofCursor_of_none none with ⟨_, ran⟩ | ⟨_, _, ran⟩
      · rw [ran]
        rfl
      · rw [ran]
        rfl
  | unread opens unread =>
      obtain ⟨_, _, ran⟩ := ofCursor_of_unread opens unread
      rw [ran]
      rfl
  | read opens reads _ induction =>
      rw [ofCursor_of_reads opens reads, List.map_cons, ← induction]

/-- If the sections are read up to the end, they are those that are reached, and
fill the input. -/
theorem of_ok {sections : List Section}
    (reached : ReachedFrom input last offset places)
    (inside : offset ≤ input.length)
    (read : (SectionReading.ofCursor last (.inBytes input offset)).result =
      .ok sections) :
    List.Forall₂ (Reads input) places sections ∧
      offset + (places.map length).sum = input.length := by
  induction reached generalizing sections with
  | stopped none =>
      rcases ofCursor_of_none none with ⟨beyond, ran⟩ | ⟨_, _, ran⟩
      · rw [ran] at read
        cases read
        exact ⟨.nil, Nat.le_antisymm inside beyond⟩
      · rw [ran] at read
        cases read
  | unread opens unread =>
      obtain ⟨_, _, ran⟩ := ofCursor_of_unread opens unread
      rw [ran] at read
      cases read
  | @read last offset place entry places opens reads _ induction =>
      rw [ofCursor_of_reads opens reads] at read
      cases behind : (SectionReading.ofCursor (place.header.kind.lastAfter last)
          (.inBytes input place.stop)).result with
      | error failure =>
          rw [behind] at read
          cases read
      | ok later =>
          rw [behind] at read
          cases read
          obtain ⟨all, filled⟩ := induction opens.enough behind
          refine ⟨.cons reads all, ?_⟩
          rw [place.stop_eq, opens.start] at filled
          rw [List.map_cons, List.sum_cons, ← Nat.add_assoc, filled]

/-- An unexpected byte is in the section that could not be read, or in the
header behind the sections that could. -/
theorem of_unexpected (reached : ReachedFrom input last offset places)
    (failed : (SectionReading.ofCursor last (.inBytes input offset)).result =
      .error failure) (unexpected : failure.error = .unexpected byte location) :
    offset ≤ location ∧ Locates offset places location := by
  induction reached with
  | stopped none =>
      rcases ofCursor_of_none none with ⟨_, ran⟩ | ⟨_, split, ran⟩
      · rw [ran] at failed
        cases failed
      · rw [ran] at failed
        cases failed
        have headed : InHeader _ location :=
          sectionFrame_unexpected split unexpected
        refine ⟨?_, .inr ⟨nofun, headed⟩⟩
        rcases headed with here | size
        · exact here.ge
        · exact size ▸ Nat.le_add_right _ _
  | @unread last offset place opens unread =>
      obtain ⟨_, read, ran⟩ := ofCursor_of_unread opens unread
      rw [ran] at failed
      cases failed
      have shows : ErrorLaw.truthful.Holds (place.contents input) _ :=
        ErrorLaw.holds_of_read read
      rw [unexpected] at shows
      obtain ⟨above, below⟩ := ByteCursor.Shows.location_lt shows
      have short :
          ((place.contents input).rest).length ≤ place.header.size.toNat :=
        List.length_take_le _ _
      have covers : place.Covers location :=
        ⟨above, below.trans_le (Nat.add_le_add_left short _)⟩
      exact ⟨opens.le_of_covers covers, .inl ⟨place, rfl, covers⟩⟩
  | @read last offset place entry places opens reads _ induction =>
      rw [ofCursor_of_reads opens reads] at failed
      cases behind : (SectionReading.ofCursor (place.header.kind.lastAfter last)
          (.inBytes input place.stop)).result with
      | ok later =>
          rw [behind] at failed
          cases failed
      | error reason =>
          rw [behind] at failed
          cases failed
          obtain ⟨onwards, located⟩ := induction behind
          exact ⟨opens.start_lt_stop.le.trans onwards, located.cons onwards⟩

end ReachedFrom

/-- The sections of an input that are reached: none if it does not start as a
module. -/
inductive Reached (input : List UInt8) : List SectionPlace → Prop where
  | foreign : ¬ Module.preamble <+: input → Reached input []
  | sections {places : List SectionPlace} :
      Module.preamble <+: input → ReachedFrom input none 8 places →
        Reached input places

theorem Reached.unique (first : Reached input places)
    (second : Reached input others) :
    places = others := by
  cases first with
  | foreign different =>
      cases second with
      | foreign => rfl
      | sections starts => exact absurd starts different
  | sections starts reached =>
      cases second with
      | foreign different => exact absurd starts different
      | sections _ same => exact reached.unique same

theorem exists_reached (input : List UInt8) :
    ∃ places, Reached input places := by
  by_cases starts : Module.preamble <+: input
  · obtain ⟨places, reached⟩ := exists_reachedFrom input none 8
    exact ⟨places, .sections starts reached⟩
  · exact ⟨[], .foreign starts⟩

end SectionPlace

namespace Module

variable {input : List UInt8}

theorem readSections_of_starts (starts : preamble <+: input) :
    readSections input = SectionReading.ofCursor none (.inBytes input 8) := by
  obtain ⟨rest, rfl⟩ := starts
  exact readSections_preamble rest

theorem readSections_of_foreign (different : ¬ preamble <+: input) :
    ∃ failure, readSections input = ⟨[], .error failure⟩ := by
  unfold readSections
  cases headed : Module.header (.ofBytes input) with
  | error failure => exact ⟨failure, rfl⟩
  | ok result =>
      obtain ⟨_, rfl, whole, _⟩ := recognises_header.mp headed
      exact absurd ⟨_, whole.symm⟩ different

end Module

end Wasm

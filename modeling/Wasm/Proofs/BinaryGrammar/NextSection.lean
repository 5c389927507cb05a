import Wasm.Proofs.BinaryGrammar.CustomSections
import Wasm.Proofs.Decoding.Honesty

/-!
# The section behind a module

An input that starts with a module goes on with another section.  The loop over
the sections is taken up behind the module: its state is the module itself, the
kind of the last section that is not custom, and the place.  One step of the
loop from there says which of several errors is reported, and that a section
which is accepted changes one field of the module.
-/

namespace Wasm

open Decoder

/-! ## The kind of the last section -/

namespace SectionKind

theorem toByte_eq_zero_iff {kind : SectionKind} :
    kind.toByte = 0 ↔ kind = .custom := by
  cases kind <;> decide

theorem toByte_le (kind : SectionKind) : kind.toByte ≤ 11 := by
  cases kind <;> decide

theorem ofByte?_eq_none_of_lt {id : UInt8} (large : 11 < id) :
    ofByte? id = none := by
  cases found : ofByte? id with
  | none => rfl
  | some kind =>
      rw [ofByte?_eq_some_iff] at found
      subst found
      exact absurd (UInt8.lt_of_lt_of_le large kind.toByte_le)
        (UInt8.lt_irrefl 11)

theorem exists_toByte_eq {id : UInt8} (small : id ≤ 11) :
    ∃ kind : SectionKind, kind.toByte = id := by
  have all : ∀ number < 12, (ofByte? (UInt8.ofNat number)).isSome = true := by
    decide
  have known :=
    all id.toNat (Nat.lt_succ_of_le (UInt8.le_iff_toNat_le.mp small))
  rw [UInt8.ofNat_toNat] at known
  obtain ⟨kind, found⟩ := Option.isSome_iff_exists.mp known
  exact ⟨kind, (ofByte?_eq_some_iff.mp found).symm⟩

/-- The number is not the one of custom sections, and a section with this or a
greater number has come before. -/
def TooLate (last : Option SectionKind) (id : UInt8) : Prop :=
  id ≠ 0 ∧ ∃ greatest ∈ last, id ≤ greatest.toByte

theorem mayFollow_iff {kind : SectionKind} {last : Option SectionKind} :
    kind.mayFollow last = true ↔ ¬ TooLate last kind.toByte := by
  rw [TooLate, ne_eq, toByte_eq_zero_iff]
  by_cases custom : kind = .custom
  · simp [mayFollow, custom]
  · cases last with
    | none => simp [mayFollow]
    | some earlier => simp [mayFollow, custom]

end SectionKind

namespace Section

variable {sections : List Section} {entry earlier : Section}

theorem toByte_lt_of_ordered_concat (ordered : Ordered (sections ++ [entry]))
    (proper : entry.kind ≠ .custom) (member : earlier ∈ sections)
    (earlierProper : earlier.kind ≠ .custom) :
    earlier.kind.toByte < entry.kind.toByte := by
  unfold Ordered at ordered
  rw [List.filter_append, List.pairwise_append] at ordered
  exact ordered.2.2 earlier (by simp [member, earlierProper]) entry
    (by simp [proper])

theorem kind_of_lastOf_eq_none
    (absent : SectionReading.lastOf none sections = none) :
    ∀ entry ∈ sections, entry.kind = .custom := by
  induction sections using List.reverseRecOn with
  | nil => simp
  | append_singleton sections entry induction =>
      rw [SectionReading.lastOf, List.foldl_append] at absent
      by_cases custom : entry.kind = .custom
      · rw [List.foldl_cons, SectionKind.lastAfter, if_pos custom] at absent
        intro other member
        rcases List.mem_append.mp member with earlier | last
        · exact induction absent other earlier
        · rw [List.mem_singleton.mp last]
          exact custom
      · rw [List.foldl_cons, SectionKind.lastAfter, if_neg custom] at absent
        cases absent

-- The state of the order check is made from the front, so the sections are
-- taken away from the back: a custom section leaves the state, and any other
-- one is greater than all before it.
theorem kind_of_lastOf_eq_some (ordered : Ordered sections) {kind : SectionKind}
    (last : SectionReading.lastOf none sections = some kind) :
    kind ≠ .custom ∧ (∃ entry ∈ sections, entry.kind = kind) ∧
      ∀ entry ∈ sections, entry.kind.toByte ≤ kind.toByte := by
  induction sections using List.reverseRecOn with
  | nil => cases last
  | append_singleton sections entry induction =>
      rw [SectionReading.lastOf, List.foldl_append] at last
      by_cases custom : entry.kind = .custom
      · rw [List.foldl_cons, SectionKind.lastAfter, if_pos custom] at last
        obtain ⟨proper, ⟨found, member, same⟩, greatest⟩ :=
          induction (ordered_concat ordered).1 last
        refine ⟨proper, ⟨found, List.mem_append_left _ member, same⟩, ?_⟩
        intro other member
        rcases List.mem_append.mp member with earlier | final
        · exact greatest other earlier
        · rw [List.mem_singleton.mp final, custom]
          exact UInt8.zero_le
      · rw [List.foldl_cons, SectionKind.lastAfter, if_neg custom] at last
        obtain rfl := Option.some.inj last
        refine ⟨custom, ⟨entry, by simp, rfl⟩, ?_⟩
        intro other member
        rcases List.mem_append.mp member with earlier | final
        · by_cases otherCustom : other.kind = .custom
          · rw [otherCustom]
            exact UInt8.zero_le
          · exact UInt8.le_of_lt
              (toByte_lt_of_ordered_concat ordered custom earlier otherCustom)
        · rw [List.mem_singleton.mp final]
          exact UInt8.le_refl _

end Section

namespace Module

/-- The greatest first byte of the chunks is the number of the kind.  There is
no kind if all chunks are custom sections. -/
def LastKind (chunks : List (List UInt8)) : Option SectionKind → Prop
  | none => ∀ chunk ∈ chunks, chunk.head? = some 0
  | some kind =>
      kind ≠ .custom ∧
        IsGreatest {id | ∃ chunk ∈ chunks, chunk.head? = some id} kind.toByte

theorem head?_of_written {sections : List Section} {chunks : List (List UInt8)}
    (written : List.Forall₂ Section.Written sections chunks)
    (id : Option UInt8) :
    (∃ chunk ∈ chunks, chunk.head? = id) ↔
      ∃ entry ∈ sections, some entry.kind.toByte = id := by
  induction written with
  | nil => simp
  | cons entryWritten _ induction =>
      obtain ⟨rest, _, rfl⟩ := entryWritten
      simp only [List.exists_mem_cons_iff, List.head?_cons, induction]

theorem lastKind_lastOf {sections : List Section} {chunks : List (List UInt8)}
    (ordered : Section.Ordered sections)
    (written : List.Forall₂ Section.Written sections chunks) :
    LastKind chunks (SectionReading.lastOf none sections) := by
  cases last : SectionReading.lastOf none sections with
  | none =>
      intro chunk member
      obtain ⟨entry, entryMember, first⟩ :=
        (head?_of_written written chunk.head?).mp ⟨chunk, member, rfl⟩
      rw [← first, Section.kind_of_lastOf_eq_none last entry entryMember]
      rfl
  | some kind =>
      obtain ⟨proper, ⟨entry, member, same⟩, greatest⟩ :=
        Section.kind_of_lastOf_eq_some ordered last
      refine ⟨proper,
        (head?_of_written written _).mpr ⟨entry, member, by rw [same]⟩, ?_⟩
      intro id known
      obtain ⟨other, otherMember, first⟩ :=
        (head?_of_written written (some id)).mp known
      obtain rfl := Option.some.inj first
      exact greatest other otherMember

/-! ## Taking up the loop -/

/-- Reads the sections that follow a module from a place on.  The last section
before it that is not custom has the kind `last`. -/
def resume (module : Module) (last : Option SectionKind) (cursor : ByteCursor) :
    Except DecodeError Module :=
  match (SectionReading.ofCursor last cursor).result with
  | .error failure => .error failure.error
  | .ok sections => .ok (sections.foldl insert module)

section Steps

variable {module : Module} {last : Option SectionKind}
  {cursor after : ByteCursor} {frame : SectionFrame} {entry : Section}
  {failure : Failure}

theorem resume_of_empty (position : Nat) :
    module.resume last ⟨position, []⟩ = .ok module := by
  rw [resume, SectionReading.result_of_empty rfl]
  rfl

theorem resume_of_split_error {position : Nat} {id : UInt8} {rest : List UInt8}
    (failed : SectionFrame.decoder last ⟨position, id :: rest⟩ =
      .error failure) :
    module.resume last ⟨position, id :: rest⟩ = .error failure.error := by
  have nonempty : ¬ (⟨position, id :: rest⟩ : ByteCursor).isEmpty = true :=
    Bool.false_ne_true
  rw [resume, SectionReading.result_of_split_error nonempty failed]

theorem resume_of_read_error
    (split : SectionFrame.decoder last cursor = .ok (frame, after))
    (failed : frame.read = .error failure) :
    module.resume last cursor = .error failure.error := by
  rw [resume, SectionReading.result_of_split split, failed]

theorem resume_of_read
    (split : SectionFrame.decoder last cursor = .ok (frame, after))
    (read : frame.read = .ok entry) :
    module.resume last cursor =
      (module.insert entry).resume (frame.header.kind.lastAfter last)
        after := by
  rw [resume, resume, SectionReading.result_of_split split, read]
  simp only
  cases (SectionReading.ofCursor (frame.header.kind.lastAfter last)
    after).result with
  | error failure => rfl
  | ok sections => rfl

end Steps

theorem decode_append_of_written {sections : List Section}
    {chunks : List (List UInt8)} (ordered : Section.Ordered sections)
    (written : List.Forall₂ Section.Written sections chunks)
    (tail : List UInt8) :
    decode (preamble ++ chunks.flatten ++ tail) =
      (ofSections sections).resume (SectionReading.lastOf none sections)
        ⟨(preamble ++ chunks.flatten).length, tail⟩ := by
  have length :
      (preamble ++ chunks.flatten).length = 8 + chunks.flatten.length :=
    List.length_append
  unfold decode resume
  rw [readSections_of_written ordered written tail, length]
  cases (SectionReading.ofCursor (SectionReading.lastOf none sections)
    ⟨8 + chunks.flatten.length, tail⟩).result with
  | error failure => rfl
  | ok later =>
      change Except.ok (ofSections (sections ++ later)) = _
      rw [ofSections, List.foldl_append]
      rfl

/-- An input that is decoded is divided in one way, into the sections of the
module. -/
theorem ordered_of_divides {front : List UInt8} {module : Module}
    {sections : List Section} {chunks : List (List UInt8)}
    (decoded : decode front = .ok module)
    (written : List.Forall₂ Section.Written sections chunks)
    (whole : front = preamble ++ chunks.flatten) :
    Section.Ordered sections ∧ module = ofSections sections := by
  obtain ⟨known, read, rfl⟩ := decode_eq_ok_iff.mp decoded
  obtain ⟨ordered, pieces, knownWritten, divided⟩ :=
    readSections_eq_ok_iff.mp read
  have same : chunks.flatten = pieces.flatten :=
    List.append_cancel_left (whole.symm.trans divided)
  have forth :=
    Section.written_prefix written knownWritten ((List.append_nil _).trans same)
  have back :=
    Section.written_prefix knownWritten written
      ((List.append_nil _).trans same.symm)
  obtain rfl : sections = known :=
    forth.1.eq_of_length (Nat.le_antisymm forth.1.length_le back.1.length_le)
  exact ⟨ordered, rfl⟩

end Module

/-! ## One step of the loop -/

theorem ByteCursor.ofBytes_moved (bytes : List UInt8) (amount : Nat) :
    (ByteCursor.ofBytes bytes).moved amount = ⟨amount, bytes⟩ := by
  rw [ByteCursor.moved, ByteCursor.ofBytes, Nat.zero_add]

section Headers

variable {id : UInt8} {rest : List UInt8} {kind : SectionKind}

theorem SectionKind.decoder_of_toByte (known : kind.toByte = id)
    (position : Nat) :
    SectionKind.decoder ⟨position, id :: rest⟩ =
      .ok (kind, ⟨position + 1, rest⟩) := by
  simp only [SectionKind.decoder, byteMap,
    SectionKind.ofByte?_eq_some_iff.mpr known.symm]

namespace SectionHeader

theorem decoder_of_unknown (large : 11 < id) (position : Nat) :
    SectionHeader.decoder ⟨position, id :: rest⟩ =
      .error (.recoverable (.unexpected id position)) := by
  apply bind_of_error
  simp only [SectionKind.decoder, byteMap,
    SectionKind.ofByte?_eq_none_of_lt large]

theorem decoder_of_unsized {failure : Failure} (known : kind.toByte = id)
    (failed : Leb128.uint32 (.ofBytes rest) = .error failure) (position : Nat) :
    SectionHeader.decoder ⟨position, id :: rest⟩ =
      .error (failure.moved (position + 1)) := by
  have there := (SequenceLaw.placeFree.uint32 (position + 1)).of_error failed
  rw [ByteCursor.ofBytes_moved] at there
  unfold SectionHeader.decoder
  rw [bind_of_ok (SectionKind.decoder_of_toByte known position)]
  exact bind_of_error there

theorem decoder_of_sized {size : UInt32} {behind : ByteCursor}
    (known : kind.toByte = id)
    (sized : Leb128.uint32 (.ofBytes rest) = .ok (size, behind))
    (position : Nat) :
    SectionHeader.decoder ⟨position, id :: rest⟩ =
      .ok (⟨kind, size⟩, behind.moved (position + 1)) := by
  obtain ⟨_, rfl, there⟩ :=
    (SequenceLaw.placeFree.uint32 (position + 1)).of_ok sized
  rw [ByteCursor.ofBytes_moved] at there
  unfold SectionHeader.decoder
  rw [bind_of_ok (SectionKind.decoder_of_toByte known position),
    bind_of_ok there]
  rfl

end SectionHeader

end Headers

namespace SectionFrame

variable {last : Option SectionKind} {cursor between : ByteCursor}
  {header : SectionHeader}

theorem decoder_of_header_error {failure : Failure}
    (failed : SectionHeader.decoder cursor = .error failure) :
    SectionFrame.decoder last cursor = .error failure := by
  unfold SectionFrame.decoder
  rw [bind_of_ok rfl]
  exact bind_of_error failed

theorem decoder_of_too_late
    (headed : SectionHeader.decoder cursor = .ok (header, between))
    (late : SectionKind.TooLate last header.kind.toByte) :
    SectionFrame.decoder last cursor =
      .error (.recoverable (.atCursor cursor)) := by
  have refused : ¬ header.kind.mayFollow last = true := by
    rw [SectionKind.mayFollow_iff]
    exact not_not_intro late
  unfold SectionFrame.decoder
  rw [bind_of_ok rfl, bind_of_ok headed, if_neg refused]
  rfl

theorem decoder_of_short
    (headed : SectionHeader.decoder cursor = .ok (header, between))
    (inOrder : ¬ SectionKind.TooLate last header.kind.toByte)
    (short : between.rest.length < header.size.toNat) :
    SectionFrame.decoder last cursor =
      .error (.recoverable .unexpectedEnd) := by
  have failed :
      window header.size between = .error (.recoverable .unexpectedEnd) := by
    rw [window, ByteCursor.splitAt?, if_neg (Nat.not_le_of_lt short)]
  unfold SectionFrame.decoder
  rw [bind_of_ok rfl, bind_of_ok headed,
    if_pos (SectionKind.mayFollow_iff.mpr inOrder)]
  exact bind_of_error failed

theorem decoder_of_enough
    (headed : SectionHeader.decoder cursor = .ok (header, between))
    (inOrder : ¬ SectionKind.TooLate last header.kind.toByte)
    (enough : header.size.toNat ≤ between.rest.length) :
    SectionFrame.decoder last cursor =
      .ok (⟨header, ⟨between.position, between.rest.take header.size.toNat⟩⟩,
        ⟨between.position + header.size.toNat,
          between.rest.drop header.size.toNat⟩) := by
  refine decoder_eq_ok_iff.mpr ⟨SectionKind.mayFollow_iff.mpr inOrder, between,
    headed, ?_⟩
  rw [window, ByteCursor.splitAt?, if_pos enough]

end SectionFrame

/-- A byte that stands in front of a cursor is one of those that are left. -/
theorem ByteCursor.Shows.location_lt {cursor : ByteCursor} {location : Nat}
    {byte : UInt8} (shows : cursor.Shows location [byte]) :
    cursor.position ≤ location ∧
      location < cursor.position + cursor.rest.length := by
  obtain ⟨before, after, whole, rfl⟩ := shows
  rw [whole]
  simp only [List.length_append, List.length_singleton]
  exact ⟨Nat.le_add_right _ _, by omega⟩

/-- The decoder of the kind reads the contents to their end. -/
def SectionKind.Reads (kind : SectionKind) (contents : ByteCursor)
    (entry : Section) : Prop :=
  ∃ after, Section.decoder kind contents = .ok (entry, after) ∧ after.rest = []

theorem SectionFrame.read_eq_ok_iff_reads {header : SectionHeader}
    {contents : ByteCursor} {entry : Section} :
    SectionFrame.read ⟨header, contents⟩ = .ok entry ↔
      header.kind.Reads contents entry := by
  unfold SectionFrame.read SectionKind.Reads
  constructor
  · intro read
    cases run : (Section.decoder header.kind).exhaust contents with
    | error failure =>
        rw [run] at read
        cases read
    | ok result =>
        obtain ⟨found, after⟩ := result
        rw [run] at read
        cases read
        exact ⟨after, exhaust_eq_ok_iff.mp run⟩
  · rintro ⟨after, ran, empty⟩
    rw [exhaust_eq_ok_iff.mpr ⟨ran, empty⟩]
    rfl

namespace Module

/-- The module has one section more.  A custom section is added behind the
others, any other section is what the field of its kind holds, and the rest is
as before. -/
structure ExtendedBy (module : Module) (entry : Section) (next : Module) :
    Prop where
  version : next.version = module.version
  customs : next.customs = module.customs ++ entry.custom?.toList
  field : entry.kind ≠ .custom → next.sectionOf? entry.kind = some entry
  others : ∀ kind ≠ entry.kind, next.sectionOf? kind = module.sectionOf? kind

theorem extendedBy_insert (module : Module) (entry : Section) :
    module.ExtendedBy entry (module.insert entry) where
  version := version_insert module entry
  customs := customs_insert module entry
  field := by
    intro proper
    rw [sectionOf?_insert module entry proper, if_pos rfl]
  others := by
    intro kind different
    by_cases custom : kind = .custom
    · subst custom
      rfl
    · rw [sectionOf?_insert module entry custom, if_neg different.symm]

/-- The bytes start with the header of a section that may come next. -/
structure Opens (last : Option SectionKind) (id : UInt8) (rest : List UInt8)
    (header : SectionHeader) (behind : ByteCursor) : Prop where
  known : header.kind.toByte = id
  sized : Leb128.uint32 (.ofBytes rest) = .ok (header.size, behind)
  inOrder : ¬ SectionKind.TooLate last id

/-- The contents of a section.  Its size was read from the bytes behind
`position` and the first byte of the section. -/
def contentsFrom (position : Nat) (header : SectionHeader)
    (behind : ByteCursor) : ByteCursor :=
  ⟨behind.position + (position + 1), behind.rest.take header.size.toNat⟩

/-- What becomes of a module when a section that starts with the byte `id`
follows it.  The cases are checked in this order. -/
structure NextSection (front : List UInt8) (module : Module)
    (last : Option SectionKind) (id : UInt8) (rest : List UInt8) : Prop where
  unknown :
    11 < id → decode (front ++ id :: rest) =
      .error (.unexpected id front.length)
  unsized :
    id ≤ 11 → ∀ failure, Leb128.uint32 (.ofBytes rest) = .error failure →
    decode (front ++ id :: rest) =
      .error (failure.error.moved (front.length + 1))
  late :
    id ≤ 11 → ∀ size behind, Leb128.uint32 (.ofBytes rest) =
      .ok (size, behind) →
    SectionKind.TooLate last id →
      decode (front ++ id :: rest) = .error (.unexpected id front.length)
  short : ∀ header behind, Opens last id rest header behind →
    behind.rest.length < header.size.toNat →
      decode (front ++ id :: rest) = .error .unexpectedEnd
  refused : ∀ header behind, Opens last id rest header behind →
    header.size.toNat ≤ behind.rest.length →
    (∀ entry,
      ¬ header.kind.Reads (contentsFrom front.length header behind) entry) →
      ∃ error, decode (front ++ id :: rest) = .error error ∧
        ∀ byte location, error = .unexpected byte location →
          (contentsFrom front.length header behind).position ≤ location ∧
          location < (contentsFrom front.length header behind).position +
            header.size.toNat
  accepted : ∀ header behind, Opens last id rest header behind →
    header.size.toNat ≤ behind.rest.length →
    ∀ entry, header.kind.Reads (contentsFrom front.length header behind) entry →
      entry.kind = header.kind ∧
      ∃ next, module.ExtendedBy entry next ∧
        decode
          (front ++ id :: rest.take (behind.position + header.size.toNat)) =
            .ok next ∧
        decode (front ++ id :: rest) =
          next.resume (header.kind.lastAfter last)
            ⟨front.length + 1 + behind.position + header.size.toNat,
              behind.rest.drop header.size.toNat⟩

namespace Opens

variable {last : Option SectionKind} {id : UInt8} {rest : List UInt8}
  {header : SectionHeader} {behind : ByteCursor}

theorem headed (opens : Opens last id rest header behind) (position : Nat) :
    SectionHeader.decoder ⟨position, id :: rest⟩ =
      .ok (header, behind.moved (position + 1)) :=
  SectionHeader.decoder_of_sized opens.known opens.sized position

theorem not_tooLate (opens : Opens last id rest header behind) :
    ¬ SectionKind.TooLate last header.kind.toByte := by
  rw [opens.known]
  exact opens.inOrder

theorem framed (opens : Opens last id rest header behind)
    (enough : header.size.toNat ≤ behind.rest.length) (position : Nat) :
    SectionFrame.decoder last ⟨position, id :: rest⟩ =
      .ok (⟨header, contentsFrom position header behind⟩,
        ⟨behind.position + (position + 1) + header.size.toNat,
          behind.rest.drop header.size.toNat⟩) :=
  SectionFrame.decoder_of_enough (opens.headed position)
    opens.not_tooLate enough

theorem resume_of_short (opens : Opens last id rest header behind)
    (module : Module) (position : Nat)
    (short : behind.rest.length < header.size.toNat) :
    module.resume last ⟨position, id :: rest⟩ = .error .unexpectedEnd :=
  resume_of_split_error
    (SectionFrame.decoder_of_short (opens.headed position)
      opens.not_tooLate short)

theorem resume_of_reads (opens : Opens last id rest header behind)
    (enough : header.size.toNat ≤ behind.rest.length) (module : Module)
    {position : Nat} {entry : Section}
    (reads : header.kind.Reads (contentsFrom position header behind) entry) :
    module.resume last ⟨position, id :: rest⟩ =
      (module.insert entry).resume (header.kind.lastAfter last)
        ⟨behind.position + (position + 1) + header.size.toNat,
          behind.rest.drop header.size.toNat⟩ := by
  apply resume_of_read (opens.framed enough position)
  exact SectionFrame.read_eq_ok_iff_reads.mpr reads

theorem kind_of_reads (opens : Opens last id rest header behind)
    (enough : header.size.toNat ≤ behind.rest.length) {position : Nat}
    {entry : Section}
    (reads : header.kind.Reads (contentsFrom position header behind) entry) :
    entry.kind = header.kind := by
  have split := opens.framed enough position
  have read := SectionFrame.read_eq_ok_iff_reads.mpr reads
  exact (SectionFrame.written_of_read split read).1.symm

theorem resume_of_refused (opens : Opens last id rest header behind)
    (enough : header.size.toNat ≤ behind.rest.length) (module : Module)
    {position : Nat}
    (refused : ∀ entry,
      ¬ header.kind.Reads (contentsFrom position header behind) entry) :
    ∃ error, module.resume last ⟨position, id :: rest⟩ = .error error ∧
      ErrorLaw.truthful.Holds (contentsFrom position header behind) error := by
  cases read :
    SectionFrame.read ⟨header, contentsFrom position header behind⟩ with
  | ok entry =>
      exact absurd (SectionFrame.read_eq_ok_iff_reads.mp read) (refused entry)
  | error failure =>
      refine ⟨failure.error,
        resume_of_read_error (opens.framed enough position) read, ?_⟩
      exact ErrorLaw.holds_of_read read

/-- The same section with nothing behind it. -/
theorem alone (opens : Opens last id rest header behind) :
    Opens last id (rest.take (behind.position + header.size.toNat)) header
      ⟨behind.position, behind.rest.take header.size.toNat⟩ := by
  obtain ⟨number, written, whole, stop⟩ := recognises_natural.mp opens.sized
  have length : behind.position = number.length := stop.trans (Nat.zero_add _)
  have start : rest.take (behind.position + header.size.toNat) =
      number ++ behind.rest.take header.size.toNat := by
    change rest = number ++ behind.rest at whole
    rw [whole, length, List.take_length_add_append]
  refine ⟨opens.known, ?_, opens.inOrder⟩
  rw [start]
  exact recognises_natural.mpr ⟨number, written, rfl, stop⟩

end Opens

theorem location_lt_of_shows {position location : Nat} {header : SectionHeader}
    {behind : ByteCursor} {byte : UInt8}
    (shows : (contentsFrom position header behind).Shows location [byte]) :
    (contentsFrom position header behind).position ≤ location ∧
      location < (contentsFrom position header behind).position +
        header.size.toNat := by
  have length :
      (contentsFrom position header behind).rest.length ≤ header.size.toNat :=
    List.length_take_le _ _
  obtain ⟨above, below⟩ := shows.location_lt
  exact ⟨above, by omega⟩

/-- One step of the loop behind a module. -/
theorem nextSection_of_resume {front : List UInt8} {module : Module}
    {last : Option SectionKind}
    (continues : ∀ tail, decode (front ++ tail) =
      module.resume last ⟨front.length, tail⟩) (id : UInt8)
    (rest : List UInt8) : NextSection front module last id rest where
  unknown := by
    intro large
    rw [continues]
    exact resume_of_split_error (SectionFrame.decoder_of_header_error
      (SectionHeader.decoder_of_unknown large front.length))
  unsized := by
    intro small failure failed
    obtain ⟨kind, known⟩ := SectionKind.exists_toByte_eq small
    rw [continues, ← Failure.error_moved]
    exact resume_of_split_error (SectionFrame.decoder_of_header_error
      (SectionHeader.decoder_of_unsized known failed front.length))
  late := by
    intro small size behind sized late
    obtain ⟨kind, rfl⟩ := SectionKind.exists_toByte_eq small
    rw [continues]
    exact resume_of_split_error (SectionFrame.decoder_of_too_late
      (SectionHeader.decoder_of_sized rfl sized front.length) late)
  short := by
    intro header behind opens short
    rw [continues]
    exact opens.resume_of_short module front.length short
  refused := by
    intro header behind opens enough refused
    obtain ⟨error, failed, holds⟩ :=
      opens.resume_of_refused enough module refused
    refine ⟨error, (continues _).trans failed, ?_⟩
    rintro byte location rfl
    exact location_lt_of_shows holds
  accepted := by
    -- The step is taken twice, for the section alone and with what follows it.
    intro header behind opens enough entry reads
    refine ⟨opens.kind_of_reads enough reads, module.insert entry,
      extendedBy_insert module entry, ?_, ?_⟩
    · have fits :
          header.size.toNat ≤ (behind.rest.take header.size.toNat).length := by
        rw [List.length_take, Nat.min_eq_left enough]
      have only : header.kind.Reads (contentsFrom front.length header
          ⟨behind.position, behind.rest.take header.size.toNat⟩) entry := by
        unfold contentsFrom at reads ⊢
        rw [List.take_take, Nat.min_self]
        exact reads
      rw [continues, opens.alone.resume_of_reads fits module only,
        List.drop_eq_nil_of_le (List.length_take_le _ _)]
      exact resume_of_empty _
    · have place :
          front.length + 1 + behind.position =
            behind.position + (front.length + 1) :=
        Nat.add_comm _ _
      rw [continues, place]
      exact opens.resume_of_reads enough module reads

/-- A module that was decoded is divided into sections, the last of which that
is not custom has the greatest number.  Whatever byte comes next, the first
thing that is wrong with the section that it starts decides the error, and a
section with nothing wrong changes one field of the module. -/
theorem first_bad_section_decides {front : List UInt8} {module : Module}
    (decoded : decode front = .ok module) :
    (∃ chunks, Divides front chunks) ∧
    ∀ chunks, Divides front chunks →
      ∃ last, LastKind chunks last ∧
        ∀ id rest, NextSection front module last id rest := by
  refine ⟨exists_divides decoded, ?_⟩
  rintro chunks ⟨sections, written, whole⟩
  obtain ⟨ordered, rfl⟩ := ordered_of_divides decoded written whole
  subst whole
  refine ⟨SectionReading.lastOf none sections,
    lastKind_lastOf ordered written, ?_⟩
  exact nextSection_of_resume (decode_append_of_written ordered written)

/-- Behind a start section: a byte that is no kind, a section that comes too
late and is cut off as well, and a code section that is accepted. -/
theorem first_bad_section_decides_behind_start :
    decode (preamble ++ [0x08, 0x01, 0x07]) =
      .ok { empty with start := some 7 } ∧
    decode (preamble ++ [0x08, 0x01, 0x07] ++ [0x0C]) =
      .error (.unexpected 0x0C 11) ∧
    decode (preamble ++ [0x08, 0x01, 0x07] ++ [0x03, 0x05]) =
      .error (.unexpected 0x03 11) ∧
    ∃ next, ExtendedBy { empty with start := some 7 } (.code []) next ∧
      decode (preamble ++ [0x08, 0x01, 0x07] ++ [0x0A, 0x01, 0x00]) =
        .ok next := by
  have decoded :
      decode (preamble ++ [0x08, 0x01, 0x07]) =
        .ok { empty with start := some 7 } := by
    decide +kernel
  have split : SectionFrame.decoder none ⟨8, [0x08, 0x01, 0x07]⟩ =
      .ok (⟨⟨.start, 1⟩, ⟨10, [0x07]⟩⟩, ⟨11, []⟩) := by
    decide +kernel
  have read :
      SectionFrame.read ⟨⟨.start, 1⟩, ⟨10, [0x07]⟩⟩ = .ok (.start 7) := by
    decide +kernel
  have divides :
      Divides (preamble ++ [0x08, 0x01, 0x07]) [[0x08, 0x01, 0x07]] := by
    obtain ⟨_, _, consumed, written, whole⟩ :=
      SectionFrame.written_of_read split read
    obtain rfl : [0x08, 0x01, 0x07] = consumed :=
      whole.trans (List.append_nil _)
    exact ⟨[.start 7], .cons written .nil, rfl⟩
  obtain ⟨last, known, next⟩ := (first_bad_section_decides decoded).2 _ divides
  obtain rfl : last = some .start := by
    cases last with
    | none => exact absurd (known _ List.mem_cons_self) (by decide)
    | some kind =>
        obtain ⟨_, ⟨chunk, member, first⟩, _⟩ := known
        obtain rfl := List.mem_singleton.mp member
        cases kind with
        | start => rfl
        | _ => cases first
  refine ⟨decoded, (next 0x0C []).unknown (by decide), ?_, ?_⟩
  · have late : SectionKind.TooLate (some .start) 0x03 :=
      ⟨by decide, .start, rfl, by decide⟩
    exact (next 0x03 [0x05]).late (by decide) 5 ⟨1, []⟩ (by decide +kernel) late
  · have opens :
        Opens (some .start) 0x0A [0x01, 0x00] ⟨.code, 1⟩ ⟨1, [0x00]⟩ := by
      refine ⟨rfl, by decide +kernel, ?_⟩
      rintro ⟨_, greatest, same, above⟩
      cases same
      exact absurd above (by decide)
    have reads :
        SectionKind.code.Reads (contentsFrom 11 ⟨.code, 1⟩ ⟨1, [0x00]⟩)
          (.code []) :=
      ⟨⟨14, []⟩, by decide +kernel, rfl⟩
    obtain ⟨_, module, extended, alone, _⟩ :=
      (next 0x0A [0x01, 0x00]).accepted _ _ opens (by decide) _ reads
    exact ⟨module, extended, alone⟩

end Module

end Wasm

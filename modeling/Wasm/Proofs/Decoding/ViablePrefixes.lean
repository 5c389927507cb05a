import Wasm.Proofs.BinaryGrammar.Recognition
import Wasm.Proofs.Decoding.SelfDelimiting
import Wasm.Proofs.Leb128.ExactValues

/-!
# Inputs that can still be completed

An input is viable if it can be continued to one that is read.  A decoder
foresees failure if it never reads on behind a byte that makes the input
hopeless: the byte that it calls unexpected is the first one behind which
nothing can follow, and an input that ends too early can be continued.  Only an
integer whose permitted groups are all there and all announce another one is
noticed too late, when the next byte is missing.
-/

namespace Wasm.Decoder

variable {α β : Type}

/-- The decoder reads the value from the bytes, wherever they stand and whatever
follows. -/
def Reads (decoder : Decoder α) : Production α :=
  fun value bytes => ∀ position tail,
    decoder ⟨position, bytes ++ tail⟩ =
      .ok (value, ⟨position + bytes.length, tail⟩)

theorem Recognises.reads_iff {decoder : Decoder α} {production : Production α}
    (recognises : decoder.Recognises production) {value : α}
    {bytes : List UInt8} :
    decoder.Reads value bytes ↔ production value bytes := by
  constructor
  · intro reads
    obtain ⟨consumed, written, rest, _⟩ := recognises.mp (reads 0 [])
    rwa [List.append_cancel_right rest]
  · intro written position tail
    exact recognises.mpr ⟨bytes, written, rfl, rfl⟩

theorem Recognises.reads {decoder : Decoder α} {production : Production α}
    (recognises : decoder.Recognises production) :
    decoder.Recognises decoder.Reads :=
  recognises.congr fun _ _ => recognises.reads_iff.symm

/-- Two readings of the same input are the same. -/
theorem Reads.unique {decoder : Decoder α} {value other : α}
    {bytes more rest behind : List UInt8} (reads : decoder.Reads value bytes)
    (again : decoder.Reads other more) (same : bytes ++ rest = more ++ behind) :
    value = other ∧ bytes = more ∧ rest = behind := by
  have run := reads 0 rest
  rw [same, again 0 behind] at run
  obtain ⟨equal, place⟩ := Prod.mk.inj (Except.ok.inj run)
  have remaining : behind = rest := congrArg ByteCursor.rest place
  subst remaining
  exact ⟨equal.symm, List.append_cancel_right same, rfl⟩

theorem exists_reads_of_ok {decoder : Decoder α}
    (recognises : decoder.Recognises decoder.Reads) {position : Nat}
    {input : List UInt8} {value : α} {after : ByteCursor}
    (run : decoder ⟨position, input⟩ = .ok (value, after)) :
    ∃ bytes rest, decoder.Reads value bytes ∧ input = bytes ++ rest ∧
      after = ⟨position + bytes.length, rest⟩ := by
  obtain ⟨place, rest⟩ := after
  obtain ⟨bytes, reads, whole, behind⟩ := recognises.mp run
  cases behind
  exact ⟨bytes, rest, reads, whole, rfl⟩

/-- Some continuation of the input is read. -/
def Viable (decoder : Decoder α) (input : List UInt8) : Prop :=
  ∃ tail value bytes rest, decoder.Reads value bytes ∧
    input ++ tail = bytes ++ rest

/-- Decoding the input as a whole succeeds, whatever is left unread. -/
def Succeeds (decoder : Decoder α) (input : List UInt8) : Prop :=
  ∃ result, decoder.decode input = .ok result

theorem decode_eq_error_iff {decoder : Decoder α} {input : List UInt8}
    {error : DecodeError} :
    decoder.decode input = .error error ↔
      ∃ failure, decoder ⟨0, input⟩ = .error failure ∧
        failure.error = error := by
  unfold decode ByteCursor.ofBytes
  cases decoder ⟨0, input⟩ <;> simp [Except.mapError]

theorem viable_iff {decoder : Decoder α}
    (recognises : decoder.Recognises decoder.Reads) {input : List UInt8} :
    decoder.Viable input ↔ ∃ tail, decoder.Succeeds (input ++ tail) := by
  constructor
  · rintro ⟨tail, value, bytes, rest, reads, whole⟩
    refine ⟨tail, (value, ⟨0 + bytes.length, rest⟩), ?_⟩
    unfold decode ByteCursor.ofBytes
    rw [whole, reads]
    rfl
  · rintro ⟨tail, result, decoded⟩
    unfold decode at decoded
    cases run : decoder (.ofBytes (input ++ tail)) with
    | error failure =>
        rw [run] at decoded
        cases decoded
    | ok found =>
        obtain ⟨value, after⟩ := found
        obtain ⟨bytes, rest, reads, whole, _⟩ :=
          exists_reads_of_ok recognises run
        exact ⟨tail, value, bytes, rest, reads, whole⟩

/-- The input ends in as many groups as an integer may have that is due there,
and all of them announce another one. -/
def EndsOverlong (due : List UInt8 → Nat → Prop) (input : List UInt8) : Prop :=
  ∃ before groups, input = before ++ groups ∧ due before groups.length ∧
    ∀ byte ∈ groups, Leb128.continues byte = true

/-- The decoder fails as soon as the input is hopeless.  The integers that it
reads are due behind the given bytes, with the given numbers of groups. -/
structure Foresees (decoder : Decoder α) (due : List UInt8 → Nat → Prop) :
    Prop where
  recognises : decoder.Recognises decoder.Reads
  satisfiable : ∃ value bytes, decoder.Reads value bytes
  /-- An unexpected byte is the first one behind which nothing can follow. -/
  refuses : ∀ {position : Nat} {input : List UInt8} {failure : Failure}
    {byte : UInt8}
    {location : Nat}, decoder ⟨position, input⟩ = .error failure →
      failure.error = .unexpected byte location →
        ∃ front back, input = front ++ byte :: back ∧
          location = position + front.length ∧
          decoder.Viable front ∧ ¬ decoder.Viable (front ++ [byte])
  /-- An input that ends too early can be continued, unless its last integer is
  too long. -/
  runsOut : ∀ {position : Nat} {input : List UInt8} {failure : Failure},
    decoder ⟨position, input⟩ = .error failure →
      failure.error = .unexpectedEnd →
      decoder.Viable input ∨ EndsOverlong due input
  overlong : ∀ {input : List UInt8}, EndsOverlong due input →
    ¬ decoder.Viable input

theorem Foresees.congr {decoder : Decoder α}
    {due other : List UInt8 → Nat → Prop} (foresees : decoder.Foresees due)
    (same : ∀ before count, due before count ↔ other before count) :
    decoder.Foresees other := by
  have equal : due = other := funext fun before => funext fun count =>
      propext (same before count)
  rwa [← equal]

/-- No integer is due. -/
def NothingDue : List UInt8 → Nat → Prop :=
  fun _ _ => False

theorem not_endsOverlong_nothingDue (input : List UInt8) :
    ¬ EndsOverlong NothingDue input := by
  rintro ⟨before, groups, _, due, _⟩
  exact due

/-! ## Single steps -/

theorem foresees_pure (value : α) :
    (pure value : Decoder α).Foresees NothingDue where
  recognises := (recognises_pure value).reads
  satisfiable := ⟨value, [], fun _ _ => rfl⟩
  refuses := nofun
  runsOut := nofun
  overlong ends := absurd ends (not_endsOverlong_nothingDue _)

theorem foresees_byteMap {read : UInt8 → Option α}
    (satisfiable : ∃ byte value, read byte = some value) :
    (byteMap read).Foresees NothingDue := by
  have reads_iff : ∀ {value : α} {bytes : List UInt8},
      (byteMap read).Reads value bytes ↔
      ∃ byte, read byte = some value ∧ bytes = [byte] :=
    (recognises_byteMap read).reads_iff
  obtain ⟨known, meaning, found⟩ := satisfiable
  have viable : (byteMap read).Viable [] :=
    ⟨[known], meaning, [known], [], reads_iff.mpr ⟨known, found, rfl⟩, rfl⟩
  refine ⟨(recognises_byteMap read).reads,
    ⟨meaning, [known], reads_iff.mpr ⟨known, found, rfl⟩⟩,
    ?_, ?_, fun ends => absurd ends (not_endsOverlong_nothingDue _)⟩
  · intro position input failure byte location failed error
    cases input with
    | nil =>
        cases failed
        cases error
    | cons first rest =>
        simp only [byteMap] at failed
        split at failed
        · cases failed
        · rename_i unknown
          cases failed
          cases error
          refine ⟨[], rest, rfl, rfl, viable, ?_⟩
          rintro ⟨tail, value, _, behind, reads, whole⟩
          obtain ⟨read, known, rfl⟩ := reads_iff.mp reads
          cases whole
          rw [known] at unknown
          cases unknown
  · intro position input failure failed error
    cases input with
    | nil => exact .inl viable
    | cons first rest =>
        simp only [byteMap] at failed
        split at failed
        · cases failed
        · cases failed
          cases error

theorem foresees_byte (expected : UInt8) :
    (byte expected).Foresees NothingDue :=
  foresees_byteMap ⟨expected, expected, by simp⟩

theorem foresees_take (count : UInt32) : (take count).Foresees NothingDue := by
  have reads_iff : ∀ {data bytes : List UInt8}, (take count).Reads data bytes ↔
      bytes.length = count.toNat ∧ data = bytes :=
    (recognises_take count).reads_iff
  have padded :
      (take count).Reads (List.replicate count.toNat 0)
        (List.replicate count.toNat 0) :=
    reads_iff.mpr ⟨List.length_replicate, rfl⟩
  have fails : ∀ {position : Nat} {input : List UInt8} {failure : Failure},
      take count ⟨position, input⟩ = .error failure →
        failure = .recoverable .unexpectedEnd ∧ input.length < count.toNat := by
    intro position input failure failed
    rcases Nat.lt_or_ge input.length count.toNat with short | enough
    · rw [take, bind_of_error (window_of_short short)] at failed
      cases failed
      exact ⟨rfl, short⟩
    · have reads := reads_iff.mpr ⟨List.length_take_of_le enough, rfl⟩
      have run := reads position (input.drop count.toNat)
      rw [List.take_append_drop, failed] at run
      cases run
  refine ⟨(recognises_take count).reads, ⟨_, _, padded⟩, ?_, ?_,
    fun ends => absurd ends (not_endsOverlong_nothingDue _)⟩
  · intro position input failure byte location failed error
    obtain ⟨rfl, _⟩ := fails failed
    cases error
  · intro position input failure failed error
    obtain ⟨_, short⟩ := fails failed
    left
    refine ⟨List.replicate (count.toNat - input.length) 0, _, _, [],
      reads_iff.mpr ⟨?_, rfl⟩, (List.append_nil _).symm⟩
    rw [List.length_append, List.length_replicate]
    omega

/-! ## Sequences -/

/-- The integers that are due in a sequence are those of the first step, and
behind what it reads those of the second step. -/
def DueInSequence (first : Decoder α) (due : List UInt8 → Nat → Prop)
    (dueBehind : α → List UInt8 → Nat → Prop) : List UInt8 → Nat → Prop :=
  fun before count => due before count ∨
    ∃ value front back, first.Reads value front ∧ before = front ++ back ∧
      dueBehind value back count

theorem dueInSequence_iff {first : Decoder α} {production : Production α}
    {due : List UInt8 → Nat → Prop} {dueBehind : α → List UInt8 → Nat → Prop}
    (recognises : first.Recognises production) {before : List UInt8}
    {count : Nat} :
    DueInSequence first due dueBehind before count ↔
      due before count ∨
        ∃ value front back, production value front ∧ before = front ++ back ∧
          dueBehind value back count := by
  simp only [DueInSequence, recognises.reads_iff]

section Sequences

variable {first : Decoder α} {second : α → Decoder β}
  {due : List UInt8 → Nat → Prop} {dueBehind : α → List UInt8 → Nat → Prop}
  {value : α} {front input : List UInt8}

theorem endsOverlong_dueInSequence_iff :
    EndsOverlong (DueInSequence first due dueBehind) input ↔
      EndsOverlong due input ∨
        ∃ value front back, first.Reads value front ∧ input = front ++ back ∧
          EndsOverlong (dueBehind value) back := by
  constructor
  · rintro ⟨before, groups, rfl, here | ⟨value, front, back, reads, rfl, there⟩,
      continuing⟩
    · exact .inl ⟨before, groups, rfl, here, continuing⟩
    · exact .inr ⟨value, front, back ++ groups, reads, List.append_assoc ..,
        back, groups, rfl, there, continuing⟩
  · rintro (⟨before, groups, rfl, here, continuing⟩ |
      ⟨value, front, _, reads, rfl, back, groups, rfl, there, continuing⟩)
    · exact ⟨before, groups, rfl, .inl here, continuing⟩
    · exact ⟨front ++ back, groups, (List.append_assoc ..).symm,
        .inr ⟨value, front, back, reads, rfl, there⟩, continuing⟩

variable (before : first.Recognises first.Reads)
  (behind : ∀ value, (second value).Recognises (second value).Reads)

include before behind

theorem reads_bind_iff {result : β} {bytes : List UInt8} :
    (first >>= second).Reads result bytes ↔
      ∃ value front back, first.Reads value front ∧
        (second value).Reads result back ∧
        bytes = front ++ back :=
  (before.bind behind).reads_iff

theorem viable_of_viable_bind (viable : (first >>= second).Viable input) :
    first.Viable input := by
  obtain ⟨tail, result, _, rest, reads, whole⟩ := viable
  obtain ⟨value, front, back, readsFirst, _, rfl⟩ :=
    (reads_bind_iff before behind).mp reads
  exact ⟨tail, value, front, back ++ rest, readsFirst,
    by rw [whole, List.append_assoc]⟩

/-- Behind what the first step reads, the second step decides. -/
theorem viable_bind_append_iff (reads : first.Reads value front) :
    (first >>= second).Viable (front ++ input) ↔
      (second value).Viable input := by
  constructor
  · rintro ⟨tail, result, _, rest, readsBoth, whole⟩
    obtain ⟨same, again, back, readsFirst, readsSecond, rfl⟩ :=
      (reads_bind_iff before behind).mp readsBoth
    rw [List.append_assoc, List.append_assoc] at whole
    obtain ⟨rfl, _, remaining⟩ := reads.unique readsFirst whole
    exact ⟨tail, result, back, rest, readsSecond, remaining⟩
  · rintro ⟨tail, result, back, rest, readsSecond, whole⟩
    refine ⟨tail, result, front ++ back, rest, ?_, ?_⟩
    · exact (reads_bind_iff before behind).mpr ⟨value, front, back, reads,
        readsSecond, rfl⟩
    · rw [List.append_assoc, whole, List.append_assoc]

/-- Where the first step fails, what can be completed for it can be completed
for both. -/
theorem viable_bind_of_error
    (satisfiable : ∀ value, ∃ result bytes, (second value).Reads result bytes)
    {position : Nat} {failure : Failure} {back : List UInt8}
    (failed : first ⟨position, front ++ back⟩ = .error failure)
    (viable : first.Viable front) :
    (first >>= second).Viable front := by
  obtain ⟨tail, value, bytes, rest, reads, whole⟩ := viable
  rcases List.append_eq_append_iff.mp whole with ⟨more, rfl, _⟩ | ⟨more, rfl, _⟩
  · obtain ⟨result, others, readsSecond⟩ := satisfiable value
    refine ⟨more ++ others, result, front ++ more ++ others, [], ?_, ?_⟩
    · exact (reads_bind_iff before behind).mpr ⟨value, _, others, reads,
        readsSecond, rfl⟩
    · rw [List.append_nil, List.append_assoc]
  · -- The first step would have read what is there.
    rw [List.append_assoc, reads position (more ++ back)] at failed
    cases failed

end Sequences

namespace Foresees

section Sequences

variable {first : Decoder α} {second : α → Decoder β}
  {due : List UInt8 → Nat → Prop} {dueBehind : α → List UInt8 → Nat → Prop}
  {position : Nat} {input : List UInt8} {failure : Failure}
  (before : first.Foresees due)
  (behind : ∀ value, (second value).Foresees (dueBehind value))

include before behind

theorem satisfiable_bind :
    ∃ result bytes, (first >>= second).Reads result bytes := by
  obtain ⟨value, front, reads⟩ := before.satisfiable
  obtain ⟨result, back, readsSecond⟩ := (behind value).satisfiable
  exact ⟨result, front ++ back,
    (reads_bind_iff before.recognises fun value => (behind value).recognises).mpr
      ⟨value, front, back, reads, readsSecond, rfl⟩⟩

theorem refuses_bind {byte : UInt8} {location : Nat}
    (failed : (first >>= second) ⟨position, input⟩ = .error failure)
    (error : failure.error = .unexpected byte location) :
    ∃ front back, input = front ++ byte :: back ∧
      location = position + front.length ∧
      (first >>= second).Viable front ∧
      ¬ (first >>= second).Viable (front ++ [byte]) := by
  have recognises : ∀ value, (second value).Recognises (second value).Reads :=
    fun value => (behind value).recognises
  cases ran : first ⟨position, input⟩ with
  | error cause =>
      rw [bind_of_error ran] at failed
      cases failed
      obtain ⟨front, back, rfl, place, viable, hopeless⟩ :=
        before.refuses ran error
      refine ⟨front, back, rfl, place, ?_, ?_⟩
      · exact viable_bind_of_error before.recognises recognises
          (fun value => (behind value).satisfiable) ran viable
      · exact fun further => hopeless
          (viable_of_viable_bind before.recognises recognises further)
  | ok result =>
      obtain ⟨value, after⟩ := result
      rw [bind_of_ok ran] at failed
      obtain ⟨read, rest, reads, rfl, rfl⟩ :=
        exists_reads_of_ok before.recognises ran
      obtain ⟨front, back, rfl, rfl, viable, hopeless⟩ :=
        (behind value).refuses failed error
      refine ⟨read ++ front, back, (List.append_assoc ..).symm, ?_, ?_, ?_⟩
      · rw [List.length_append, Nat.add_assoc]
      · rwa [viable_bind_append_iff before.recognises recognises reads]
      · rwa [List.append_assoc,
          viable_bind_append_iff before.recognises recognises reads]

theorem runsOut_bind
    (failed : (first >>= second) ⟨position, input⟩ = .error failure)
    (error : failure.error = .unexpectedEnd) :
    (first >>= second).Viable input ∨
      EndsOverlong (DueInSequence first due dueBehind) input := by
  have recognises : ∀ value, (second value).Recognises (second value).Reads :=
    fun value => (behind value).recognises
  rw [endsOverlong_dueInSequence_iff]
  cases ran : first ⟨position, input⟩ with
  | error cause =>
      rw [bind_of_error ran] at failed
      cases failed
      rcases before.runsOut ran error with viable | ends
      · rw [← List.append_nil input] at ran
        exact .inl (viable_bind_of_error before.recognises recognises
          (fun value => (behind value).satisfiable) ran viable)
      · exact .inr (.inl ends)
  | ok result =>
      obtain ⟨value, after⟩ := result
      rw [bind_of_ok ran] at failed
      obtain ⟨read, rest, reads, rfl, rfl⟩ :=
        exists_reads_of_ok before.recognises ran
      rcases (behind value).runsOut failed error with viable | ends
      · left
        rwa [viable_bind_append_iff before.recognises recognises reads]
      · exact .inr (.inr ⟨value, read, rest, reads, rfl, ends⟩)

theorem overlong_bind
    (ends : EndsOverlong (DueInSequence first due dueBehind) input) :
    ¬ (first >>= second).Viable input := by
  intro viable
  have recognises : ∀ value, (second value).Recognises (second value).Reads :=
    fun value => (behind value).recognises
  rcases endsOverlong_dueInSequence_iff.mp ends with
      here | ⟨value, front, back, reads, rfl, there⟩
  · exact before.overlong here
      (viable_of_viable_bind before.recognises recognises viable)
  · exact (behind value).overlong there
      ((viable_bind_append_iff before.recognises recognises reads).mp viable)

theorem bind : (first >>= second).Foresees (DueInSequence first due dueBehind)
    where
  recognises :=
    (before.recognises.bind fun value => (behind value).recognises).reads
  satisfiable := satisfiable_bind before behind
  refuses := refuses_bind before behind
  runsOut := runsOut_bind before behind
  overlong := overlong_bind before behind

end Sequences

end Foresees

/-- If no integer is due in the second step, those of the first step are all. -/
theorem Foresees.bind_nothingDue {first : Decoder α} {second : α → Decoder β}
    {due : List UInt8 → Nat → Prop} (before : first.Foresees due)
    (behind : ∀ value, (second value).Foresees NothingDue) :
    (first >>= second).Foresees due := by
  apply (before.bind behind).congr
  intro bytes count
  constructor
  · rintro (here | ⟨_, _, _, _, _, impossible⟩)
    · exact here
    · exact impossible.elim
  · exact .inl

theorem Foresees.map {decoder : Decoder α} {due : List UInt8 → Nat → Prop}
    (foresees : decoder.Foresees due) (convert : α → β) :
    (convert <$> decoder).Foresees due := by
  rw [← bind_pure_comp]
  exact foresees.bind_nothingDue fun value => foresees_pure (convert value)

theorem Foresees.replicate {decoder : Decoder α}
    (foresees : decoder.Foresees NothingDue) (count : Nat) :
    (decoder.replicate count).Foresees NothingDue := by
  induction count with
  | zero => exact foresees_pure []
  | succ count induction =>
      exact foresees.bind_nothingDue fun first =>
        induction.bind_nothingDue fun others => foresees_pure (first :: others)

/-! ## Integers -/

/-- An integer with the given number of groups is due at the start. -/
def DueFirst (groups : Nat) : List UInt8 → Nat → Prop :=
  fun before count => before = [] ∧ count = groups

theorem endsOverlong_dueFirst_iff {groups : Nat} {input : List UInt8} :
    EndsOverlong (DueFirst groups) input ↔
      input.length = groups ∧ ∀ byte ∈ input, Leb128.continues byte = true := by
  constructor
  · rintro ⟨_, bytes, rfl, ⟨rfl, rfl⟩, continuing⟩
    exact ⟨rfl, continuing⟩
  · rintro ⟨rfl, continuing⟩
    exact ⟨[], input, rfl, ⟨rfl, rfl⟩, continuing⟩

section Integers

open Leb128

variable (type : FixedWidth α)

theorem groups_pos : 0 < type.groups := by
  have width := type.positive
  unfold FixedWidth.groups
  omega

/-- A zero completes groups that announce another one, if another one is
permitted. -/
theorem viable_of_continuing {groups : List UInt8}
    (continuing : ∀ byte ∈ groups, continues byte = true)
    (room : groups.length < type.groups) :
    type.decoder.Viable groups := by
  let encoding : Encoding := ⟨groups, 0, continuing, rfl⟩
  have wide : 7 * encoding.initial.length < type.width := by
    apply (type.length_le_groups_iff encoding).mp
    exact room
  have representable : Representable type.signed type.width
      (encoding.number (groupSign type.signed)) := by
    apply (encoding.representable_iff_fits wide).mpr
    change fits 0 _ _ = true
    simp [fits]
  have reads : type.decoder.Reads
      (type.narrow (UInt64.ofInt (encoding.number (groupSign type.signed))))
        encoding.bytes := by
    intro position tail
    rw [encoding.length_bytes]
    exact type.decoder_of_ok
      (bounded_encoding encoding wide representable position tail)
  exact ⟨[0], _, encoding.bytes, [], reads, (List.append_nil _).symm⟩

/-- Nothing completes the permitted groups if all of them announce another
one. -/
theorem not_viable_of_overlong {groups : List UInt8}
    (continuing : ∀ byte ∈ groups, continues byte = true)
    (full : groups.length = type.groups) :
    ¬ type.decoder.Viable groups := by
  rintro ⟨tail, value, _, rest, reads, whole⟩
  obtain ⟨encoding, short, _, rfl⟩ :=
    (recognises_fixedWidth type).reads_iff.mp reads
  have inside : encoding.final ∈ groups := by
    rcases List.append_eq_append_iff.mp whole with
        ⟨more, longer, _⟩ | ⟨more, rfl, _⟩
    · have length := congrArg List.length longer
      rw [encoding.length_bytes, List.length_append] at length
      obtain rfl : more = [] := List.eq_nil_of_length_eq_zero (by omega)
      rw [List.append_nil] at longer
      rw [← longer]
      simp [Encoding.bytes]
    · simp [Encoding.bytes]
  have more := continuing _ inside
  rw [encoding.finished] at more
  cases more

/-- Nothing completes groups of an integer outside the range. -/
theorem not_viable_of_unrepresentable {encoding : Encoding}
    (wide : 7 * encoding.initial.length < type.width)
    (unrepresentable :
      ¬ Representable type.signed type.width
        (encoding.number (groupSign type.signed))) :
    ¬ type.decoder.Viable encoding.bytes := by
  rintro ⟨tail, value, bytes, behind, reads, same⟩
  have refused := type.decoder_of_error
    (bounded_unrepresentable encoding wide unrepresentable 0 tail)
  rw [same, reads] at refused
  cases refused

/-- Behind the permitted groups, all of which announce another one, the last of
them is refused. -/
theorem exists_refused_of_unfinished {input : List UInt8}
    (unfinished : ∀ byte ∈ input.take type.groups, continues byte = true)
    (long : type.groups < input.length) (position : Nat) :
    ∃ front byte back, input = front ++ byte :: back ∧
      front ++ [byte] = input.take type.groups ∧
      type.decoder ⟨position, input⟩ =
        .error (.recoverable (.unexpected byte (position + front.length))) := by
  have refuses : Refuses type.decoder ⟨position, input⟩ (type.groups - 1) :=
    type.refuses_of_unfinished unfinished long
  obtain ⟨byte, there, refused⟩ := refuses
  obtain ⟨inside, found⟩ := List.getElem?_eq_some_iff.mp there
  have full :
      input.take (type.groups - 1) ++ [byte] = input.take type.groups := by
    rw [← found, List.take_append_getElem inside,
      Nat.sub_add_cancel (groups_pos type)]
  have length : (input.take (type.groups - 1)).length = type.groups - 1 :=
    List.length_take_of_le (Nat.le_of_lt inside)
  refine ⟨input.take (type.groups - 1), byte, input.drop type.groups,
    ?_, full, ?_⟩
  · rw [← List.singleton_append, ← List.append_assoc, full,
      List.take_append_drop]
  · rw [length]
    exact refused

/-- All that a decoder of a fixed width does: it reads an integer, it ends among
groups that announce another one, or it refuses a byte behind such groups. -/
theorem fixedWidth_cases (position : Nat) (input : List UInt8) :
    (∃ result, type.decoder ⟨position, input⟩ = .ok result) ∨
    (type.decoder ⟨position, input⟩ = .error (.recoverable .unexpectedEnd) ∧
      input.length ≤ type.groups ∧ ∀ byte ∈ input, continues byte = true) ∨
    ∃ front byte back, input = front ++ byte :: back ∧
      type.decoder ⟨position, input⟩ =
        .error (.recoverable (.unexpected byte (position + front.length))) ∧
      front.length < type.groups ∧ (∀ group ∈ front, continues group = true) ∧
      ¬ type.decoder.Viable (front ++ [byte]) := by
  rcases Encoding.starts_or_unfinished (input.take type.groups) with
    ⟨encoding, rest, starts⟩ | unfinished
  · -- One of the permitted groups is the final one.
    have room : encoding.length ≤ type.groups := by
      have length := congrArg List.length starts
      rw [List.length_take, List.length_append, encoding.length_bytes] at length
      omega
    have wide := (type.length_le_groups_iff encoding).mp room
    have whole :
        input = encoding.bytes ++ (rest ++ input.drop type.groups) := by
      rw [← List.append_assoc, ← starts, List.take_append_drop]
    rw [whole]
    by_cases representable : Representable type.signed type.width
        (encoding.number (groupSign type.signed))
    · exact .inl ⟨_,
        type.decoder_of_ok
          (bounded_encoding encoding wide representable position _)⟩
    · refine .inr (.inr ⟨encoding.initial, encoding.final, _,
        encoding.bytes_append _, type.decoder_of_error ?_, room,
        encoding.continuing,
        not_viable_of_unrepresentable type wide representable⟩)
      exact bounded_unrepresentable encoding wide representable position _
  · rcases Nat.lt_or_ge type.groups input.length with long | short
    · obtain ⟨front, byte, back, whole, full, refused⟩ :=
        exists_refused_of_unfinished type unfinished long position
      have taken : (input.take type.groups).length = type.groups :=
        List.length_take_of_le (Nat.le_of_lt long)
      rw [← full] at unfinished taken
      refine .inr (.inr ⟨front, byte, back, whole, refused, ?_, ?_, ?_⟩)
      · rw [List.length_append] at taken
        exact Nat.lt_of_succ_le (Nat.le_of_eq taken)
      · intro group member
        exact unfinished group (List.mem_append_left _ member)
      · exact not_viable_of_overlong type unfinished taken
    · rw [List.take_of_length_le short] at unfinished
      refine .inr (.inl ⟨type.decoder_of_error ?_, short, unfinished⟩)
      apply bounded_unfinished unfinished
      unfold FixedWidth.groups at short
      omega

theorem foresees_fixedWidth : type.decoder.Foresees (DueFirst type.groups) := by
  refine ⟨(recognises_fixedWidth type).reads, ?_, ?_, ?_, ?_⟩
  · have empty : ∀ byte ∈ ([] : List UInt8), continues byte = true := nofun
    obtain ⟨_, value, bytes, _, reads, _⟩ :=
      viable_of_continuing type empty (groups_pos type)
    exact ⟨value, bytes, reads⟩
  · intro position input failure byte location failed error
    rcases fixedWidth_cases type position input with
        ⟨result, run⟩ | ⟨ended, _⟩ |
        ⟨front, found, back, whole, refused, room, continuing, hopeless⟩
    · rw [failed] at run
      cases run
    · rw [failed] at ended
      cases ended
      cases error
    · rw [failed] at refused
      cases refused
      cases error
      exact ⟨front, back, whole, rfl,
        viable_of_continuing type continuing room, hopeless⟩
  · intro position input failure failed error
    rcases fixedWidth_cases type position input with
        ⟨result, run⟩ | ⟨_, short, continuing⟩ |
        ⟨front, found, back, _, refused, _⟩
    · rw [failed] at run
      cases run
    · rcases Nat.lt_or_eq_of_le short with room | full
      · exact .inl (viable_of_continuing type continuing room)
      · exact .inr (endsOverlong_dueFirst_iff.mpr ⟨full, continuing⟩)
    · rw [failed] at refused
      cases refused
      cases error
  · intro input ends
    obtain ⟨full, continuing⟩ := endsOverlong_dueFirst_iff.mp ends
    exact not_viable_of_overlong type continuing full

theorem foresees_uint32 : uint32.Foresees (DueFirst 5) :=
  foresees_fixedWidth FixedWidth.unsigned32

theorem foresees_sint32 : sint32.Foresees (DueFirst 5) :=
  foresees_fixedWidth FixedWidth.signed32

theorem foresees_sint64 : sint64.Foresees (DueFirst 10) :=
  foresees_fixedWidth FixedWidth.signed64

end Integers

theorem Foresees.vector {decoder : Decoder α}
    (foresees : decoder.Foresees NothingDue) :
    decoder.vector.Foresees (DueFirst 5) :=
  foresees_uint32.bind_nothingDue fun count => foresees.replicate count.toNat

end Wasm.Decoder

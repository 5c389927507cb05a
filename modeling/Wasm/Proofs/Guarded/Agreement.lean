import Wasm.Proofs.Decoding.SelfDelimiting
import Wasm.Proofs.Guarded.Plan

/-!
# Plans have no faults

Each primitive agrees with its decoder: where the decoder reads, no guard is hit
on the way, and where it fails, none is hit either.  Sequences, windows and
alternatives keep that, so it holds of every plan.
-/

namespace Wasm

/-! ## Sequences -/

section Sequences

variable {α β : Type} {buffer : Buffer}

theorem Guarded.bind_of_reads {first : Guarded α} {second : α → Guarded β}
    {value : α} {after : Buffer}
    (ran : first buffer = .ok (.ok (value, after))) :
    (first >>= second) buffer = second value after := by
  change ExceptT.bind (first buffer) _ = _
  rw [ran]
  rfl

theorem Guarded.bind_of_fails {first : Guarded α} {second : α → Guarded β}
    {failure : Failure} (ran : first buffer = .ok (.error failure)) :
    (first >>= second) buffer = .ok (.error failure) := by
  change ExceptT.bind (first buffer) _ = _
  rw [ran]
  rfl

theorem Guarded.require_bind {step : Except Fault α} {second : α → Guarded β}
    {value : α} (defined : step = .ok value) :
    (require step >>= second) buffer = second value buffer := by
  apply bind_of_reads
  subst defined
  rfl

theorem Guarded.get_bind (second : Buffer → Guarded β) :
    (get >>= second) buffer = second buffer buffer :=
  bind_of_reads rfl

theorem agrees_pure (valid : buffer.Valid) (value : α) :
    Agrees buffer ((pure value : Guarded α) buffer)
      ((pure value : Decoder α) buffer.cursor) :=
  .reads value rfl (Nat.le_refl _) valid

theorem Agrees.bind {first : Guarded α} {second : α → Guarded β}
    {plain : Decoder α} {behind : α → Decoder β}
    (here : Agrees buffer (first buffer) (plain buffer.cursor))
    (there : ∀ value (after : Buffer), after.bytes = buffer.bytes →
      buffer.position ≤ after.position → after.Valid →
        Agrees after (second value after) (behind value after.cursor)) :
    Agrees buffer ((first >>= second) buffer)
      ((plain >>= behind) buffer.cursor) := by
  generalize ran : first buffer = outcome at here
  generalize plainRan : plain buffer.cursor = plainOutcome at here
  cases here with
  | fails failure =>
      rw [Guarded.bind_of_fails ran, Decoder.bind_of_error plainRan]
      exact .fails failure
  | @reads value after same later valid =>
      rw [Guarded.bind_of_reads ran, Decoder.bind_of_ok plainRan]
      exact (there value after same later valid).from_earlier same later

/-- A buffer on which a plan may be run is one behind what has been read of
it. -/
theorem Scope.Admits.later {scope : Scope} {after : Buffer}
    (admits : scope.Admits buffer) (same : after.bytes = buffer.bytes)
    (later : buffer.position ≤ after.position) (valid : after.Valid) :
    scope.Admits after := by
  refine ⟨valid, ?_⟩
  intro isWindow
  have small := admits.2 isWindow
  simp only [Buffer.cursor, List.length_drop] at small ⊢
  rw [same]
  omega

end Sequences

/-! ## Agreement of the primitives -/

namespace Guarded

variable {α : Type} {buffer : Buffer}

theorem byteMap_agrees (read : UInt8 → Option α) (buffer : Buffer) :
    Agrees buffer (byteMap read buffer)
      (Decoder.byteMap read buffer.cursor) := by
  unfold byteMap Decoder.byteMap
  rw [Buffer.next?_eq]
  cases ahead : buffer.cursor.rest with
  | nil => exact .fails _
  | cons byte rest =>
      simp only [List.head?_cons]
      cases read byte with
      | none => exact .fails _
      | some value =>
          have behind := Buffer.cursor_advanced ahead
          change Agrees buffer _ (.ok (value, ⟨buffer.position + 1, rest⟩))
          rw [← behind]
          exact .reads value rfl (Nat.le_succ _) (Buffer.valid_advanced ahead)

/-- Splitting off a window succeeds with the right parts, or there are too few
bytes. -/
theorem splitOff_cases (valid : buffer.Valid) (count : UInt32) :
    (∃ part after : Buffer, splitOff count buffer = .ok (.ok (part, after)) ∧
      Decoder.window count buffer.cursor = .ok (part.cursor, after.cursor) ∧
      part.Valid ∧ part.cursor.rest.length = count.toNat ∧
      after.bytes = buffer.bytes ∧ buffer.position ≤ after.position ∧
        after.Valid) ∨
    splitOff count buffer = .ok (.error (.recoverable .unexpectedEnd)) ∧
      Decoder.window count buffer.cursor =
        .error (.recoverable .unexpectedEnd) := by
  by_cases enough : count.toNat ≤ buffer.cursor.rest.length
  · left
    obtain ⟨part, split, partValid, start, contents⟩ :=
      Buffer.splitAt?_of_le valid enough
    have view :
        part.cursor = ⟨buffer.cursor.position,
          buffer.cursor.rest.take count.toNat⟩ := by
      rw [← contents,
        ← show part.cursor.position = buffer.cursor.position from start]
    refine ⟨part, ⟨buffer.bytes, buffer.position + count.toNat⟩, ?_, ?_,
      partValid, ?_, rfl, Nat.le_add_right .., ?_⟩
    · rw [splitOff, split]
    · rw [Decoder.window, ByteCursor.splitAt?, if_pos enough, ← view]
      simp [Buffer.cursor]
    · rw [contents, List.length_take, Nat.min_eq_left enough]
    · have inside : buffer.position ≤ buffer.bytes.length := valid
      rw [Buffer.cursor, List.length_drop] at enough
      change buffer.position + count.toNat ≤ buffer.bytes.length
      omega
  · right
    have short := Nat.lt_of_not_le enough
    constructor
    · rw [splitOff, Buffer.splitAt?_of_lt short]
    · rw [Decoder.window, ByteCursor.splitAt?, if_neg enough]

/-- What is made of a window and of its cursor agrees if that of the window
does. -/
theorem splitOff_bind_agrees {β : Type} (valid : buffer.Valid) (count : UInt32)
    {second : Buffer → Guarded β} {behind : ByteCursor → Decoder β}
    (there : ∀ part after : Buffer, part.Valid →
      part.cursor.rest.length = count.toNat → after.Valid →
        Agrees after (second part after) (behind part.cursor after.cursor)) :
    Agrees buffer ((splitOff count >>= second) buffer)
      ((Decoder.window count >>= behind) buffer.cursor) := by
  rcases splitOff_cases valid count with
    ⟨part, after, split, plain, partValid, length, same, later,
      afterValid⟩ | ⟨short, plain⟩
  · rw [bind_of_reads split, Decoder.bind_of_ok plain]
    exact (there part after partValid length afterValid).from_earlier same later
  · rw [bind_of_fails short, Decoder.bind_of_error plain]
    exact .fails _

theorem window_agrees (valid : buffer.Valid) (count : UInt32) :
    Agrees buffer (window count buffer)
      (Decoder.window count buffer.cursor) := by
  have plain : Decoder.window count = Decoder.window count >>= pure :=
    (bind_pure _).symm
  rw [plain]
  apply splitOff_bind_agrees valid count
  intro part after partValid _ afterValid
  rw [require_bind (Buffer.remaining_eq partValid)]
  exact agrees_pure afterValid part.cursor

theorem take_agrees (valid : buffer.Valid) (count : UInt32) :
    Agrees buffer (take count buffer) (Decoder.take count buffer.cursor) := by
  apply splitOff_bind_agrees valid count
  intro part after partValid length afterValid
  rw [require_bind (Buffer.remaining_eq partValid)]
  have copied : copyOf part.cursor.rest count.toNat = .ok part.cursor.rest :=
    if_pos length
  rw [copied]
  exact agrees_pure afterValid part.cursor.rest

theorem takeRest_agrees (valid : buffer.Valid)
    (small : buffer.cursor.rest.length < 0x100000000) :
    Agrees buffer (takeRest buffer) (Decoder.takeRest buffer.cursor) := by
  have narrowed : narrowLength buffer.cursor.rest.length =
      .ok (UInt32.ofNat buffer.cursor.rest.length) := if_pos small
  have run :
      takeRest buffer =
        take (UInt32.ofNat buffer.cursor.rest.length) buffer := by
    refine (get_bind _).trans ?_
    rw [require_bind (Buffer.remaining_eq valid), require_bind narrowed]
  rw [run]
  exact take_agrees valid _

theorem eq_of_byte {expected value : UInt8} {cursor after : ByteCursor}
    (run : Decoder.byte expected cursor = .ok (value, after)) :
    value = expected ∧ cursor.rest = value :: after.rest := by
  unfold Decoder.byte Decoder.byteIf Decoder.byteMap at run
  split at run
  · cases run
  · rename_i byte rest ahead
    by_cases found : byte = expected
    · simp only [found, BEq.rfl, if_true] at run
      cases run
      exact ⟨rfl, by rw [ahead, found]⟩
    · simp only [beq_iff_eq, found, if_false] at run
      cases run

/-- The expected bytes are found and returned, or the search for them fails. -/
theorem skipBytes_cases (expected : List UInt8) {buffer : Buffer}
    (valid : buffer.Valid) :
    (∃ after : Buffer, skipBytes expected buffer = .ok (.ok ((), after)) ∧
      Decoder.bytes expected buffer.cursor = .ok (expected, after.cursor) ∧
      buffer.cursor.rest = expected ++ after.cursor.rest ∧
      after.bytes = buffer.bytes ∧ buffer.position ≤ after.position ∧
        after.Valid) ∨
    ∃ failure, skipBytes expected buffer = .ok (.error failure) ∧
      Decoder.bytes expected buffer.cursor = .error failure := by
  induction expected generalizing buffer with
  | nil => exact .inl ⟨buffer, rfl, rfl, rfl, rfl, Nat.le_refl _, valid⟩
  | cons byte others induction =>
      have first :=
        byteMap_agrees (fun next => if next == byte then some next
          else none) buffer
      generalize ran :
        byteMap (fun next => if next == byte then some next else none) buffer =
        outcome at first
      generalize plainRan :
        Decoder.byteMap (fun next => if next == byte then some next else none)
        buffer.cursor = plainOutcome at first
      cases first with
      | fails failure =>
          exact .inr ⟨failure, bind_of_fails ran,
            Decoder.bind_of_error plainRan⟩
      | @reads value middle same later middleValid =>
          obtain ⟨rfl, front⟩ := eq_of_byte plainRan
          rcases induction middleValid with
            ⟨after, skipped, plain, rest, sameBehind, laterBehind, afterValid⟩ |
            ⟨failure, failed, plain⟩
          · left
            refine ⟨after, (bind_of_reads ran).trans skipped, ?_, ?_,
              sameBehind.trans same, Nat.le_trans later laterBehind, afterValid⟩
            · refine (Decoder.bind_of_ok plainRan).trans ?_
              exact Decoder.bind_of_ok plain
            · rw [front, rest]
              rfl
          · right
            refine ⟨failure, (bind_of_reads ran).trans failed, ?_⟩
            exact (Decoder.bind_of_ok plainRan).trans
              (Decoder.bind_of_error plain)

theorem bytes_agrees (valid : buffer.Valid) (expected : List UInt8) :
    Agrees buffer (bytes expected buffer)
      (Decoder.bytes expected buffer.cursor) := by
  rcases skipBytes_cases expected valid with
    ⟨after, skipped, plain, front, same, later, afterValid⟩ | ⟨failure,
      failed, plain⟩
  · have enough : expected.length ≤ buffer.cursor.rest.length := by
      rw [front, List.length_append]
      omega
    have run : bytes expected buffer = .ok (.ok (expected, after)) := by
      refine (get_bind _).trans ((bind_of_reads skipped).trans ?_)
      rw [require_bind (Buffer.remaining_eq valid), Buffer.prefixOf_eq enough,
        front, List.take_left]
      rfl
    rw [run, plain]
    exact .reads expected same later afterValid
  · have run : bytes expected buffer = .ok (.error failure) :=
      (get_bind _).trans (bind_of_fails failed)
    rw [run, plain]
    exact .fails failure

theorem text_agrees (valid : buffer.Valid) (count : UInt32) :
    Agrees buffer (text count buffer) (Decoder.text count buffer.cursor) := by
  apply splitOff_bind_agrees valid count
  intro part after partValid _ afterValid
  rw [require_bind (Buffer.remaining_eq partValid)]
  have whole := Utf8.encode_decode_append part.cursor.rest
  generalize Utf8.decode part.cursor.rest = parts at whole ⊢
  obtain ⟨characters, _ | ⟨byte, remaining⟩⟩ := parts
  · exact agrees_pure afterValid _
  · have found :
        byteAt part.cursor.rest (Utf8.encode characters).length = .ok byte := by
      rw [← whole, byteAt]
      simp
    have place :
        part.cursor.position + part.cursor.rest.length -
          (remaining.length + 1) =
        part.position + (Utf8.encode characters).length := by
      have length := congrArg List.length whole
      simp only [List.length_append, List.length_cons] at length
      change part.position + part.cursor.rest.length - (remaining.length + 1) =
        _
      omega
    dsimp only
    rw [require_bind found, place]
    exact .fails _

theorem exhaust_agrees {inside : Guarded α} {plain : Decoder α}
    (agrees : Agrees buffer (inside buffer) (plain buffer.cursor)) :
    Agrees buffer (exhaust inside buffer) (plain.exhaust buffer.cursor) := by
  apply agrees.bind
  intro value after _ _ valid
  rw [get_bind, require_bind (Buffer.inputLength_eq valid), Buffer.error_eq]
  change Agrees after _ ((if after.cursor.rest.isEmpty then pure value
    else Decoder.reject (.atCursor after.cursor) : Decoder α) after.cursor)
  by_cases ended : after.cursor.rest = []
  · rw [if_pos (List.length_eq_zero_iff.mpr ended),
      if_pos (List.isEmpty_iff.mpr ended)]
    exact agrees_pure valid value
  · rw [if_neg (mt List.length_eq_zero_iff.mp ended),
      if_neg (mt List.isEmpty_iff.mp ended)]
    exact .fails _

theorem alternative_agrees {first second : Guarded α}
    {plain otherwise : Decoder α}
    (here : Agrees buffer (first buffer) (plain buffer.cursor))
    (there : Agrees buffer (second buffer) (otherwise buffer.cursor)) :
    Agrees buffer (alternative first second buffer)
      (plain.alternative otherwise buffer.cursor) := by
  unfold alternative Decoder.alternative
  generalize first buffer = outcome at here
  generalize plain buffer.cursor = plainOutcome at here
  cases here with
  | fails failure =>
      cases failure with
      | recoverable error => exact there
      | fatal error => exact .fails _
      | incomplete => exact .fails _
  | reads value same later valid => exact .reads value same later valid

theorem commit_agrees {inside : Guarded α} {plain : Decoder α}
    (agrees : Agrees buffer (inside buffer) (plain buffer.cursor)) :
    Agrees buffer (commit inside buffer) (plain.commit buffer.cursor) := by
  unfold commit Decoder.commit
  generalize inside buffer = outcome at agrees
  generalize plain buffer.cursor = plainOutcome at agrees
  cases agrees with
  | fails failure => exact .fails _
  | reads value same later valid => exact .reads value same later valid

theorem within_agrees (valid : buffer.Valid) (count : UInt32)
    {inside : Guarded α} {plain : Decoder α}
    (agrees : ∀ part : Buffer, Scope.window.Admits part →
      Agrees part (inside part) (plain part.cursor)) :
    Agrees buffer (within count inside buffer)
      (Decoder.within count plain buffer.cursor) := by
  apply splitOff_bind_agrees valid count
  intro part after partValid length afterValid
  have admits : Scope.window.Admits part := by
    refine ⟨partValid, ?_⟩
    intro _
    rw [length]
    exact count.toNat_lt
  have read := exhaust_agrees (agrees part admits)
  generalize exhaust inside part = outcome at read ⊢
  generalize plain.exhaust part.cursor = plainOutcome at read ⊢
  cases read with
  | fails failure => exact .fails failure
  | reads value => exact agrees_pure afterValid value

end Guarded

/-- A plan carried out on a buffer has no fault and the outcome of its
decoder. -/
theorem Plan.agrees {scope : Scope} {α : Type} {decoder : Decoder α}
    (plan : Plan scope decoder) {buffer : Buffer}
    (admits : scope.Admits buffer) :
    Agrees buffer (plan.guarded buffer) (decoder buffer.cursor) := by
  induction plan generalizing buffer with
  | byteMap read => exact Guarded.byteMap_agrees read buffer
  | bytes expected => exact Guarded.bytes_agrees admits.1 expected
  | window count => exact Guarded.window_agrees admits.1 count
  | take count => exact Guarded.take_agrees admits.1 count
  | takeRest => exact Guarded.takeRest_agrees admits.1 (admits.2 rfl)
  | bounded width signed positive narrow =>
      exact Guarded.bounded_agrees positive narrow signed buffer
  | wrapping rule bits => exact Guarded.wrapping_agrees rule bits buffer
  | text count => exact Guarded.text_agrees admits.1 count
  | pure value => exact agrees_pure admits.1 value
  | bind _ _ firstInduction secondInduction =>
      apply (firstInduction admits).bind
      intro value after same later valid
      exact secondInduction value (admits.later same later valid)
  | reject error => exact .fails _
  | @placed _ _ inside plans induction =>
      change Agrees buffer ((plans buffer.position buffer.error).guarded buffer)
        (inside buffer.position (.atCursor buffer.cursor) buffer.cursor)
      rw [← Buffer.error_eq]
      exact induction _ _ admits
  | exhaust _ induction => exact Guarded.exhaust_agrees (induction admits)
  | within count _ induction =>
      exact Guarded.within_agrees admits.1 count fun part partAdmits =>
        induction partAdmits
  | alternative _ _ firstInduction secondInduction =>
      exact Guarded.alternative_agrees (firstInduction admits)
        (secondInduction admits)
  | commit _ induction => exact Guarded.commit_agrees (induction admits)

end Wasm

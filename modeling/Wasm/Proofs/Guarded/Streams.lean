import Wasm.Proofs.Decoding.ReturnedWindows
import Wasm.Proofs.Guarded.Agreement

/-!
# Streams over one input

A stream is a cursor over an input.  More of them come from copying it, from
splitting it and from decoding, and each one is advanced by itself.  Whatever is
done with them, every stream stays a window of the input: it is what is left, at
an offset, of the first bytes of the input.
-/

namespace Wasm

/-! ## Buffers with bounded offsets -/

namespace Buffer

/-- Nothing is left of the buffer. -/
def isEmpty (buffer : Buffer) : Bool :=
  decide (buffer.bytes.length ≤ buffer.position)

/-- A window over the next bytes, and the buffer behind it.  There is none whose
end is not below the limit of offsets. -/
def checkedSplitAt? (limit : Nat) (buffer : Buffer) (count : Nat) :
    Except Fault (Option (Buffer × Buffer)) :=
  if buffer.position + count < limit then buffer.splitAt? count else .ok none

variable {buffer : Buffer} {limit count : Nat}

theorem checkedSplitAt?_of_lt (short : buffer.cursor.rest.length < count) :
    buffer.checkedSplitAt? limit count = .ok none := by
  unfold checkedSplitAt?
  split
  · exact splitAt?_of_lt short
  · rfl

theorem checkedSplitAt?_of_le (valid : buffer.Valid)
    (addressable : buffer.bytes.length < limit)
    (enough : count ≤ buffer.cursor.rest.length) :
    buffer.checkedSplitAt? limit count =
      .ok (some (⟨buffer.bytes.take (buffer.position + count), buffer.position⟩,
        ⟨buffer.bytes, buffer.position + count⟩)) := by
  have inside : buffer.position ≤ buffer.bytes.length := valid
  rw [cursor, List.length_drop] at enough
  have stop : buffer.position + count ≤ buffer.bytes.length := by omega
  have reachable : buffer.position + count < limit :=
    Nat.lt_of_le_of_lt stop addressable
  rw [checkedSplitAt?, if_pos reachable, splitAt?, if_neg (Nat.not_lt.mpr stop),
    prefixOf_eq stop]
  rfl

/-- The guarded steps on a buffer, whose offsets are below the limit, have no
fault and do what the stream does. -/
structure Backs (limit : Nat) (buffer : Buffer) (stream : ByteCursor) :
    Prop where
  cursor : buffer.cursor = stream
  remaining : buffer.remaining = .ok stream.rest
  inputLength : buffer.inputLength = .ok stream.length
  isEmpty : buffer.isEmpty = stream.isEmpty
  peek : buffer.next? = stream.peek?
  advance : stream.next? = buffer.next?.map fun byte =>
    (byte, buffer.advanced.cursor)
  short : ∀ count, stream.splitAt? count = none →
    buffer.checkedSplitAt? limit count = .ok none
  enough : ∀ count window rest, stream.splitAt? count = some (window, rest) →
    ∃ part behind : Buffer,
      buffer.checkedSplitAt? limit count = .ok (some (part, behind)) ∧
      part.cursor = window ∧ part.bytes <+: buffer.bytes ∧
      behind.cursor = rest ∧ behind.bytes = buffer.bytes ∧
      behind.position = part.bytes.length
  decode : ∀ {α : Type} {decoder : Decoder α} (plan : Plan .anywhere decoder),
    Agrees buffer (plan.guarded buffer) (decoder stream)

theorem next?_cursor (buffer : Buffer) :
    buffer.cursor.next? = buffer.next?.map fun byte =>
      (byte, buffer.advanced.cursor) := by
  cases ahead : buffer.cursor.rest with
  | nil =>
      rw [next?_of_nil ahead, ByteCursor.next?, ahead]
      rfl
  | cons byte rest =>
      rw [next?_of_cons ahead, Option.map_some, cursor_advanced ahead,
        ByteCursor.next?, ahead]
      rfl

theorem backs_cursor (valid : buffer.Valid)
    (addressable : buffer.bytes.length < limit) :
    buffer.Backs limit buffer.cursor where
  cursor := rfl
  remaining := remaining_eq valid
  inputLength := inputLength_eq valid
  isEmpty := by
    rw [Bool.eq_iff_iff, isEmpty_cursor_iff, isEmpty, decide_eq_true_iff]
  peek := next?_eq buffer
  advance := next?_cursor buffer
  short := by
    intro count failed
    apply checkedSplitAt?_of_lt
    by_contra enough
    have split :=
      ByteCursor.splitAt?_eq_some_iff.mpr ⟨Nat.not_lt.mp enough, rfl, rfl⟩
    rw [failed] at split
    cases split
  enough := by
    intro count window rest split
    obtain ⟨enough, rfl, rfl⟩ := ByteCursor.splitAt?_eq_some_iff.mp split
    refine ⟨_, _, checkedSplitAt?_of_le valid addressable enough, ?_,
      List.take_prefix _ _, ?_, rfl, ?_⟩
    · simp only [Buffer.cursor, List.drop_take, Nat.add_sub_cancel_left]
    · simp only [Buffer.cursor, List.drop_drop]
    · have inside : buffer.position ≤ buffer.bytes.length := valid
      rw [Buffer.cursor, List.length_drop] at enough
      have stop : buffer.position + count ≤ buffer.bytes.length := by omega
      exact (List.length_take_of_le stop).symm
  decode := fun plan => plan.agrees ⟨valid, nofun⟩

end Buffer

/-! ## Operations on streams -/

/-- What can be done with a stream.  Decoding comes with the decoder that
exposes the windows in the value. -/
inductive StreamOperation : Type 1 where
  | peek
  | advance
  | copy
  | splitAt (count : Nat)
  | decode {α : Type} (decoder : Decoder α)
      (exposed : Decoder (α × List ByteCursor))
      (exposes : Decoder.Exposes exposed decoder)

/-- The stream after the operation and the streams that the operation returns,
or nothing if it fails. -/
def StreamOperation.run :
    StreamOperation → ByteCursor → Option (ByteCursor × List ByteCursor)
  | .peek, stream => some (stream, [])
  | .advance, stream => stream.next?.map fun (_, after) => (after, [])
  | .copy, stream => some (stream, [stream])
  | .splitAt count, stream =>
      (stream.splitAt? count).map fun (part, rest) => (stream, [part, rest])
  | .decode _ exposed _, stream =>
      match exposed stream with
      | .ok ((_, windows), after) => some (stream, after :: windows)
      | .error _ => none

/-- An operation on one of the streams that there are. -/
structure StreamCall where
  index : Nat
  operation : StreamOperation

namespace StreamCall

/-- The streams after a call.  What it returns is added to them. -/
def perform (streams : List ByteCursor) (call : StreamCall) : List ByteCursor :=
  match streams[call.index]? with
  | none => streams
  | some stream =>
      match call.operation.run stream with
      | none => streams
      | some (after, results) => streams.set call.index after ++ results

/-- The streams after some calls, of which there is one at the start. -/
def performAll (source : List UInt8) (calls : List StreamCall) :
    List ByteCursor :=
  calls.foldl perform [.ofBytes source]

/-- The call only peeks, or the stream does not admit the operation. -/
def PeeksOrFails (streams : List ByteCursor) (call : StreamCall) : Prop :=
  ∀ stream, streams[call.index]? = some stream →
    match call.operation with
    | .peek => True
    | .advance => stream.next? = none
    | .copy => False
    | .splitAt count => stream.splitAt? count = none
    | .decode decoder _ _ => ∃ failure, decoder stream = .error failure

end StreamCall

section Windows

variable {stream after part rest : ByteCursor}
  {results streams : List ByteCursor}

theorem ByteCursor.reaches_of_next? {byte : UInt8}
    (moved : stream.next? = some (byte, after)) :
    stream.Reaches after := by
  obtain ⟨position, input⟩ := stream
  cases input with
  | nil => cases moved
  | cons _ others =>
      cases moved
      exact .next position byte others

theorem ByteCursor.shows_of_splitAt? {count : Nat}
    (split : stream.splitAt? count = some (part, rest)) :
    stream.Shows part.position part.rest ∧ stream.Reaches rest := by
  have whole := ByteCursor.rest_append_rest_of_splitAt? split
  have stop := ByteCursor.position_of_splitAt? split
  have start : part.position = stream.position := by
    rw [(ByteCursor.splitAt?_eq_some_iff.mp split).2.1]
  rw [start] at stop
  exact ⟨⟨[], rest.rest, whole.symm, start⟩, part.rest, whole.symm, stop⟩

/-- The streams that come from an operation lie ahead of the stream. -/
theorem StreamOperation.shows_of_run {operation : StreamOperation}
    (ran : operation.run stream = some (after, results)) :
    ∀ part ∈ after :: results, stream.Shows part.position part.rest := by
  have here : stream.Shows stream.position stream.rest := .refl stream
  cases operation with
  | peek =>
      cases ran
      simpa using here
  | copy =>
      cases ran
      simpa using here
  | advance =>
      obtain ⟨⟨byte, behind⟩, moved, same⟩ := Option.map_eq_some_iff.mp ran
      cases same
      simpa using (ByteCursor.reaches_of_next? moved).shows
  | splitAt count =>
      obtain ⟨⟨part, rest⟩, split, same⟩ := Option.map_eq_some_iff.mp ran
      cases same
      obtain ⟨shown, reaches⟩ := ByteCursor.shows_of_splitAt? split
      simpa using ⟨here, shown, reaches.shows⟩
  | decode decoder exposed exposes =>
      rw [run] at ran
      cases outcome : exposed stream with
      | error failure =>
          rw [outcome] at ran
          cases ran
      | ok result =>
          obtain ⟨⟨value, windows⟩, behind⟩ := result
          rw [outcome] at ran
          cases ran
          obtain ⟨reaches, shown⟩ := exposes.keeps _ _ _ outcome
          simpa using ⟨here, reaches.shows, shown⟩

-- To lie ahead of one cursor is the invariant of the calls: a window of a
-- window lies ahead of whatever the outer window lies ahead of.
theorem StreamCall.shows_of_perform {cursor : ByteCursor} (call : StreamCall)
    (shown : ∀ stream ∈ streams, cursor.Shows stream.position stream.rest) :
    ∀ stream ∈ perform streams call,
      cursor.Shows stream.position stream.rest := by
  unfold perform
  split
  · exact shown
  · rename_i stream found
    split
    · exact shown
    · rename_i after results ran
      have reached := StreamOperation.shows_of_run ran
      have start := shown stream (List.mem_of_getElem? found)
      intro other member
      rcases List.mem_append.mp member with old | new
      · rcases List.mem_or_eq_of_mem_set old with kept | rfl
        · exact shown other kept
        · exact start.trans (reached other List.mem_cons_self)
      · exact start.trans (reached other (List.mem_cons_of_mem _ new))

theorem StreamCall.shows_of_performAll (source : List UInt8)
    (calls : List StreamCall) :
    ∀ stream ∈ performAll source calls,
      (ByteCursor.ofBytes source).Shows stream.position stream.rest := by
  induction calls using List.reverseRecOn with
  | nil => simpa [performAll] using ByteCursor.Shows.refl (.ofBytes source)
  | append_singleton calls call induction =>
      rw [performAll, List.foldl_concat]
      exact shows_of_perform call induction

/-- An exposed decoder fails where the decoder does. -/
theorem Decoder.Exposes.error_of_error {α : Type}
    {exposed : Decoder (α × List ByteCursor)} {decoder : Decoder α}
    {failure : Failure} (exposes : Exposes exposed decoder)
    (failed : decoder stream = .error failure) :
    exposed stream = .error failure := by
  rw [← exposes.map_fst, map_run] at failed
  cases outcome : exposed stream with
  | error reason =>
      rw [outcome] at failed
      cases failed
      rfl
  | ok result =>
      rw [outcome] at failed
      cases failed

/-- A call that peeks or fails changes no stream and adds none. -/
theorem StreamCall.perform_of_peeksOrFails {call : StreamCall}
    (idle : call.PeeksOrFails streams) : perform streams call = streams := by
  unfold perform
  split
  · rfl
  · rename_i stream found
    have refused := idle stream found
    obtain ⟨index, operation⟩ := call
    cases operation with
    | peek =>
        obtain ⟨bound, rfl⟩ := List.getElem?_eq_some_iff.mp found
        simp only [StreamOperation.run, List.append_nil, List.set_getElem_self]
    | copy => exact refused.elim
    | advance =>
        simp only at refused
        simp only [StreamOperation.run, refused, Option.map_none]
    | splitAt count =>
        simp only at refused
        simp only [StreamOperation.run, refused, Option.map_none]
    | decode decoder exposed exposes =>
        obtain ⟨failure, failed⟩ := refused
        simp only [StreamOperation.run, exposes.error_of_error failed]

end Windows

/-! ## Windows of the input -/

/-- The stream ends at `stop` in the source and stands at or before it. -/
structure ByteCursor.WindowOf (source : List UInt8) (stop : Nat)
    (stream : ByteCursor) : Prop where
  stop_le : stop ≤ source.length
  position_le : stream.position ≤ stop
  rest : stream.rest = (source.take stop).drop stream.position
  peek : stream.peek? = if stream.position < stop then
    source[stream.position]? else none
  isEmpty : stream.isEmpty = true ↔ stream.length = 0
  short : ∀ count, stream.length < count → stream.splitAt? count = none
  enough : ∀ count ≤ stream.length, ∃ part rest,
    stream.splitAt? count = some (part, rest) ∧
    part.rest ++ rest.rest = stream.rest ∧
    rest.position = part.position + part.length

namespace ByteCursor

variable {source : List UInt8} {stream : ByteCursor}

/-- What lies ahead of the start of the source ends in it. -/
theorem windowOf_of_shows
    (shown : (ofBytes source).Shows stream.position stream.rest) :
    stream.WindowOf source (stream.position + stream.length) := by
  obtain ⟨before, behind, whole, start⟩ := shown
  change source = before ++ (stream.rest ++ behind) at whole
  replace start : stream.position = before.length :=
    start.trans (Nat.zero_add _)
  have front :
      source.take (stream.position + stream.length) =
        before ++ stream.rest := by
    rw [whole, start, ← List.append_assoc, length, ← List.length_append,
      List.take_left]
  have rest : stream.rest =
      (source.take (stream.position + stream.length)).drop stream.position := by
    rw [front, start, List.drop_left]
  refine ⟨?_, Nat.le_add_right _ _, rest, ?_, ?_, ?_, ?_⟩
  · rw [whole, start]
    simp [length]
  · have ahead : source[stream.position]? = (stream.rest ++ behind).head? := by
      rw [← List.head?_drop, whole, start, List.drop_left]
    rw [ahead, peek?, length]
    cases stream.rest with
    | nil => simp
    | cons byte others => simp
  · rw [isEmpty, length, List.isEmpty_iff, List.length_eq_zero_iff]
  · intro count short
    exact if_neg (Nat.not_le_of_lt short)
  · intro count enough
    have split : stream.splitAt? count = some (_, _) := if_pos enough
    exact ⟨_, _, split, rest_append_rest_of_splitAt? split,
      position_of_splitAt? split⟩

/-- The first bytes of the source, up to where a window ends, are a buffer
behind the window. -/
theorem WindowOf.backs {stop limit : Nat} (window : stream.WindowOf source stop)
    (addressable : source.length < limit) :
    Buffer.Backs limit ⟨source.take stop, stream.position⟩ stream := by
  have length : (source.take stop).length = stop := by
    rw [List.length_take, Nat.min_eq_left window.stop_le]
  have valid : (Buffer.mk (source.take stop) stream.position).Valid := by
    change stream.position ≤ (source.take stop).length
    rw [length]
    exact window.position_le
  have short : (source.take stop).length < limit := by
    rw [length]
    exact Nat.lt_of_le_of_lt window.stop_le addressable
  have view :
      (Buffer.mk (source.take stop) stream.position).cursor = stream := by
    rw [Buffer.cursor, ← window.rest]
  have backs := Buffer.backs_cursor valid short
  rw [view] at backs
  exact backs

end ByteCursor

/-- Streams that come from one input stay windows of it, whatever calls there
are, and a call that peeks or fails leaves all of them as they are.  Any
composed decoder may be called. -/
theorem streams_stay_windows {limit : Nat} {source : List UInt8}
    (addressable : source.length < limit) :
    (∀ {α : Type} {decoder : Decoder α}, decoder.Composed →
      ∃ exposed, Decoder.Exposes exposed decoder) ∧
    (∀ {α : Type} {decoder : Decoder α}
      {exposed : Decoder (α × List ByteCursor)},
      Decoder.Exposes exposed decoder → Prod.fst <$> exposed = decoder) ∧
    (∀ calls, ∀ stream ∈ StreamCall.performAll source calls, ∃ stop,
      stream.WindowOf source stop ∧
      Buffer.Backs limit ⟨source.take stop, stream.position⟩ stream) ∧
    (∀ calls call, call.PeeksOrFails (StreamCall.performAll source calls) →
      StreamCall.performAll source (calls ++ [call]) =
        StreamCall.performAll source calls) := by
  refine ⟨Decoder.Composed.exists_exposes, Decoder.Exposes.map_fst, ?_, ?_⟩
  · intro calls stream member
    have shown := StreamCall.shows_of_performAll source calls stream member
    have window := ByteCursor.windowOf_of_shows shown
    exact ⟨_, window, window.backs addressable⟩
  · intro calls call idle
    rw [StreamCall.performAll, List.foldl_concat]
    exact StreamCall.perform_of_peeksOrFails idle

/-- A stream is advanced and a window decoded from it, of which no more can be
split off than it holds. -/
theorem streams_stay_windows_behind_window :
    StreamCall.performAll [0x0A, 0x0B, 0x0C, 0x0D]
        [⟨0, .advance⟩, ⟨0, .decode (.window 2) _ (.window 2)⟩] =
      [⟨1, [0x0B, 0x0C, 0x0D]⟩, ⟨3, [0x0D]⟩, ⟨1, [0x0B, 0x0C]⟩] ∧
    (∃ stop,
      ByteCursor.WindowOf [0x0A, 0x0B, 0x0C, 0x0D] stop ⟨1, [0x0B, 0x0C]⟩ ∧
      Buffer.Backs (2 ^ 64) ⟨[0x0A, 0x0B, 0x0C, 0x0D].take stop, 1⟩ ⟨1,
        [0x0B, 0x0C]⟩) ∧
    StreamCall.performAll [0x0A, 0x0B, 0x0C, 0x0D]
        ([⟨0, .advance⟩, ⟨0, .decode (.window 2) _ (.window 2)⟩] ++
          [⟨2, .splitAt (2 ^ 64 - 1)⟩]) =
      [⟨1, [0x0B, 0x0C, 0x0D]⟩, ⟨3, [0x0D]⟩, ⟨1, [0x0B, 0x0C]⟩] := by
  have small : ([0x0A, 0x0B, 0x0C, 0x0D] : List UInt8).length < 2 ^ 64 := by
    decide
  obtain ⟨_, _, windows, unchanged⟩ := streams_stay_windows small
  have streams : StreamCall.performAll [0x0A, 0x0B, 0x0C, 0x0D]
        [⟨0, .advance⟩, ⟨0, .decode (.window 2) _ (.window 2)⟩] =
      [⟨1, [0x0B, 0x0C, 0x0D]⟩, ⟨3, [0x0D]⟩, ⟨1, [0x0B, 0x0C]⟩] := rfl
  refine ⟨streams, ?_, ?_⟩
  · apply windows [⟨0, .advance⟩, ⟨0, .decode (.window 2) _ (.window 2)⟩]
    rw [streams]
    simp
  · rw [← streams]
    apply unchanged
    intro stream found
    cases found
    decide

end Wasm

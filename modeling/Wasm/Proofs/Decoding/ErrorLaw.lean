import Wasm.Decoding.Leb128.Wrapping
import Wasm.Proofs.BinaryGrammar.Recognition

/-!
# Laws that errors obey

An error law says which errors a decoder may report on a cursor.  It has to
admit the errors of the primitives and must not depend on more bytes being
visible, so that it survives every sequence of decoders and every window.
Decoders that obey a law also never move backwards or beyond the bytes they were
given.
-/

namespace Wasm

namespace ByteCursor

/-- The bytes stand at a location that is still in front of the cursor. -/
def Shows (cursor : ByteCursor) (location : Nat) (bytes : List UInt8) : Prop :=
  ∃ before behind,
    cursor.rest = before ++ (bytes ++ behind) ∧
      location = cursor.position + before.length

/-- The second cursor is the first one after some bytes have been read. -/
def Reaches (cursor after : ByteCursor) : Prop :=
  ∃ consumed,
    cursor.rest = consumed ++ after.rest ∧
      after.position = cursor.position + consumed.length

theorem Reaches.refl (cursor : ByteCursor) : cursor.Reaches cursor :=
  ⟨[], rfl, rfl⟩

theorem Reaches.trans {first second third : ByteCursor}
    (left : first.Reaches second) (right : second.Reaches third) :
    first.Reaches third := by
  obtain ⟨front, frontRest, frontPosition⟩ := left
  obtain ⟨back, backRest, backPosition⟩ := right
  refine ⟨front ++ back, ?_, ?_⟩
  · rw [frontRest, backRest, List.append_assoc]
  · rw [backPosition, frontPosition, List.length_append, Nat.add_assoc]

theorem Reaches.next (position : Nat) (byte : UInt8) (rest : List UInt8) :
    Reaches ⟨position, byte :: rest⟩ ⟨position + 1, rest⟩ :=
  ⟨[byte], rfl, rfl⟩

theorem Reaches.shows {cursor after : ByteCursor}
    (reaches : cursor.Reaches after) :
    cursor.Shows after.position after.rest := by
  obtain ⟨consumed, rest, position⟩ := reaches
  refine ⟨consumed, [], ?_, position⟩
  rw [rest, List.append_nil]

theorem Shows.trans {cursor part : ByteCursor} {location : Nat}
    {bytes : List UInt8} (outer : cursor.Shows part.position part.rest)
    (inner : part.Shows location bytes) :
    cursor.Shows location bytes := by
  obtain ⟨before, behind, rest, position⟩ := outer
  obtain ⟨innerBefore, innerBehind, innerRest, rfl⟩ := inner
  refine ⟨before ++ innerBefore, innerBehind ++ behind, ?_, ?_⟩
  · rw [rest, innerRest]
    simp only [List.append_assoc]
  · rw [position, List.length_append, Nat.add_assoc]

end ByteCursor

/-- What errors may say about the bytes in front of a cursor. -/
structure ErrorLaw where
  Holds : ByteCursor → DecodeError → Prop
  ending : ∀ cursor, Holds cursor .unexpectedEnd
  unexpected : ∀ cursor byte location,
    cursor.Shows location [byte] → Holds cursor (.unexpected byte location)
  widen : ∀ cursor part error,
    cursor.Shows part.position part.rest → Holds part error → Holds cursor error

namespace ErrorLaw

variable {α β : Type} (law : ErrorLaw)

/-- The outcome of a decoder on a cursor stays in the bytes of the cursor, and
so does what its error says. -/
def Answers (cursor : ByteCursor) : Except Failure (α × ByteCursor) → Prop
  | .ok (_, after) => cursor.Reaches after
  | .error failure => law.Holds cursor failure.error

/-- A decoder obeys the law on every cursor. -/
def Obeys (decoder : Decoder α) : Prop :=
  ∀ cursor, law.Answers cursor (decoder cursor)

/-- Nothing is read after a window, and errors are about the window. -/
def Reviews (part : ByteCursor) (decoder : Decoder α) : Prop :=
  ∀ behind, match decoder behind with
    | .ok (_, after) => after = behind
    | .error failure => law.Holds part failure.error

variable {law}

theorem holds_first (position : Nat) (byte : UInt8) (rest : List UInt8) :
    law.Holds ⟨position, byte :: rest⟩ (.unexpected byte position) :=
  law.unexpected _ _ _ ⟨[], rest, rfl, rfl⟩

theorem holds_atCursor (cursor : ByteCursor) :
    law.Holds cursor (.atCursor cursor) := by
  obtain ⟨position, input⟩ := cursor
  cases input with
  | nil => exact law.ending _
  | cons byte rest => exact holds_first position byte rest

theorem Answers.advance {cursor between : ByteCursor}
    {outcome : Except Failure (α × ByteCursor)}
    (reaches : cursor.Reaches between) (answers : law.Answers between outcome) :
    law.Answers cursor outcome := by
  cases outcome with
  | ok result => exact reaches.trans answers
  | error failure => exact law.widen _ _ _ reaches.shows answers

theorem Answers.map {cursor : ByteCursor}
    {outcome : Except Failure (α × ByteCursor)}
    (answers : law.Answers cursor outcome) (convert : α → β) :
    law.Answers cursor (outcome.map fun (value, after) =>
      (convert value, after)) := by
  cases outcome with
  | ok result => exact answers
  | error failure => exact answers

-- The second step is judged from the first cursor, because some decoders report
-- an error at the place where they started.
theorem answers_bind {first : Decoder α} {second : α → Decoder β}
    {cursor : ByteCursor} (before : law.Answers cursor (first cursor))
    (behind : ∀ value between, first cursor = .ok (value, between) →
      law.Answers cursor (second value between)) :
    law.Answers cursor ((first >>= second) cursor) := by
  change law.Answers cursor (first cursor >>= fun result =>
    second result.1 result.2)
  cases run : first cursor with
  | error failure =>
      rw [run] at before
      exact before
  | ok result => exact behind result.1 result.2 run

theorem obeys_pure (value : α) : law.Obeys (pure value) :=
  fun cursor => ByteCursor.Reaches.refl cursor

theorem Obeys.bind {first : Decoder α} {second : α → Decoder β}
    (before : law.Obeys first) (behind : ∀ value, law.Obeys (second value)) :
    law.Obeys (first >>= second) := by
  intro cursor
  apply answers_bind (before cursor)
  intro value between run
  have reaches := before cursor
  rw [run] at reaches
  exact (behind value between).advance reaches

theorem Obeys.map {decoder : Decoder α} (obeys : law.Obeys decoder)
    (convert : α → β) :
    law.Obeys (convert <$> decoder) := by
  rw [← bind_pure_comp]
  exact obeys.bind fun value => obeys_pure (convert value)

theorem Obeys.exhaust {decoder : Decoder α} (obeys : law.Obeys decoder) :
    law.Obeys decoder.exhaust := by
  apply obeys.bind
  intro value cursor
  change law.Answers cursor
    ((if cursor.isEmpty then pure value
      else Decoder.reject (.atCursor cursor) : Decoder α) cursor)
  split
  · exact ByteCursor.Reaches.refl cursor
  · exact holds_atCursor cursor

theorem Obeys.alternative {first second : Decoder α}
    (left : law.Obeys first) (right : law.Obeys second) :
    law.Obeys (first.alternative second) := by
  intro cursor
  have outcome := left cursor
  unfold Decoder.alternative
  split
  · exact right cursor
  · exact outcome

theorem Obeys.commit {decoder : Decoder α} (obeys : law.Obeys decoder) :
    law.Obeys decoder.commit := by
  intro cursor
  have outcome := obeys cursor
  unfold Decoder.commit
  cases run : decoder cursor with
  | ok result =>
      rw [run] at outcome
      exact outcome
  | error failure =>
      rw [run] at outcome
      cases failure <;> exact outcome

/-! ## Bytes and integers -/

theorem obeys_byteMap (read : UInt8 → Option α) :
    law.Obeys (Decoder.byteMap read) := by
  intro cursor
  obtain ⟨position, input⟩ := cursor
  cases input with
  | nil => exact law.ending _
  | cons byte rest =>
      simp only [Decoder.byteMap]
      split
      · exact ByteCursor.Reaches.next position byte rest
      · exact holds_first position byte rest

private theorem answers_boundedFrom (width : Nat) (signed : Bool)
    (input : List UInt8) (shift position : Nat) :
    law.Answers ⟨position, input⟩
      (Leb128.boundedFrom width signed shift position input) := by
  induction input generalizing shift position with
  | nil => exact law.ending _
  | cons byte rest induction =>
      have refused :
          law.Holds ⟨position, byte :: rest⟩ (.unexpected byte position) :=
        holds_first position byte rest
      have step := ByteCursor.Reaches.next position byte rest
      have higher := (induction (shift + 7) (position + 1)).advance step
      unfold Leb128.boundedFrom
      split
      · split
        · split
          · exact law.ending _
          · exact refused
        · split
          · exact step
          · exact refused
      · split
        · exact higher.map _
        · exact step

private theorem answers_wrappingFrom (rule : Leb128.SignRule) (width : Nat)
    (input : List UInt8) (shift position : Nat) :
    law.Answers ⟨position, input⟩
      (Leb128.wrappingFrom rule width shift position input) := by
  induction input generalizing shift position with
  | nil => exact law.ending _
  | cons byte rest induction =>
      have step := ByteCursor.Reaches.next position byte rest
      have higher := (induction (shift + 7) (position + 1)).advance step
      unfold Leb128.wrappingFrom
      split
      · exact higher.map _
      · exact step

theorem obeys_bounded (width : Nat) (signed : Bool) :
    law.Obeys (Leb128.bounded width signed) :=
  fun cursor => answers_boundedFrom width signed cursor.rest 0 cursor.position

theorem obeys_wrapping (rule : Leb128.SignRule) (bits : Nat) :
    law.Obeys (Leb128.wrapping rule bits) := by
  unfold Leb128.wrapping
  simp only
  split
  · exact obeys_byteMap _
  · exact fun cursor =>
      answers_wrappingFrom rule _ cursor.rest 0 cursor.position

theorem obeys_uint32 : law.Obeys Leb128.uint32 :=
  (obeys_bounded 32 false).bind fun _ => obeys_pure _

/-! ## Windows -/

theorem obeys_window {count : UInt32} {inside : ByteCursor → Decoder α}
    (reviews : ∀ part, law.Reviews part (inside part)) :
    law.Obeys (Decoder.window count >>= inside) := by
  intro cursor
  apply answers_bind
  · cases run : Decoder.window count cursor with
    | ok parts =>
        obtain ⟨length, _, rest, position⟩ := Decoder.window_eq_ok_iff.mp run
        rw [← length] at position
        exact ⟨parts.1.rest, rest, position⟩
    | error failure =>
        unfold Decoder.window at run
        split at run
        · cases run
        · cases run
          exact law.ending cursor
  · intro part behind run
    obtain ⟨length, start, rest, position⟩ := Decoder.window_eq_ok_iff.mp run
    have outcome := reviews part behind
    cases result : inside part behind with
    | ok pair =>
        obtain ⟨value, after⟩ := pair
        rw [result] at outcome
        obtain rfl : after = behind := outcome
        rw [← length] at position
        exact ⟨part.rest, rest, position⟩
    | error failure =>
        rw [result] at outcome
        exact law.widen _ _ _ ⟨[], behind.rest, rest, start⟩ outcome

theorem obeys_take (count : UInt32) : law.Obeys (Decoder.take count) :=
  obeys_window fun _ _ => rfl

theorem Obeys.within {decoder : Decoder α} (obeys : law.Obeys decoder)
    (count : UInt32) :
    law.Obeys (Decoder.within count decoder) := by
  apply obeys_window
  intro part behind
  have outcome := obeys.exhaust part
  cases run : decoder.exhaust part with
  | ok result => rfl
  | error failure =>
      rw [run] at outcome
      exact outcome

-- The offset that is reported is counted back from the end of the window; what
-- has been decoded before it gives the same place from the front.
theorem obeys_name : law.Obeys Decoder.name := by
  apply obeys_uint32.bind
  intro count
  apply obeys_window
  intro part behind
  have whole := Utf8.encode_decode_append part.rest
  cases decoded : Utf8.decode part.rest with
  | mk characters remaining =>
      rw [decoded] at whole
      cases remaining with
      | nil => rfl
      | cons byte remaining =>
          apply law.unexpected
          refine ⟨Utf8.encode characters, remaining, whole.symm, ?_⟩
          rw [← whole]
          simp only [List.length_append, List.length_cons]
          omega

end ErrorLaw

end Wasm

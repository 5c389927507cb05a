import Mathlib.Logic.Relation
import Wasm.Proofs.Decoding.Honesty
import Wasm.Proofs.Decoding.Relocation

/-!
# Decoding depends on the bytes ahead only

What stands before the place where a decoder starts and what stands behind its
window plays no role.  A decoder that keeps no window returns the same value at
every place.  One that returns windows returns them at the place where it
started, and whatever is computed from them is computed from the moved windows.
-/

namespace Wasm.Decoder

variable {α β : Type}

/-- Composed decoders that keep no window as a value. -/
inductive Windowless : {α : Type} → Decoder α → Prop where
  | elementary {α : Type} {decoder : Decoder α} :
      Elementary decoder → Windowless decoder
  | nonemptyVector {α : Type} {element : Decoder α} :
      Windowless element → Windowless element.nonemptyVector
  | vector {α : Type} {element : Decoder α} :
      Windowless element → Windowless element.vector
  | pair {α β : Type} {first : Decoder α} {second : Decoder β} :
      Windowless first → Windowless second → Windowless (first.pair second)
  | preceded {α β : Type} {first : Decoder α} {second : Decoder β} :
      Windowless first → Windowless second → Windowless (first.preceded second)
  | alternative {α : Type} {first second : Decoder α} :
      Windowless first → Windowless second →
        Windowless (first.alternative second)
  | map {α β : Type} {decoder : Decoder α} (convert : α → β) :
      Windowless decoder → Windowless (convert <$> decoder)
  | exhaust {α : Type} {decoder : Decoder α} :
      Windowless decoder → Windowless decoder.exhaust
  | commit {α : Type} {decoder : Decoder α} :
      Windowless decoder → Windowless decoder.commit
  | within {α : Type} (count : UInt32) {decoder : Decoder α} :
      Windowless decoder → Windowless (within count decoder)

/-- A composed decoder, and the relation between its values at two places that
follows the windows through the composition: a window is related to the moved
window, every other elementary value to itself. -/
inductive Tracks : {α : Type} → (Nat → α → α → Prop) → Decoder α → Prop where
  | elementary {α : Type} {decoder : Decoder α} :
      Elementary decoder → Tracks (fun _ => Eq) decoder
  | window (count : UInt32) :
      Tracks (fun amount here there => there = here.moved amount) (window count)
  | nonemptyVector {α : Type} {alike : Nat → α → α → Prop}
      {element : Decoder α} : Tracks alike element →
      Tracks (fun amount => List.Forall₂ (alike amount)) element.nonemptyVector
  | vector {α : Type} {alike : Nat → α → α → Prop} {element : Decoder α} :
      Tracks alike element →
        Tracks (fun amount => List.Forall₂ (alike amount)) element.vector
  | pair {α β : Type} {left : Nat → α → α → Prop} {right : Nat → β → β → Prop}
      {first : Decoder α} {second : Decoder β} :
      Tracks left first → Tracks right second →
      Tracks (fun amount here there =>
        left amount here.1 there.1 ∧ right amount here.2 there.2)
          (first.pair second)
  | preceded {α β : Type} {left : Nat → α → α → Prop}
      {right : Nat → β → β → Prop} {first : Decoder α} {second : Decoder β} :
      Tracks left first → Tracks right second →
        Tracks right (first.preceded second)
  | alternative {α : Type} {left right : Nat → α → α → Prop}
      {first second : Decoder α} : Tracks left first → Tracks right second →
      Tracks (fun amount here there => left amount here there ∨
        right amount here there) (first.alternative second)
  | map {α β : Type} {alike : Nat → α → α → Prop} {decoder : Decoder α}
      (convert : α → β) : Tracks alike decoder →
      Tracks (fun amount => Relation.Map (alike amount) convert convert)
        (convert <$> decoder)
  | exhaust {α : Type} {alike : Nat → α → α → Prop} {decoder : Decoder α} :
      Tracks alike decoder → Tracks alike decoder.exhaust
  | commit {α : Type} {alike : Nat → α → α → Prop} {decoder : Decoder α} :
      Tracks alike decoder → Tracks alike decoder.commit
  | within {α : Type} {alike : Nat → α → α → Prop} (count : UInt32)
      {decoder : Decoder α} :
      Tracks alike decoder → Tracks alike (within count decoder)

theorem Composed.exists_tracks {decoder : Decoder α}
    (composed : decoder.Composed) :
    ∃ alike, decoder.Tracks alike := by
  induction composed with
  | elementary elementary => exact ⟨_, .elementary elementary⟩
  | window count => exact ⟨_, .window count⟩
  | nonemptyVector _ induction =>
      exact ⟨_, induction.choose_spec.nonemptyVector⟩
  | vector _ induction => exact ⟨_, induction.choose_spec.vector⟩
  | pair _ _ left right => exact ⟨_, left.choose_spec.pair right.choose_spec⟩
  | preceded _ _ left right =>
      exact ⟨_, left.choose_spec.preceded right.choose_spec⟩
  | alternative _ _ left right =>
      exact ⟨_, left.choose_spec.alternative right.choose_spec⟩
  | map convert _ induction => exact ⟨_, induction.choose_spec.map convert⟩
  | exhaust _ induction => exact ⟨_, induction.choose_spec.exhaust⟩
  | commit _ induction => exact ⟨_, induction.choose_spec.commit⟩
  | within count _ induction => exact ⟨_, induction.choose_spec.within count⟩

theorem Windowless.placeFree {decoder : Decoder α}
    (windowless : decoder.Windowless) :
    decoder.PlaceFree := by
  induction windowless with
  | elementary elementary => exact SequenceLaw.placeFree.elementary elementary
  | nonemptyVector _ induction =>
      intro amount
      have listed := mirrors_nonemptyVector (induction amount)
      rwa [List.forall₂_eq_eq_eq] at listed
  | vector _ induction => exact SequenceLaw.placeFree.vector induction
  | pair _ _ left right => exact SequenceLaw.placeFree.pair left right Prod.mk
  | preceded _ _ left right => exact left.bind fun _ => right
  | alternative _ _ left right =>
      exact fun amount => (left amount).alternative (right amount)
  | map convert _ induction => exact SequenceLaw.placeFree.map induction convert
  | exhaust _ induction => exact fun amount => (induction amount).exhaust
  | commit _ induction => exact fun amount => (induction amount).commit
  | within count _ induction =>
      exact fun amount => (induction amount).within count

theorem Tracks.mirrors {alike : Nat → α → α → Prop} {decoder : Decoder α}
    (tracks : decoder.Tracks alike) (amount : Nat) :
    Mirrors amount (alike amount) decoder decoder := by
  induction tracks with
  | elementary elementary =>
      exact SequenceLaw.placeFree.elementary elementary amount
  | window count => exact mirrors_window count
  | nonemptyVector _ induction => exact mirrors_nonemptyVector induction
  | vector _ induction => exact mirrors_vector induction
  | pair _ _ left right =>
      apply left.bind
      intro first first' firstLike
      apply right.bind
      intro second second' secondLike
      exact mirrors_pure ⟨firstLike, secondLike⟩
  | preceded _ _ left right => exact left.bind fun _ _ _ => right
  | alternative _ _ left right =>
      apply Mirrors.alternative
      · exact left.mono fun _ _ like => Or.inl like
      · exact right.mono fun _ _ like => Or.inr like
  | map convert _ induction =>
      exact induction.map fun here there like => ⟨here, there, like, rfl, rfl⟩
  | exhaust _ induction => exact induction.exhaust
  | commit _ induction => exact induction.commit
  | within count _ induction => exact induction.within count

/-- The decoder does the same on some bytes alone, on the same bytes at the end
of a longer input, and in a window over them that has other bytes on both sides.
Offsets are moved by what stands before the bytes. -/
def Undisturbed (decoder : Decoder α) (alike : Nat → α → α → Prop) : Prop :=
  ∀ before ahead behind : List UInt8,
    ∃ part rest,
      (ByteCursor.inBytes (before ++ ahead ++ behind) before.length).splitAt?
        ahead.length = some (part, rest) ∧
      Moved before.length (alike before.length) (decoder (.ofBytes ahead))
        (decoder (.inBytes (before ++ ahead) before.length)) ∧
      Moved before.length (alike before.length) (decoder (.ofBytes ahead))
        (decoder part)

theorem inBytes_append (before ahead : List UInt8) :
    ByteCursor.inBytes (before ++ ahead) before.length =
      (ByteCursor.ofBytes ahead).moved before.length := by
  unfold ByteCursor.inBytes ByteCursor.ofBytes ByteCursor.moved
  rw [List.drop_left, Nat.zero_add]

theorem undisturbed_of_mirrors {decoder : Decoder α}
    {alike : Nat → α → α → Prop}
    (mirrors : ∀ amount, Mirrors amount (alike amount) decoder decoder) :
    decoder.Undisturbed alike := by
  intro before ahead behind
  have same := mirrors before.length (.ofBytes ahead)
  refine ⟨(ByteCursor.ofBytes ahead).moved before.length,
    ⟨before.length + ahead.length, behind⟩, ?_, ?_, same⟩
  · apply ByteCursor.splitAt?_eq_some_iff.mpr
    rw [List.append_assoc, inBytes_append]
    simp [ByteCursor.ofBytes, ByteCursor.moved]
  · rw [inBytes_append]
    exact same

/-- Neither the bytes before the place where a composed decoder starts nor those
behind its window make a difference. -/
theorem decoding_depends_only_on_bytes_ahead :
    (∀ {α : Type} (decoder : Decoder α), decoder.Windowless →
      decoder.Undisturbed fun _ => Eq) ∧
    (∀ {α : Type} (decoder : Decoder α), decoder.Composed →
      (∃ alike, decoder.Tracks alike) ∧
        ∀ alike, decoder.Tracks alike → decoder.Undisturbed alike) := by
  constructor
  · intro α decoder windowless
    exact undisturbed_of_mirrors windowless.placeFree
  · intro α decoder composed
    refine ⟨composed.exists_tracks, ?_⟩
    intro alike tracks
    exact undisturbed_of_mirrors tracks.mirrors

/-- A wrong byte inside a window, and the position of a window itself. -/
theorem decoding_behind_a_byte_depends_only_on_bytes_ahead :
    (within 2 ValueType.decoder.nonemptyVector.commit
      (.inBytes [0xAA, 0x01, 0x00] 1) =
        .error (.fatal (.unexpected 0x00 2)) ∧
      (within 2 ValueType.decoder.nonemptyVector.commit).Undisturbed fun _ =>
        Eq) ∧
    (ByteCursor.position <$> window 2).Undisturbed fun amount =>
      Relation.Map (fun here there => there = here.moved amount)
        ByteCursor.position ByteCursor.position := by
  obtain ⟨values, windows⟩ := decoding_depends_only_on_bytes_ahead
  have listed : (within 2 ValueType.decoder.nonemptyVector.commit).Windowless :=
    .within 2 (.commit (.nonemptyVector (.elementary .valueType)))
  have composed : (ByteCursor.position <$> window 2).Composed :=
    .map _ (.window 2)
  exact ⟨⟨rfl, values _ listed⟩, (windows _ composed).2 _ (.map _ (.window 2))⟩

end Wasm.Decoder

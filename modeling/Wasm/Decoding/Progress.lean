import Wasm.Decoding.Leb128.Bounded

/-!
# Decoders do not give bytes back

`NonGrowing` decoders leave at most the bytes they were given, and `Consuming`
ones leave fewer.  A loop that runs a consuming decoder until the input is empty
therefore ends.
-/

namespace Wasm

namespace Decoder

variable {α β : Type}

/-- A successful run never leaves more bytes than it was given. -/
def NonGrowing (decoder : Decoder α) : Prop :=
  ∀ ⦃cursor after : ByteCursor⦄ ⦃value : α⦄,
    decoder cursor = .ok (value, after) → after.rest.length ≤ cursor.rest.length

/-- A successful run leaves fewer bytes than it was given. -/
def Consuming (decoder : Decoder α) : Prop :=
  ∀ ⦃cursor after : ByteCursor⦄ ⦃value : α⦄,
    decoder cursor = .ok (value, after) → after.rest.length < cursor.rest.length

theorem Consuming.nonGrowing {decoder : Decoder α}
    (consuming : decoder.Consuming) :
    decoder.NonGrowing :=
  fun _ _ _ run => Nat.le_of_lt (consuming run)

/-- A sequence succeeds exactly when both of its steps do. -/
theorem bind_eq_ok_iff {first : Decoder α} {second : α → Decoder β}
    {cursor after : ByteCursor} {value : β} :
    (first >>= second) cursor = .ok (value, after) ↔
      ∃ middle between,
        first cursor = .ok (middle, between) ∧
          second middle between = .ok (value, after) := by
  change (first cursor >>= fun result => second result.1 result.2) = _ ↔ _
  cases first cursor with
  | error failure => simp [bind, Except.bind]
  | ok result =>
      simp only [bind, Except.bind, Except.ok.injEq]
      constructor
      · exact fun ran => ⟨result.1, result.2, rfl, ran⟩
      · rintro ⟨middle, between, rfl, ran⟩
        exact ran

theorem pure_nonGrowing (value : α) : (pure value : Decoder α).NonGrowing := by
  intro cursor after result run
  cases run
  exact Nat.le_refl _

theorem NonGrowing.bind {first : Decoder α} {second : α → Decoder β}
    (before : first.NonGrowing) (behind : ∀ value, (second value).NonGrowing) :
    (first >>= second).NonGrowing := by
  intro cursor after value run
  obtain ⟨middle, between, ran, rest⟩ := bind_eq_ok_iff.mp run
  exact Nat.le_trans (behind middle rest) (before ran)

theorem Consuming.bind {first : Decoder α} {second : α → Decoder β}
    (before : first.Consuming) (behind : ∀ value, (second value).NonGrowing) :
    (first >>= second).Consuming := by
  intro cursor after value run
  obtain ⟨middle, between, ran, rest⟩ := bind_eq_ok_iff.mp run
  exact Nat.lt_of_le_of_lt (behind middle rest) (before ran)

theorem Consuming.bind_get {second : ByteCursor → Decoder β}
    (behind : ∀ cursor, (second cursor).Consuming) :
    (get >>= second : Decoder β).Consuming := by
  intro cursor after value run
  exact behind cursor run

theorem reject_nonGrowing (error : DecodeError) :
    (reject error : Decoder α).NonGrowing := by
  intro cursor after value run
  cases run

theorem byteMap_consuming (read : UInt8 → Option α) :
    (byteMap read).Consuming := by
  intro cursor after value run
  unfold byteMap at run
  split at run
  · cases run
  · rename_i byte rest remaining
    split at run
    · cases run
      simp [remaining]
    · cases run

theorem window_nonGrowing (count : UInt32) : (window count).NonGrowing := by
  intro cursor after part run
  unfold window at run
  split at run
  · rename_i parts split
    cases run
    obtain ⟨_, _, rfl⟩ := ByteCursor.splitAt?_eq_some_iff.mp split
    simp
  · cases run

end Decoder

namespace Leb128

private theorem boundedFrom_length_lt {width : Nat} {signed : Bool}
    {bytes : List UInt8} {shift position : Nat} {word : UInt64}
    {after : ByteCursor}
    (run : boundedFrom width signed shift position bytes = .ok (word, after)) :
    after.rest.length < bytes.length := by
  induction bytes generalizing shift position word with
  | nil => cases run
  | cons byte rest induction =>
      unfold boundedFrom at run
      split at run
      · split at run
        · split at run <;> cases run
        · split at run
          · cases run
            simp
          · cases run
      · split at run
        · cases higher :
            boundedFrom width signed (shift + 7) (position + 1) rest with
          | error failure =>
              rw [higher] at run
              cases run
          | ok result =>
              rw [higher] at run
              cases run
              exact Nat.lt_succ_of_lt (induction higher)
        · cases run
          simp

theorem uint32_consuming : uint32.Consuming := by
  have word : (bounded 32 false).Consuming := fun _ _ _ run =>
      boundedFrom_length_lt run
  exact word.bind fun _ => Decoder.pure_nonGrowing _

end Leb128

end Wasm

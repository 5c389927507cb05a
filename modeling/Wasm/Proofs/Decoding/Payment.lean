import Wasm.Format.Section
import Wasm.Proofs.BinaryGrammar.Recognition

/-!
# What decoders return is paid for in bytes

Whatever a decoder returns is charged to the bytes that it has read.  A step of
a sequence has the bytes of the steps before it as a credit, so the charges of a
record are those of its fields together.  The length of a vector is never a
charge: its elements are.
-/

namespace Wasm.Decoder

variable {α β : Type}

/-- What a successful run returns weighs no more than the bytes that it has read
and a credit. -/
def Pays (decoder : Decoder α) (credit : Nat) (weight : α → Nat) : Prop :=
  ∀ ⦃cursor after : ByteCursor⦄ ⦃value : α⦄,
    decoder cursor = .ok (value, after) →
    weight value + after.rest.length ≤ credit + cursor.rest.length

theorem map_eq_ok_iff {decoder : Decoder α} {convert : α → β}
    {cursor after : ByteCursor} {result : β} :
    (convert <$> decoder) cursor = .ok (result, after) ↔
      ∃ value, decoder cursor = .ok (value, after) ∧
        result = convert value := by
  rw [← bind_pure_comp, bind_eq_ok_iff]
  constructor
  · rintro ⟨value, between, ran, converted⟩
    cases converted
    exact ⟨value, ran, rfl⟩
  · rintro ⟨value, ran, rfl⟩
    exact ⟨value, after, ran, rfl⟩

section Sequences

variable {credit : Nat} {weight : α → Nat} {whole : β → Nat}

theorem pays_pure {value : α} (covered : weight value ≤ credit) :
    (pure value : Decoder α).Pays credit weight := by
  intro cursor after result run
  cases run
  exact Nat.add_le_add_right covered _

theorem pays_reject (error : DecodeError) :
    (reject error : Decoder α).Pays credit weight := by
  intro cursor after result run
  cases run

theorem Pays.bind {first : Decoder α} {second : α → Decoder β}
    (before : first.Pays 0 weight)
    (behind : ∀ value, (second value).Pays (credit + weight value) whole) :
    (first >>= second).Pays credit whole := by
  intro cursor after result run
  obtain ⟨value, between, ran, rest⟩ := bind_eq_ok_iff.mp run
  have paid := before ran
  have later := behind value rest
  omega

theorem Pays.replicate {decoder : Decoder α} (pays : decoder.Pays 0 weight)
    (count : Nat) :
    (decoder.replicate count).Pays 0 fun values => (values.map weight).sum := by
  induction count with
  | zero => exact pays_pure (Nat.le_refl 0)
  | succ count induction =>
      apply pays.bind
      intro first
      apply induction.bind
      intro others
      apply pays_pure
      rw [List.map_cons, List.sum_cons]
      omega

end Sequences

/-! ## Bytes and windows -/

theorem Consuming.pays {decoder : Decoder α} (consuming : decoder.Consuming) :
    decoder.Pays 0 fun _ => 1 := by
  intro cursor after value run
  have fewer := consuming run
  simp only
  omega

/-- A decoder whose production has no empty form reads at least one byte. -/
theorem Recognises.consuming {decoder : Decoder α} {production : Production α}
    (recognises : decoder.Recognises production)
    (nonempty : ∀ value, ¬ production value []) :
    decoder.Consuming := by
  intro cursor after value run
  obtain ⟨consumed, written, rest, _⟩ := recognises.mp run
  have some : consumed ≠ [] := by
    rintro rfl
    exact nonempty value written
  rw [rest, List.length_append]
  exact Nat.lt_add_of_pos_left (List.length_pos_iff.mpr some)

theorem pays_uint32 : Leb128.uint32.Pays 0 fun _ => 1 :=
  Leb128.uint32_consuming.pays

theorem pays_window (count : UInt32) :
    (window count).Pays 0 fun part => part.rest.length := by
  intro cursor after part run
  obtain ⟨_, _, rest, _⟩ := window_eq_ok_iff.mp run
  simp only [rest, List.length_append, Nat.zero_add, Nat.le_refl]

theorem pays_take (count : UInt32) : (take count).Pays 0 List.length := by
  apply (pays_window count).bind
  intro part
  apply pays_pure
  omega

theorem pays_takeRest : takeRest.Pays 0 List.length :=
  fun _ _ _ run => pays_take _ run

theorem Pays.exhaust {decoder : Decoder α} {weight : α → Nat}
    (pays : decoder.Pays 0 weight) :
    decoder.exhaust.Pays 0 weight := by
  intro cursor after value run
  exact pays (exhaust_eq_ok_iff.mp run).1

/-- Contents that are paid for within a window are paid for by the window. -/
theorem Pays.within {decoder : Decoder α} {weight : α → Nat}
    (pays : decoder.Pays 0 weight) (count : UInt32) :
    (within count decoder).Pays 0 weight := by
  apply (pays_window count).bind
  intro part
  cases run : decoder.exhaust part with
  | error failure =>
      intro cursor after value impossible
      cases impossible
  | ok result =>
      obtain ⟨value, after⟩ := result
      have paid := pays.exhaust run
      apply pays_pure
      omega

/-! ## Data behind a length -/

/-- Elements that hold nothing are charged a byte each, and the length is
charged one. -/
theorem Consuming.vector_pays {element : Decoder α}
    (consuming : element.Consuming) :
    element.vector.Pays 0 fun values => 1 + values.length := by
  apply pays_uint32.bind
  intro length cursor after values run
  have paid := consuming.pays.replicate length.toNat run
  simp only [List.map_const', List.sum_replicate_nat, Nat.mul_one] at paid ⊢
  omega

theorem pays_byteVector : byteVector.Pays 0 fun data => 1 + data.length := by
  apply pays_uint32.bind
  intro length cursor after data run
  have paid := pays_take length run
  simp only
  omega

theorem pays_name : name.Pays 0 fun text => 1 + text.utf8ByteSize := by
  apply pays_uint32.bind
  intro length
  apply (pays_window length).bind
  intro part
  have whole := congrArg List.length (Utf8.encode_decode_append part.rest)
  cases decoded : Utf8.decode part.rest with
  | mk characters remaining =>
      cases remaining with
      | cons byte remaining => exact pays_reject _
      | nil =>
          have size :
              (String.ofList characters).utf8ByteSize =
                (Utf8.encode characters).length := by
            simp [Utf8.encode, ← String.size_toByteArray, List.utf8Encode]
          simp only [decoded, List.append_nil] at whole
          apply pays_pure
          omega

end Wasm.Decoder

import Wasm.Format.Module
import Wasm.Proofs.Decoding.Composed
import Wasm.Proofs.Leb128.FixedWidth

/-!
# Laws that sequences keep

A law that holds of the primitives and of every sequence of decoders for which
it holds, holds of the whole binary format as far as that is made of sequences.
The format is gone through once here; a law only has to supply the primitives.
-/

namespace Wasm

/-- A property of decoders that the primitives have and sequences keep. -/
structure SequenceLaw where
  Holds : {α : Type} → Decoder α → Prop
  pure : ∀ {α : Type} (value : α), Holds (pure value)
  bind : ∀ {α β : Type} {first : Decoder α} {second : α → Decoder β},
    Holds first → (∀ value, Holds (second value)) → Holds (first >>= second)
  byteMap : ∀ {α : Type} (read : UInt8 → Option α), Holds (Decoder.byteMap read)
  bounded : ∀ (width : Nat) (signed : Bool), 0 < width → width ≤ 64 →
    Holds (Leb128.bounded width signed)
  wrapping : ∀ (rule : Leb128.SignRule) (bits : Nat),
    Holds (Leb128.wrapping rule bits)
  take : ∀ count : UInt32, Holds (Decoder.take count)
  name : Holds Decoder.name

namespace SequenceLaw

variable {α β : Type} (law : SequenceLaw)

theorem map {decoder : Decoder α} (holds : law.Holds decoder)
    (convert : α → β) :
    law.Holds (convert <$> decoder) := by
  rw [← bind_pure_comp]
  exact law.bind holds fun value => law.pure (convert value)

/-- Two fields of a record. -/
theorem pair {γ : Type} {first : Decoder α} {second : Decoder β}
    (before : law.Holds first) (behind : law.Holds second)
    (combine : α → β → γ) :
    law.Holds (do
      let left ← first
      let right ← second
      Pure.pure (combine left right)) :=
  law.bind before fun left => law.bind behind fun right =>
    law.pure (combine left right)

/-- Three fields of a record. -/
theorem triple {γ δ : Type} {first : Decoder α} {second : Decoder β}
    {third : Decoder γ} (before : law.Holds first) (between : law.Holds second)
    (behind : law.Holds third) (combine : α → β → γ → δ) :
    law.Holds (do
      let left ← first
      let middle ← second
      let right ← third
      Pure.pure (combine left middle right)) :=
  law.bind before fun left => law.pair between behind (combine left)

theorem replicate {decoder : Decoder α} (holds : law.Holds decoder)
    (count : Nat) :
    law.Holds (decoder.replicate count) := by
  induction count with
  | zero => exact law.pure []
  | succ count induction => exact law.pair holds induction List.cons

theorem bytes (expected : List UInt8) : law.Holds (Decoder.bytes expected) := by
  induction expected with
  | nil => exact law.pure []
  | cons byte others induction =>
      exact law.pair (law.byteMap _) induction List.cons

theorem fixedWidth (type : Leb128.FixedWidth α) : law.Holds type.decoder :=
  law.bind (law.bounded type.width type.signed type.positive type.width_le)
    fun word => law.pure (type.narrow word)

theorem uint32 : law.Holds Leb128.uint32 :=
  law.fixedWidth Leb128.FixedWidth.unsigned32

theorem vector {element : Decoder α} (holds : law.Holds element) :
    law.Holds element.vector :=
  law.bind law.uint32 fun length => law.replicate holds length.toNat

theorem byteVector : law.Holds Decoder.byteVector :=
  law.bind law.uint32 fun length => law.take length

/-! ## Types and constant expressions -/

theorem functionType : law.Holds FunctionType.decoder := by
  have types : law.Holds (Decoder.vector ValueType.decoder) :=
    law.vector (law.byteMap _)
  exact law.bind (law.byteMap _) fun _ => law.pair types types FunctionType.mk

theorem limits : law.Holds Limits.decoder := by
  apply law.bind (law.byteMap _)
  intro bounded
  apply law.bind law.uint32
  intro min
  split
  · exact law.bind law.uint32 fun max => law.pure _
  · exact law.pure _

theorem tableType : law.Holds TableType.decoder :=
  law.pair (law.byteMap _) law.limits TableType.mk

theorem globalType : law.Holds GlobalType.decoder :=
  law.pair (law.byteMap _) (law.byteMap _) GlobalType.mk

theorem binary32 : law.Holds Binary32.decoder :=
  law.bind (law.take 4) fun _ => law.pure _

theorem binary64 : law.Holds Binary64.decoder :=
  law.bind (law.take 8) fun _ => law.pure _

theorem constExpr : law.Holds ConstExpr.decoder := by
  have instruction : law.Holds ConstExpr.instruction := by
    apply law.bind (law.byteMap _)
    intro code
    cases code with
    | globalGet => exact law.map law.uint32 _
    | i32Const => exact law.map (law.fixedWidth Leb128.FixedWidth.signed32) _
    | i64Const => exact law.map (law.fixedWidth Leb128.FixedWidth.signed64) _
    | f32Const => exact law.map law.binary32 _
    | f64Const => exact law.map law.binary64 _
  exact law.pair instruction (law.byteMap _) fun expression _ => expression

theorem elementary {decoder : Decoder α} (elementary : decoder.Elementary) :
    law.Holds decoder := by
  cases elementary with
  | byte expected => exact law.byteMap _
  | byteIn range => exact law.byteMap _
  | byteAmong set => exact law.byteMap _
  | byteMap read => exact law.byteMap read
  | bytes expected => exact law.bytes expected
  | take count => exact law.take count
  | uint bits => exact law.wrapping .unsigned bits
  | sint bits =>
      exact law.bind (law.wrapping .finalGroup bits) fun _ => law.pure _
  | int bits =>
      exact law.bind (law.wrapping .belowWidth bits) fun _ => law.pure _
  | uint32 => exact law.uint32
  | sint32 => exact law.fixedWidth Leb128.FixedWidth.signed32
  | sint64 => exact law.fixedWidth Leb128.FixedWidth.signed64
  | binary32 => exact law.binary32
  | binary64 => exact law.binary64
  | name => exact law.name
  | byteVector => exact law.byteVector
  | valueType => exact law.byteMap _
  | resultType => exact law.byteMap _
  | functionType => exact law.functionType
  | limits => exact law.limits
  | memoryType => exact law.limits
  | tableType => exact law.tableType
  | globalType => exact law.globalType
  | index => exact law.uint32
  | constExpr => exact law.constExpr

/-! ## Entries of sections and headers -/

theorem importEntry : law.Holds Import.decoder := by
  have description : law.Holds ImportDescription.decoder := by
    apply law.bind (law.byteMap _)
    intro kind
    cases kind with
    | function => exact law.map law.uint32 _
    | table => exact law.map law.tableType _
    | memory => exact law.map law.limits _
    | global => exact law.map law.globalType _
  exact law.triple law.name law.name description Import.mk

theorem globalEntry : law.Holds Global.decoder :=
  law.pair law.globalType law.constExpr Global.mk

theorem exportEntry : law.Holds Export.decoder :=
  law.triple law.name (law.byteMap _) law.uint32 fun title kind position =>
    Export.mk title ⟨kind, position⟩

theorem elementSegment : law.Holds ElementSegment.decoder :=
  law.triple law.uint32 law.constExpr (law.vector law.uint32) ElementSegment.mk

theorem localGroup : law.Holds LocalGroup.decoder :=
  law.pair law.uint32 (law.byteMap _) LocalGroup.mk

theorem dataSegment : law.Holds DataSegment.decoder :=
  law.triple law.uint32 law.constExpr law.byteVector DataSegment.mk

theorem sectionHeader : law.Holds SectionHeader.decoder :=
  law.pair (law.byteMap _) law.uint32 SectionHeader.mk

theorem moduleHeader : law.Holds Module.header :=
  law.bind (law.bytes _) fun _ => law.bind (law.bytes _) fun _ => law.pure _

end SequenceLaw

end Wasm

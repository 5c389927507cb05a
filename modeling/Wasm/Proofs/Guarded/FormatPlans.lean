import Wasm.Format.Module
import Wasm.Proofs.Decoding.SequenceLaw
import Wasm.Proofs.Guarded.Plan
import Wasm.Proofs.Leb128.FixedWidth

/-!
# Plans of the binary format

Each decoder of the binary format has a plan, which goes through the decoder
step for step.  Only the contents of a section need to be in a window, because a
custom section and a function body take all that remains of theirs.
-/

namespace Wasm

/-- A vector with at least one element, whose length stands at a known
offset. -/
def Decoder.nonemptyVectorAt {α : Type} (start : Nat) (element : Decoder α) :
    Decoder (List α) := do
  let length ← Leb128.uint32
  if length = 0 then
    reject (.vectorInvalidLength length start)
  else
    element.replicate length.toNat

namespace Plan

variable {scope : Scope} {α β γ δ : Type}

/-! ## Primitives and combinators -/

section Combinators

variable {first : Decoder α} {second : Decoder β} {third : Decoder γ}
  {element : Decoder α}

def map (convert : α → β) (plan : Plan scope first) :
    Plan scope (convert <$> first) :=
  .bind plan fun value => .pure (convert value)

/-- Two fields of a record. -/
def fields₂ (combine : α → β → γ) (before : Plan scope first)
    (behind : Plan scope second) :
    Plan scope (do
      let left ← first
      let right ← second
      return combine left right) :=
  .bind before fun left => .bind behind fun right => .pure (combine left right)

/-- Three fields of a record. -/
def fields₃ (combine : α → β → γ → δ) (before : Plan scope first)
    (between : Plan scope second) (behind : Plan scope third) :
    Plan scope (do
      let left ← first
      let middle ← second
      let right ← third
      return combine left middle right) :=
  .bind before fun left => fields₂ (combine left) between behind

def branch {condition : Prop} [decision : Decidable condition]
    {otherwise : Decoder α} (yes : Plan scope first)
    (no : Plan scope otherwise) :
    Plan scope (if condition then first else otherwise) :=
  match decision with
  | .isTrue _ => yes
  | .isFalse _ => no

def replicate (plan : Plan scope element) :
    (count : Nat) → Plan scope (element.replicate count)
  | 0 => .pure []
  | count + 1 => fields₂ List.cons plan (plan.replicate count)

/-- An integer type has no more bits than the word that it is read into. -/
def fixedWidth (type : Leb128.FixedWidth α) : Plan scope type.decoder :=
  .bind (.bounded type.width type.signed type.positive type.width_le)
    fun word =>
    .pure (type.narrow word)

def uint32 : Plan scope Leb128.uint32 :=
  fixedWidth .unsigned32

def vector (plan : Plan scope element) : Plan scope element.vector :=
  .bind uint32 fun length => plan.replicate length.toNat

def nonemptyVectorAt (start : Nat) (plan : Plan scope element) :
    Plan scope (element.nonemptyVectorAt start) :=
  .bind uint32 fun length => .branch (.reject _) (plan.replicate length.toNat)

def nonemptyVector (plan : Plan scope element) :
    Plan scope element.nonemptyVector :=
  show Plan scope (fun cursor =>
      element.nonemptyVectorAt cursor.position cursor) from
    .placed fun start _ => plan.nonemptyVectorAt start

def byteVector : Plan scope Decoder.byteVector :=
  .bind uint32 .take

def name : Plan scope Decoder.name :=
  .bind uint32 .text

end Combinators

/-! ## Types and constant expressions -/

def limits : Plan scope Limits.decoder :=
  .bind (.byteMap _) fun _ => .bind uint32 fun _ =>
    .branch (.bind uint32 fun _ => .pure _) (.pure _)

def functionType : Plan scope FunctionType.decoder :=
  .bind (.byteMap _) fun _ =>
    fields₂ FunctionType.mk (vector (.byteMap _)) (vector (.byteMap _))

def tableType : Plan scope TableType.decoder :=
  fields₂ TableType.mk (.byteMap _) limits

def globalType : Plan scope GlobalType.decoder :=
  fields₂ GlobalType.mk (.byteMap _) (.byteMap _)

def binary32 : Plan scope Binary32.decoder :=
  .bind (.take 4) fun _ => .pure _

def binary64 : Plan scope Binary64.decoder :=
  .bind (.take 8) fun _ => .pure _

def constInstruction : Plan scope ConstExpr.instruction :=
  .bind (.byteMap _) fun
    | .globalGet => map _ uint32
    | .i32Const => map _ (fixedWidth .signed32)
    | .i64Const => map _ (fixedWidth .signed64)
    | .f32Const => map _ binary32
    | .f64Const => map _ binary64

def constExpr : Plan scope ConstExpr.decoder :=
  fields₂ (fun expression _ => expression) constInstruction (.byteMap _)

/-! ## Sections -/

def importDescription : Plan scope ImportDescription.decoder :=
  .bind (.byteMap _) fun
    | .function => map _ uint32
    | .table => map _ tableType
    | .memory => map _ limits
    | .global => map _ globalType

def importEntry : Plan scope Import.decoder :=
  fields₃ Import.mk name name importDescription

def globalEntry : Plan scope Global.decoder :=
  fields₂ Global.mk globalType constExpr

def exportEntry : Plan scope Export.decoder :=
  fields₃ (fun title kind position => Export.mk title ⟨kind, position⟩) name
    (.byteMap _) uint32

def elementSegment : Plan scope ElementSegment.decoder :=
  fields₃ ElementSegment.mk uint32 constExpr (vector uint32)

def localGroup : Plan scope LocalGroup.decoder :=
  fields₂ LocalGroup.mk uint32 (.byteMap _)

/-- The body of a function is what remains of its window behind the locals. -/
def functionContents : Plan .window FunctionBody.contents :=
  .bind (vector localGroup) fun _ => .bind .takeRest fun _ =>
    .branch (.pure _) (.reject _)

def functionBody : Plan scope FunctionBody.decoder :=
  .bind uint32 fun size => .within size functionContents

def dataSegment : Plan scope DataSegment.decoder :=
  fields₃ DataSegment.mk uint32 constExpr byteVector

/-- The data of a custom section are what remains of its window behind the
name. -/
def customSection : Plan .window CustomSection.decoder :=
  fields₂ CustomSection.mk name .takeRest

/-- The plan for the contents of a section of a given kind, which are in a
window. -/
def sectionContents : (kind : SectionKind) → Plan .window (Section.decoder kind)
  | .custom => map _ customSection
  | .types => map _ (vector functionType)
  | .imports => map _ (vector importEntry)
  | .functions => map _ (vector uint32)
  | .tables => map _ (vector tableType)
  | .memories => map _ (vector limits)
  | .globals => map _ (vector globalEntry)
  | .exports => map _ (vector exportEntry)
  | .start => map _ uint32
  | .elements => map _ (vector elementSegment)
  | .code => map _ (vector functionBody)
  | .data => map _ (vector dataSegment)

def sectionHeader : Plan scope SectionHeader.decoder :=
  fields₂ SectionHeader.mk (.byteMap _) uint32

def moduleHeader : Plan scope Module.header :=
  .bind (.bytes _) fun _ => .bind (.bytes _) fun _ => .pure _

/-! ## Composed decoders -/

/-- To have a plan is a law that sequences keep. -/
def sequenceLaw : SequenceLaw where
  Holds decoder := ∀ scope, Nonempty (Plan scope decoder)
  pure value _ := ⟨.pure value⟩
  bind first second scope := by
    obtain ⟨before⟩ := first scope
    exact ⟨.bind before fun value => (second value scope).some⟩
  byteMap read _ := ⟨.byteMap read⟩
  bounded width signed positive fits _ :=
    ⟨.bounded width signed positive fits⟩
  wrapping rule bits _ := ⟨.wrapping rule bits⟩
  take count _ := ⟨.take count⟩
  name _ := ⟨name⟩

/-- Every decoder composed of the primitives and combinators has a plan. -/
theorem nonempty_of_composed {decoder : Decoder α}
    (composed : decoder.Composed) :
    Nonempty (Plan scope decoder) := by
  induction composed generalizing scope with
  | elementary elementary => exact sequenceLaw.elementary elementary scope
  | window count => exact ⟨.window count⟩
  | nonemptyVector _ induction => exact induction.map nonemptyVector
  | vector _ induction => exact induction.map vector
  | pair _ _ left right =>
      obtain ⟨first⟩ := left
      obtain ⟨second⟩ := right
      exact ⟨fields₂ Prod.mk first second⟩
  | preceded _ _ left right =>
      obtain ⟨first⟩ := left
      obtain ⟨second⟩ := right
      exact ⟨.bind first fun _ => second⟩
  | alternative _ _ left right =>
      obtain ⟨first⟩ := left
      obtain ⟨second⟩ := right
      exact ⟨.alternative first second⟩
  | map convert _ induction => exact induction.map (map convert)
  | exhaust _ induction => exact induction.map .exhaust
  | commit _ induction => exact induction.map .commit
  | within count _ induction => exact induction.map (.within count)

end Plan

end Wasm

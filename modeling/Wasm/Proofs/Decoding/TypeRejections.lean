import Wasm.Proofs.BinaryGrammar.Entities
import Wasm.Proofs.Decoding.ViablePrefixes

/-!
# Rejections of types and constant expressions

The decoders of types, indices and constant expressions say no at the first byte
behind which nothing could follow.  When they ask for more input, more input
would help, unless an integer has already spent all of its groups.
-/

namespace Wasm

/-- The forms of types, and those of the expressions and indices that stand
beside them. -/
inductive TypeForm where
  | valueType
  | resultType
  | functionType
  | limits
  | memoryType
  | tableType
  | globalType
  | index
  | constExpr
deriving DecidableEq, Repr

namespace TypeForm

open Decoder

/-- What is read of a form. -/
abbrev Value : TypeForm → Type
  | .valueType => ValueType
  | .resultType => ResultType
  | .functionType => FunctionType
  | .limits => Limits
  | .memoryType => MemoryType
  | .tableType => TableType
  | .globalType => GlobalType
  | .index => UInt32
  | .constExpr => ConstExpr

def decoder : (form : TypeForm) → Decoder form.Value
  | .valueType => ValueType.decoder
  | .resultType => ResultType.decoder
  | .functionType => FunctionType.decoder
  | .limits => Limits.decoder
  | .memoryType => MemoryType.decoder
  | .tableType => TableType.decoder
  | .globalType => GlobalType.decoder
  | .index => Decoder.index
  | .constExpr => ConstExpr.decoder

/-- Behind these bytes of a form stands an integer of at most that many
groups. -/
inductive IntegerDue : TypeForm → List UInt8 → Nat → Prop where
  | index : IntegerDue .index [] 5
  | parameterCount : IntegerDue .functionType [0x60] 5
  | resultCount {params : List ValueType} {bytes : List UInt8} :
      Production.vector ValueType.Written params bytes →
        IntegerDue .functionType (0x60 :: bytes) 5
  | minimum (bounded : Bool) : IntegerDue .limits [Limits.flagByte bounded] 5
  | maximum {min : UInt32} {bytes : List UInt8} :
      Production.natural min bytes →
        IntegerDue .limits (Limits.flagByte true :: bytes) 5
  | ofMemory {before : List UInt8} {count : Nat} :
      IntegerDue .limits before count → IntegerDue .memoryType before count
  | ofTable {before : List UInt8} {count : Nat} :
      IntegerDue .limits before count →
        IntegerDue .tableType (0x70 :: before) count
  | globalGet : IntegerDue .constExpr [0x23] 5
  | i32Const : IntegerDue .constExpr [0x41] 5
  | i64Const : IntegerDue .constExpr [0x42] 10

/-! ## Forms without integers -/

theorem foresees_valueType : ValueType.decoder.Foresees NothingDue :=
  foresees_byteMap ⟨0x7F, .i32, rfl⟩

theorem foresees_resultType : ResultType.decoder.Foresees NothingDue :=
  foresees_byteMap ⟨0x40, none, rfl⟩

theorem foresees_globalType : GlobalType.decoder.Foresees NothingDue := by
  have mutability : (byteMap Mutability.ofByte?).Foresees NothingDue :=
    foresees_byteMap ⟨0x00, .constant, rfl⟩
  exact foresees_valueType.bind_nothingDue fun valueType =>
    mutability.bind_nothingDue fun mutability => foresees_pure _

/-! ## Types with integers -/

theorem foresees_functionType :
    FunctionType.decoder.Foresees (IntegerDue .functionType) := by
  have fields := fun _ : UInt8 => foresees_valueType.vector.bind fun params =>
    foresees_valueType.vector.bind_nothingDue fun results =>
      foresees_pure (FunctionType.mk params results)
  apply ((foresees_byte 0x60).bind fields).congr
  intro before count
  simp only [dueInSequence_iff (recognises_byte 0x60),
    dueInSequence_iff recognises_valueType.vector]
  constructor
  · rintro (nothing | ⟨_, _, _, ⟨rfl, rfl⟩, rfl,
      ⟨rfl, rfl⟩ | ⟨params, bytes, _, written, rfl, rfl, rfl⟩⟩)
    · exact nothing.elim
    · exact .parameterCount
    · rw [List.append_nil]
      exact .resultCount written
  · intro due
    right
    cases due with
    | parameterCount =>
        exact ⟨0x60, [0x60], [], ⟨rfl, rfl⟩, rfl, .inl ⟨rfl, rfl⟩⟩
    | resultCount written =>
        exact ⟨0x60, [0x60], _, ⟨rfl, rfl⟩, rfl,
          .inr ⟨_, _, [], written, (List.append_nil _).symm, rfl, rfl⟩⟩

theorem foresees_limits : Limits.decoder.Foresees (IntegerDue .limits) := by
  have flag : (byteMap Limits.flag?).Foresees NothingDue :=
    foresees_byteMap ⟨0x00, false, rfl⟩
  have recognises := recognises_byteMap_of_inverse Limits.flag?_eq_some_iff
  -- The maximum is due only if the flag announces it.
  have sizes : ∀ bounded : Bool, (do
      let min ← Leb128.uint32
      if bounded then
        let max ← Leb128.uint32
        pure ⟨min, some max⟩
      else
        pure ⟨min, none⟩ : Decoder Limits).Foresees
        (DueInSequence Leb128.uint32 (DueFirst 5) fun _ before count =>
          bounded = true ∧ DueFirst 5 before count) := by
    intro bounded
    apply foresees_uint32.bind
    intro min
    cases bounded with
    | false =>
        apply (foresees_pure (Limits.mk min none)).congr
        simp [NothingDue]
    | true =>
        have maximum := foresees_uint32.bind_nothingDue fun max =>
          foresees_pure (Limits.mk min (some max))
        apply maximum.congr
        simp
  apply (flag.bind sizes).congr
  intro before count
  simp only [dueInSequence_iff recognises, dueInSequence_iff recognises_natural]
  constructor
  · rintro (nothing | ⟨bounded, _, _, rfl, rfl,
      ⟨rfl, rfl⟩ | ⟨min, bytes, _, written, rfl, rfl, rfl, rfl⟩⟩)
    · exact nothing.elim
    · exact .minimum bounded
    · rw [List.append_nil]
      exact .maximum written
  · intro due
    right
    cases due with
    | minimum bounded => exact ⟨bounded, _, [], rfl, rfl, .inl ⟨rfl, rfl⟩⟩
    | maximum written =>
        exact ⟨true, _, _, rfl, rfl,
          .inr ⟨_, _, [], written, (List.append_nil _).symm, rfl, rfl, rfl⟩⟩

theorem foresees_tableType :
    TableType.decoder.Foresees (IntegerDue .tableType) := by
  have element : (byteMap ElementType.ofByte?).Foresees NothingDue :=
    foresees_byteMap ⟨0x70, .functionReference, rfl⟩
  have recognises :=
    recognises_byteMap_of_inverse ElementType.ofByte?_eq_some_iff
  have fields := fun element => foresees_limits.bind_nothingDue fun limits =>
    foresees_pure (TableType.mk element limits)
  apply (element.bind fields).congr
  intro before count
  rw [dueInSequence_iff recognises]
  constructor
  · rintro (nothing | ⟨⟨⟩, _, _, rfl, rfl, due⟩)
    · exact nothing.elim
    · exact .ofTable due
  · intro due
    cases due with
    | ofTable due => exact .inr ⟨.functionReference, _, _, rfl, rfl, due⟩

/-! ## Constant expressions -/

theorem foresees_binary32 : Binary32.decoder.Foresees NothingDue :=
  (foresees_take 4).bind_nothingDue fun _ => foresees_pure _

theorem foresees_binary64 : Binary64.decoder.Foresees NothingDue :=
  (foresees_take 8).bind_nothingDue fun _ => foresees_pure _

/-- The most groups of the integer behind an operation code. -/
def operandGroups? : ConstOpcode → Option Nat
  | .globalGet => some 5
  | .i32Const => some 5
  | .i64Const => some 10
  | .f32Const => none
  | .f64Const => none

theorem foresees_instruction :
    ConstExpr.instruction.Foresees
      (DueInSequence (byteMap ConstOpcode.ofByte?) NothingDue
        fun code before count =>
          before = [] ∧ operandGroups? code = some count) := by
  have code : (byteMap ConstOpcode.ofByte?).Foresees NothingDue :=
    foresees_byteMap ⟨0x41, .i32Const, rfl⟩
  apply code.bind
  intro code
  cases code with
  | globalGet =>
      apply (foresees_uint32.map ConstExpr.globalGet).congr
      simp [DueFirst, operandGroups?, eq_comm]
  | i32Const =>
      apply (foresees_sint32.map ConstExpr.i32).congr
      simp [DueFirst, operandGroups?, eq_comm]
  | i64Const =>
      apply (foresees_sint64.map ConstExpr.i64).congr
      simp [DueFirst, operandGroups?, eq_comm]
  | f32Const =>
      apply (foresees_binary32.map ConstExpr.f32).congr
      simp [NothingDue, operandGroups?]
  | f64Const =>
      apply (foresees_binary64.map ConstExpr.f64).congr
      simp [NothingDue, operandGroups?]

theorem foresees_constExpr :
    ConstExpr.decoder.Foresees (IntegerDue .constExpr) := by
  have recognises :=
    recognises_byteMap_of_inverse ConstOpcode.ofByte?_eq_some_iff
  have mark := fun expression : ConstExpr =>
    (foresees_byte Opcode.finish.toByte).bind_nothingDue fun _ =>
      foresees_pure expression
  apply (foresees_instruction.bind_nothingDue mark).congr
  intro before count
  rw [dueInSequence_iff recognises]
  constructor
  · rintro (nothing | ⟨code, _, _, rfl, rfl, rfl, groups⟩)
    · exact nothing.elim
    · cases code <;> cases groups
      · exact .globalGet
      · exact .i32Const
      · exact .i64Const
  · intro due
    right
    cases due with
    | globalGet => exact ⟨.globalGet, _, [], rfl, rfl, rfl, rfl⟩
    | i32Const => exact ⟨.i32Const, _, [], rfl, rfl, rfl, rfl⟩
    | i64Const => exact ⟨.i64Const, _, [], rfl, rfl, rfl, rfl⟩

/-! ## All forms -/

theorem foresees (form : TypeForm) : form.decoder.Foresees form.IntegerDue := by
  cases form with
  | valueType => exact foresees_valueType.congr fun _ _ => ⟨nofun, nofun⟩
  | resultType => exact foresees_resultType.congr fun _ _ => ⟨nofun, nofun⟩
  | functionType => exact foresees_functionType
  | limits => exact foresees_limits
  | memoryType =>
      apply foresees_limits.congr
      intro before count
      constructor
      · exact .ofMemory
      · rintro ⟨⟩
        assumption
  | tableType => exact foresees_tableType
  | globalType => exact foresees_globalType.congr fun _ _ => ⟨nofun, nofun⟩
  | index =>
      apply foresees_uint32.congr
      intro before count
      constructor
      · rintro ⟨rfl, rfl⟩
        exact .index
      · rintro ⟨⟩
        exact ⟨rfl, rfl⟩
  | constExpr => exact foresees_constExpr

/-- A form is rejected at the first byte behind which nothing can follow.  An
input that ends too early can be completed, except behind an integer that has
spent all of its groups. -/
theorem rejections_are_as_early_as_possible (form : TypeForm)
    (input : List UInt8) :
    (∀ byte location, form.decoder.decode input =
      .error (.unexpected byte location) →
      input[location]? = some byte ∧
      (∃ tail, form.decoder.Succeeds (input.take location ++ tail)) ∧
      ¬ ∃ tail, form.decoder.Succeeds (input.take (location + 1) ++ tail)) ∧
    (form.decoder.decode input = .error .unexpectedEnd →
      ((∃ tail, form.decoder.Succeeds (input ++ tail)) ↔
        ¬ EndsOverlong form.IntegerDue input)) := by
  have foresees := form.foresees
  constructor
  · intro byte location decoded
    obtain ⟨failure, failed, error⟩ := decode_eq_error_iff.mp decoded
    obtain ⟨front, back, rfl, rfl, viable, hopeless⟩ :=
      foresees.refuses failed error
    have through :
        (front ++ byte :: back).take (front.length + 1) = front ++ [byte] := by
      simp [List.take_append]
    rw [Nat.zero_add, through, List.take_left, ← viable_iff foresees.recognises,
      ← viable_iff foresees.recognises]
    exact ⟨by simp, viable, hopeless⟩
  · intro decoded
    obtain ⟨failure, failed, error⟩ := decode_eq_error_iff.mp decoded
    rw [← viable_iff foresees.recognises]
    constructor
    · intro viable ends
      exact foresees.overlong ends viable
    · intro spared
      exact (foresees.runsOut failed error).resolve_right spared

/-- A function type with an unknown second parameter, and one whose number of
parameters has spent its groups. -/
theorem function_types_are_rejected_early :
    (FunctionType.decoder.decode [0x60, 0x02, 0x7F, 0x60, 0x00] =
      .error (.unexpected 0x60 3) ∧
      (∃ tail, FunctionType.decoder.Succeeds ([0x60, 0x02, 0x7F] ++ tail)) ∧
      ¬ ∃ tail,
        FunctionType.decoder.Succeeds ([0x60, 0x02, 0x7F, 0x60] ++ tail)) ∧
    (FunctionType.decoder.decode [0x60, 0x80, 0x80, 0x80, 0x80, 0x80] =
      .error .unexpectedEnd ∧
      ¬ ∃ tail,
        FunctionType.decoder.Succeeds
          ([0x60, 0x80, 0x80, 0x80, 0x80, 0x80] ++ tail)) := by
  have refused : FunctionType.decoder.decode [0x60, 0x02, 0x7F, 0x60, 0x00] =
      .error (.unexpected 0x60 3) := rfl
  have ended :
      FunctionType.decoder.decode [0x60, 0x80, 0x80, 0x80, 0x80, 0x80] =
      .error .unexpectedEnd := rfl
  have continuing : ∀ byte ∈ List.replicate 5 (0x80 : UInt8),
      Leb128.continues byte = true := by
    intro byte member
    rw [List.eq_of_mem_replicate member]
    rfl
  have overlong :
      EndsOverlong (IntegerDue .functionType)
        [0x60, 0x80, 0x80, 0x80, 0x80, 0x80] :=
    ⟨[0x60], List.replicate 5 0x80, rfl, .parameterCount, continuing⟩
  have first :=
    (rejections_are_as_early_as_possible .functionType _).1 0x60 3 refused
  have second := (rejections_are_as_early_as_possible .functionType _).2 ended
  exact ⟨⟨refused, first.2⟩, ended,
    fun completed => second.mp completed overlong⟩

end TypeForm

end Wasm

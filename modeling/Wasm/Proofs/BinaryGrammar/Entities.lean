import Wasm.Format.Section
import Wasm.Proofs.BinaryGrammar.Recognition

/-!
# Recognition of types, expressions and section contents

The decoder of every syntactic class recognises its production.  A section fills
its window: its contents are the production of all the bytes of the window.
-/

namespace Wasm

open Decoder

theorem recognises_valueType : ValueType.decoder.Recognises ValueType.Written :=
  recognises_byteMap_of_inverse ValueType.ofByte?_eq_some_iff

theorem recognises_entityKind :
    EntityKind.decoder.Recognises fun kind bytes => bytes = [kind.toByte] :=
  recognises_byteMap_of_inverse EntityKind.ofByte?_eq_some_iff

theorem recognises_functionType :
    FunctionType.decoder.Recognises FunctionType.Written := by
  have fields :=
    recognises_valueType.vector.pair recognises_valueType.vector FunctionType.mk
  apply ((recognises_byte 0x60).bind fun _ => fields).congr
  intro type bytes
  constructor
  · intro parts
    obtain ⟨_, _, _, ⟨rfl, rfl⟩,
      ⟨params, results, front, back, rfl, paramsWritten, resultsWritten, rfl⟩,
      rfl⟩ := parts
    exact ⟨front, back, paramsWritten, resultsWritten, rfl⟩
  · intro parts
    obtain ⟨front, back, paramsWritten, resultsWritten, rfl⟩ := parts
    exact ⟨0x60, [0x60], front ++ back, ⟨rfl, rfl⟩,
      ⟨type.params, type.results, front, back, rfl, paramsWritten,
        resultsWritten, rfl⟩, rfl⟩

/-! ## Limits and the types that have them -/

theorem Limits.flag?_eq_some_iff {byte : UInt8} {bounded : Bool} :
    Limits.flag? byte = some bounded ↔ byte = Limits.flagByte bounded := by
  cases bounded <;> grind [Limits.flag?, Limits.flagByte]

theorem recognises_limits : Limits.decoder.Recognises Limits.Written := by
  apply recognises_tagged Limits.flag?_eq_some_iff
  intro bounded
  cases bounded with
  | false =>
      apply (recognises_natural.map fun min => Limits.mk min none).congr
      intro limits bytes
      obtain ⟨min, max⟩ := limits
      cases max <;> simp [Limits.Sizes]
  | true =>
      have both := recognises_natural.pair recognises_natural fun min max =>
        Limits.mk min (some max)
      apply both.congr
      intro limits bytes
      obtain ⟨min, max⟩ := limits
      cases max <;> simp [Limits.Sizes]

theorem recognises_tableType :
    TableType.decoder.Recognises TableType.Written := by
  have element := recognises_byteMap_of_inverse ElementType.ofByte?_eq_some_iff
  apply (element.pair recognises_limits TableType.mk).congr
  intro type bytes
  constructor
  · intro parts
    obtain ⟨element, limits, _, back, rfl, rfl, written, rfl⟩ := parts
    exact ⟨back, written, rfl⟩
  · intro parts
    obtain ⟨back, written, rfl⟩ := parts
    exact ⟨type.element, type.limits, [type.element.toByte], back, rfl, rfl,
      written, rfl⟩

theorem recognises_globalType :
    GlobalType.decoder.Recognises GlobalType.Written := by
  have mutability :=
    recognises_byteMap_of_inverse Mutability.ofByte?_eq_some_iff
  apply (recognises_valueType.pair mutability GlobalType.mk).congr
  intro type bytes
  constructor
  · intro parts
    obtain ⟨valueType, mutability, _, _, rfl, rfl, rfl, rfl⟩ := parts
    rfl
  · intro equal
    subst equal
    exact ⟨type.valueType, type.mutability, [type.valueType.toByte],
      [type.mutability.toByte], rfl, rfl, rfl, rfl⟩

/-! ## Constant expressions -/

theorem littleEndian_eq_ofDigits (bytes : List UInt8) :
    littleEndian bytes = Nat.ofDigits 256 (bytes.map UInt8.toNat) := by
  induction bytes with
  | nil => rfl
  | cons byte bytes induction =>
      rw [List.map_cons, Nat.ofDigits_cons, ← induction]
      rfl

theorem littleEndian_lt (bytes : List UInt8) :
    littleEndian bytes < 256 ^ bytes.length := by
  have digits : ∀ digit ∈ bytes.map UInt8.toNat, digit < 256 := by
    intro digit member
    obtain ⟨byte, _, rfl⟩ := List.mem_map.mp member
    exact byte.toNat_lt
  have bound := Nat.ofDigits_lt_base_pow_length (by decide) digits
  rw [← littleEndian_eq_ofDigits, List.length_map] at bound
  exact bound

theorem recognises_littleEndian {α : Type} (make : Nat → α) (bits : α → Nat)
    (count : UInt32)
    (inverse : ∀ value number, number < 256 ^ count.toNat →
      (value = make number ↔ number = bits value)) :
    (do let pattern ← take count
        pure (make (littleEndian pattern))).Recognises fun value bytes =>
      bytes.length = count.toNat ∧
        Nat.ofDigits 256 (bytes.map UInt8.toNat) = bits value := by
  apply ((recognises_take count).map fun pattern =>
    make (littleEndian pattern)).congr
  intro value bytes
  rw [← littleEndian_eq_ofDigits]
  constructor
  · intro parts
    obtain ⟨pattern, ⟨length, rfl⟩, equal⟩ := parts
    have bound := littleEndian_lt pattern
    rw [length] at bound
    exact ⟨length, (inverse value _ bound).mp equal⟩
  · intro parts
    obtain ⟨length, equal⟩ := parts
    have bound := littleEndian_lt bytes
    rw [length] at bound
    exact ⟨bytes, ⟨length, rfl⟩, (inverse value _ bound).mpr equal⟩

theorem recognises_binary32 : Binary32.decoder.Recognises Binary32.Written := by
  apply recognises_littleEndian (fun number =>
    Binary32.mk (UInt32.ofNat number)) (fun value => value.bits.toNat) 4
  intro value number bound
  constructor
  · intro equal
    subst equal
    exact (UInt32.toNat_ofNat_of_lt' bound).symm
  · intro equal
    subst equal
    rw [UInt32.ofNat_toNat]

theorem recognises_binary64 : Binary64.decoder.Recognises Binary64.Written := by
  apply recognises_littleEndian (fun number =>
    Binary64.mk (UInt64.ofNat number)) (fun value => value.bits.toNat) 8
  intro value number bound
  constructor
  · intro equal
    subst equal
    exact (UInt64.toNat_ofNat_of_lt' bound).symm
  · intro equal
    subst equal
    rw [UInt64.ofNat_toNat]

theorem recognises_instruction :
    ConstExpr.instruction.Recognises fun expression bytes =>
      ∃ operand, expression.Operand operand ∧
        bytes = expression.code.toByte :: operand := by
  apply recognises_tagged ConstOpcode.ofByte?_eq_some_iff
  intro code
  cases code with
  | globalGet =>
      apply (recognises_natural.map ConstExpr.globalGet).congr
      intro expression operand
      cases expression <;> simp [ConstExpr.code, ConstExpr.Operand]
  | i32Const =>
      have operand := recognises_fixedWidth Leb128.FixedWidth.signed32
      rw [Leb128.FixedWidth.decoder_signed32] at operand
      apply (operand.map ConstExpr.i32).congr
      intro expression operand
      cases expression <;> simp [ConstExpr.code, ConstExpr.Operand]
  | i64Const =>
      have operand := recognises_fixedWidth Leb128.FixedWidth.signed64
      rw [Leb128.FixedWidth.decoder_signed64] at operand
      apply (operand.map ConstExpr.i64).congr
      intro expression operand
      cases expression <;> simp [ConstExpr.code, ConstExpr.Operand]
  | f32Const =>
      apply (recognises_binary32.map ConstExpr.f32).congr
      intro expression operand
      cases expression <;> simp [ConstExpr.code, ConstExpr.Operand]
  | f64Const =>
      apply (recognises_binary64.map ConstExpr.f64).congr
      intro expression operand
      cases expression <;> simp [ConstExpr.code, ConstExpr.Operand]

theorem recognises_constExpr :
    ConstExpr.decoder.Recognises ConstExpr.Written := by
  have mark := recognises_byte Opcode.finish.toByte
  apply (recognises_instruction.pair mark fun expression _ => expression).congr
  intro expression bytes
  constructor
  · intro parts
    obtain ⟨_, _, _, _, rfl, ⟨operand, written, rfl⟩, ⟨rfl, rfl⟩, rfl⟩ := parts
    exact ⟨operand, written, rfl⟩
  · intro parts
    obtain ⟨operand, written, rfl⟩ := parts
    exact ⟨expression, 0x0B, expression.code.toByte :: operand, [0x0B], rfl,
      ⟨operand, written, rfl⟩, ⟨rfl, rfl⟩, rfl⟩

/-! ## Entries of sections -/

theorem recognises_importDescription :
    ImportDescription.decoder.Recognises ImportDescription.Written := by
  apply recognises_tagged EntityKind.ofByte?_eq_some_iff
  intro kind
  cases kind with
  | function =>
      apply (recognises_natural.map ImportDescription.function).congr
      intro description bytes
      cases description <;> simp [ImportDescription.kind,
        ImportDescription.Type]
  | table =>
      apply (recognises_tableType.map ImportDescription.table).congr
      intro description bytes
      cases description <;> simp [ImportDescription.kind,
        ImportDescription.Type]
  | memory =>
      apply (recognises_limits.map ImportDescription.memory).congr
      intro description bytes
      cases description <;> simp [ImportDescription.kind,
        ImportDescription.Type]
  | global =>
      apply (recognises_globalType.map ImportDescription.global).congr
      intro description bytes
      cases description <;> simp [ImportDescription.kind,
        ImportDescription.Type]

theorem recognises_import : Import.decoder.Recognises Import.Written := by
  apply (recognises_name.triple recognises_name recognises_importDescription
    Import.mk).congr
  intro entry bytes
  constructor
  · intro parts
    obtain ⟨_, _, _, moduleName, field, description, rfl, written⟩ := parts
    exact ⟨moduleName, field, description, written⟩
  · intro parts
    obtain ⟨moduleName, field, description, written⟩ := parts
    exact ⟨_, _, _, moduleName, field, description, rfl, written⟩

theorem recognises_global : Global.decoder.Recognises Global.Written := by
  apply (recognises_globalType.pair recognises_constExpr Global.mk).congr
  intro entry bytes
  constructor
  · intro parts
    obtain ⟨_, _, type, init, rfl, written⟩ := parts
    exact ⟨type, init, written⟩
  · intro parts
    obtain ⟨type, init, written⟩ := parts
    exact ⟨_, _, type, init, rfl, written⟩

theorem recognises_export : Export.decoder.Recognises Export.Written := by
  have fields := recognises_name.triple recognises_entityKind recognises_natural
    fun title kind position => Export.mk title ⟨kind, position⟩
  apply fields.congr
  intro entry bytes
  constructor
  · intro parts
    obtain ⟨_, _, _, title, _, index, rfl, titleWritten, rfl, indexWritten,
      rfl⟩ := parts
    exact ⟨title, index, titleWritten, indexWritten, rfl⟩
  · intro parts
    obtain ⟨title, index, titleWritten, indexWritten, rfl⟩ := parts
    exact ⟨_, _, _, title, [entry.description.kind.toByte], index, rfl,
      titleWritten, rfl, indexWritten, rfl⟩

theorem recognises_elementSegment :
    ElementSegment.decoder.Recognises ElementSegment.Written := by
  have fields :=
    recognises_natural.triple recognises_constExpr recognises_natural.vector
    ElementSegment.mk
  apply fields.congr
  intro segment bytes
  constructor
  · intro parts
    obtain ⟨_, _, _, table, offset, init, rfl, written⟩ := parts
    exact ⟨table, offset, init, written⟩
  · intro parts
    obtain ⟨table, offset, init, written⟩ := parts
    exact ⟨_, _, _, table, offset, init, rfl, written⟩

theorem recognises_dataSegment :
    DataSegment.decoder.Recognises DataSegment.Written := by
  have fields :=
    recognises_natural.triple recognises_constExpr recognises_byteVector
    DataSegment.mk
  apply fields.congr
  intro segment bytes
  constructor
  · intro parts
    obtain ⟨_, _, _, memory, offset, init, rfl, written⟩ := parts
    exact ⟨memory, offset, init, written⟩
  · intro parts
    obtain ⟨memory, offset, init, written⟩ := parts
    exact ⟨_, _, _, memory, offset, init, rfl, written⟩

theorem recognises_localGroup :
    LocalGroup.decoder.Recognises LocalGroup.Written := by
  apply (recognises_natural.pair recognises_valueType LocalGroup.mk).congr
  intro group bytes
  constructor
  · intro parts
    obtain ⟨_, _, count, _, rfl, written, rfl, rfl⟩ := parts
    exact ⟨count, written, rfl⟩
  · intro parts
    obtain ⟨count, written, rfl⟩ := parts
    exact ⟨_, _, count, [group.type.toByte], rfl, written, rfl, rfl⟩

theorem fills_functionBody :
    FunctionBody.contents.Fills FunctionBody.Contents := by
  -- Only the locals delimit themselves; the body is what they leave of the
  -- window.
  have body : ∀ locals : List LocalGroup, (do
      let body ← takeRest
      if body.getLast? = some Opcode.finish.toByte then
        pure ⟨locals, body⟩
      else
        reject .unexpectedEnd : Decoder FunctionBody).Fills
      fun function bytes =>
        bytes.getLast? = some Opcode.finish.toByte ∧
          function = ⟨locals, bytes⟩ := by
    intro locals
    apply fills_takeRest
    intro data
    split
    · rename_i finished
      simpa only [finished,
        true_and] using judges_pure (FunctionBody.mk locals data)
    · rename_i unfinished
      simpa only [unfinished, false_and] using judges_reject .unexpectedEnd
  apply (recognises_localGroup.vector.fills_bind body).congr
  intro function bytes
  constructor
  · intro parts
    obtain ⟨locals, front, back, written, ⟨finished, rfl⟩, rfl⟩ := parts
    exact ⟨front, written, finished, rfl⟩
  · intro parts
    obtain ⟨front, written, finished, rfl⟩ := parts
    exact ⟨function.locals, front, function.body, written, ⟨finished, rfl⟩, rfl⟩

theorem recognises_functionBody :
    FunctionBody.decoder.Recognises FunctionBody.Written :=
  recognises_sized fun size => fills_functionBody.within size

theorem fills_customSection :
    CustomSection.decoder.Fills fun contents bytes =>
      ∃ title, Production.name contents.name title ∧
        bytes = title ++ contents.data := by
  have data : ∀ title : String, (do
      let data ← takeRest
      pure ⟨title, data⟩ : Decoder CustomSection).Fills
      fun contents bytes => contents = ⟨title, bytes⟩ := by
    intro title
    apply fills_takeRest
    intro data
    exact judges_pure (CustomSection.mk title data)
  apply (recognises_name.fills_bind data).congr
  intro contents bytes
  constructor
  · intro parts
    obtain ⟨title, front, back, written, rfl, rfl⟩ := parts
    exact ⟨front, written, rfl⟩
  · intro parts
    obtain ⟨front, written, rfl⟩ := parts
    exact ⟨contents.name, front, contents.data, written, rfl, rfl⟩

/-- A section fills its window with what its kind asks for. -/
theorem fills_section (kind : SectionKind) :
    (Section.decoder kind).Fills fun entry bytes =>
      entry.kind = kind ∧ entry.Contents bytes := by
  cases kind with
  | custom =>
      apply (fills_customSection.map Section.custom).congr
      intro entry bytes
      cases entry <;> simp [Section.kind, Section.Contents]
  | types =>
      apply (recognises_functionType.vector.map Section.types).fills.congr
      intro entry bytes
      cases entry <;> simp [Section.kind, Section.Contents]
  | imports =>
      apply (recognises_import.vector.map Section.imports).fills.congr
      intro entry bytes
      cases entry <;> simp [Section.kind, Section.Contents]
  | functions =>
      apply (recognises_natural.vector.map Section.functions).fills.congr
      intro entry bytes
      cases entry <;> simp [Section.kind, Section.Contents]
  | tables =>
      apply (recognises_tableType.vector.map Section.tables).fills.congr
      intro entry bytes
      cases entry <;> simp [Section.kind, Section.Contents]
  | memories =>
      apply (recognises_limits.vector.map Section.memories).fills.congr
      intro entry bytes
      cases entry <;> simp [Section.kind, Section.Contents]
  | globals =>
      apply (recognises_global.vector.map Section.globals).fills.congr
      intro entry bytes
      cases entry <;> simp [Section.kind, Section.Contents]
  | exports =>
      apply (recognises_export.vector.map Section.exports).fills.congr
      intro entry bytes
      cases entry <;> simp [Section.kind, Section.Contents]
  | start =>
      apply (recognises_natural.map Section.start).fills.congr
      intro entry bytes
      cases entry <;> simp [Section.kind, Section.Contents]
  | elements =>
      apply (recognises_elementSegment.vector.map Section.elements).fills.congr
      intro entry bytes
      cases entry <;> simp [Section.kind, Section.Contents]
  | code =>
      apply (recognises_functionBody.vector.map Section.code).fills.congr
      intro entry bytes
      cases entry <;> simp [Section.kind, Section.Contents]
  | data =>
      apply (recognises_dataSegment.vector.map Section.data).fills.congr
      intro entry bytes
      cases entry <;> simp [Section.kind, Section.Contents]

end Wasm

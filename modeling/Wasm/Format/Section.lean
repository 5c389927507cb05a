import Wasm.Format.ConstExpr
import Wasm.Syntax.Module

/-!
# Binary format of sections

Every section but the custom one and the start section is a vector of entries.
-/

namespace Wasm

open Decoder

/-- A custom section is a name and all the bytes that follow it. -/
def CustomSection.decoder : Decoder CustomSection := do
  let title ← Decoder.name
  let data ← takeRest
  pure ⟨title, data⟩

/-- The kind of an imported or exported thing is one byte. -/
def EntityKind.decoder : Decoder EntityKind :=
  byteMap EntityKind.ofByte?

/-- An import is described by its kind and the type of that kind. -/
def ImportDescription.decoder : Decoder ImportDescription := do
  match ← EntityKind.decoder with
  | .function => ImportDescription.function <$> index
  | .table => ImportDescription.table <$> TableType.decoder
  | .memory => ImportDescription.memory <$> MemoryType.decoder
  | .global => ImportDescription.global <$> GlobalType.decoder

/-- An import is two names and a description. -/
def Import.decoder : Decoder Import := do
  let moduleName ← Decoder.name
  let field ← Decoder.name
  let description ← ImportDescription.decoder
  pure ⟨moduleName, field, description⟩

/-- A global is its type and its initial value. -/
def Global.decoder : Decoder Global := do
  let type ← GlobalType.decoder
  let init ← ConstExpr.decoder
  pure ⟨type, init⟩

/-- An export is a name, a kind and an index. -/
def Export.decoder : Decoder Export := do
  let title ← Decoder.name
  let kind ← EntityKind.decoder
  let position ← index
  pure ⟨title, ⟨kind, position⟩⟩

/-- An element segment is a table, an offset and a vector of functions. -/
def ElementSegment.decoder : Decoder ElementSegment := do
  let table ← index
  let offset ← ConstExpr.decoder
  let init ← vector index
  pure ⟨table, offset, init⟩

/-- A group of locals is a count and a type. -/
def LocalGroup.decoder : Decoder LocalGroup := do
  let count ← Leb128.uint32
  let type ← ValueType.decoder
  pure ⟨count, type⟩

/-- A function has its locals and then, up to the end of its window, a body that
ends in an end mark. -/
def FunctionBody.contents : Decoder FunctionBody := do
  let locals ← vector LocalGroup.decoder
  let body ← takeRest
  if body.getLast? = some Opcode.finish.toByte then
    pure ⟨locals, body⟩
  else
    reject .unexpectedEnd

/-- A code entry is a size and a window of that size for one function. -/
def FunctionBody.decoder : Decoder FunctionBody := do
  let size ← Leb128.uint32
  within size FunctionBody.contents

/-- A data segment is a memory, an offset and a vector of bytes. -/
def DataSegment.decoder : Decoder DataSegment := do
  let memory ← index
  let offset ← ConstExpr.decoder
  let init ← byteVector
  pure ⟨memory, offset, init⟩

/-- The contents of a section of a given kind. -/
def Section.decoder : SectionKind → Decoder Section
  | .custom => Section.custom <$> CustomSection.decoder
  | .types => Section.types <$> vector FunctionType.decoder
  | .imports => Section.imports <$> vector Import.decoder
  | .functions => Section.functions <$> vector index
  | .tables => Section.tables <$> vector TableType.decoder
  | .memories => Section.memories <$> vector MemoryType.decoder
  | .globals => Section.globals <$> vector Global.decoder
  | .exports => Section.exports <$> vector Export.decoder
  | .start => Section.start <$> index
  | .elements => Section.elements <$> vector ElementSegment.decoder
  | .code => Section.code <$> vector FunctionBody.decoder
  | .data => Section.data <$> vector DataSegment.decoder

end Wasm

import Mathlib.Data.List.Forall2
import Mathlib.Data.Nat.Digits.Defs
import Wasm.Proofs.Leb128.FixedWidth
import Wasm.Proofs.Utf8
import Wasm.Syntax.Module

/-!
# Productions of the binary format

A production relates a value to the byte sequences that are written for it.
There may be several, because an integer may be padded.  Nothing here mentions a
decoder.
-/

namespace Wasm

/-- The byte sequences that are written for a value. -/
abbrev Production (α : Type) := α → List UInt8 → Prop

/-- An integer of a fixed width: at most the permitted number of groups, which
denote the value. -/
def Leb128.FixedWidth.Written {α : Type} (type : Leb128.FixedWidth α) :
    Production α :=
  fun value bytes =>
    ∃ encoding : Leb128.Encoding,
      encoding.length ≤ type.groups ∧
      encoding.number (Leb128.groupSign type.signed) = type.integer value ∧
      bytes = encoding.bytes

namespace Production

variable {α : Type}

/-- An unsigned 32-bit integer. -/
def natural : Production UInt32 :=
  Leb128.FixedWidth.unsigned32.Written

/-- The size of some contents, and the contents. -/
def sized (contents : Production α) : Production α :=
  fun value bytes =>
    ∃ size sizeBytes payload,
      natural size sizeBytes ∧
      size.toNat = payload.length ∧
      contents value payload ∧
      bytes = sizeBytes ++ payload

/-- The number of elements, and the elements one after the other. -/
def vector (element : Production α) : Production (List α) :=
  fun values bytes =>
    ∃ count countBytes chunks,
      natural count countBytes ∧
      count.toNat = values.length ∧
      List.Forall₂ element values chunks ∧
      bytes = countBytes ++ chunks.flatten

/-- The UTF-8 encoding of a text behind its size. -/
def name : Production String :=
  sized fun text bytes => bytes = Utf8.encode text.toList

/-- Raw bytes behind their number. -/
def byteVector : Production (List UInt8) :=
  sized fun data bytes => bytes = data

end Production

def ValueType.Written : Production ValueType :=
  fun type bytes => bytes = [type.toByte]

def FunctionType.Written : Production FunctionType :=
  fun type bytes =>
    ∃ params results,
      Production.vector ValueType.Written type.params params ∧
      Production.vector ValueType.Written type.results results ∧
      bytes = 0x60 :: (params ++ results)

/-- The byte that says whether limits have a maximum. -/
def Limits.flagByte (bounded : Bool) : UInt8 :=
  if bounded then 0x01 else 0x00

def Limits.Sizes : Production Limits
  | ⟨min, none⟩, bytes => Production.natural min bytes
  | ⟨min, some max⟩, bytes =>
      ∃ minBytes maxBytes,
        Production.natural min minBytes ∧
        Production.natural max maxBytes ∧
        bytes = minBytes ++ maxBytes

def Limits.Written : Production Limits :=
  fun limits bytes =>
    ∃ sizes, limits.Sizes sizes ∧
      bytes = Limits.flagByte limits.max.isSome :: sizes

def TableType.Written : Production TableType :=
  fun type bytes =>
    ∃ limits, type.limits.Written limits ∧ bytes = type.element.toByte :: limits

def GlobalType.Written : Production GlobalType :=
  fun type bytes => bytes = [type.valueType.toByte, type.mutability.toByte]

/-- The four bytes of the pattern, least significant first. -/
def Binary32.Written : Production Binary32 :=
  fun number bytes =>
    bytes.length = 4 ∧ Nat.ofDigits 256 (bytes.map UInt8.toNat) =
      number.bits.toNat

/-- The eight bytes of the pattern, least significant first. -/
def Binary64.Written : Production Binary64 :=
  fun number bytes =>
    bytes.length = 8 ∧ Nat.ofDigits 256 (bytes.map UInt8.toNat) =
      number.bits.toNat

def ConstExpr.code : ConstExpr → ConstOpcode
  | .globalGet _ => .globalGet
  | .i32 _ => .i32Const
  | .i64 _ => .i64Const
  | .f32 _ => .f32Const
  | .f64 _ => .f64Const

def ConstExpr.Operand : Production ConstExpr
  | .globalGet index => Production.natural index
  | .i32 value => Leb128.FixedWidth.signed32.Written value
  | .i64 value => Leb128.FixedWidth.signed64.Written value
  | .f32 value => value.Written
  | .f64 value => value.Written

/-- One constant instruction, which is an operation code and its operand, and
the end mark. -/
def ConstExpr.Written : Production ConstExpr :=
  fun expression bytes =>
    ∃ operand,
      expression.Operand operand ∧
        bytes = expression.code.toByte :: (operand ++ [0x0B])

def ImportDescription.kind : ImportDescription → EntityKind
  | .function _ => .function
  | .table _ => .table
  | .memory _ => .memory
  | .global _ => .global

/-- The type of what is imported. -/
def ImportDescription.Type : Production ImportDescription
  | .function type => Production.natural type
  | .table type => type.Written
  | .memory type => Limits.Written type
  | .global type => type.Written

def ImportDescription.Written : Production ImportDescription :=
  fun description bytes =>
    ∃ type, description.Type type ∧ bytes = description.kind.toByte :: type

def Import.Written : Production Import :=
  fun entry bytes =>
    ∃ moduleName field description,
      Production.name entry.moduleName moduleName ∧
      Production.name entry.field field ∧
      entry.description.Written description ∧
      bytes = moduleName ++ (field ++ description)

def Global.Written : Production Global :=
  fun entry bytes =>
    ∃ type init,
      entry.type.Written type ∧ entry.init.Written init ∧ bytes = type ++ init

def Export.Written : Production Export :=
  fun entry bytes =>
    ∃ title index,
      Production.name entry.name title ∧
      Production.natural entry.description.index index ∧
      bytes = title ++ entry.description.kind.toByte :: index

def ElementSegment.Written : Production ElementSegment :=
  fun segment bytes =>
    ∃ table offset init,
      Production.natural segment.table table ∧
      segment.offset.Written offset ∧
      Production.vector Production.natural segment.init init ∧
      bytes = table ++ (offset ++ init)

def LocalGroup.Written : Production LocalGroup :=
  fun group bytes =>
    ∃ count, Production.natural group.count count ∧
      bytes = count ++ [group.type.toByte]

/-- The locals, and a raw body that is not empty and ends in the end mark. -/
def FunctionBody.Contents : Production FunctionBody :=
  fun function bytes =>
    ∃ locals,
      Production.vector LocalGroup.Written function.locals locals ∧
      function.body.getLast? = some 0x0B ∧
      bytes = locals ++ function.body

def FunctionBody.Written : Production FunctionBody :=
  Production.sized FunctionBody.Contents

def DataSegment.Written : Production DataSegment :=
  fun segment bytes =>
    ∃ memory offset init,
      Production.natural segment.memory memory ∧
      segment.offset.Written offset ∧
      Production.byteVector segment.init init ∧
      bytes = memory ++ (offset ++ init)

namespace Section

/-- The contents of a section, all of them. -/
def Contents : Production Section
  | .custom contents, bytes =>
      ∃ title, Production.name contents.name title ∧
        bytes = title ++ contents.data
  | .types entries, bytes =>
      Production.vector FunctionType.Written entries bytes
  | .imports entries, bytes => Production.vector Import.Written entries bytes
  | .functions entries, bytes =>
      Production.vector Production.natural entries bytes
  | .tables entries, bytes => Production.vector TableType.Written entries bytes
  | .memories entries, bytes => Production.vector Limits.Written entries bytes
  | .globals entries, bytes => Production.vector Global.Written entries bytes
  | .exports entries, bytes => Production.vector Export.Written entries bytes
  | .start function, bytes => Production.natural function bytes
  | .elements entries, bytes =>
      Production.vector ElementSegment.Written entries bytes
  | .code entries, bytes => Production.vector FunctionBody.Written entries bytes
  | .data entries, bytes => Production.vector DataSegment.Written entries bytes

/-- A section is the number of its kind, the size of its contents and the
contents. -/
def Written : Production Section :=
  fun entry bytes =>
    ∃ rest, Production.sized Contents entry rest ∧
      bytes = entry.kind.toByte :: rest

/-- The contents of a custom section. -/
def custom? : Section → Option CustomSection
  | .custom contents => some contents
  | _ => none

/-- The numbers of the sections that are not custom increase strictly. -/
def Ordered (sections : List Section) : Prop :=
  (sections.filter fun entry => entry.kind != .custom).Pairwise
    fun earlier later => earlier.kind.toByte < later.kind.toByte

end Section

namespace Module

/-- The section of a kind, as far as the module has one.  There is no single
custom section. -/
def sectionOf? (module : Module) : SectionKind → Option Section
  | .custom => none
  | .types => module.types.map .types
  | .imports => module.imports.map .imports
  | .functions => module.functions.map .functions
  | .tables => module.tables.map .tables
  | .memories => module.memories.map .memories
  | .globals => module.globals.map .globals
  | .exports => module.exports.map .exports
  | .start => module.start.map .start
  | .elements => module.elements.map .elements
  | .code => module.code.map .code
  | .data => module.data.map .data

/-- The module says what the sections say and nothing else. -/
structure Holds (module : Module) (sections : List Section) : Prop where
  version : module.version = 1
  customs : module.customs = sections.filterMap Section.custom?
  sections : ∀ entry : Section, entry.kind ≠ .custom →
    (module.sectionOf? entry.kind = some entry ↔ entry ∈ sections)

/-- A module is the eight bytes of its header and its sections in order. -/
def Written : Production Module :=
  fun module bytes =>
    ∃ sections chunks,
      List.Forall₂ Section.Written sections chunks ∧
      Section.Ordered sections ∧
      module.Holds sections ∧
      bytes = [0x00, 0x61, 0x73, 0x6D, 0x01, 0x00, 0x00, 0x00] ++ chunks.flatten

end Module

end Wasm

import Wasm.Syntax.ConstExpr
import Wasm.Syntax.EntityType

/-!
# Modules

A module is what its sections say.  `Section` is the contents of one section,
and `Module.ofSections` collects a sequence of them: custom sections are kept in
order, and of every other kind the last one counts.
-/

namespace Wasm

/-- The kind of a section. -/
inductive SectionKind where
  | custom
  | types
  | imports
  | functions
  | tables
  | memories
  | globals
  | exports
  | start
  | elements
  | code
  | data
deriving DecidableEq, Repr

namespace SectionKind

/-- The number of a kind, which is also its place in a module. -/
def toByte : SectionKind → UInt8
  | .custom => 0
  | .types => 1
  | .imports => 2
  | .functions => 3
  | .tables => 4
  | .memories => 5
  | .globals => 6
  | .exports => 7
  | .start => 8
  | .elements => 9
  | .code => 10
  | .data => 11

/-- All kinds in the order of their numbers. -/
def all : List SectionKind :=
  [.custom, .types, .imports, .functions, .tables, .memories, .globals,
    .exports, .start, .elements, .code, .data]

/-- The kind with a number. -/
def ofByte? (byte : UInt8) : Option SectionKind :=
  all.find? fun kind => kind.toByte == byte

/-- The name of a kind in messages. -/
def name : SectionKind → String
  | .custom => "Custom"
  | .types => "Type"
  | .imports => "Import"
  | .functions => "Function"
  | .tables => "Table"
  | .memories => "Memory"
  | .globals => "Global"
  | .exports => "Export"
  | .start => "Start"
  | .elements => "Element"
  | .code => "Code"
  | .data => "Data"

/-- Whether a section may come when `last` is the last section before it that is
not custom.  Custom sections come anywhere, the others at most once and in the
order of their numbers. -/
def mayFollow (kind : SectionKind) (last : Option SectionKind) : Bool :=
  kind == .custom || last.all fun earlier => earlier.toByte < kind.toByte

/-- The last section that is not custom, once a section has come after
`last`. -/
def lastAfter (kind : SectionKind) (last : Option SectionKind) :
    Option SectionKind :=
  if kind = .custom then last else some kind

theorem ofByte?_eq_some_iff {byte : UInt8} {kind : SectionKind} :
    ofByte? byte = some kind ↔ byte = kind.toByte := by
  constructor
  · intro found
    unfold ofByte? at found
    have matched := List.find?_some found
    exact (beq_iff_eq.mp matched).symm
  · rintro rfl
    cases kind <;> rfl

end SectionKind

/-- Uninterpreted data under a name. -/
structure CustomSection where
  name : String
  data : List UInt8
deriving DecidableEq, Repr

/-- The kinds of things that modules take and offer. -/
inductive EntityKind where
  | function
  | table
  | memory
  | global
deriving DecidableEq, Repr

namespace EntityKind

/-- The number of a kind. -/
def toByte : EntityKind → UInt8
  | .function => 0x00
  | .table => 0x01
  | .memory => 0x02
  | .global => 0x03

/-- The kind with a number. -/
def ofByte? (byte : UInt8) : Option EntityKind :=
  if byte = 0x00 then some .function
  else if byte = 0x01 then some .table
  else if byte = 0x02 then some .memory
  else if byte = 0x03 then some .global
  else none

theorem ofByte?_eq_some_iff {byte : UInt8} {kind : EntityKind} :
    ofByte? byte = some kind ↔ byte = kind.toByte := by
  cases kind <;> grind [ofByte?, toByte]

end EntityKind

/-- What an import stands for. -/
inductive ImportDescription where
  | function (type : TypeIndex)
  | table (type : TableType)
  | memory (type : MemoryType)
  | global (type : GlobalType)
deriving DecidableEq, Repr

/-- Something that a module takes from elsewhere. -/
structure Import where
  moduleName : String
  field : String
  description : ImportDescription
deriving DecidableEq, Repr

/-- A global with its type and initial value. -/
structure Global where
  type : GlobalType
  init : ConstExpr
deriving DecidableEq, Repr

/-- What an export stands for: a thing of some kind and its index. -/
structure ExportDescription where
  kind : EntityKind
  index : UInt32
deriving DecidableEq, Repr

/-- Something that a module offers under a name. -/
structure Export where
  name : String
  description : ExportDescription
deriving DecidableEq, Repr

/-- Functions that are put into a table from an offset on. -/
structure ElementSegment where
  table : TableIndex
  offset : ConstExpr
  init : List FunctionIndex
deriving DecidableEq, Repr

/-- A number of locals of one type. -/
structure LocalGroup where
  count : UInt32
  type : ValueType
deriving DecidableEq, Repr

/-- The locals of a function and the bytes of its body, end mark included. -/
structure FunctionBody where
  locals : List LocalGroup
  body : List UInt8
deriving DecidableEq, Repr

/-- Bytes that are put into a memory from an offset on. -/
structure DataSegment where
  memory : MemoryIndex
  offset : ConstExpr
  init : List UInt8
deriving DecidableEq, Repr

/-- The contents of a section. -/
inductive Section where
  | custom (contents : CustomSection)
  | types (entries : List FunctionType)
  | imports (entries : List Import)
  | functions (entries : List TypeIndex)
  | tables (entries : List TableType)
  | memories (entries : List MemoryType)
  | globals (entries : List Global)
  | exports (entries : List Export)
  | start (function : FunctionIndex)
  | elements (entries : List ElementSegment)
  | code (entries : List FunctionBody)
  | data (entries : List DataSegment)
deriving DecidableEq, Repr

namespace Section

/-- The kind of a section. -/
def kind : Section → SectionKind
  | .custom _ => .custom
  | .types _ => .types
  | .imports _ => .imports
  | .functions _ => .functions
  | .tables _ => .tables
  | .memories _ => .memories
  | .globals _ => .globals
  | .exports _ => .exports
  | .start _ => .start
  | .elements _ => .elements
  | .code _ => .code
  | .data _ => .data

end Section

/-- A module.  A section that is absent differs from one that is empty. -/
structure Module where
  version : UInt32
  customs : List CustomSection
  types : Option (List FunctionType)
  imports : Option (List Import)
  functions : Option (List TypeIndex)
  tables : Option (List TableType)
  memories : Option (List MemoryType)
  globals : Option (List Global)
  exports : Option (List Export)
  start : Option FunctionIndex
  elements : Option (List ElementSegment)
  code : Option (List FunctionBody)
  data : Option (List DataSegment)
deriving DecidableEq, Repr

namespace Module

/-- The module without sections. -/
def empty : Module where
  version := 1
  customs := []
  types := none
  imports := none
  functions := none
  tables := none
  memories := none
  globals := none
  exports := none
  start := none
  elements := none
  code := none
  data := none

/-- The module with the contents of one more section.  Only the field of the
section's kind changes. -/
def insert (module : Module) : Section → Module
  | .custom contents => { module with customs := module.customs ++ [contents] }
  | .types entries => { module with types := some entries }
  | .imports entries => { module with imports := some entries }
  | .functions entries => { module with functions := some entries }
  | .tables entries => { module with tables := some entries }
  | .memories entries => { module with memories := some entries }
  | .globals entries => { module with globals := some entries }
  | .exports entries => { module with exports := some entries }
  | .start function => { module with start := some function }
  | .elements entries => { module with elements := some entries }
  | .code entries => { module with code := some entries }
  | .data entries => { module with data := some entries }

/-- The module that a sequence of sections makes. -/
def ofSections (sections : List Section) : Module :=
  sections.foldl insert empty

end Module

end Wasm

/-!
# Indices

Things of one kind are numbered from zero in the order in which a module lists
them.
-/

namespace Wasm

/-- Position of a type among the function types of a module. -/
abbrev TypeIndex := UInt32

/-- Position of a function in a module. -/
abbrev FunctionIndex := UInt32

/-- Position of a table in a module. -/
abbrev TableIndex := UInt32

/-- Position of a memory in a module. -/
abbrev MemoryIndex := UInt32

/-- Position of a global in a module. -/
abbrev GlobalIndex := UInt32

/-- Position of a local in a function. -/
abbrev LocalIndex := UInt32

end Wasm

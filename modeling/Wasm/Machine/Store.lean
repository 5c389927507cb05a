import Wasm.Machine.Value
import Wasm.Syntax.Module

/-!
# Store of globals

Instantiation gives each global of a module its initial value, in order.  An
initial value may be that of an earlier global.  Imported globals are not
supported.
-/

namespace Wasm

/-- A global with its current value. -/
structure GlobalInstance where
  type : GlobalType
  value : Value
deriving DecidableEq, Repr

/-- The globals of an instantiated module. -/
structure Store where
  /-- The globals in the order of their indices. -/
  globals : List GlobalInstance
deriving DecidableEq, Repr

/-- Why a module cannot be instantiated. -/
inductive InstantiationError where
  /-- The module imports a global. -/
  | importedGlobal (moduleName field : String)
  /-- The initial value of a global cannot be had. -/
  | trap (cause : Trap)
deriving DecidableEq, Repr

namespace InstantiationError

/-- Text of the error. -/
def message : InstantiationError → String
  | .importedGlobal moduleName field =>
      "imported global " ++ moduleName ++ "." ++ field ++ " is not supported"
  | .trap cause => cause.message

end InstantiationError

/-- The value of a constant expression.  It sees the globals that have been
initialised before. -/
def ConstExpr.evaluate (expression : ConstExpr)
    (earlier : List GlobalInstance) :
    Except Trap Value :=
  match expression with
  | .globalGet index =>
      match earlier[index.toNat]? with
      | none => .error (.globalOutOfRange index)
      | some global => .ok global.value
  | .i32 number => .ok (.i32 number)
  | .i64 number => .ok (.i64 number)
  | .f32 number => .ok (.f32 number)
  | .f64 number => .ok (.f64 number)

/-- The initial instance of a global.  Its value has to have the declared
type. -/
def Global.instantiate (global : Global) (earlier : List GlobalInstance) :
    Except Trap GlobalInstance :=
  match global.init.evaluate earlier with
  | .error trap => .error trap
  | .ok value =>
      if value.type = global.type.valueType then
        .ok ⟨global.type, value⟩
      else
        .error (.typeMismatch global.type.valueType value.type)

/-- Whether a global is imported. -/
def Import.isGlobal (item : Import) : Bool :=
  match item.description with
  | .global _ => true
  | _ => false

/-- How far the instantiation of a module got. -/
structure Instantiation where
  /-- The globals that were initialised, in order. -/
  globals : List GlobalInstance
  /-- The error that stopped it, if there was one. -/
  error : Option InstantiationError
deriving DecidableEq, Repr

namespace Instantiation

/-- Initialises globals one after the other, behind those that already are. -/
def ofGlobals (earlier : List GlobalInstance) : List Global → Instantiation
  | [] => ⟨earlier, none⟩
  | global :: others =>
      match global.instantiate earlier with
      | .error trap => ⟨earlier, some (.trap trap)⟩
      | .ok fresh => ofGlobals (earlier ++ [fresh]) others

/-- Instantiates a module.  The first imported global is an error, whatever the
globals are. -/
def ofModule (module : Module) : Instantiation :=
  match (module.imports.getD []).find? Import.isGlobal with
  | some item => ⟨[], some (.importedGlobal item.moduleName item.field)⟩
  | none => ofGlobals [] (module.globals.getD [])

end Instantiation

namespace Store

/-- The store of a module, or the reason why there is none. -/
def ofModule (module : Module) : Except InstantiationError Store :=
  let instantiation := Instantiation.ofModule module
  match instantiation.error with
  | none => .ok ⟨instantiation.globals⟩
  | some error => .error error

/-- The value of a global. -/
def get (store : Store) (index : GlobalIndex) : Except Trap Value :=
  match store.globals[index.toNat]? with
  | none => .error (.globalOutOfRange index)
  | some global => .ok global.value

/-- The store with another value in a global, which has to be mutable and keeps
its type. -/
def set (store : Store) (index : GlobalIndex) (value : Value) :
    Except Trap Store :=
  match store.globals[index.toNat]? with
  | none => .error (.globalOutOfRange index)
  | some global =>
      if global.type.mutability = .constant then
        .error (.globalImmutable index)
      else if value.type = global.type.valueType then
        .ok ⟨store.globals.set index.toNat { global with value := value }⟩
      else
        .error (.typeMismatch global.type.valueType value.type)

end Store

end Wasm

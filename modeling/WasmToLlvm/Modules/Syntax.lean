import WasmToLlvm.Instruction.Opcode
import WasmToLlvm.Library.Lanes
import WasmToLlvm.Library.Names

/-!
# WebAssembly modules

`wabt::Module` after validation. The lists of functions, globals, tables and memories are
the index spaces; imports and definitions name their entities by their place in them.
-/

set_option autoImplicit false

namespace WasmToLlvm.Modules

open Wasm Instruction Library

/-- `wabt::Limits`, with `max` for `has_max`. -/
structure Limits where
  initial : Nat
  max : Option Nat
  deriving DecidableEq, Repr

/-- The expressions of an initializer; `kind` names one that is neither a constant nor the
value of a global. -/
inductive InitInstr where
  | const (value : Const)
  | globalGet (index : Nat)
  | other (kind : String)
  deriving DecidableEq, Repr

abbrev InitExpr := List InitInstr

structure ModuleFunc where
  name : Name
  func : Func Instr

structure Global where
  name : Name
  type : ValType
  mutable_ : Bool
  initExpr : InitExpr

structure Table where
  name : Name
  elemType : ValType
  elemLimits : Limits

structure Memory where
  name : Name
  pageLimits : Limits

/-- `wabt::ExternalKind`. -/
inductive ExternalKind where
  | func | table | memory | global | tag
  deriving DecidableEq, Repr

structure Import where
  moduleName : Name
  fieldName : Name
  kind : ExternalKind
  index : Nat

structure Export where
  name : Name
  kind : ExternalKind
  index : Nat

structure DataSegment where
  name : Name
  memory : Nat
  offset : InitExpr
  data : List Byte

/-- `wabt::SegmentKind`. -/
inductive SegmentKind where
  | active | passive | declared
  deriving DecidableEq, Repr

/-- An element of a segment. -/
inductive ElemExpr where
  | refFunc (func : Nat)
  | other
  deriving DecidableEq, Repr

structure ElemSegment where
  kind : SegmentKind
  table : Nat
  elemType : ValType
  offset : InitExpr
  elemExprs : List ElemExpr

/-- `wabt::ModuleField`, as far as fields are visited. -/
inductive ModuleField where
  | func (index : Nat)
  | memory (index : Nat)
  | global (index : Nat)
  | table (index : Nat)
  | dataSegment (segment : DataSegment)
  | other

structure Module where
  name : Name
  funcs : List ModuleFunc
  globals : List Global
  tables : List Table
  memories : List Memory
  imports : List Import
  fields : List ModuleField
  exports : List Export
  elemSegments : List ElemSegment

namespace Module

variable (module : Module)

/-- The entities of a kind that are imported, in the order of the imports. -/
def imported (kind : ExternalKind) : List Nat :=
  (module.imports.filter (·.kind = kind)).map Import.index

/-- The fields of kind `Func`, and so on. -/
def definedFuncs : List Nat :=
  module.fields.filterMap fun | .func index => some index | _ => none

def definedMemories : List Nat :=
  module.fields.filterMap fun | .memory index => some index | _ => none

def definedGlobals : List Nat :=
  module.fields.filterMap fun | .global index => some index | _ => none

def definedTables : List Nat :=
  module.fields.filterMap fun | .table index => some index | _ => none

def dataSegments : List DataSegment :=
  module.fields.filterMap fun | .dataSegment segment => some segment | _ => none

/-- Every index space has the imported entities first and then the defined ones. -/
structure Listed : Prop where
  funcs : module.imported .func ++ module.definedFuncs = List.range module.funcs.length
  globals : module.imported .global ++ module.definedGlobals = List.range module.globals.length
  tables : module.imported .table ++ module.definedTables = List.range module.tables.length
  memories : module.imported .memory ++ module.definedMemories = List.range module.memories.length

end Module

end WasmToLlvm.Modules

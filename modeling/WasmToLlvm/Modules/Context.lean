import WasmToLlvm.Instruction.Dispatch
import WasmToLlvm.Llvm.Intrinsics
import WasmToLlvm.Llvm.Module
import WasmToLlvm.Modules.Syntax

/-!
# The translation of a module's parts

`Context` with its LLVM module and LLVM context, and the functions that declare the
entities of a module and fill memories and tables. Messages and argument names are left out.
-/

set_option autoImplicit false

namespace WasmToLlvm.Modules

open Llvm Wasm Block Instruction Library

/-- The options that change the result. `constantDataUses` is none of the translator's: it says
whether the LLVM at hand keeps lists of the uses of constant data, which LLVM 22 does not. -/
structure Options where
  genIntToPtr : Bool
  fixNames : Bool
  noRemoveDollar : Bool
  forceExportName : Bool
  splitMem : Bool
  noMemInitializer : Bool
  constantDataUses : Bool
  deriving Repr

/-- The ways in which the translation of a module stops. -/
inductive Failure where
  | abort (reason : Abort)
  | initExprSize
  | initExprGlobalGet
  | tableElemType (type : ValType)
  | elemType (type : ValType)
  | passiveElem
  | elemExprs
  | dataMemoryReference (index : Nat)
  | globalsNotEmpty
  /-- The constant to replace is the one to replace it with. -/
  | replacesItself
  /-- A copy that leaves its buffer. -/
  | undefined
  deriving DecidableEq, Repr

/-- A global value is for an entity of the module or for a data segment, or it is the
declaration of an intrinsic. -/
inductive Entity where
  | func (index : Nat)
  | global (index : Nat)
  | table (index : Nat)
  | memory (index : Nat)
  | dataSegment
  | intrinsic
  deriving DecidableEq, Repr

/-- The code of a function. -/
abbrev Body := Function Operation

/-- Global values are given by their places in the LLVM module. `entities` is a history
variable that nothing reads: what each global value was created for. -/
structure Context where
  opts : Options
  module : Module
  llvmModule : Llvm.Module Body
  arrays : DataArrays
  globs : List Nat
  funcs : List Nat
  mems : List Nat
  tables : List Nat
  globIndex : Nat
  funcIndex : Nat
  memIndex : Nat
  tableIndex : Nat
  entities : List Entity

abbrev Translate := StateT Context (Except Failure)

/-! ## Access -/

/-- `at` of a vector. -/
def at_ {α : Type} (values : List α) (index : Nat) : Translate α :=
  match values[index]? with
  | some value => pure value
  | none => throw (.abort .outOfRange)

def convertType (type : ValType) : Translate Ty :=
  match convertType? type with
  | some converted => pure converted
  | none => throw (.abort (.cannotConvertType type))

def convertTypes : List ValType → Translate (List Ty)
  | [] => pure []
  | type :: types => do
      let converted ← convertType type
      let rest ← convertTypes types
      return converted :: rest

/-- Creates a function or variable for an entity. -/
def createGlobalValue (entity : Entity) (name : Name) (linkage : Linkage) (object : GlobalObject Body) :
    Translate Nat := fun context =>
  let (id, llvmModule) := context.llvmModule.create name linkage object
  .ok (id, { context with llvmModule, entities := context.entities ++ [entity] })

def updateModule (change : Llvm.Module Body → Llvm.Module Body) : Translate Unit :=
  modify fun context => { context with llvmModule := change context.llvmModule }

/-- The declaration of an intrinsic. -/
def insertDeclaration (declaration : Declaration) : Translate Unit := do
  let _ ← createGlobalValue .intrinsic declaration.name .external
    (.function declaration.params declaration.result none)

/-- `Intrinsic::getOrInsertDeclaration`: a function that has the name is taken if it has the
type, and loses the name otherwise. -/
def getOrInsertDeclaration (declaration : Declaration) : Translate Unit := do
  let context ← get
  match context.llvmModule.getNamedValue declaration.name with
  | none => insertDeclaration declaration
  | some id => do
      let value ← at_ context.llvmModule.values id
      match value.object with
      | .variable _ _ _ _ => throw (.abort .assertion)
      | .function params result _ =>
          if ¬(params = declaration.params ∧ result = declaration.result) then
            updateModule fun llvmModule => llvmModule.setName id (declaration.name ++ ".invalid".toList)
            insertDeclaration declaration

/-! ## Declarations -/

def removeDollar : Name → Name
  | '$' :: name => name
  | name => name

/-- The name for an LLVM object under the option `NoRemoveDollar`. -/
def objectName (opts : Options) (name : Name) : Name :=
  if opts.noRemoveDollar then name else removeDollar name

def linkageOf (isExternal : Bool) : Linkage :=
  if isExternal then .external else .internal

/-- `visitInitExpr`; null is `none`. -/
def visitInitExpr : InitExpr → Translate (Option Value)
  | [.const value] => pure (some (visitConst value))
  | [.globalGet _] => throw .initExprGlobalGet
  | [.other _] => pure none
  | _ => throw .initExprSize

/-- `convertFuncType` and `convertReturnType`. -/
def convertFuncType (sig : FuncSignature) : Translate (List Ty × Ty) := do
  let params ← convertTypes sig.params
  match sig.results with
  | [] => return (params, .void)
  | [type] => do
      let result ← convertType type
      return (params, result)
  | _ => throw (.abort .multiResult)

def declareFunc (index : Nat) (isExternal : Bool) : Translate Nat := do
  let context ← get
  let func ← at_ context.module.funcs index
  let (params, result) ← convertFuncType func.func.decl
  let function ← createGlobalValue (.func index) (objectName context.opts func.name) (linkageOf isExternal)
    (.function params result none)
  modify fun context =>
    { context with funcs := context.funcs ++ [function], funcIndex := context.funcIndex + 1 }
  return function

def globalName (context : Context) (name : Name) : Name :=
  objectName context.opts
    (if name = [] then "__notdec_global_".toList ++ digits context.globIndex else name)

def visitGlobal (index : Nat) (isExternal : Bool) : Translate Unit := do
  let context ← get
  let global ← at_ context.module.globals index
  let type ← convertType global.type
  let gv ← createGlobalValue (.global index) (globalName context global.name) (linkageOf isExternal)
    (.variable type (!global.mutable_) none none)
  if !isExternal then
    let init ← visitInitExpr global.initExpr
    let constant : Constant :=
      match init with
      | some value => .value value
      | none => .zero type
    updateModule fun llvmModule => llvmModule.update gv fun value => value.setInitializer constant
  modify fun context => { context with globs := context.globs ++ [gv], globIndex := context.globIndex + 1 }

/-- The table is declared without an initializer. -/
def visitTable (index : Nat) (_isExternal : Bool) : Translate Unit := do
  let context ← get
  let table ← at_ context.module.tables index
  if table.elemType ≠ .funcRef then
    throw (.tableElemType table.elemType)
  let name := if table.name = [] then "table_".toList ++ digits context.tableIndex else table.name
  let gv ← createGlobalValue (.table index) name .external
    (.variable (.array table.elemLimits.initial .ptr) false none none)
  modify fun context =>
    { context with tables := context.tables ++ [gv], tableIndex := context.tableIndex + 1 }

/-- The size of the variable, in pages: the maximum where there is one. -/
def Memory.pages (memory : Memory) : Nat :=
  memory.pageLimits.max.getD memory.pageLimits.initial

def declareMemory (index : Nat) (isExternal : Bool) : Translate Unit := do
  let context ← get
  let memory ← at_ context.module.memories index
  let type : Ty := .array (memory.pages * 65536) (.int 8)
  let gv ← createGlobalValue (.memory index) "__notdec_mem0".toList (linkageOf isExternal)
    (.variable type false (if isExternal then none else some (.zero type)) none)
  modify fun context => { context with mems := context.mems ++ [gv], memIndex := context.memIndex + 1 }

end WasmToLlvm.Modules

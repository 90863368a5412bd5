import WasmToLlvm.Block.Visit
import WasmToLlvm.Modules.Reading

/-!
# The translation of a module

`visitModule`, phase by phase.
-/

set_option autoImplicit false

namespace WasmToLlvm.Modules

open Llvm Wasm Block Instruction Library

/-! ## Imports -/

/-- `setNameIfEmpty`. -/
def nameIfEmpty (field name : Name) : Name :=
  if field = [] then name else field

def updateWasm (change : Module → Module) : Translate Unit :=
  modify fun context => { context with module := change context.module }

/-- `setNameIfEmpty` on the imported entity. -/
def nameImport (entity : Import) : Translate Unit :=
  let name := entity.moduleName ++ '.' :: entity.fieldName
  updateWasm fun module =>
    match entity.kind with
    | .func =>
        { module with funcs := module.funcs.modify entity.index fun func =>
            { func with name := nameIfEmpty func.name name } }
    | .memory =>
        { module with memories := module.memories.modify entity.index fun memory =>
            { memory with name := nameIfEmpty memory.name name } }
    | .global =>
        { module with globals := module.globals.modify entity.index fun global =>
            { global with name := nameIfEmpty global.name name } }
    | .table =>
        { module with tables := module.tables.modify entity.index fun table =>
            { table with name := nameIfEmpty table.name name } }
    | .tag => module

/-- A tag is skipped. -/
def visitImport (entity : Import) : Translate Unit := do
  nameImport entity
  match entity.kind with
  | .func => do
      let _ ← declareFunc entity.index true
  | .memory => declareMemory entity.index true
  | .global => visitGlobal entity.index true
  | .table => visitTable entity.index true
  | .tag => return

/-! ## Functions -/

def functionName (llvmModule : Llvm.Module Body) (id : Nat) : Name :=
  ((llvmModule.values[id]?).map GlobalValue.name).getD []

/-- The first character of an empty name does not exist. -/
def removeDollarName (function : Nat) : Translate Unit := do
  let context ← get
  match functionName context.llvmModule function with
  | [] => throw (.abort .assertion)
  | '$' :: name => updateModule fun llvmModule => llvmModule.setName function name
  | _ => return

/-- `if (Function *func = getFunction(name)) func->setName("")`. -/
def clearName (name : Name) (llvmModule : Llvm.Module Body) : Llvm.Module Body :=
  match llvmModule.getFunction name with
  | some func => llvmModule.setName func []
  | none => llvmModule

def renameMain (function : Nat) (llvmModule : Llvm.Module Body) : Llvm.Module Body :=
  if functionName llvmModule function = "__original_main".toList ∨
      functionName llvmModule function = "__main_argc_argv".toList then
    (clearName "main".toList (llvmModule.setLinkage function .external)).setName function "main".toList
  else llvmModule

def renameFunction (function : Nat) (name new : Name) (llvmModule : Llvm.Module Body) : Llvm.Module Body :=
  if functionName llvmModule function = name then llvmModule.setName function new else llvmModule

/-- The names of a function under the option `FixNames`, or the linkage of `main`. -/
def fixNames (function : Nat) : Translate Unit := do
  let context ← get
  if context.opts.fixNames then
    if !context.opts.noRemoveDollar then
      removeDollarName function
    updateModule (renameMain function)
    updateModule (renameFunction function "memset".toList "memset_1".toList)
    updateModule (renameFunction function "memcpy".toList "memcpy_1".toList)
  else if functionName context.llvmModule function = "main".toList then
    updateModule fun llvmModule => llvmModule.setLinkage function .external

/-- Declares the functions that are defined in the module. -/
def declareFuncs : List Nat → Translate (List Nat)
  | [] => pure []
  | index :: rest => do
      let function ← declareFunc index false
      fixNames function
      let functions ← declareFuncs rest
      return function :: functions

/-- The index spaces as `visitFunc` sees them. -/
def Context.environment (context : Context) : Environment where
  genIntToPtr := context.opts.genIntToPtr
  funcs := context.module.funcs.map fun func => func.func.decl
  globs := context.module.globals.map Global.type
  mems := context.mems.map fun id => arraySize (((context.llvmModule.values[id]?).map
    GlobalValue.valueType).getD .void)
  tables := context.tables.map fun id => arraySize (((context.llvmModule.values[id]?).map
    GlobalValue.valueType).getD .void)

/-- `visitFunc`; the body is that of `Block.visitFunc`, and the intrinsics that it calls are
declared while it is built. -/
def visitFunc (index function : Nat) : Translate Unit := do
  let context ← get
  let func ← at_ context.module.funcs index
  match Block.visitFunc (instructions context.environment) func.func with
  | .ok translated => do
      translated.function.declarations.forM getOrInsertDeclaration
      updateModule fun llvmModule => llvmModule.update function fun value =>
        value.setBody translated.function
  | .error reason => throw (.abort reason)

/-- `nonImportFuncs.at(i)` goes with the field. -/
def visitFuncs : List Nat → List Nat → Translate Unit
  | [], _ => pure ()
  | _ :: _, [] => throw (.abort .outOfRange)
  | index :: indices, function :: functions => do
      visitFunc index function
      visitFuncs indices functions

section Bodies

variable {M : Type} [Monoid M] {grading : Grading Context M}

theorem getOrInsertDeclaration_effect {before : Context} (declaration : Declaration)
    (inserts : ∀ before, Effect grading before (insertDeclaration declaration) 1)
    (renames : ∀ (id : Nat) (before : Context), Effect grading before (updateModule fun llvmModule =>
      llvmModule.setName id (declaration.name ++ ".invalid".toList)) 1) :
    Effect grading before (getOrInsertDeclaration declaration) 1 := by
  unfold getOrInsertDeclaration
  refine .get ?_
  split
  · exact inserts _
  · refine at_reads.skip fun _ => ?_
    split
    · exact .throw _
    · exact .ite (fun _ => (renames _ _).skip fun _ => inserts _) fun _ => .pure _

/-- What holds of each function that is declared or renamed and of each body holds of all
bodies. -/
theorem visitFuncs_effect {before : Context} (indices functions : List Nat)
    (declares : ∀ (declaration : Declaration) (before : Context), '.' ∈ declaration.name →
      Effect grading before (getOrInsertDeclaration declaration) 1)
    (bodies : ∀ (function : Nat) (code : Body) (before : Context), Effect grading before
      (updateModule fun llvmModule => llvmModule.update function fun value => value.setBody code) 1) :
    Effect grading before (visitFuncs indices functions) 1 := by
  induction indices generalizing before functions with
  | nil => exact .pure _
  | cons index rest ih =>
      cases functions with
      | nil => exact .throw _
      | cons function functions =>
          have visited : Effect grading before (visitFunc index function) 1 := by
            unfold visitFunc
            refine .get (at_reads.skip fun _ => ?_)
            split
            · refine Effect.skip (Effect.forM_one fun declaration member _ => ?_) fun _ => bodies _ _ _
              exact declares declaration _ (Function.ofIntrinsic member).dot
            · exact .throw _
          exact visited.skip fun _ => ih functions

end Bodies

/-! ## Exports -/

/-- The name of an exported function. -/
def exportName (opts : Options) (function : Nat) (name : Name) (llvmModule : Llvm.Module Body) :
    Llvm.Module Body :=
  if name = [] then llvmModule
  else if opts.forceExportName then (clearName name llvmModule).setName function name
  else if functionName llvmModule function = [] then llvmModule.setName function name
  else llvmModule

/-- Makes an entity external. -/
def exportEntity (values : List Nat) (index : Nat) : Translate Nat := do
  let id ← at_ values index
  updateModule fun llvmModule => llvmModule.setLinkage id .external
  return id

def visitExport (entity : Export) : Translate Unit := do
  let context ← get
  match entity.kind with
  | .func => do
      let function ← exportEntity context.funcs entity.index
      updateModule (exportName context.opts function entity.name)
  | .memory => do
      let _ ← exportEntity context.mems entity.index
  | .global => do
      let _ ← exportEntity context.globs entity.index
  | .table | .tag => return

def defaultName (index function : Nat) (llvmModule : Llvm.Module Body) : Llvm.Module Body :=
  if functionName llvmModule function = [] then
    llvmModule.setName function ("func_".toList ++ digits index)
  else llvmModule

def assignDefaultNames : List Nat → Nat → Translate Unit
  | [], _ => pure ()
  | function :: functions, index => do
      updateModule (defaultName index function)
      assignDefaultNames functions (index + 1)

/-! ## The module -/

/-- Globals that were visited with the imports are left out. -/
def visitGlobals (visited : List Nat) : List Nat → Translate Unit
  | [] => pure ()
  | index :: rest => do
      if index ∉ visited then
        visitGlobal index false
      visitGlobals visited rest

def visitModule : Translate Unit := do
  let context ← get
  let module := context.module
  if context.funcIndex ≠ 0 ∨ context.globIndex ≠ 0 then
    throw .globalsNotEmpty
  module.imports.forM visitImport
  visitGlobals (module.imported .global) (List.range module.globals.length)
  module.definedMemories.forM fun index => declareMemory index false
  module.dataSegments.forM visitDataSegment
  let functions ← declareFuncs module.definedFuncs
  (List.range module.tables.length).forM fun index => visitTable index false
  visitFuncs module.definedFuncs functions
  module.exports.forM visitExport
  let context ← get
  assignDefaultNames context.funcs 0
  module.elemSegments.forM visitElem
  let context ← get
  if context.funcs.length ≠ context.funcIndex then
    throw (.abort .assertion)

/-! Data segments are visited between two groups of phases. -/

def declareEntities (module : Module) : Translate Unit := do
  let context ← get
  if context.funcIndex ≠ 0 ∨ context.globIndex ≠ 0 then
    throw .globalsNotEmpty
  module.imports.forM visitImport
  visitGlobals (module.imported .global) (List.range module.globals.length)
  module.definedMemories.forM fun index => declareMemory index false

def finishModule (module : Module) : Translate Unit := do
  let functions ← declareFuncs module.definedFuncs
  (List.range module.tables.length).forM fun index => visitTable index false
  visitFuncs module.definedFuncs functions
  module.exports.forM visitExport
  let context ← get
  assignDefaultNames context.funcs 0
  module.elemSegments.forM visitElem
  let context ← get
  if context.funcs.length ≠ context.funcIndex then
    throw (.abort .assertion)

theorem visitModule_eq (before : Context) : visitModule before =
    (do
      declareEntities before.module
      before.module.dataSegments.forM visitDataSegment
      finishModule before.module : Translate Unit) before := by
  unfold visitModule declareEntities finishModule
  simp only [get_bind_run, bind_assoc]
  split
  · rfl
  · simp only [bind_assoc]

/-! Exports are visited between two groups of those. -/

def declareFunctions (module : Module) : Translate Unit := do
  let functions ← declareFuncs module.definedFuncs
  (List.range module.tables.length).forM fun index => visitTable index false
  visitFuncs module.definedFuncs functions

def nameFunctions (module : Module) : Translate Unit := do
  module.exports.forM visitExport
  let context ← get
  assignDefaultNames context.funcs 0

def fillTables (module : Module) : Translate Unit := do
  module.elemSegments.forM visitElem
  let context ← get
  if context.funcs.length ≠ context.funcIndex then
    throw (.abort .assertion)

theorem fillTables_effect {M : Type} [Monoid M] {grading : Grading Context M} {before : Context} (module : Module)
    (visits : ∀ elem ∈ module.elemSegments, ∀ before, Effect grading before (visitElem elem) 1) :
    Effect grading before (fillTables module) 1 := by
  unfold fillTables
  refine (Effect.forM_one visits).skip fun _ => .get ?_
  exact .ite (fun _ => .throw _) fun _ => .pure _

theorem finishModule_eq (module : Module) : finishModule module =
    (do
      declareFunctions module
      nameFunctions module
      fillTables module : Translate Unit) := by
  unfold finishModule declareFunctions nameFunctions fillTables
  simp only [bind_assoc]

def beforeExports (module : Module) : Translate Unit := do
  declareEntities module
  module.dataSegments.forM visitDataSegment
  declareFunctions module

/-- All but the element segments. -/
def beforeTables (module : Module) : Translate Unit := do
  beforeExports module
  nameFunctions module

/-- A context before the translation of a module, in an LLVM context with these arrays. -/
def Context.start (opts : Options) (arrays : DataArrays) (module : Module) : Context :=
  ⟨opts, module, ⟨[], 0⟩, arrays, [], [], [], [], 0, 0, 0, 0, []⟩

/-- The translation of a module. -/
def translateModule (opts : Options) (arrays : DataArrays) (module : Module) : Except Failure Context :=
  match visitModule (Context.start opts arrays module) with
  | .ok (_, context) => .ok context
  | .error failure => .error failure

theorem translateModule_visits {opts : Options} {arrays : DataArrays} {module : Module} {context : Context} :
    translateModule opts arrays module = .ok context ↔
      visitModule (Context.start opts arrays module) = .ok ((), context) := by
  unfold translateModule
  cases visitModule (Context.start opts arrays module) with
  | error failure => simp
  | ok result => simp [Prod.ext_iff]

theorem translateModule_completes {opts : Options} {arrays : DataArrays} {module : Module}
    (ok : (translateModule opts arrays module).isOk = true) : ∃ context, translateModule opts arrays module = .ok context := by
  cases ran : translateModule opts arrays module with
  | error failure => rw [ran] at ok; cases ok
  | ok context => exact ⟨context, rfl⟩

/-- The states between the phases of a completed translation. -/
theorem translateModule_iff {opts : Options} {arrays : DataArrays} {module : Module} {context : Context} :
    translateModule opts arrays module = .ok context ↔ ∃ declared filled,
      declareEntities module (Context.start opts arrays module) = .ok ((), declared) ∧
        module.dataSegments.forM visitDataSegment declared = .ok ((), filled) ∧
        finishModule module filled = .ok ((), context) := by
  rw [translateModule_visits, visitModule_eq]
  constructor
  · intro ranPhases
    obtain ⟨_, declared, ranDeclare, ranPhases⟩ := bind_ok.mp ranPhases
    obtain ⟨_, filled, ranFill, ranFinish⟩ := bind_ok.mp ranPhases
    exact ⟨declared, filled, ranDeclare, ranFill, ranFinish⟩
  · intro phases
    obtain ⟨declared, filled, ranDeclare, ranFill, ranFinish⟩ := phases
    exact bind_ok.mpr ⟨(), declared, ranDeclare, bind_ok.mpr ⟨(), filled, ranFill, ranFinish⟩⟩

/-- The state before the element segments of a completed translation. -/
theorem translateModule_tables {opts : Options} {arrays : DataArrays} {module : Module} {context : Context} :
    translateModule opts arrays module = .ok context ↔ ∃ before,
      beforeTables module (Context.start opts arrays module) = .ok ((), before) ∧
        fillTables module before = .ok ((), context) := by
  have phases : visitModule (Context.start opts arrays module) =
      (beforeTables module >>= fun _ => fillTables module) (Context.start opts arrays module) := by
    rw [visitModule_eq, finishModule_eq]
    unfold beforeTables beforeExports
    simp only [bind_assoc]
    rfl
  rw [translateModule_visits, phases, bind_ok]
  constructor
  · intro ran
    obtain ⟨_, before, ranBefore, ranTables⟩ := ran
    exact ⟨before, ranBefore, ranTables⟩
  · intro ran
    obtain ⟨before, ranBefore, ranTables⟩ := ran
    exact ⟨(), before, ranBefore, ranTables⟩

/-- The states around the exports of a completed translation. -/
theorem translateModule_exports {opts : Options} {arrays : DataArrays} {module : Module} {context : Context}
    (ran : translateModule opts arrays module = .ok context) : ∃ before after,
      beforeExports module (Context.start opts arrays module) = .ok ((), before) ∧
        nameFunctions module before = .ok ((), after) ∧ fillTables module after = .ok ((), context) := by
  obtain ⟨after, ranBefore, ranTables⟩ := translateModule_tables.mp ran
  obtain ⟨_, before, ranBefore, ranNames⟩ := bind_ok.mp ranBefore
  exact ⟨before, after, ranBefore, ranNames, ranTables⟩

end WasmToLlvm.Modules

import WasmToLlvm.Modules.Objects

/-!
# What the declarations create

Each declaration creates one object for one entity and puts it into the vector of its kind.
Names and linkages are changed without changing objects.
-/

set_option autoImplicit false

namespace WasmToLlvm.Modules

open Llvm Wasm Block Instruction Library

/-! ## Changes of names and linkages -/

/-- Only names and linkages differ. -/
structure Relabels (before after : Context) : Prop where
  context : after = { before with llvmModule := after.llvmModule }
  objects : after.llvmModule.objects = before.llvmModule.objects

def relabelGrading : Grading Context Unit :=
  .ofPreorder Relabels (fun _ => ⟨rfl, rfl⟩) fun left right =>
    ⟨by rw [right.context, left.context], right.objects.trans left.objects⟩

/-- A computation that changes names and linkages only. -/
abbrev KeepsObjects {α : Type} (before : Context) (emit : Translate α) : Prop :=
  Effect relabelGrading before emit ()

section Names

variable {before : Context}

theorem updateModule_relabels {change : Llvm.Module Body → Llvm.Module Body}
    (same : (change before.llvmModule).objects = before.llvmModule.objects) :
    KeepsObjects before (updateModule change) :=
  .modify ⟨rfl, same⟩

theorem fixNames_relabels (function : Nat) : KeepsObjects before (fixNames function) := by
  have dollar : ∀ {before : Context}, KeepsObjects before (removeDollarName function) := by
    intro before
    unfold removeDollarName
    refine .get ?_
    split
    · exact .throw _
    · exact updateModule_relabels (by simp)
    · exact .pure _
  have rest : ∀ {before : Context}, KeepsObjects before (do
      updateModule (renameMain function)
      updateModule (renameFunction function "memset".toList "memset_1".toList)
      updateModule (renameFunction function "memcpy".toList "memcpy_1".toList)) :=
    Effect.skip (updateModule_relabels (by simp)) fun _ =>
      Effect.skip (updateModule_relabels (by simp)) fun _ => updateModule_relabels (by simp)
  unfold fixNames
  refine .get (.ite (fun _ => ?_) fun _ => .ite (fun _ => ?_) fun _ => .pure _)
  · exact .ite (fun _ => dollar.skip fun _ => rest) fun _ => rest
  · exact updateModule_relabels (by simp)

theorem visitExport_relabels (entity : Export) : KeepsObjects before (visitExport entity) := by
  have external : ∀ {before : Context} (values : List Nat) (index : Nat),
      KeepsObjects before (exportEntity values index) := by
    intro before values index
    unfold exportEntity
    exact at_reads.skip fun _ => Effect.skip (updateModule_relabels (by simp)) fun _ => .pure _
  unfold visitExport
  refine .get ?_
  cases entity.kind with
  | func => exact (external _ _).skip fun _ => updateModule_relabels (by simp)
  | memory => exact (external _ _).skip fun _ => .pure _
  | global => exact (external _ _).skip fun _ => .pure _
  | table => exact .pure _
  | tag => exact .pure _

theorem assignDefaultNames_relabels (functions : List Nat) (index : Nat) :
    KeepsObjects before (assignDefaultNames functions index) := by
  induction functions generalizing before index with
  | nil => exact .pure _
  | cons function functions ih =>
      unfold assignDefaultNames
      exact Effect.skip (updateModule_relabels (by simp)) fun _ => ih (index + 1)

theorem nameFunctions_relabels (module : Module) : KeepsObjects before (nameFunctions module) := by
  unfold nameFunctions
  refine (Effect.forM_one fun entity _ _ => visitExport_relabels entity).skip fun _ => ?_
  exact .get (assignDefaultNames_relabels _ _)

end Names

/-! ## Types and initial values -/

/-- The type of the function for a signature. -/
def funcType? (sig : FuncSignature) : Option (List Ty × Ty) := do
  let params ← sig.params.mapM convertType?
  match sig.results with
  | [] => some (params, .void)
  | [type] => do
      let result ← convertType? type
      some (params, result)
  | _ => none

/-- The initial value of a global that is not imported. -/
def initialConstant? (expr : InitExpr) (type : Ty) : Option Constant :=
  match expr with
  | [.const value] => some (.value (visitConst value))
  | [.other _] => some (.zero type)
  | _ => none

section Types

variable {before after : Context}

theorem convertType_ok {type : ValType} {converted : Ty} (ran : convertType type before = .ok (converted, after)) :
    convertType? type = some converted ∧ after = before := by
  unfold convertType at ran
  cases found : convertType? type with
  | none => rw [found] at ran; cases ran
  | some other =>
      rw [found] at ran
      cases ran
      exact ⟨rfl, rfl⟩

theorem convertTypes_ok {types : List ValType} {converted : List Ty}
    (ran : convertTypes types before = .ok (converted, after)) : types.mapM convertType? = some converted := by
  induction types generalizing converted after before with
  | nil =>
      cases ran
      rfl
  | cons type types ih =>
      obtain ⟨first, middle, ranFirst, ranRest⟩ := bind_ok.mp ran
      obtain ⟨found, same⟩ := convertType_ok ranFirst
      cases same
      obtain ⟨rest, middle, ranTypes, ranPure⟩ := bind_ok.mp ranRest
      cases ranPure
      rw [List.mapM_cons, found, ih ranTypes]
      rfl

theorem convertFuncType_ok {sig : FuncSignature} {type : List Ty × Ty}
    (ran : convertFuncType sig before = .ok (type, after)) : funcType? sig = some type ∧ after = before := by
  have same := convertFuncType_reads.same ran
  refine ⟨?_, same⟩
  unfold convertFuncType at ran
  obtain ⟨params, middle, ranParams, ranRest⟩ := bind_ok.mp ran
  unfold funcType?
  rw [convertTypes_ok ranParams]
  cases results : sig.results with
  | nil =>
      rw [results] at ranRest
      cases ranRest
      rfl
  | cons first rest =>
      cases rest with
      | nil =>
          rw [results] at ranRest
          obtain ⟨result, middle, ranResult, ranPure⟩ := bind_ok.mp ranRest
          cases ranPure
          simp [(convertType_ok ranResult).1]
      | cons second rest =>
          rw [results] at ranRest
          cases ranRest

theorem visitInitExpr_initial {expr : InitExpr} {init : Option Value} (type : Ty)
    (ran : visitInitExpr expr before = .ok (init, after)) :
    initialConstant? expr type = some ((init.map Constant.value).getD (.zero type)) := by
  cases expr with
  | nil => cases ran
  | cons first rest =>
      cases rest with
      | nil => cases first <;> cases ran <;> rfl
      | cons second rest => cases first <;> cases ran

end Types

/-! ## Declarations -/

/-- An object is put into the vector of its entity. -/
def Context.record (context : Context) (entity : Entity) (id : Nat) : Context :=
  match entity with
  | .func _ => { context with funcs := context.funcs ++ [id], funcIndex := context.funcIndex + 1 }
  | .global _ => { context with globs := context.globs ++ [id], globIndex := context.globIndex + 1 }
  | .memory _ => { context with mems := context.mems ++ [id], memIndex := context.memIndex + 1 }
  | .table _ => { context with tables := context.tables ++ [id], tableIndex := context.tableIndex + 1 }
  | .dataSegment | .intrinsic => context

/-- One object is created for one entity. -/
structure Creates (before : Context) (entity : Entity) (object : GlobalObject Body) (after : Context) : Prop where
  context : after = { before.record entity before.llvmModule.values.length with
    llvmModule := after.llvmModule
    entities := before.entities ++ [entity] }
  objects : after.llvmModule.objects = before.llvmModule.objects ++ [object]

section Creates

variable {before after : Context} {index id : Nat} {isExternal : Bool}

theorem declareFunc_creates (ran : declareFunc index isExternal before = .ok (id, after)) :
    ∃ func params result, before.module.funcs[index]? = some func ∧ funcType? func.func.decl = some (params, result) ∧
      id = before.llvmModule.values.length ∧ Creates before (.func index) (.function params result none) after := by
  unfold declareFunc at ran
  rw [get_bind_run] at ran
  obtain ⟨func, middle, ranAt, ran⟩ := bind_ok.mp ran
  obtain ⟨found, same⟩ := at_ok ranAt
  cases same
  obtain ⟨⟨params, result⟩, middle, ranType, ran⟩ := bind_ok.mp ran
  obtain ⟨type, same⟩ := convertFuncType_ok ranType
  cases same
  obtain ⟨created, middle, ranCreate, ran⟩ := bind_ok.mp ran
  cases ranCreate
  cases ran
  exact ⟨func, params, result, found, type, rfl, ⟨rfl, before.llvmModule.objects_create ..⟩⟩

theorem visitGlobal_creates (ran : visitGlobal index isExternal before = .ok ((), after)) :
    ∃ global type initializer, before.module.globals[index]? = some global ∧ convertType? global.type = some type ∧
      (if isExternal then initializer = none
        else ∃ constant, initialConstant? global.initExpr type = some constant ∧ initializer = some constant) ∧
      Creates before (.global index) (.variable type (!global.mutable_) initializer none) after := by
  unfold visitGlobal at ran
  rw [get_bind_run] at ran
  obtain ⟨global, middle, ranAt, ran⟩ := bind_ok.mp ran
  obtain ⟨found, same⟩ := at_ok ranAt
  cases same
  obtain ⟨type, middle, ranType, ran⟩ := bind_ok.mp ran
  obtain ⟨isType, same⟩ := convertType_ok ranType
  cases same
  obtain ⟨created, middle, ranCreate, ran⟩ := bind_ok.mp ran
  cases isExternal with
  | true =>
      cases ranCreate
      cases ran
      exact ⟨global, type, none, found, isType, rfl, ⟨rfl, before.llvmModule.objects_create ..⟩⟩
  | false =>
      obtain ⟨init, last, ranInit, ran⟩ := bind_ok.mp ran
      have initial := visitInitExpr_initial type ranInit
      cases visitInitExpr_reads.same ranInit
      cases ranCreate
      clear ranInit
      refine ⟨global, type, some _, found, isType, ⟨_, initial, rfl⟩, ?_⟩
      have last : ∀ constant : Constant,
          ((before.llvmModule.create (globalName before global.name) (linkageOf false)
            (.variable type (!global.mutable_) none none)).2.update before.llvmModule.values.length
              fun value => value.setInitializer constant).objects =
            before.llvmModule.objects ++ [.variable type (!global.mutable_) (some constant) none] := by
        intro constant
        rw [Llvm.Module.objects_setInitializer, Llvm.Module.objects_create, ← before.llvmModule.objects_length,
          modify_concat]
        rfl
      cases init <;> cases ran <;> exact ⟨rfl, last _⟩

theorem visitTable_creates (ran : visitTable index isExternal before = .ok ((), after)) :
    ∃ table, before.module.tables[index]? = some table ∧
      Creates before (.table index) (.variable (.array table.elemLimits.initial .ptr) false none none) after := by
  unfold visitTable at ran
  rw [get_bind_run] at ran
  obtain ⟨table, middle, ranAt, ran⟩ := bind_ok.mp ran
  obtain ⟨found, same⟩ := at_ok ranAt
  cases same
  split at ran
  · cases ran
  · obtain ⟨created, middle, ranCreate, ran⟩ := bind_ok.mp ran
    cases ranCreate
    cases ran
    exact ⟨table, found, ⟨rfl, before.llvmModule.objects_create ..⟩⟩

theorem declareMemory_creates (ran : declareMemory index isExternal before = .ok ((), after)) :
    ∃ memory, before.module.memories[index]? = some memory ∧ Creates before (.memory index)
      (.variable (.array (memory.pages * 65536) (.int 8)) false
        (if isExternal then none else some (.zero (.array (memory.pages * 65536) (.int 8)))) none) after := by
  unfold declareMemory at ran
  rw [get_bind_run] at ran
  obtain ⟨memory, middle, ranAt, ran⟩ := bind_ok.mp ran
  obtain ⟨found, same⟩ := at_ok ranAt
  cases same
  obtain ⟨created, middle, ranCreate, ran⟩ := bind_ok.mp ran
  cases ranCreate
  cases ran
  exact ⟨memory, found, ⟨rfl, before.llvmModule.objects_create ..⟩⟩

end Creates

end WasmToLlvm.Modules

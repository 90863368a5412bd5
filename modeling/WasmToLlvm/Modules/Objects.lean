import WasmToLlvm.Library.Lists
import WasmToLlvm.Modules.Elements

/-!
# Objects

What the functions and variables of a module are, apart from their names and linkages.
-/

set_option autoImplicit false

namespace WasmToLlvm.Llvm

namespace GlobalObject

variable {Body : Type}

def initializer : GlobalObject Body → Option Constant
  | .variable _ _ initializer _ => initializer
  | .function _ _ _ => none

def valueType : GlobalObject Body → Ty
  | .variable valueType _ _ _ => valueType
  | .function _ _ _ => .void

/-- The code of a function. -/
def body : GlobalObject Body → Option Body
  | .function _ _ body => body
  | .variable _ _ _ _ => none

def setInitializer (constant : Constant) : GlobalObject Body → GlobalObject Body
  | .variable valueType isConstant _ section_ => .variable valueType isConstant (some constant) section_
  | .function params result body => .function params result body

def setBody (code : Body) : GlobalObject Body → GlobalObject Body
  | .function params result _ => .function params result (some code)
  | .variable valueType isConstant initializer section_ => .variable valueType isConstant initializer section_

@[simp] theorem body_setInitializer (constant : Constant) (object : GlobalObject Body) :
    (object.setInitializer constant).body = object.body := by
  cases object <;> rfl

end GlobalObject

namespace GlobalValue

variable {Body : Type} (value : GlobalValue Body)

@[simp] theorem object_setInitializer (constant : Constant) :
    (value.setInitializer constant).object = value.object.setInitializer constant := by
  obtain ⟨name, linkage, object⟩ := value
  cases object <;> rfl

@[simp] theorem object_setBody (code : Body) : (value.setBody code).object = value.object.setBody code := by
  obtain ⟨name, linkage, object⟩ := value
  cases object <;> rfl

theorem initializer_eq : value.initializer = value.object.initializer := rfl

theorem valueType_eq : value.valueType = value.object.valueType := rfl

end GlobalValue

namespace Module

variable {Body : Type} (module : Module Body)

def objects : List (GlobalObject Body) := module.values.map GlobalValue.object

theorem objects_length : module.objects.length = module.values.length := List.length_map ..

theorem objects_getElem? (id : Nat) : module.objects[id]? = (module.values[id]?).map GlobalValue.object :=
  List.getElem?_map

@[simp] theorem objects_create (name : Library.Name) (linkage : Linkage) (object : GlobalObject Body) :
    (module.create name linkage object).2.objects = module.objects ++ [object] := by
  show (module.values ++ [_]).map GlobalValue.object = _
  rw [List.map_append]
  rfl

/-- A change of the name or the linkage. -/
theorem objects_update_same {change : GlobalValue Body → GlobalValue Body} (id : Nat)
    (same : ∀ value, (change value).object = value.object) : (module.update id change).objects = module.objects :=
  Library.map_modify_same same module.values id

theorem objects_update {change : GlobalValue Body → GlobalValue Body} {changeObject : GlobalObject Body → GlobalObject Body}
    (id : Nat) (same : ∀ value, (change value).object = changeObject value.object) :
    (module.update id change).objects = module.objects.modify id changeObject := by
  refine List.ext_getElem? fun other => ?_
  rw [objects_getElem?, update, List.getElem?_modify, List.getElem?_modify, objects_getElem?]
  cases module.values[other]? with
  | none => rfl
  | some value =>
      by_cases here : id = other
      · simp [here, same]
      · simp [here]

@[simp] theorem objects_setLinkage (id : Nat) (linkage : Linkage) :
    (module.setLinkage id linkage).objects = module.objects :=
  objects_update_same module id fun _ => rfl

@[simp] theorem objects_setName (id : Nat) (name : Library.Name) : (module.setName id name).objects = module.objects := by
  unfold setName
  split
  · rfl
  · have cleared : ∀ value : GlobalValue Body, ({ value with name := [] } : GlobalValue Body).object = value.object :=
      fun _ => rfl
    have renamed : ∀ (other : Module Body) (unique : Library.Name),
        (other.update id fun value => { value with name := unique }).objects = other.objects :=
      fun other unique => objects_update_same other id fun _ => rfl
    exact (renamed _ _).trans (objects_update_same module id cleared)

@[simp] theorem objects_setInitializer (id : Nat) (constant : Constant) :
    (module.update id fun value => value.setInitializer constant).objects =
      module.objects.modify id (·.setInitializer constant) :=
  objects_update module id fun value => value.object_setInitializer constant

@[simp] theorem objects_setBody (id : Nat) (code : Body) :
    (module.update id fun value => value.setBody code).objects = module.objects.modify id (·.setBody code) :=
  objects_update module id fun value => value.object_setBody code

@[simp] theorem objects_replaceAllUsesWith (old new : Constant) :
    (module.replaceAllUsesWith old new).objects =
      module.objects.map fun object => if object.initializer = some old then object.setInitializer new else object := by
  unfold objects replaceAllUsesWith
  rw [List.map_map, List.map_map]
  refine List.map_congr_left fun value _ => ?_
  rw [Function.comp_apply, Function.comp_apply, value.initializer_eq]
  split
  · exact value.object_setInitializer new
  · rfl

end Module

end WasmToLlvm.Llvm

namespace WasmToLlvm.Modules

open Llvm Wasm Block Instruction Library

variable (llvmModule : Llvm.Module Body)

/-! Names and linkages are no part of objects. -/

@[simp] theorem objects_clearName (name : Name) : (clearName name llvmModule).objects = llvmModule.objects := by
  unfold clearName
  split
  · exact llvmModule.objects_setName ..
  · rfl

@[simp] theorem objects_renameMain (function : Nat) : (renameMain function llvmModule).objects = llvmModule.objects := by
  unfold renameMain
  split
  · simp
  · rfl

@[simp] theorem objects_renameFunction (function : Nat) (name new : Name) :
    (renameFunction function name new llvmModule).objects = llvmModule.objects := by
  unfold renameFunction
  split
  · exact llvmModule.objects_setName ..
  · rfl

@[simp] theorem objects_exportName (opts : Options) (function : Nat) (name : Name) :
    (exportName opts function name llvmModule).objects = llvmModule.objects := by
  unfold exportName
  repeat' split
  all_goals simp

@[simp] theorem objects_defaultName (index function : Nat) :
    (defaultName index function llvmModule).objects = llvmModule.objects := by
  unfold defaultName
  split
  · exact llvmModule.objects_setName ..
  · rfl

end WasmToLlvm.Modules

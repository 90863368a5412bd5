import WasmToLlvm.Library.Lanes
import WasmToLlvm.Library.Names
import WasmToLlvm.Llvm.Function

/-!
# Modules

Functions and variables of a module, which share a symbol table, and the constants that
initialize variables. An array of bytes is an object of the context that modules share.
-/

set_option autoImplicit false

namespace WasmToLlvm.Llvm

open Library

inductive Linkage where
  | external | internal
  deriving DecidableEq, Repr

/-- Constants with the same parts are the same. A `ConstantDataArray` is given by its
object. -/
inductive Constant where
  | value (value : Value)
  | zero (type : Ty)
  | data (object : Nat)
  | pointers (elements : List (Option Nat))
  deriving DecidableEq, Repr

/-- The arrays of bytes in a context, by their objects. -/
abbrev DataArrays := List (List Byte)

/-- `ConstantDataArray::getRaw` for bytes; the object may be one that exists. -/
def getRaw (arrays : DataArrays) (bytes : List Byte) : Constant × DataArrays :=
  if bytes.all (· == 0) then (.zero (.array bytes.length (.int 8)), arrays)
  else
    match arrays.findIdx? (· == bytes) with
    | some object => (.data object, arrays)
    | none => (.data arrays.length, arrays ++ [bytes])

/-- `ConstantArray::get` for pointers to functions; null is `none`. -/
def getPointers (elements : List (Option Nat)) : Constant :=
  if elements.all Option.isNone then .zero (.array elements.length .ptr) else .pointers elements

/-- What a function or variable is. A function without a body is a declaration. -/
inductive GlobalObject (Body : Type) where
  | function (params : List Ty) (result : Ty) (body : Option Body)
  | variable (valueType : Ty) (isConstant : Bool) (initializer : Option Constant)
      (section_ : Option Name)

structure GlobalValue (Body : Type) where
  name : Name
  linkage : Linkage
  object : GlobalObject Body

/-- `lastUnique` is the counter of the symbol table. -/
structure Module (Body : Type) where
  values : List (GlobalValue Body)
  lastUnique : Nat

namespace GlobalValue

variable {Body : Type}

def initializer (value : GlobalValue Body) : Option Constant :=
  match value.object with
  | .variable _ _ initializer _ => initializer
  | .function _ _ _ => none

def valueType (value : GlobalValue Body) : Ty :=
  match value.object with
  | .variable valueType _ _ _ => valueType
  | .function _ _ _ => .void

def isFunction (value : GlobalValue Body) : Bool :=
  match value.object with
  | .function _ _ _ => true
  | .variable _ _ _ _ => false

def setInitializer (value : GlobalValue Body) (constant : Constant) : GlobalValue Body :=
  match value.object with
  | .variable valueType isConstant _ section_ =>
      { value with object := .variable valueType isConstant (some constant) section_ }
  | .function _ _ _ => value

def setBody (value : GlobalValue Body) (body : Body) : GlobalValue Body :=
  match value.object with
  | .function params result _ => { value with object := .function params result (some body) }
  | .variable _ _ _ _ => value

end GlobalValue

namespace Module

variable {Body : Type}

/-- The symbols; an empty name is none. -/
def names (module : Module Body) : List Name :=
  (module.values.map GlobalValue.name).filter (· ≠ [])

/-- A new function or variable. -/
def create (module : Module Body) (name : Name) (linkage : Linkage) (object : GlobalObject Body) :
    Nat × Module Body :=
  let (unique, last) := uniqueName module.names module.lastUnique name
  (module.values.length, ⟨module.values ++ [⟨unique, linkage, object⟩], last⟩)

def update (module : Module Body) (id : Nat) (change : GlobalValue Body → GlobalValue Body) :
    Module Body :=
  { module with values := module.values.modify id change }

/-- `Value::setName`: another value may have the name already. -/
def setName (module : Module Body) (id : Nat) (name : Name) : Module Body :=
  if (module.values[id]?).map GlobalValue.name = some name then module
  else
    let cleared := module.update id fun value => { value with name := [] }
    let (unique, last) := uniqueName cleared.names cleared.lastUnique name
    { cleared.update id fun value => { value with name := unique } with lastUnique := last }

def setLinkage (module : Module Body) (id : Nat) (linkage : Linkage) : Module Body :=
  module.update id fun value => { value with linkage := linkage }

/-- `getNamedValue`. -/
def getNamedValue (module : Module Body) (name : Name) : Option Nat :=
  if name = [] then none else module.values.findIdx? fun value => value.name = name

/-- `getFunction`; there is none where a variable has the name. -/
def getFunction (module : Module Body) (name : Name) : Option Nat :=
  if name = [] then none
  else (module.values.findIdx? fun value => value.name = name).filter fun id =>
    (module.values[id]?).any GlobalValue.isFunction

/-- `replaceAllUsesWith` on a constant that initializes variables. -/
def replaceAllUsesWith (module : Module Body) (old new : Constant) : Module Body :=
  { module with
    values := module.values.map fun value =>
      if value.initializer = some old then value.setInitializer new else value }

/-! Changes of values keep their number. -/

@[simp] theorem update_length (module : Module Body) (id : Nat) (change : GlobalValue Body → GlobalValue Body) :
    (module.update id change).values.length = module.values.length :=
  List.length_modify ..

@[simp] theorem setLinkage_length (module : Module Body) (id : Nat) (linkage : Linkage) :
    (module.setLinkage id linkage).values.length = module.values.length :=
  update_length ..

@[simp] theorem setName_length (module : Module Body) (id : Nat) (name : Name) :
    (module.setName id name).values.length = module.values.length := by
  unfold setName
  split
  · rfl
  · exact (update_length ..).trans (update_length ..)

@[simp] theorem replaceAllUsesWith_length (module : Module Body) (old new : Constant) :
    (module.replaceAllUsesWith old new).values.length = module.values.length :=
  List.length_map ..

end Module

end WasmToLlvm.Llvm

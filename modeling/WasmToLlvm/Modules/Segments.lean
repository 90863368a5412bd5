import WasmToLlvm.Library.Overwriting
import WasmToLlvm.Modules.Context

/-!
# Data and element segments

Data segments are written into the initializer of their memory, or become variables of
their own. Element segments become the initializer of their table.
-/

set_option autoImplicit false

namespace WasmToLlvm.Modules

open Llvm Wasm Block Instruction Library

/-! ## Data -/

/-- `unwrapIntConstant`: the value with its sign. -/
def unwrapIntConstant : Option Value → Translate (BitVec 64)
  | some (.int width value) => pure ((BitVec.ofNat width value).signExtend 64)
  | _ => throw (.abort .assertion)

/-- `data.size() + offset <= memsize` for numbers of 64 bits. -/
def fits (memsize : Nat) (offset : BitVec 64) (size : Nat) : Bool :=
  decide ((size + offset.toNat) % 2 ^ 64 ≤ memsize)

/-- The place of each byte that `memcpy` writes, counted from the start of the buffer. -/
def writtenPlaces (offset : BitVec 64) (size : Nat) : List Nat :=
  (List.range size).map fun index => (offset.toNat + index) % 2 ^ 64

/-- `memcpy` into a buffer behind the check of the bounds. -/
def copyData (buffer : List Byte) (offset : BitVec 64) (data : List Byte) : Translate (List Byte) := do
  if fits buffer.length offset data.length = false then
    throw (.abort .assertion)
  if (writtenPlaces offset data.length).all (· < buffer.length) then
    return overwrite buffer offset.toNat data
  else
    throw .undefined

def getRawData (bytes : List Byte) : Translate Constant := fun context =>
  let (constant, arrays) := getRaw context.arrays bytes
  .ok (constant, { context with arrays })

def createMemInitializer (memsize : Nat) (offset : BitVec 64) (data : List Byte) : Translate Constant := do
  let buffer ← copyData (List.replicate memsize 0) offset data
  getRawData buffer

/-- Changes the bytes of an object in place. -/
def modMemInitializer (object : Nat) (offset : BitVec 64) (data : List Byte) : Translate Unit := do
  let context ← get
  let bytes ← at_ context.arrays object
  let buffer ← copyData bytes offset data
  modify fun context => { context with arrays := context.arrays.set object buffer }

def arraySize : Ty → Nat
  | .array count _ => count
  | _ => 0

def intToHex (number : Nat) : Name := "0x".toList ++ Nat.toDigits 16 number

/-- The variable for a segment under the option `SplitMem`. -/
def createSplitSegment (memory : GlobalValue Body) (segment : DataSegment) : Option Value → Translate Unit
  | some (.int width value) => do
      let addr := intToHex (value % 2 ^ width)
      let init ← getRawData segment.data
      let _ ← createGlobalValue .dataSegment (memory.name ++ '_' :: addr) .internal
        (.variable (.array segment.data.length (.int 8))
          (decide (removeDollar segment.name = ".rodata".toList)) (some init)
          (some (".addr_".toList ++ addr)))
  | _ => throw (.abort .assertion)

def visitDataSegment (segment : DataSegment) : Translate Unit := do
  let context ← get
  if context.memIndex ≤ segment.memory then
    throw (.dataMemoryReference segment.memory)
  let mem ← at_ context.mems segment.memory
  let memory ← at_ context.llvmModule.values mem
  let offset ← visitInitExpr segment.offset
  if context.opts.splitMem then
    createSplitSegment memory segment offset
  else if context.opts.noMemInitializer then
    return
  else
    let offset ← unwrapIntConstant offset
    match memory.initializer with
    | none | some (.zero _) => do
        let init ← createMemInitializer (arraySize memory.valueType) offset segment.data
        updateModule fun llvmModule => llvmModule.update mem fun value => value.setInitializer init
    | some (.data object) => modMemInitializer object offset segment.data
    | some _ => throw (.abort .assertion)

/-! ## Elements -/

/-- Without `SegUseElemExprs` every element is the address of a function. -/
def ElemSegment.allRefFunc (elem : ElemSegment) : Bool :=
  elem.elemExprs.all fun expr =>
    match expr with
    | .refFunc _ => true
    | .other => false

/-- The constant for a slot of the table; null where the segment does not cover it. -/
def elemSlot (elem : ElemSegment) (funcs : List Nat) (offset slot : Nat) : Translate (Option Nat) :=
  if offset ≤ slot ∧ slot < offset + elem.elemExprs.length then
    if elem.allRefFunc then
      match elem.elemExprs[slot - offset]? with
      | some (.refFunc index) => do
          let function ← at_ funcs index
          return some function
      | _ => throw (.abort .outOfRange)
    else throw .elemExprs
  else pure none

def elemSlots (elem : ElemSegment) (funcs : List Nat) (offset : Nat) : List Nat → Translate (List (Option Nat))
  | [] => pure []
  | slot :: slots => do
      let constant ← elemSlot elem funcs offset slot
      let rest ← elemSlots elem funcs offset slots
      return constant :: rest

/-- `hasUseList`: an array of pointers is no constant data unless all are null. -/
def Options.hasUseList (opts : Options) : Constant → Bool
  | .pointers _ => true
  | .value _ | .zero _ | .data _ => opts.constantDataUses

/-- The initializer of a variable becomes another; every variable with the old one changes,
unless LLVM does not know where the old one is used. -/
def replaceInitializer (id : Nat) (init : Constant) : Translate Unit := do
  let context ← get
  let gv ← at_ context.llvmModule.values id
  match gv.initializer with
  | some old =>
      if context.opts.hasUseList old then
        if old = init then
          throw .replacesItself
        updateModule fun llvmModule => llvmModule.replaceAllUsesWith old init
  | none => updateModule fun llvmModule => llvmModule.update id fun value => value.setInitializer init

def visitElem (elem : ElemSegment) : Translate Unit := do
  if elem.elemType ≠ .funcRef then
    throw (.elemType elem.elemType)
  if elem.kind ≠ .active then
    throw .passiveElem
  let context ← get
  let id ← at_ context.tables elem.table
  let gv ← at_ context.llvmModule.values id
  let constant ← visitInitExpr elem.offset
  let offset ← unwrapIntConstant constant
  let buffer ← elemSlots elem context.funcs (offset.toNat % 2 ^ 32) (List.range (arraySize gv.valueType))
  replaceInitializer id (getPointers buffer)

end WasmToLlvm.Modules

import WasmToLlvm.Instruction.Visit

/-!
# Comparisons, memory, lanes and calls

The visits that look at the module or at the immediates of an instruction, and
`dispatchExprs` on straight-line instructions.
-/

set_option autoImplicit false

namespace WasmToLlvm.Instruction

open Llvm Wasm Block

/-! ## Comparisons -/

/-- The comparison of `visitCompareExpr`, with `resultType` where it is set. -/
def compareCode (opcode : CompareOpcode) (p1 p2 : Value) : Emit (Value × Option Ty) :=
  match opcode with
  | .i32Eq | .i64Eq => (·, none) <$> createICmp .eq p2 p1
  | .i8x16Eq => (·, some i8x16Type) <$> emitSimdBinaryOp i8x16Type p1 p2 (createICmp .eq)
  | .i16x8Eq => (·, some i16x8Type) <$> emitSimdBinaryOp i16x8Type p1 p2 (createICmp .eq)
  | .i32x4Eq => (·, some i32x4Type) <$> emitSimdBinaryOp i32x4Type p1 p2 (createICmp .eq)
  | .i64x2Eq => (·, some i64x2Type) <$> emitSimdBinaryOp i64x2Type p1 p2 (createICmp .eq)
  | .i32Ne | .i64Ne => (·, none) <$> createICmp .ne p2 p1
  | .i8x16Ne => (·, some i8x16Type) <$> emitSimdBinaryOp i8x16Type p1 p2 (createICmp .ne)
  | .i16x8Ne => (·, some i16x8Type) <$> emitSimdBinaryOp i16x8Type p1 p2 (createICmp .ne)
  | .i32x4Ne => (·, some i32x4Type) <$> emitSimdBinaryOp i32x4Type p1 p2 (createICmp .ne)
  | .i64x2Ne => (·, some i64x2Type) <$> emitSimdBinaryOp i64x2Type p1 p2 (createICmp .ne)
  | .i32GeS | .i64GeS => (·, none) <$> createICmp .sge p2 p1
  | .i8x16GeS => (·, some i8x16Type) <$> emitSimdBinaryOp i8x16Type p1 p2 (createICmp .sge)
  | .i16x8GeS => (·, some i16x8Type) <$> emitSimdBinaryOp i16x8Type p1 p2 (createICmp .sge)
  | .i32x4GeS => (·, some i32x4Type) <$> emitSimdBinaryOp i32x4Type p1 p2 (createICmp .sge)
  | .i64x2GeS => (·, some i64x2Type) <$> emitSimdBinaryOp i64x2Type p1 p2 (createICmp .sge)
  | .i32GeU | .i64GeU => (·, none) <$> createICmp .uge p2 p1
  | .i8x16GeU => (·, some i8x16Type) <$> emitSimdBinaryOp i8x16Type p1 p2 (createICmp .uge)
  | .i16x8GeU => (·, some i16x8Type) <$> emitSimdBinaryOp i16x8Type p1 p2 (createICmp .uge)
  | .i32x4GeU => (·, some i32x4Type) <$> emitSimdBinaryOp i32x4Type p1 p2 (createICmp .uge)
  | .i32GtU | .i64GtU => (·, none) <$> createICmp .ugt p2 p1
  | .i8x16GtU => (·, some i8x16Type) <$> emitSimdBinaryOp i8x16Type p1 p2 (createICmp .ugt)
  | .i16x8GtU => (·, some i16x8Type) <$> emitSimdBinaryOp i16x8Type p1 p2 (createICmp .ugt)
  | .i32x4GtU => (·, some i32x4Type) <$> emitSimdBinaryOp i32x4Type p1 p2 (createICmp .ugt)
  | .i32GtS | .i64GtS => (·, none) <$> createICmp .sgt p2 p1
  | .i8x16GtS => (·, some i8x16Type) <$> emitSimdBinaryOp i8x16Type p1 p2 (createICmp .sgt)
  | .i16x8GtS => (·, some i16x8Type) <$> emitSimdBinaryOp i16x8Type p1 p2 (createICmp .sgt)
  | .i32x4GtS => (·, some i32x4Type) <$> emitSimdBinaryOp i32x4Type p1 p2 (createICmp .sgt)
  | .i64x2GtS => (·, some i64x2Type) <$> emitSimdBinaryOp i64x2Type p1 p2 (createICmp .sgt)
  | .i32LeS | .i64LeS => (·, none) <$> createICmp .sle p2 p1
  | .i8x16LeS => (·, some i8x16Type) <$> emitSimdBinaryOp i8x16Type p1 p2 (createICmp .sle)
  | .i16x8LeS => (·, some i16x8Type) <$> emitSimdBinaryOp i16x8Type p1 p2 (createICmp .sle)
  | .i32x4LeS => (·, some i32x4Type) <$> emitSimdBinaryOp i32x4Type p1 p2 (createICmp .sle)
  | .i64x2LeS => (·, some i64x2Type) <$> emitSimdBinaryOp i64x2Type p1 p2 (createICmp .sle)
  | .i32LeU | .i64LeU => (·, none) <$> createICmp .ule p2 p1
  | .i8x16LeU => (·, some i8x16Type) <$> emitSimdBinaryOp i8x16Type p1 p2 (createICmp .ule)
  | .i16x8LeU => (·, some i16x8Type) <$> emitSimdBinaryOp i16x8Type p1 p2 (createICmp .ule)
  | .i32x4LeU => (·, some i32x4Type) <$> emitSimdBinaryOp i32x4Type p1 p2 (createICmp .ule)
  | .i32LtS | .i64LtS => (·, none) <$> createICmp .slt p2 p1
  | .i8x16LtS => (·, some i8x16Type) <$> emitSimdBinaryOp i8x16Type p1 p2 (createICmp .slt)
  | .i16x8LtS => (·, some i16x8Type) <$> emitSimdBinaryOp i16x8Type p1 p2 (createICmp .slt)
  | .i32x4LtS => (·, some i32x4Type) <$> emitSimdBinaryOp i32x4Type p1 p2 (createICmp .slt)
  | .i64x2LtS => (·, some i64x2Type) <$> emitSimdBinaryOp i64x2Type p1 p2 (createICmp .slt)
  | .i32LtU | .i64LtU => (·, none) <$> createICmp .ult p2 p1
  | .i8x16LtU => (·, some i8x16Type) <$> emitSimdBinaryOp i8x16Type p1 p2 (createICmp .ult)
  | .i16x8LtU => (·, some i16x8Type) <$> emitSimdBinaryOp i16x8Type p1 p2 (createICmp .ult)
  | .i32x4LtU => (·, some i32x4Type) <$> emitSimdBinaryOp i32x4Type p1 p2 (createICmp .ult)
  | .f32Eq | .f64Eq => (·, none) <$> createFCmp .oeq p2 p1
  | .f32x4Eq => (·, some i32x4Type) <$> emitSimdBinaryOp f32x4Type p1 p2 (createFCmp .oeq)
  | .f64x2Eq => (·, some i64x2Type) <$> emitSimdBinaryOp f64x2Type p1 p2 (createFCmp .oeq)
  | .f32Ne | .f64Ne => (·, none) <$> createFCmp .oeq p2 p1
  | .f32x4Ne => (·, some i32x4Type) <$> emitSimdBinaryOp f32x4Type p1 p2 (createFCmp .oeq)
  | .f64x2Ne => (·, some i64x2Type) <$> emitSimdBinaryOp f64x2Type p1 p2 (createFCmp .oeq)
  | .f32Ge | .f64Ge => (·, none) <$> createFCmp .oge p2 p1
  | .f32x4Ge => (·, some i32x4Type) <$> emitSimdBinaryOp f32x4Type p1 p2 (createFCmp .oge)
  | .f64x2Ge => (·, some i64x2Type) <$> emitSimdBinaryOp f64x2Type p1 p2 (createFCmp .oge)
  | .f32Gt | .f64Gt => (·, none) <$> createFCmp .ogt p2 p1
  | .f32x4Gt => (·, some i32x4Type) <$> emitSimdBinaryOp f32x4Type p1 p2 (createFCmp .ogt)
  | .f64x2Gt => (·, some i64x2Type) <$> emitSimdBinaryOp f64x2Type p1 p2 (createFCmp .ogt)
  | .f32Le | .f64Le => (·, none) <$> createFCmp .ole p2 p1
  | .f32x4Le => (·, some i32x4Type) <$> emitSimdBinaryOp f32x4Type p1 p2 (createFCmp .ole)
  | .f64x2Le => (·, some i64x2Type) <$> emitSimdBinaryOp f64x2Type p1 p2 (createFCmp .ole)
  | .f32Lt | .f64Lt => (·, none) <$> createFCmp .olt p2 p1
  | .f32x4Lt => (·, some i32x4Type) <$> emitSimdBinaryOp f32x4Type p1 p2 (createFCmp .olt)
  | .f64x2Lt => (·, some i64x2Type) <$> emitSimdBinaryOp f64x2Type p1 p2 (createFCmp .olt)

/-- Every comparison is widened to 32 bits, and that of vectors further. -/
def widenComparison (ret : Value) (resultType : Option Ty) : Emit Value := do
  let ret ← createCast .zext ret i32Type
  match resultType with
  | some type => createCast .sext ret type
  | none => pure ret

def visitCompareExpr (opcode : CompareOpcode) : Emit Unit := do
  let p1 ← Visit.popStack
  let p2 ← Visit.popStack
  let (ret, resultType) ← compareCode opcode p1 p2
  let ret ← widenComparison ret resultType
  Visit.pushStack ret

/-! ## Constants and globals -/

/-- `visitConst`. -/
def visitConst : Const → Value
  | .i32 value => .int 32 value.toNat
  | .i64 value => .int 64 value.toNat
  | .f32 bits => .float bits.toNat
  | .f64 bits => .double bits.toNat
  | .v128 bits => .int 128 bits.toNat

def visitConstInst (value : Const) : Emit Unit :=
  Visit.pushStack (visitConst value)

section Module

variable (environment : Environment)

/-- `globs.at(index)`, with the type of the variable. -/
def globalAt (index : Nat) : Emit Ty :=
  match environment.globs[index]? with
  | some type => convertValType type
  | none => throw .outOfRange

def visitGlobalGet (index : Nat) : Emit Unit := do
  let type ← globalAt environment index
  let loaded ← createLoad type (.global (.variable index))
  Visit.pushStack loaded

def visitGlobalSet (index : Nat) : Emit Unit := do
  let val ← Visit.popStack
  let _ ← globalAt environment index
  let _ ← createStore val (.global (.variable index))

/-! ## Memory -/

/-- `mems.at(0)`, by the size of its array type. -/
def memAt : Emit Nat :=
  match environment.mems[0]? with
  | some size => pure size
  | none => throw .outOfRange

/-- The sum with the offset wraps around in the type of the address. -/
def convertStackAddr (offset : Nat) : Emit Value := do
  let size ← memAt environment
  let base ← Visit.popStack
  let base ← createBinary .add base (.int base.type.bits offset)
  if environment.genIntToPtr then
    createCast .intToPtr base .ptr
  else
    createGEP (.array size i8Type) (.global (.memory 0)) base

/-- The type `visitLoadInst` loads. -/
def LoadOpcode.targetType : LoadOpcode → Ty
  | .i32Load => i32Type
  | .i64Load => i64Type
  | .f32Load => .float
  | .f64Load => .double
  | .i32Load8S | .i32Load8U | .i64Load8S | .i64Load8U | .v128Load8Splat => i8Type
  | .i32Load16S | .i32Load16U | .i64Load16S | .i64Load16U | .v128Load16Splat => i16Type
  | .i64Load32S | .i64Load32U | .v128Load32Splat | .v128Load32Zero => i32Type
  | .v128Load64Splat | .v128Load64Zero => i64Type
  | .v128Load => i64x2Type
  | .v128Load8X8S | .v128Load8X8U => i8x8Type
  | .v128Load16X4S | .v128Load16X4U => i16x4Type
  | .v128Load32X2S | .v128Load32X2U => i32x2Type

/-- The extension of a loaded value. -/
def loadExtension (opcode : LoadOpcode) (result : Value) : Emit Value :=
  match opcode with
  | .i32Load8S | .i32Load16S => createCast .sext result i32Type
  | .i64Load8S | .i64Load16S | .i64Load32S => createCast .sext result i64Type
  | .i32Load8U | .i32Load16U => createCast .zext result i32Type
  | .i64Load8U | .i64Load16U | .i64Load32U => createCast .zext result i64Type
  | .v128Load8Splat => createVectorSplat 16 result
  | .v128Load16Splat => createVectorSplat 8 result
  | .v128Load32Splat => createVectorSplat 4 result
  | .v128Load64Splat => createVectorSplat 2 result
  | .v128Load32Zero => createInsertElement (.null i32x4Type) result 0
  | .v128Load64Zero => createInsertElement (.null i64x2Type) result 0
  | .v128Load8X8S => createCast .sext result i16x8Type
  | .v128Load8X8U => createCast .zext result i16x8Type
  | .v128Load16X4S => createCast .sext result i32x4Type
  | .v128Load16X4U => createCast .zext result i32x4Type
  | .v128Load32X2S => createCast .sext result i64x2Type
  | .v128Load32X2U => createCast .zext result i64x2Type
  | .i32Load | .i64Load | .f32Load | .f64Load | .v128Load => pure result

def visitLoadInst (opcode : LoadOpcode) (offset : Nat) : Emit Unit := do
  let addr ← convertStackAddr environment offset
  let result ← createLoad opcode.targetType addr
  let result ← loadExtension opcode result
  Visit.pushStack result

/-- The value `visitStoreInst` stores. -/
def storeConversion (opcode : StoreOpcode) (val : Value) : Emit Value :=
  match opcode with
  | .i32Store | .i64Store | .f32Store | .f64Store | .v128Store => pure val
  | .i32Store8 | .i64Store8 => createCast .trunc val i8Type
  | .i32Store16 | .i64Store16 => createCast .trunc val i16Type
  | .i64Store32 => createCast .trunc val i32Type

def visitStoreInst (opcode : StoreOpcode) (offset : Nat) : Emit Unit := do
  let val ← Visit.popStack
  let addr ← convertStackAddr environment offset
  let val ← storeConversion opcode val
  let _ ← createStore val addr

def visitMemoryGrow : Emit Unit := do
  let _ ← Visit.popStack
  Visit.pushStack (.int 32 0)

def visitMemorySize : Emit Unit :=
  Visit.pushStack (.int 32 0)

def visitMemoryCopy : Emit Unit := do
  let num ← Visit.popStack
  let src ← convertStackAddr environment 0
  let dest ← convertStackAddr environment 0
  let _ ← createMemCpy dest src num

def visitMemoryFill : Emit Unit := do
  let num ← Visit.popStack
  let byte ← Visit.popStack
  let byte ← createCast .trunc byte i8Type
  let dest ← convertStackAddr environment 0
  let _ ← createMemSet dest byte num

/-! ## Calls -/

/-- Pops the arguments of a call, the last one first. -/
def popArguments : Nat → Emit (List Value)
  | 0 => pure []
  | count + 1 => do
      let last ← Visit.popStack
      let before ← popArguments count
      return before ++ [last]

def convertParams : List ValType → Emit (List Ty)
  | [] => pure []
  | type :: types => do
      let converted ← convertValType type
      let rest ← convertParams types
      return converted :: rest

/-- `convertReturnType`. -/
def convertReturnType : List ValType → Emit Ty
  | [] => pure .void
  | type :: _ => convertValType type

/-- The function's type was made when it was declared; more than one result was rejected
there. -/
def visitCallInst (func : Nat) : Emit Unit := do
  match environment.funcs[func]? with
  | none => throw .outOfRange
  | some sig => do
      let params ← convertParams sig.params
      let result ← convertReturnType sig.results
      let callArgs ← popArguments sig.params.length
      if 1 < sig.results.length then
        throw .assertion
      let ret ← createOp (.call func params) result callArgs
      if sig.results.length ≠ 0 then
        Visit.pushStack ret

def visitCallIndirectInst (sig : FuncSignature) (table : Nat) : Emit Unit := do
  match environment.tables[table]? with
  | none => throw .outOfRange
  | some size => do
      let index ← Visit.popStack
      let params ← convertParams sig.params
      if 1 < sig.results.length then
        throw .multiResult
      let result ← convertReturnType sig.results
      let ptr ← createGEP (.array size .ptr) (.global (.table table)) index
      let funcPtr ← createLoad .ptr ptr
      let callArgs ← popArguments sig.params.length
      let ret ← createOp (.callIndirect params) result (funcPtr :: callArgs)
      if sig.results.length ≠ 0 then
        Visit.pushStack ret

/-! ## Lanes -/

def createExtractLane (vector : Value) (type : Ty) (imm : Nat) (sign : Bool) : Emit Value := do
  let vector ← createCast .bitCast vector type
  let ret ← createExtractElement vector imm
  if sign then createCast .sext ret i32Type else createCast .zext ret i32Type

/-- A replacement of a lane. The narrowed scalar takes the place of the vector where the
lane is narrower than 32 bits. -/
def createReplaceNarrow (type narrow : Ty) (vec x : Value) (imm : Nat) : Emit Value := do
  let _ ← createCast .bitCast vec type
  let ret ← createCast .trunc x narrow
  createInsertElement ret x imm

def createReplaceLane (type : Ty) (vec x : Value) (imm : Nat) : Emit Value := do
  let ret ← createCast .bitCast vec type
  createInsertElement ret x imm

/-- `visitSimdLaneOp` after it has popped `top`; a replacement pops the vector below. The
third argument of `createExtractLane` is `-1` for the wide lanes, which counts as true. -/
def simdLaneCode (opcode : SimdLaneOpcode) (imm : Nat) (top : Value) : Emit Value :=
  match opcode with
  | .i8x16ExtractLaneS => createExtractLane top i8x16Type imm true
  | .i8x16ExtractLaneU => createExtractLane top i8x16Type imm false
  | .i16x8ExtractLaneS => createExtractLane top i16x8Type imm true
  | .i16x8ExtractLaneU => createExtractLane top i16x8Type imm false
  | .i32x4ExtractLane => createExtractLane top i32x4Type imm true
  | .i64x2ExtractLane => createExtractLane top i64x2Type imm true
  | .f32x4ExtractLane => createExtractLane top f32x4Type imm true
  | .f64x2ExtractLane => createExtractLane top f64x2Type imm true
  | .i8x16ReplaceLane => do
      let vec ← Visit.popStack
      createReplaceNarrow i8x16Type i8Type vec top imm
  | .i16x8ReplaceLane => do
      let vec ← Visit.popStack
      createReplaceNarrow i16x8Type i16Type vec top imm
  | .i32x4ReplaceLane => do
      let vec ← Visit.popStack
      createReplaceLane i32x4Type vec top imm
  | .i64x2ReplaceLane => do
      let vec ← Visit.popStack
      createReplaceLane i64x2Type vec top imm
  | .f32x4ReplaceLane => do
      let vec ← Visit.popStack
      createReplaceLane f32x4Type vec top imm
  | .f64x2ReplaceLane => do
      let vec ← Visit.popStack
      createReplaceLane f64x2Type vec top imm

def visitSimdLaneOp (opcode : SimdLaneOpcode) (val : Nat) : Emit Unit := do
  let top ← Visit.popStack
  let ret ← simdLaneCode opcode val top
  Visit.pushStack ret

/-- The type `createLoadLane` is called with. -/
def LoadLaneOpcode.type : LoadLaneOpcode → Ty
  | .v128Load8Lane => i8x16Type
  | .v128Load16Lane => i16x8Type
  | .v128Load32Lane => i32x4Type
  | .v128Load64Lane => i64x2Type

/-- The type `createStoreLane` is called with. -/
def StoreLaneOpcode.type : StoreLaneOpcode → Ty
  | .v128Store8Lane => i8x16Type
  | .v128Store16Lane => i16x8Type
  | .v128Store32Lane => i32x4Type
  | .v128Store64Lane => i64x2Type

/-- `getArrayElementType`, which asserts that the type is an array. -/
def arrayElementType : Ty → Emit Ty
  | .array _ element => pure element
  | _ => throw .assertion

def createLoadLane (vector addr : Value) (type : Ty) (imm : Nat) : Emit Value := do
  let vector ← createCast .bitCast vector type
  let elementType ← arrayElementType type
  let addr ← createCast .bitCast addr .ptr
  let result ← createLoad elementType addr
  createInsertElement vector result imm

def createStoreLane (vector addr : Value) (type : Ty) (imm : Nat) : Emit Value := do
  let vector ← createCast .bitCast vector type
  let addr ← createCast .bitCast addr .ptr
  let result ← createExtractElement vector imm
  createStore result addr

/-- The static offset is not used. -/
def visitSimdLoadLane (opcode : LoadLaneOpcode) (val : Nat) : Emit Unit := do
  let vec ← Visit.popStack
  let addr ← Visit.popStack
  let ret ← createLoadLane vec addr opcode.type val
  Visit.pushStack ret

/-- The result of the store is pushed. -/
def visitSimdStoreLane (opcode : StoreLaneOpcode) (val : Nat) : Emit Unit := do
  let vec ← Visit.popStack
  let addr ← Visit.popStack
  let ret ← createStoreLane vec addr opcode.type val
  Visit.pushStack ret

def visitSimdShuffle (val : List Nat) : Emit Unit := do
  let top ← Visit.popStack
  let b ← createCast .bitCast top i8x16Type
  let below ← Visit.popStack
  let a ← createCast .bitCast below i8x16Type
  let ret ← createShuffleVector a b (val.map some)
  Visit.pushStack ret

/-! ## Dispatch -/

/-- The name of an expression type in the message of `dispatchExprs`. -/
def OtherExpr.name : OtherExpr → String
  | .ternary => "Ternary"
  | .loadSplat => "LoadSplat"
  | .loadZero => "LoadZero"
  | .memoryInit => "MemoryInit"
  | .dataDrop => "DataDrop"
  | .tableGet => "TableGet"
  | .tableSet => "TableSet"
  | .tableGrow => "TableGrow"
  | .tableSize => "TableSize"
  | .tableFill => "TableFill"
  | .tableCopy => "TableCopy"
  | .tableInit => "TableInit"
  | .elemDrop => "ElemDrop"
  | .refNull => "RefNull"
  | .refIsNull => "RefIsNull"
  | .refFunc => "RefFunc"

/-- `dispatchExprs` on instructions that use no local. -/
def visitInstr : Instr → Emit Unit
  | .unary opcode => visitUnaryInst opcode
  | .binary opcode => visitBinaryInst opcode
  | .compare opcode => visitCompareExpr opcode
  | .convert opcode => visitConvertExpr opcode
  | .const value => visitConstInst value
  | .call func => visitCallInst environment func
  | .callIndirect sig table => visitCallIndirectInst environment sig table
  | .load opcode offset => visitLoadInst environment opcode offset
  | .store opcode offset => visitStoreInst environment opcode offset
  | .globalGet index => visitGlobalGet environment index
  | .globalSet index => visitGlobalSet environment index
  | .memoryGrow => visitMemoryGrow
  | .memorySize => visitMemorySize
  | .memoryCopy => visitMemoryCopy environment
  | .memoryFill => visitMemoryFill environment
  | .simdLaneOp opcode val => visitSimdLaneOp opcode val
  | .simdLoadLane opcode _ val => visitSimdLoadLane opcode val
  | .simdStoreLane opcode _ val => visitSimdStoreLane opcode val
  | .simdShuffle val => visitSimdShuffle val
  | .other type _ => throw (.unsupportedExprType type.name)

/-- The instructions of a module's functions, with the code emitted for them. -/
def instructions : InstructionSet := ⟨Instr, Operation, visitInstr environment⟩

end Module

end WasmToLlvm.Instruction

import WasmToLlvm.Instruction.Builder
import WasmToLlvm.Instruction.Opcode

/-!
# The visits of straight-line instructions

`visitUnaryInst`, `visitBinaryInst`, `visitCompareExpr`, `visitConvertExpr` and the other
functions that `dispatchExprs` calls for instructions that use no local. Where a function
leaves `ret` null, its default branch, nothing is pushed.
-/

set_option autoImplicit false

namespace WasmToLlvm.Instruction

open Llvm Wasm Block

/-- `if (ret != nullptr) stack.push_back(ret)`. -/
def pushResult : Option Value → Emit Unit
  | some ret => Visit.pushStack ret
  | none => pure ()

/-- `convertType`. -/
def convertValType (type : ValType) : Emit Ty :=
  match convertType? type with
  | some converted => pure converted
  | none => throw (.cannotConvertType type)

/-! ## Conversions -/

/-- The code of `visitConvertExpr`; the saturating conversions have none. -/
def convertCode (opcode : ConvertOpcode) (p1 : Value) : Emit (Option Value) :=
  match opcode with
  | .i32Eqz | .i64Eqz => do
      let ret ← createICmp .eq p1 (.null p1.type)
      some <$> createCast .zext ret i32Type
  | .i64ExtendI32U => some <$> createCast .zext p1 i64Type
  | .i64ExtendI32S => some <$> createCast .sext p1 i64Type
  | .i32WrapI64 => some <$> createCast .trunc p1 i32Type
  | .i32TruncF32S | .i32TruncF64S => some <$> createCast .fpToSI p1 i32Type
  | .i32TruncF32U | .i32TruncF64U => some <$> createCast .fpToUI p1 i32Type
  | .i64TruncF32S | .i64TruncF64S => some <$> createCast .fpToSI p1 i64Type
  | .i64TruncF32U | .i64TruncF64U => some <$> createCast .fpToUI p1 i64Type
  | .f32ConvertI32S | .f32ConvertI64S => some <$> createCast .siToFP p1 .float
  | .f32ConvertI32U | .f32ConvertI64U => some <$> createUIToFP p1 .float
  | .f64ConvertI32S | .f64ConvertI64S => some <$> createCast .siToFP p1 .double
  | .f64ConvertI32U | .f64ConvertI64U => some <$> createUIToFP p1 .double
  | .f32DemoteF64 => some <$> createCast .fpTrunc p1 .float
  | .f64PromoteF32 => some <$> createCast .fpExt p1 .double
  | .i32ReinterpretF32 => some <$> createCast .bitCast p1 i32Type
  | .i64ReinterpretF64 => some <$> createCast .bitCast p1 i64Type
  | .f32ReinterpretI32 => some <$> createCast .bitCast p1 .float
  | .f64ReinterpretI64 => some <$> createCast .bitCast p1 .double
  | .i32TruncSatF32S | .i32TruncSatF32U | .i32TruncSatF64S | .i32TruncSatF64U
  | .i64TruncSatF32S | .i64TruncSatF32U | .i64TruncSatF64S | .i64TruncSatF64U => pure none

def visitConvertExpr (opcode : ConvertOpcode) : Emit Unit := do
  let p1 ← Visit.popStack
  let ret ← convertCode opcode p1
  pushResult ret

/-! ## Unary instructions -/

/-- `EMIT_SIMD_UNARY_OP`. -/
def emitSimdUnaryOp (type : Ty) (p1 : Value) (emitCode : Value → Emit Value) : Emit Value := do
  let v ← createCast .bitCast p1 type
  emitCode v

def createAbs (type : Ty) (p1 : Value) : Emit Value := do
  let v ← createCast .bitCast p1 type
  let negative ← createICmp .slt v (.null type)
  let negated ← createNeg v
  createSelect negative negated v

/-- The lanes of `createAllTrue` from `index` on. -/
def createAllTrueLanes (vector zero : Value) : Nat → Nat → Value → Emit Value
  | 0, _, result => pure result
  | lanes + 1, index, result => do
      let scalar ← createExtractElement vector index
      let scalarBool ← createICmp .ne scalar zero
      let result ← createBinary .and result scalarBool
      createAllTrueLanes vector zero lanes (index + 1) result

def createAllTrue (vector : Value) (type : Ty) : Emit Value := do
  let vector ← createCast .bitCast vector type
  let zero : Value := .null type.scalar
  let scalar ← createExtractElement vector 0
  let scalarBool ← createICmp .ne scalar zero
  let result ← createAllTrueLanes vector zero (type.lanes - 1) 1 scalarBool
  createCast .zext result i32Type

/-- The bitcast of the comparison with zero has a bit for each lane. -/
def createBitmask (type : Ty) (p1 : Value) : Emit Value := do
  let operand ← createCast .bitCast p1 type
  let mask ← createICmp .slt operand (.null type)
  let bits ← createCast .bitCast mask (.int type.lanes)
  createCast .zext bits i32Type

/-- Only the entries from `startIdx` to the number of lanes of the half are assigned. -/
def extendMask (startIdx elementCount : Nat) : List (Option Nat) :=
  (List.range elementCount).map fun i => if startIdx ≤ i then some i else none

def createSIMDExtend (vector : Value) (vectorType destType : Ty) (startIdx : Nat) (sign : Bool) :
    Emit Value := do
  let vector ← createCast .bitCast vector vectorType
  let elementCount := vectorType.lanes / 2
  let halfVector ← createShuffleVector vector (.undef (.vector elementCount vectorType.scalar))
    (extendMask startIdx elementCount)
  if sign then createCast .sext halfVector destType else createCast .zext halfVector destType

def createExtaddPairwise (kind : CastOp) (p1 : Value) (vectorType destType : Ty) : Emit Value := do
  let vec ← createCast .bitCast p1 vectorType
  let half := vectorType.lanes / 2
  let vec1 ← createShuffleVector vec (.undef vectorType) ((List.range half).map fun i => some (2 * i))
  let vec2 ← createShuffleVector vec (.undef vectorType)
    ((List.range half).map fun i => some (2 * i + 1))
  let vec1 ← createCast kind vec1 destType
  let vec2 ← createCast kind vec2 destType
  createBinary .add vec1 vec2

/-- Lanes 0 and 1 of `from_` inserted in the same lanes of `into`. -/
def insertLowLanes (into from_ : Value) : Emit Value := do
  let first ← createExtractElement from_ 0
  let into ← createInsertElement into first 0
  let second ← createExtractElement from_ 1
  createInsertElement into second 1

/-- The two low lanes of an integer vector, as a vector of their own. -/
def createLowLanes (p1 : Value) : Emit Value := do
  let vec ← createCast .bitCast p1 i32x4Type
  insertLowLanes (.null i32x2Type) vec

/-- The intrinsic of a function on floating-point numbers, lane by lane. -/
def createFloatLanes (intrinsic : Intrinsic) (type : Ty) (p1 : Value) : Emit Value :=
  emitSimdUnaryOp type p1 fun v => createCall intrinsic type [v]

/-- The code of `visitUnaryInst`. Without a `break` the code of a case runs on into the
next one. The `_zero` conversions use `ret` before it is assigned. -/
def unaryCode (opcode : UnaryOpcode) (p1 : Value) : Emit Value :=
  match opcode with
  | .i8x16Neg => emitSimdUnaryOp i8x16Type p1 createNeg
  | .i16x8Neg => emitSimdUnaryOp i16x8Type p1 createNeg
  | .i32x4Neg => emitSimdUnaryOp i32x4Type p1 createNeg
  | .i64x2Neg => emitSimdUnaryOp i64x2Type p1 createNeg
  | .f32Neg | .f64Neg => createFNeg p1
  | .f32x4Neg => emitSimdUnaryOp f32x4Type p1 createFNeg
  | .f64x2Neg => emitSimdUnaryOp f64x2Type p1 createFNeg
  | .i8x16Abs => createAbs i8x16Type p1
  | .i16x8Abs => createAbs i16x8Type p1
  | .i32x4Abs => createAbs i32x4Type p1
  | .i64x2Abs => createAbs i64x2Type p1
  | .f32Abs | .f64Abs => createCall .fabs p1.type [p1]
  | .f32x4Abs => createFloatLanes .fabs f32x4Type p1
  | .f64x2Abs => createFloatLanes .fabs f64x2Type p1
  | .i32Popcnt | .i64Popcnt => createCall .ctpop p1.type [p1]
  | .i8x16Popcnt => emitSimdUnaryOp i8x16Type p1 fun v => createCall .ctpop i8x16Type [v]
  | .i32Clz | .i64Clz => createCall .ctlz p1.type [p1, .int 1 0]
  | .i32Ctz | .i64Ctz => createCall .cttz p1.type [p1, .int 1 0]
  | .f32Ceil | .f64Ceil => createCall .ceil p1.type [p1]
  | .f32x4Ceil => createFloatLanes .ceil f32x4Type p1
  | .f64x2Ceil => createFloatLanes .ceil f64x2Type p1
  | .f32Floor | .f64Floor => createCall .floor p1.type [p1]
  | .f32x4Floor => createFloatLanes .floor f32x4Type p1
  | .f64x2Floor => createFloatLanes .floor f64x2Type p1
  | .f32Nearest | .f64Nearest => createCall .roundeven p1.type [p1]
  | .f32x4Nearest => createFloatLanes .roundeven f32x4Type p1
  | .f64x2Nearest => createFloatLanes .roundeven f64x2Type p1
  | .f32Trunc | .f64Trunc => createCall .trunc p1.type [p1]
  | .f32x4Trunc => createFloatLanes .trunc f32x4Type p1
  | .f64x2Trunc => createFloatLanes .trunc f64x2Type p1
  | .f32Sqrt | .f64Sqrt => createCall .sqrt p1.type [p1]
  | .f32x4Sqrt => createFloatLanes .sqrt f32x4Type p1
  | .f64x2Sqrt => createFloatLanes .sqrt f64x2Type p1
  | .i8x16AllTrue => emitSimdUnaryOp i8x16Type p1 fun v => createAllTrue v i8x16Type
  | .i16x8AllTrue => emitSimdUnaryOp i16x8Type p1 fun v => createAllTrue v i16x8Type
  | .i32x4AllTrue => emitSimdUnaryOp i32x4Type p1 fun v => createAllTrue v i32x4Type
  | .i64x2AllTrue => emitSimdUnaryOp i64x2Type p1 fun v => createAllTrue v i64x2Type
  | .i8x16Bitmask => createBitmask i8x16Type p1
  | .i16x8Bitmask => createBitmask i16x8Type p1
  | .i32x4Bitmask => createBitmask i32x4Type p1
  | .i64x2Bitmask => createBitmask i64x2Type p1
  | .v128Not => createNot p1
  | .v128AnyTrue => do
      let zero : Value := .int 64 0
      let first ← createExtractElement p1 0
      let left ← createICmp .ne first zero
      let second ← createExtractElement p1 1
      let right ← createICmp .ne second zero
      let boolResult ← createBinary .or left right
      createCast .zext boolResult i32Type
  | .i8x16Splat => do
      let lane ← createCast .trunc p1 i8Type
      createVectorSplat 16 lane
  | .i16x8Splat => do
      let lane ← createCast .trunc p1 i16Type
      createVectorSplat 8 lane
  | .i32x4Splat | .f32x4Splat => createVectorSplat 4 p1
  | .i64x2Splat | .f64x2Splat => createVectorSplat 2 p1
  | .f32x4DemoteF64x2Zero => do
      let vec ← createCast .bitCast p1 f64x2Type
      let vec ← createCast .fpTrunc vec f32x2Type
      insertLowLanes (.null f32x4Type) vec
  | .f64x2PromoteLowF32x4 => do
      let vec ← createCast .bitCast p1 f32x4Type
      let vec ← createShuffleVector vec (.undef f32x4Type) [some 0, some 1]
      createCast .fpExt vec f64x2Type
  | .i16x8ExtaddPairwiseI8x16S => createExtaddPairwise .sext p1 i8x16Type i16x8Type
  | .i16x8ExtaddPairwiseI8x16U => do
      let _ ← createExtaddPairwise .zext p1 i8x16Type i16x8Type
      -- no break
      createExtaddPairwise .sext p1 i16x8Type i32x4Type
  | .i32x4ExtaddPairwiseI16x8S => createExtaddPairwise .sext p1 i16x8Type i32x4Type
  | .i32x4ExtaddPairwiseI16x8U => createExtaddPairwise .zext p1 i16x8Type i32x4Type
  | .i16x8ExtendLowI8x16S => createSIMDExtend p1 i8x16Type i16x8Type 0 true
  | .i16x8ExtendHighI8x16S => createSIMDExtend p1 i8x16Type i16x8Type 8 true
  | .i16x8ExtendLowI8x16U => createSIMDExtend p1 i8x16Type i16x8Type 0 false
  | .i16x8ExtendHighI8x16U => createSIMDExtend p1 i8x16Type i16x8Type 8 false
  | .i32x4ExtendLowI16x8S => createSIMDExtend p1 i16x8Type i32x4Type 0 true
  | .i32x4ExtendHighI16x8S => createSIMDExtend p1 i16x8Type i32x4Type 4 true
  | .i32x4ExtendLowI16x8U => createSIMDExtend p1 i16x8Type i32x4Type 0 false
  | .i32x4ExtendHighI16x8U => createSIMDExtend p1 i16x8Type i32x4Type 4 false
  | .i64x2ExtendLowI32x4S => createSIMDExtend p1 i32x4Type i64x2Type 0 true
  | .i64x2ExtendHighI32x4S => createSIMDExtend p1 i32x4Type i64x2Type 2 true
  | .i64x2ExtendLowI32x4U => createSIMDExtend p1 i32x4Type i64x2Type 0 false
  | .i64x2ExtendHighI32x4U => createSIMDExtend p1 i32x4Type i64x2Type 2 false
  | .f32x4ConvertI32x4S => do
      let _ ← emitSimdUnaryOp f32x4Type p1 fun v => createCast .siToFP v f32x4Type
      -- no break
      let _ ← emitSimdUnaryOp f32x4Type p1 fun v => createUIToFP v f32x4Type
      -- no break
      let ret ← createLowLanes p1
      createCast .siToFP ret f64x2Type
  | .f32x4ConvertI32x4U => do
      let _ ← emitSimdUnaryOp f32x4Type p1 fun v => createUIToFP v f32x4Type
      -- no break
      let ret ← createLowLanes p1
      createCast .siToFP ret f64x2Type
  | .f64x2ConvertLowI32x4S => do
      let ret ← createLowLanes p1
      createCast .siToFP ret f64x2Type
  | .f64x2ConvertLowI32x4U => do
      let ret ← createLowLanes p1
      createUIToFP ret f64x2Type
  | .i32x4TruncSatF32x4S => do
      let ret ← createCast .bitCast p1 f32x4Type
      createCast .fpToSI ret i32x4Type
  | .i32x4TruncSatF32x4U => do
      let ret ← createCast .bitCast p1 f32x4Type
      createCast .fpToUI ret i32x4Type
  | .i32x4TruncSatF64x2SZero | .i32x4TruncSatF64x2UZero => do
      let _ ← createCast .bitCast p1 f64x2Type
      throw .nullPointer
  | .i32Extend8S => do
      let ret ← createCast .trunc p1 i8Type
      createCast .sext ret i32Type
  | .i32Extend16S => do
      let ret ← createCast .trunc p1 i16Type
      createCast .sext ret i32Type
  | .i64Extend8S => do
      let ret ← createCast .trunc p1 i8Type
      createCast .sext ret i64Type
  | .i64Extend16S => do
      let ret ← createCast .trunc p1 i16Type
      createCast .sext ret i64Type
  | .i64Extend32S => do
      let ret ← createCast .trunc p1 i32Type
      createCast .sext ret i64Type

def visitUnaryInst (opcode : UnaryOpcode) : Emit Unit := do
  let p1 ← Visit.popStack
  let ret ← unaryCode opcode p1
  Visit.pushStack ret

/-! ## Binary instructions

The top of the stack is `p1`, the first operand `p2`. -/

/-- `EMIT_SIMD_BINARY_OP`, which calls the first operand `right`. -/
def emitSimdBinaryOp (type : Ty) (p1 p2 : Value) (emitCode : Value → Value → Emit Value) :
    Emit Value := do
  let right ← createCast .bitCast p2 type
  let left ← createCast .bitCast p1 type
  emitCode left right

/-- A saturating operation through the declaration for the type of `p1`. -/
def createSaturating (intrinsic : Intrinsic) (type : Ty) (p1 p2 : Value) : Emit Value :=
  emitSimdBinaryOp type p1 p2 fun left right => createCall intrinsic p1.type [left, right]

def createAddSatU (type : Ty) (p1 p2 : Value) : Emit Value := do
  let right ← createCast .bitCast p1 type
  let left ← createCast .bitCast p2 type
  let add ← createBinary .add left right
  let wraps ← createICmp .ugt left add
  createSelect wraps (.allOnes type) add

def createSubSatU (type : Ty) (p1 p2 : Value) : Emit Value := do
  let right ← createCast .bitCast p1 type
  let left ← createCast .bitCast p2 type
  let flag ← createICmp .ugt left right
  let larger ← createSelect flag left right
  createBinary .sub larger right

/-- `EMIT_SIMD_SHIFT_OP`. -/
def emitSimdShiftOp (type : Ty) (p1 p2 : Value) (operator : BinaryOperator) : Emit Value := do
  let mask ← createBinary .and p1 (.int p1.type.bits (type.laneBits - 1))
  let count ← createZExtOrTrunc mask type.scalar
  let right ← createVectorSplat type.lanes count
  let left ← createCast .bitCast p2 type
  createBinary operator left right

def createAvgrU (type wideType : Ty) (p1 p2 : Value) : Emit Value := do
  let right ← createCast .bitCast p2 type
  let left ← createCast .bitCast p1 type
  let rightZExt ← createCast .zext right wideType
  let leftZExt ← createCast .zext left wideType
  let sum ← createBinary .add leftZExt rightZExt
  let sum ← createBinary .add sum (splatConstant wideType 1)
  let half ← createBinary .lshr sum (splatConstant wideType 1)
  createCast .trunc half type

/-- `left` where the predicate holds and `right` elsewhere. -/
def createMin (predicate : IntPredicate) (type : Ty) (p1 p2 : Value) : Emit Value :=
  emitSimdBinaryOp type p1 p2 fun left right => do
    let condition ← createICmp predicate left right
    createSelect condition left right

def createMax (predicate : IntPredicate) (type : Ty) (p1 p2 : Value) : Emit Value :=
  emitSimdBinaryOp type p1 p2 fun left right => do
    let condition ← createICmp predicate left right
    createSelect condition right left

def createPMin (type : Ty) (p1 p2 : Value) : Emit Value :=
  emitSimdBinaryOp type p1 p2 fun left right => do
    let condition ← createFCmp .olt right left
    createSelect condition right left

def createPMax (type : Ty) (p1 p2 : Value) : Emit Value :=
  emitSimdBinaryOp type p1 p2 fun left right => do
    let condition ← createFCmp .olt left right
    createSelect condition right left

/-- The bounds are splats of 32-bit constants. -/
def createQ15mulrSat (p1 p2 : Value) : Emit Value := do
  let left ← createCast .bitCast p2 i16x8Type
  let right ← createCast .bitCast p1 i16x8Type
  let left ← createCast .sext left i64x8Type
  let right ← createCast .sext right i64x8Type
  let product ← createBinary .mul left right
  let sum ← createBinary .add product (.splat 8 32 0x4000)
  let shift ← createBinary .ashr sum (splatConstant i64x8Type 15)
  let minSplat : Value := .splat 8 32 (2 ^ 32 - 2 ^ 15)
  let maxSplat : Value := .splat 8 32 (2 ^ 15 - 1)
  let above ← createICmp .sgt shift maxSplat
  let below ← createICmp .slt shift minSplat
  let bounded ← createSelect below minSplat shift
  let saturate ← createSelect above maxSplat bounded
  createCast .trunc saturate i16x8Type

def createExtmul (p1 p2 : Value) (vectorType destType : Ty) (startIdx : Nat) (sign : Bool) :
    Emit Value := do
  let left ← createSIMDExtend p2 vectorType destType startIdx sign
  let right ← createSIMDExtend p1 vectorType destType startIdx sign
  createBinary .mul left right

/-- The code of `visitBinaryInst`; swizzling, narrowing and dot products have none. -/
def binaryCode (opcode : BinaryOpcode) (p1 p2 : Value) : Emit (Option Value) :=
  match opcode with
  | .i32Add | .i64Add => some <$> createBinary .add p2 p1
  | .f32Add | .f64Add => some <$> createBinary .fadd p2 p1
  | .i32Sub | .i64Sub => some <$> createBinary .sub p2 p1
  | .f32Sub | .f64Sub => some <$> createBinary .fsub p2 p1
  | .i32Mul | .i64Mul => some <$> createBinary .mul p2 p1
  | .f32Mul | .f64Mul => some <$> createBinary .fmul p2 p1
  | .i32DivS | .i64DivS => some <$> createBinary .sdiv p2 p1
  | .i32DivU | .i64DivU => some <$> createBinary .udiv p2 p1
  | .f32Div | .f64Div => some <$> createBinary .fdiv p2 p1
  | .i32RemS | .i64RemS => some <$> createBinary .srem p2 p1
  | .i32RemU | .i64RemU => some <$> createBinary .urem p2 p1
  | .i32And | .i64And => some <$> createBinary .and p2 p1
  | .i32Or | .i64Or => some <$> createBinary .or p2 p1
  | .i32Xor | .i64Xor => some <$> createBinary .xor p2 p1
  | .i32Shl | .i64Shl => some <$> createBinary .shl p2 p1
  | .i32ShrS | .i64ShrS => some <$> createBinary .ashr p2 p1
  | .i32ShrU | .i64ShrU => some <$> createBinary .lshr p2 p1
  | .i32Rotl | .i64Rotl => some <$> createCall .fshl p1.type [p2, p2, p1]
  | .i32Rotr | .i64Rotr => some <$> createCall .fshr p1.type [p2, p2, p1]
  | .f32Min | .f64Min => some <$> createCall .minnum p1.type [p2, p1]
  | .f32Max | .f64Max => some <$> createCall .maxnum p1.type [p2, p1]
  | .f32Copysign | .f64Copysign => some <$> createCall .copysign p1.type [p2, p1]
  | .v128Andnot => do
      let complement ← createNot p1
      some <$> createBinary .and p2 complement
  | .v128And => some <$> createBinary .and p2 p1
  | .v128Or => some <$> createBinary .or p2 p1
  | .v128Xor => some <$> createBinary .xor p2 p1
  | .i8x16Add => some <$> emitSimdBinaryOp i8x16Type p1 p2 (createBinary .add)
  | .i8x16AddSatS => some <$> createSaturating .saddSat i8x16Type p1 p2
  | .i8x16AddSatU => some <$> createAddSatU i8x16Type p1 p2
  | .i16x8Add => some <$> emitSimdBinaryOp i16x8Type p1 p2 (createBinary .add)
  | .i16x8AddSatS => some <$> createSaturating .saddSat i16x8Type p1 p2
  | .i16x8AddSatU => some <$> createAddSatU i16x8Type p1 p2
  | .i32x4Add => some <$> emitSimdBinaryOp i32x4Type p1 p2 (createBinary .add)
  | .i64x2Add => some <$> emitSimdBinaryOp i64x2Type p1 p2 (createBinary .add)
  | .f32x4Add => some <$> emitSimdBinaryOp f32x4Type p1 p2 (createBinary .fadd)
  | .f64x2Add => some <$> emitSimdBinaryOp f64x2Type p1 p2 (createBinary .fadd)
  | .i8x16Sub => some <$> emitSimdBinaryOp i8x16Type p1 p2 (createBinary .sub)
  | .i8x16SubSatS => some <$> createSaturating .ssubSat i8x16Type p1 p2
  | .i8x16SubSatU => some <$> createSubSatU i8x16Type p1 p2
  | .i16x8Sub => some <$> emitSimdBinaryOp i16x8Type p1 p2 (createBinary .sub)
  | .i16x8SubSatS => some <$> createSaturating .ssubSat i16x8Type p1 p2
  | .i16x8SubSatU => some <$> createSubSatU i16x8Type p1 p2
  | .i32x4Sub => some <$> emitSimdBinaryOp i32x4Type p1 p2 (createBinary .sub)
  | .i64x2Sub => some <$> emitSimdBinaryOp i64x2Type p1 p2 (createBinary .sub)
  | .f32x4Sub => some <$> emitSimdBinaryOp f32x4Type p1 p2 (createBinary .fsub)
  | .f64x2Sub => some <$> emitSimdBinaryOp f64x2Type p1 p2 (createBinary .fsub)
  | .i16x8Mul => some <$> emitSimdBinaryOp i16x8Type p1 p2 (createBinary .mul)
  | .i32x4Mul => some <$> emitSimdBinaryOp i32x4Type p1 p2 (createBinary .mul)
  | .i64x2Mul => some <$> emitSimdBinaryOp i64x2Type p1 p2 (createBinary .mul)
  | .f32x4Mul => some <$> emitSimdBinaryOp f32x4Type p1 p2 (createBinary .fmul)
  | .f64x2Mul => some <$> emitSimdBinaryOp f64x2Type p1 p2 (createBinary .fmul)
  | .f32x4Div => some <$> emitSimdBinaryOp f32x4Type p1 p2 (createBinary .fdiv)
  | .f64x2Div => some <$> emitSimdBinaryOp f64x2Type p1 p2 (createBinary .fdiv)
  | .i8x16Shl => some <$> emitSimdShiftOp i8x16Type p1 p2 .shl
  | .i16x8Shl => some <$> emitSimdShiftOp i16x8Type p1 p2 .shl
  | .i32x4Shl => some <$> emitSimdShiftOp i32x4Type p1 p2 .shl
  | .i64x2Shl => some <$> emitSimdShiftOp i64x2Type p1 p2 .shl
  | .i8x16ShrS => some <$> emitSimdShiftOp i8x16Type p1 p2 .ashr
  | .i16x8ShrS => some <$> emitSimdShiftOp i16x8Type p1 p2 .ashr
  | .i32x4ShrS => some <$> emitSimdShiftOp i32x4Type p1 p2 .ashr
  | .i64x2ShrS => some <$> emitSimdShiftOp i64x2Type p1 p2 .ashr
  | .i8x16ShrU => some <$> emitSimdShiftOp i8x16Type p1 p2 .lshr
  | .i16x8ShrU => some <$> emitSimdShiftOp i16x8Type p1 p2 .lshr
  | .i32x4ShrU => some <$> emitSimdShiftOp i32x4Type p1 p2 .lshr
  | .i64x2ShrU => some <$> emitSimdShiftOp i64x2Type p1 p2 .lshr
  | .i8x16AvgrU => some <$> createAvgrU i8x16Type i16x16Type p1 p2
  | .i16x8AvgrU => some <$> createAvgrU i16x8Type i32x8Type p1 p2
  | .i8x16MinS => some <$> createMin .slt i8x16Type p1 p2
  | .i8x16MinU => some <$> createMin .ult i8x16Type p1 p2
  | .i16x8MinS => some <$> createMin .slt i16x8Type p1 p2
  | .i16x8MinU => some <$> createMin .ult i16x8Type p1 p2
  | .i32x4MinS => some <$> createMin .slt i32x4Type p1 p2
  | .i32x4MinU => some <$> createMin .ult i32x4Type p1 p2
  | .f32x4Min =>
      some <$> emitSimdBinaryOp f32x4Type p1 p2 fun left right =>
        createCall .minnum f32x4Type [left, right]
  | .f64x2Min =>
      some <$> emitSimdBinaryOp f64x2Type p1 p2 fun left right =>
        createCall .minnum f64x2Type [left, right]
  | .f32x4PMin => some <$> createPMin f32x4Type p1 p2
  | .f64x2PMin => some <$> createPMin f64x2Type p1 p2
  | .i8x16MaxS => some <$> createMax .slt i8x16Type p1 p2
  | .i8x16MaxU => some <$> createMax .ult i8x16Type p1 p2
  | .i16x8MaxS => some <$> createMax .slt i16x8Type p1 p2
  | .i16x8MaxU => some <$> createMax .ult i16x8Type p1 p2
  | .i32x4MaxS => some <$> createMax .slt i32x4Type p1 p2
  | .i32x4MaxU => some <$> createMax .ult i32x4Type p1 p2
  | .f32x4Max =>
      some <$> emitSimdBinaryOp f32x4Type p1 p2 fun left right =>
        createCall .maxnum f32x4Type [left, right]
  | .f64x2Max =>
      some <$> emitSimdBinaryOp f64x2Type p1 p2 fun left right =>
        createCall .maxnum f64x2Type [left, right]
  | .f32x4PMax => some <$> createPMax f32x4Type p1 p2
  | .f64x2PMax => some <$> createPMax f64x2Type p1 p2
  | .i16x8Q15mulrSatS => some <$> createQ15mulrSat p1 p2
  | .i16x8ExtmulLowI8x16S => some <$> createExtmul p1 p2 i8x16Type i16x8Type 0 true
  | .i16x8ExtmulHighI8x16S => some <$> createExtmul p1 p2 i8x16Type i16x8Type 8 true
  | .i16x8ExtmulLowI8x16U => some <$> createExtmul p1 p2 i8x16Type i16x8Type 0 false
  | .i16x8ExtmulHighI8x16U => some <$> createExtmul p1 p2 i8x16Type i16x8Type 8 false
  | .i32x4ExtmulLowI16x8S => some <$> createExtmul p1 p2 i16x8Type i32x4Type 0 true
  | .i32x4ExtmulHighI16x8S => some <$> createExtmul p1 p2 i16x8Type i32x4Type 4 true
  | .i32x4ExtmulLowI16x8U => some <$> createExtmul p1 p2 i16x8Type i32x4Type 0 false
  | .i32x4ExtmulHighI16x8U => some <$> createExtmul p1 p2 i16x8Type i32x4Type 4 false
  | .i64x2ExtmulLowI32x4S => some <$> createExtmul p1 p2 i32x4Type i64x2Type 0 true
  | .i64x2ExtmulHighI32x4S => some <$> createExtmul p1 p2 i32x4Type i64x2Type 2 true
  | .i64x2ExtmulLowI32x4U => some <$> createExtmul p1 p2 i32x4Type i64x2Type 0 false
  | .i64x2ExtmulHighI32x4U => some <$> createExtmul p1 p2 i32x4Type i64x2Type 2 false
  | .i8x16Swizzle | .i8x16NarrowI16x8S | .i8x16NarrowI16x8U | .i16x8NarrowI32x4S
  | .i16x8NarrowI32x4U | .i32x4DotI16x8S => pure none

def visitBinaryInst (opcode : BinaryOpcode) : Emit Unit := do
  let p1 ← Visit.popStack
  let p2 ← Visit.popStack
  let ret ← binaryCode opcode p1 p2
  pushResult ret

end WasmToLlvm.Instruction

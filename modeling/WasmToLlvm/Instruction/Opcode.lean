import WasmToLlvm.Wasm.Syntax

/-!
# Straight-line instructions

The opcodes of `wabt::Opcode`, by the type of the expression they occur in, and the
signatures validation gives them.
-/

set_option autoImplicit false

namespace WasmToLlvm.Instruction

open Wasm

inductive UnaryOpcode where
  | i32Clz | i64Clz | i32Ctz | i64Ctz | i32Popcnt | i64Popcnt
  | i32Extend8S | i32Extend16S | i64Extend8S | i64Extend16S | i64Extend32S
  | f32Abs | f64Abs | f32Neg | f64Neg | f32Ceil | f64Ceil | f32Floor | f64Floor
  | f32Trunc | f64Trunc | f32Nearest | f64Nearest | f32Sqrt | f64Sqrt
  | v128Not | v128AnyTrue
  | i8x16Splat | i16x8Splat | i32x4Splat | i64x2Splat | f32x4Splat | f64x2Splat
  | i8x16Neg | i16x8Neg | i32x4Neg | i64x2Neg | i8x16Abs | i16x8Abs | i32x4Abs | i64x2Abs
  | i8x16Popcnt
  | i8x16AllTrue | i16x8AllTrue | i32x4AllTrue | i64x2AllTrue
  | i8x16Bitmask | i16x8Bitmask | i32x4Bitmask | i64x2Bitmask
  | f32x4Abs | f64x2Abs | f32x4Neg | f64x2Neg | f32x4Ceil | f64x2Ceil | f32x4Floor | f64x2Floor
  | f32x4Trunc | f64x2Trunc | f32x4Nearest | f64x2Nearest | f32x4Sqrt | f64x2Sqrt
  | f32x4DemoteF64x2Zero | f64x2PromoteLowF32x4
  | i16x8ExtaddPairwiseI8x16S | i16x8ExtaddPairwiseI8x16U
  | i32x4ExtaddPairwiseI16x8S | i32x4ExtaddPairwiseI16x8U
  | i16x8ExtendLowI8x16S | i16x8ExtendHighI8x16S | i16x8ExtendLowI8x16U | i16x8ExtendHighI8x16U
  | i32x4ExtendLowI16x8S | i32x4ExtendHighI16x8S | i32x4ExtendLowI16x8U | i32x4ExtendHighI16x8U
  | i64x2ExtendLowI32x4S | i64x2ExtendHighI32x4S | i64x2ExtendLowI32x4U | i64x2ExtendHighI32x4U
  | f32x4ConvertI32x4S | f32x4ConvertI32x4U | f64x2ConvertLowI32x4S | f64x2ConvertLowI32x4U
  | i32x4TruncSatF32x4S | i32x4TruncSatF32x4U | i32x4TruncSatF64x2SZero | i32x4TruncSatF64x2UZero
  deriving DecidableEq, Repr

inductive BinaryOpcode where
  | i32Add | i64Add | i32Sub | i64Sub | i32Mul | i64Mul | i32DivS | i64DivS | i32DivU | i64DivU
  | i32RemS | i64RemS | i32RemU | i64RemU | i32And | i64And | i32Or | i64Or | i32Xor | i64Xor
  | i32Shl | i64Shl | i32ShrS | i64ShrS | i32ShrU | i64ShrU | i32Rotl | i64Rotl | i32Rotr | i64Rotr
  | f32Add | f64Add | f32Sub | f64Sub | f32Mul | f64Mul | f32Div | f64Div
  | f32Min | f64Min | f32Max | f64Max | f32Copysign | f64Copysign
  | v128And | v128Or | v128Xor | v128Andnot
  | i8x16Swizzle
  | i8x16Add | i16x8Add | i32x4Add | i64x2Add | i8x16Sub | i16x8Sub | i32x4Sub | i64x2Sub
  | i16x8Mul | i32x4Mul | i64x2Mul
  | i8x16AddSatS | i16x8AddSatS | i8x16AddSatU | i16x8AddSatU
  | i8x16SubSatS | i16x8SubSatS | i8x16SubSatU | i16x8SubSatU
  | i8x16MinS | i16x8MinS | i32x4MinS | i8x16MinU | i16x8MinU | i32x4MinU
  | i8x16MaxS | i16x8MaxS | i32x4MaxS | i8x16MaxU | i16x8MaxU | i32x4MaxU
  | i8x16AvgrU | i16x8AvgrU | i16x8Q15mulrSatS | i32x4DotI16x8S
  | f32x4Add | f64x2Add | f32x4Sub | f64x2Sub | f32x4Mul | f64x2Mul | f32x4Div | f64x2Div
  | f32x4Min | f64x2Min | f32x4Max | f64x2Max | f32x4PMin | f64x2PMin | f32x4PMax | f64x2PMax
  | i8x16Shl | i16x8Shl | i32x4Shl | i64x2Shl | i8x16ShrS | i16x8ShrS | i32x4ShrS | i64x2ShrS
  | i8x16ShrU | i16x8ShrU | i32x4ShrU | i64x2ShrU
  | i8x16NarrowI16x8S | i8x16NarrowI16x8U | i16x8NarrowI32x4S | i16x8NarrowI32x4U
  | i16x8ExtmulLowI8x16S | i16x8ExtmulHighI8x16S | i16x8ExtmulLowI8x16U | i16x8ExtmulHighI8x16U
  | i32x4ExtmulLowI16x8S | i32x4ExtmulHighI16x8S | i32x4ExtmulLowI16x8U | i32x4ExtmulHighI16x8U
  | i64x2ExtmulLowI32x4S | i64x2ExtmulHighI32x4S | i64x2ExtmulLowI32x4U | i64x2ExtmulHighI32x4U
  deriving DecidableEq, Repr

inductive CompareOpcode where
  | i32Eq | i64Eq | i32Ne | i64Ne | i32LtS | i64LtS | i32LtU | i64LtU | i32GtS | i64GtS
  | i32GtU | i64GtU | i32LeS | i64LeS | i32LeU | i64LeU | i32GeS | i64GeS | i32GeU | i64GeU
  | f32Eq | f64Eq | f32Ne | f64Ne | f32Lt | f64Lt | f32Gt | f64Gt | f32Le | f64Le | f32Ge | f64Ge
  | i8x16Eq | i16x8Eq | i32x4Eq | i64x2Eq | i8x16Ne | i16x8Ne | i32x4Ne | i64x2Ne
  | i8x16LtS | i16x8LtS | i32x4LtS | i64x2LtS | i8x16LtU | i16x8LtU | i32x4LtU
  | i8x16GtS | i16x8GtS | i32x4GtS | i64x2GtS | i8x16GtU | i16x8GtU | i32x4GtU
  | i8x16LeS | i16x8LeS | i32x4LeS | i64x2LeS | i8x16LeU | i16x8LeU | i32x4LeU
  | i8x16GeS | i16x8GeS | i32x4GeS | i64x2GeS | i8x16GeU | i16x8GeU | i32x4GeU
  | f32x4Eq | f64x2Eq | f32x4Ne | f64x2Ne | f32x4Lt | f64x2Lt | f32x4Gt | f64x2Gt
  | f32x4Le | f64x2Le | f32x4Ge | f64x2Ge
  deriving DecidableEq, Repr

inductive ConvertOpcode where
  | i32Eqz | i64Eqz | i32WrapI64 | i64ExtendI32S | i64ExtendI32U
  | i32TruncF32S | i32TruncF32U | i32TruncF64S | i32TruncF64U
  | i64TruncF32S | i64TruncF32U | i64TruncF64S | i64TruncF64U
  | i32TruncSatF32S | i32TruncSatF32U | i32TruncSatF64S | i32TruncSatF64U
  | i64TruncSatF32S | i64TruncSatF32U | i64TruncSatF64S | i64TruncSatF64U
  | f32ConvertI32S | f32ConvertI32U | f32ConvertI64S | f32ConvertI64U
  | f64ConvertI32S | f64ConvertI32U | f64ConvertI64S | f64ConvertI64U
  | f32DemoteF64 | f64PromoteF32
  | i32ReinterpretF32 | i64ReinterpretF64 | f32ReinterpretI32 | f64ReinterpretI64
  deriving DecidableEq, Repr

inductive LoadOpcode where
  | i32Load | i64Load | f32Load | f64Load
  | i32Load8S | i32Load8U | i32Load16S | i32Load16U
  | i64Load8S | i64Load8U | i64Load16S | i64Load16U | i64Load32S | i64Load32U
  | v128Load | v128Load8X8S | v128Load8X8U | v128Load16X4S | v128Load16X4U
  | v128Load32X2S | v128Load32X2U
  | v128Load8Splat | v128Load16Splat | v128Load32Splat | v128Load64Splat
  | v128Load32Zero | v128Load64Zero
  deriving DecidableEq, Repr

inductive StoreOpcode where
  | i32Store | i64Store | f32Store | f64Store
  | i32Store8 | i32Store16 | i64Store8 | i64Store16 | i64Store32
  | v128Store
  deriving DecidableEq, Repr

inductive SimdLaneOpcode where
  | i8x16ExtractLaneS | i8x16ExtractLaneU | i16x8ExtractLaneS | i16x8ExtractLaneU
  | i32x4ExtractLane | i64x2ExtractLane | f32x4ExtractLane | f64x2ExtractLane
  | i8x16ReplaceLane | i16x8ReplaceLane | i32x4ReplaceLane | i64x2ReplaceLane
  | f32x4ReplaceLane | f64x2ReplaceLane
  deriving DecidableEq, Repr

inductive LoadLaneOpcode where
  | v128Load8Lane | v128Load16Lane | v128Load32Lane | v128Load64Lane
  deriving DecidableEq, Repr

inductive StoreLaneOpcode where
  | v128Store8Lane | v128Store16Lane | v128Store32Lane | v128Store64Lane
  deriving DecidableEq, Repr

/-- `wabt::Const`, floating-point numbers by their bits. -/
inductive Const where
  | i32 (value : BitVec 32)
  | i64 (value : BitVec 64)
  | f32 (bits : BitVec 32)
  | f64 (bits : BitVec 64)
  | v128 (bits : BitVec 128)
  deriving DecidableEq, Repr

/-- The other expression types of the default features, which `dispatchExprs` rejects. -/
inductive OtherExpr where
  | ternary | loadSplat | loadZero | memoryInit | dataDrop
  | tableGet | tableSet | tableGrow | tableSize | tableFill | tableCopy | tableInit | elemDrop
  | refNull | refIsNull | refFunc
  deriving DecidableEq, Repr

/-- A straight-line instruction that uses no local. A shuffle's immediate gives the lanes
to select. -/
inductive Instr where
  | unary (opcode : UnaryOpcode)
  | binary (opcode : BinaryOpcode)
  | compare (opcode : CompareOpcode)
  | convert (opcode : ConvertOpcode)
  | const (value : Const)
  | call (func : Nat)
  | callIndirect (sig : FuncSignature) (table : Nat)
  | load (opcode : LoadOpcode) (offset : Nat)
  | store (opcode : StoreOpcode) (offset : Nat)
  | globalGet (index : Nat)
  | globalSet (index : Nat)
  | memoryGrow
  | memorySize
  | memoryCopy
  | memoryFill
  | simdLaneOp (opcode : SimdLaneOpcode) (val : Nat)
  | simdLoadLane (opcode : LoadLaneOpcode) (offset val : Nat)
  | simdStoreLane (opcode : StoreLaneOpcode) (offset val : Nat)
  | simdShuffle (val : List Nat)
  | other (type : OtherExpr) (sig : FuncSignature)
  deriving DecidableEq, Repr

/-- The index spaces of a module, imported entities first. Memories and tables are given
by the sizes their LLVM variables have. -/
structure Environment where
  genIntToPtr : Bool
  funcs : List FuncSignature
  globs : List ValType
  mems : List Nat
  tables : List Nat
  deriving Repr

/-! ## Signatures -/

/-- The type of a scalar or vector operand that is also the type of the result. -/
def UnaryOpcode.signature : UnaryOpcode → FuncSignature
  | .i32Clz | .i32Ctz | .i32Popcnt | .i32Extend8S | .i32Extend16S => ⟨[.i32], [.i32]⟩
  | .i64Clz | .i64Ctz | .i64Popcnt | .i64Extend8S | .i64Extend16S | .i64Extend32S =>
      ⟨[.i64], [.i64]⟩
  | .f32Abs | .f32Neg | .f32Ceil | .f32Floor | .f32Trunc | .f32Nearest | .f32Sqrt =>
      ⟨[.f32], [.f32]⟩
  | .f64Abs | .f64Neg | .f64Ceil | .f64Floor | .f64Trunc | .f64Nearest | .f64Sqrt =>
      ⟨[.f64], [.f64]⟩
  | .v128AnyTrue | .i8x16AllTrue | .i16x8AllTrue | .i32x4AllTrue | .i64x2AllTrue
  | .i8x16Bitmask | .i16x8Bitmask | .i32x4Bitmask | .i64x2Bitmask => ⟨[.v128], [.i32]⟩
  | .i8x16Splat | .i16x8Splat | .i32x4Splat => ⟨[.i32], [.v128]⟩
  | .i64x2Splat => ⟨[.i64], [.v128]⟩
  | .f32x4Splat => ⟨[.f32], [.v128]⟩
  | .f64x2Splat => ⟨[.f64], [.v128]⟩
  | _ => ⟨[.v128], [.v128]⟩

def BinaryOpcode.signature : BinaryOpcode → FuncSignature
  | .i32Add | .i32Sub | .i32Mul | .i32DivS | .i32DivU | .i32RemS | .i32RemU | .i32And | .i32Or
  | .i32Xor | .i32Shl | .i32ShrS | .i32ShrU | .i32Rotl | .i32Rotr => ⟨[.i32, .i32], [.i32]⟩
  | .i64Add | .i64Sub | .i64Mul | .i64DivS | .i64DivU | .i64RemS | .i64RemU | .i64And | .i64Or
  | .i64Xor | .i64Shl | .i64ShrS | .i64ShrU | .i64Rotl | .i64Rotr => ⟨[.i64, .i64], [.i64]⟩
  | .f32Add | .f32Sub | .f32Mul | .f32Div | .f32Min | .f32Max | .f32Copysign =>
      ⟨[.f32, .f32], [.f32]⟩
  | .f64Add | .f64Sub | .f64Mul | .f64Div | .f64Min | .f64Max | .f64Copysign =>
      ⟨[.f64, .f64], [.f64]⟩
  | .i8x16Shl | .i16x8Shl | .i32x4Shl | .i64x2Shl | .i8x16ShrS | .i16x8ShrS | .i32x4ShrS
  | .i64x2ShrS | .i8x16ShrU | .i16x8ShrU | .i32x4ShrU | .i64x2ShrU => ⟨[.v128, .i32], [.v128]⟩
  | _ => ⟨[.v128, .v128], [.v128]⟩

def CompareOpcode.signature : CompareOpcode → FuncSignature
  | .i32Eq | .i32Ne | .i32LtS | .i32LtU | .i32GtS | .i32GtU | .i32LeS | .i32LeU | .i32GeS
  | .i32GeU => ⟨[.i32, .i32], [.i32]⟩
  | .i64Eq | .i64Ne | .i64LtS | .i64LtU | .i64GtS | .i64GtU | .i64LeS | .i64LeU | .i64GeS
  | .i64GeU => ⟨[.i64, .i64], [.i32]⟩
  | .f32Eq | .f32Ne | .f32Lt | .f32Gt | .f32Le | .f32Ge => ⟨[.f32, .f32], [.i32]⟩
  | .f64Eq | .f64Ne | .f64Lt | .f64Gt | .f64Le | .f64Ge => ⟨[.f64, .f64], [.i32]⟩
  | _ => ⟨[.v128, .v128], [.v128]⟩

def ConvertOpcode.signature : ConvertOpcode → FuncSignature
  | .i32Eqz => ⟨[.i32], [.i32]⟩
  | .i64Eqz | .i32WrapI64 => ⟨[.i64], [.i32]⟩
  | .i64ExtendI32S | .i64ExtendI32U => ⟨[.i32], [.i64]⟩
  | .i32TruncF32S | .i32TruncF32U | .i32TruncSatF32S | .i32TruncSatF32U | .i32ReinterpretF32 =>
      ⟨[.f32], [.i32]⟩
  | .i32TruncF64S | .i32TruncF64U | .i32TruncSatF64S | .i32TruncSatF64U => ⟨[.f64], [.i32]⟩
  | .i64TruncF32S | .i64TruncF32U | .i64TruncSatF32S | .i64TruncSatF32U => ⟨[.f32], [.i64]⟩
  | .i64TruncF64S | .i64TruncF64U | .i64TruncSatF64S | .i64TruncSatF64U | .i64ReinterpretF64 =>
      ⟨[.f64], [.i64]⟩
  | .f32ConvertI32S | .f32ConvertI32U | .f32ReinterpretI32 => ⟨[.i32], [.f32]⟩
  | .f32ConvertI64S | .f32ConvertI64U => ⟨[.i64], [.f32]⟩
  | .f64ConvertI32S | .f64ConvertI32U => ⟨[.i32], [.f64]⟩
  | .f64ConvertI64S | .f64ConvertI64U | .f64ReinterpretI64 => ⟨[.i64], [.f64]⟩
  | .f32DemoteF64 => ⟨[.f64], [.f32]⟩
  | .f64PromoteF32 => ⟨[.f32], [.f64]⟩

/-- `Opcode::GetResultType` of a load. -/
def LoadOpcode.resultType : LoadOpcode → ValType
  | .i32Load | .i32Load8S | .i32Load8U | .i32Load16S | .i32Load16U => .i32
  | .i64Load | .i64Load8S | .i64Load8U | .i64Load16S | .i64Load16U | .i64Load32S | .i64Load32U =>
      .i64
  | .f32Load => .f32
  | .f64Load => .f64
  | _ => .v128

/-- `Opcode::GetParamType2` of a store. -/
def StoreOpcode.valueType : StoreOpcode → ValType
  | .i32Store | .i32Store8 | .i32Store16 => .i32
  | .i64Store | .i64Store8 | .i64Store16 | .i64Store32 => .i64
  | .f32Store => .f32
  | .f64Store => .f64
  | .v128Store => .v128

def SimdLaneOpcode.signature : SimdLaneOpcode → FuncSignature
  | .i8x16ExtractLaneS | .i8x16ExtractLaneU | .i16x8ExtractLaneS | .i16x8ExtractLaneU
  | .i32x4ExtractLane => ⟨[.v128], [.i32]⟩
  | .i64x2ExtractLane => ⟨[.v128], [.i64]⟩
  | .f32x4ExtractLane => ⟨[.v128], [.f32]⟩
  | .f64x2ExtractLane => ⟨[.v128], [.f64]⟩
  | .i8x16ReplaceLane | .i16x8ReplaceLane | .i32x4ReplaceLane => ⟨[.v128, .i32], [.v128]⟩
  | .i64x2ReplaceLane => ⟨[.v128, .i64], [.v128]⟩
  | .f32x4ReplaceLane => ⟨[.v128, .f32], [.v128]⟩
  | .f64x2ReplaceLane => ⟨[.v128, .f64], [.v128]⟩

def Const.type : Const → ValType
  | .i32 _ => .i32
  | .i64 _ => .i64
  | .f32 _ => .f32
  | .f64 _ => .f64
  | .v128 _ => .v128

/-- The signature of an instruction; an index outside its index space is not valid. -/
def Instr.signature (environment : Environment) : Instr → Option FuncSignature
  | .unary opcode => some opcode.signature
  | .binary opcode => some opcode.signature
  | .compare opcode => some opcode.signature
  | .convert opcode => some opcode.signature
  | .const value => some ⟨[], [value.type]⟩
  | .call func => environment.funcs[func]?
  | .callIndirect sig table =>
      if table < environment.tables.length then some ⟨sig.params ++ [.i32], sig.results⟩ else none
  | .load opcode _ =>
      if environment.mems ≠ [] then some ⟨[.i32], [opcode.resultType]⟩ else none
  | .store opcode _ =>
      if environment.mems ≠ [] then some ⟨[.i32, opcode.valueType], []⟩ else none
  | .globalGet index => (environment.globs[index]?).map fun type => ⟨[], [type]⟩
  | .globalSet index => (environment.globs[index]?).map fun type => ⟨[type], []⟩
  | .memoryGrow => if environment.mems ≠ [] then some ⟨[.i32], [.i32]⟩ else none
  | .memorySize => if environment.mems ≠ [] then some ⟨[], [.i32]⟩ else none
  | .memoryCopy => if environment.mems ≠ [] then some ⟨[.i32, .i32, .i32], []⟩ else none
  | .memoryFill => if environment.mems ≠ [] then some ⟨[.i32, .i32, .i32], []⟩ else none
  | .simdLaneOp opcode _ => some opcode.signature
  | .simdLoadLane _ _ _ =>
      if environment.mems ≠ [] then some ⟨[.i32, .v128], [.v128]⟩ else none
  | .simdStoreLane _ _ _ => if environment.mems ≠ [] then some ⟨[.i32, .v128], []⟩ else none
  | .simdShuffle _ => some ⟨[.v128, .v128], [.v128]⟩
  | .other _ sig => some sig

end WasmToLlvm.Instruction

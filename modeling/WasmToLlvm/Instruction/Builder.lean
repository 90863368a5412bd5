import WasmToLlvm.Block.Context
import WasmToLlvm.Llvm.Operation

/-!
# Creating operations

The functions of `IRBuilder` that the visits of straight-line instructions use, and the
vector types of `extendType`. A cast to the type a value has is the value itself. Operands
of wrong types are not rejected here.
-/

set_option autoImplicit false

namespace WasmToLlvm.Instruction

open Llvm Block

abbrev i8Type : Ty := .int 8
abbrev i16Type : Ty := .int 16
abbrev i32Type : Ty := .int 32
abbrev i64Type : Ty := .int 64

abbrev i8x8Type : Ty := .vector 8 i8Type
abbrev i16x4Type : Ty := .vector 4 i16Type
abbrev i32x2Type : Ty := .vector 2 i32Type
abbrev f32x2Type : Ty := .vector 2 .float
abbrev i8x16Type : Ty := .vector 16 i8Type
abbrev i16x8Type : Ty := .vector 8 i16Type
abbrev i32x4Type : Ty := .vector 4 i32Type
abbrev i64x2Type : Ty := .vector 2 i64Type
abbrev f32x4Type : Ty := .vector 4 .float
abbrev f64x2Type : Ty := .vector 2 .double
abbrev i16x16Type : Ty := .vector 16 i16Type
abbrev i32x8Type : Ty := .vector 8 i32Type
abbrev i64x8Type : Ty := .vector 8 i64Type

/-- A computation that creates code. -/
abbrev Emit := Visit Operation

def createOp (operation : Operation) (type : Ty) (operands : List Value) : Emit Value :=
  Visit.create (.op operation type operands)

def createBinary (operator : BinaryOperator) (left right : Value) : Emit Value :=
  createOp (.binary operator) left.type [left, right]

/-- `0 - value`. -/
def createNeg (value : Value) : Emit Value :=
  createBinary .sub (.null value.type) value

/-- `value ^ -1`. -/
def createNot (value : Value) : Emit Value :=
  createBinary .xor value (.allOnes value.type)

def createFNeg (value : Value) : Emit Value :=
  createOp .fneg value.type [value]

def createICmp (predicate : IntPredicate) (left right : Value) : Emit Value :=
  Visit.create (.icmp predicate left right)

def createFCmp (predicate : FloatPredicate) (left right : Value) : Emit Value :=
  createOp (.fcmp predicate) left.type.comparison [left, right]

def createSelect (condition ifTrue ifFalse : Value) : Emit Value :=
  Visit.create (.select condition ifTrue ifFalse)

/-- `IRBuilder::CreateCast`. -/
def createCast (kind : CastOp) (value : Value) (type : Ty) : Emit Value :=
  if value.type = type then pure value else createOp (.cast kind) type [value]

/-- Unlike the other casts, `CreateUIToFP` does not look at the type of the value. -/
def createUIToFP (value : Value) (type : Ty) : Emit Value :=
  createOp (.cast .uiToFP) type [value]

/-- `CreateZExtOrTrunc`. -/
def createZExtOrTrunc (value : Value) (type : Ty) : Emit Value :=
  if value.type.laneBits < type.laneBits then createCast .zext value type
  else if type.laneBits < value.type.laneBits then createCast .trunc value type
  else pure value

/-- A call of an intrinsic through its declaration for a type. -/
def createCall (intrinsic : Intrinsic) (declared : Ty) (arguments : List Value) : Emit Value :=
  createOp (.intrinsic intrinsic declared) declared arguments

/-- The cast to a vector type fails on other operands. -/
def createExtractElement (vector : Value) (index : Nat) : Emit Value :=
  match vector.type with
  | .vector _ element => createOp .extractElement element [vector, .int 64 index]
  | _ => throw .assertion

def createInsertElement (vector element : Value) (index : Nat) : Emit Value :=
  createOp .insertElement vector.type [vector, element, .int 64 index]

def createShuffleVector (left right : Value) (mask : List (Option Nat)) : Emit Value :=
  createOp (.shuffleVector mask) (.vector mask.length left.type.scalar) [left, right]

/-- A value inserted in lane 0 and distributed over all lanes. -/
def createVectorSplat (lanes : Nat) (value : Value) : Emit Value := do
  let inserted ← createInsertElement (.undef (.vector lanes value.type)) value 0
  createShuffleVector inserted (.undef (.vector lanes value.type)) (List.replicate lanes (some 0))

/-- `ConstantVector::getSplat` of an integer. -/
def splatConstant (type : Ty) (value : Nat) : Value :=
  .splat type.lanes type.laneBits value

def createLoad (type : Ty) (address : Value) : Emit Value :=
  createOp .load type [address]

def createStore (value address : Value) : Emit Value :=
  createOp .store .void [value, address]

/-- `CreateGEP` with a zero of the index's type in front of the index. -/
def createGEP (source : Ty) (base index : Value) : Emit Value :=
  createOp (.getElementPtr source) .ptr [base, .null index.type, index]

def createMemCpy (dest src num : Value) : Emit Value :=
  createOp .memCpy .void [dest, src, num]

def createMemSet (dest byte num : Value) : Emit Value :=
  createOp .memSet .void [dest, byte, num]

end WasmToLlvm.Instruction

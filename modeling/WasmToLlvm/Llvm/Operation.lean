import WasmToLlvm.Llvm.Function

/-!
# The operations of straight-line code

The LLVM instructions that the visits of numeric, memory and vector instructions
create, besides comparisons of integers and selections, and what LLVM's verifier
demands of the types of their operands.
-/

set_option autoImplicit false

namespace WasmToLlvm.Llvm

inductive BinaryOperator where
  | add | sub | mul | sdiv | udiv | srem | urem
  | and | or | xor | shl | ashr | lshr
  | fadd | fsub | fmul | fdiv
  deriving DecidableEq, Repr

inductive CastOp where
  | trunc | zext | sext | fpTrunc | fpExt | fpToSI | fpToUI | siToFP | uiToFP | bitCast | intToPtr
  deriving DecidableEq, Repr

/-- The predicates of `fcmp` that are used; all are ordered. -/
inductive FloatPredicate where
  | oeq | oge | ogt | ole | olt
  deriving DecidableEq, Repr

inductive Intrinsic where
  | fabs | ceil | floor | roundeven | trunc | sqrt | copysign | minnum | maxnum
  | ctpop | ctlz | cttz | fshl | fshr | saddSat | ssubSat
  deriving DecidableEq, Repr

/-- An intrinsic is called through the declaration for one type. An entry of a shuffle's
mask is `none` where the mask was not assigned. -/
inductive Operation where
  | binary (operator : BinaryOperator)
  | fneg
  | fcmp (predicate : FloatPredicate)
  | cast (kind : CastOp)
  | intrinsic (callee : Intrinsic) (declared : Ty)
  | extractElement
  | insertElement
  | shuffleVector (mask : List (Option Nat))
  | load
  | store
  | getElementPtr (source : Ty)
  | memCpy
  | memSet
  | call (callee : Nat) (params : List Ty)
  | callIndirect (params : List Ty)
  deriving DecidableEq, Repr

namespace Ty

/-- The number of lanes; a type that is no vector has one. -/
def lanes : Ty → Nat
  | .vector lanes _ => lanes
  | _ => 1

/-- The type of a lane. -/
def scalar : Ty → Ty
  | .vector _ element => element
  | type => type

def isVector : Ty → Bool
  | .vector _ _ => true
  | _ => false

def isInt : Ty → Bool
  | .int _ => true
  | _ => false

def isFloat : Ty → Bool
  | .float | .double => true
  | _ => false

/-- The width of a scalar under the data layout, which gives a pointer 32 bits. -/
def bits : Ty → Nat
  | .int width => width
  | .float => 32
  | .double => 64
  | .ptr => 32
  | .void | .vector _ _ | .array _ _ => 0

/-- The width of a lane. -/
def laneBits (type : Ty) : Nat := type.scalar.bits

/-- The width of a value. -/
def size (type : Ty) : Nat := type.lanes * type.laneBits

/-- Vectors have the same number of lanes, or neither type is one. -/
def sameShape (type other : Ty) : Bool :=
  type.isVector == other.isVector && type.lanes == other.lanes

end Ty

def BinaryOperator.isFloat : BinaryOperator → Bool
  | .fadd | .fsub | .fmul | .fdiv => true
  | _ => false

def BinaryOperator.isDivision : BinaryOperator → Bool
  | .sdiv | .udiv | .srem | .urem => true
  | _ => false

/-! ## Types

What the verifier accepts. -/

/-- `CastInst::castIsValid`. -/
def CastOp.accepts (kind : CastOp) (source target : Ty) : Bool :=
  match kind with
  | .trunc => source.sameShape target && source.scalar.isInt && target.scalar.isInt && target.laneBits < source.laneBits
  | .zext | .sext =>
      source.sameShape target && source.scalar.isInt && target.scalar.isInt && source.laneBits < target.laneBits
  | .fpTrunc =>
      source.sameShape target && source.scalar.isFloat && target.scalar.isFloat && target.laneBits < source.laneBits
  | .fpExt =>
      source.sameShape target && source.scalar.isFloat && target.scalar.isFloat && source.laneBits < target.laneBits
  | .fpToSI | .fpToUI => source.sameShape target && source.scalar.isFloat && target.scalar.isInt
  | .siToFP | .uiToFP => source.sameShape target && source.scalar.isInt && target.scalar.isFloat
  | .bitCast =>
      source.size == target.size && (source.scalar.isInt || source.scalar.isFloat) &&
        (target.scalar.isInt || target.scalar.isFloat)
  | .intToPtr => source.sameShape target && source.scalar.isInt && target.scalar == .ptr

/-- The types an intrinsic is declared for. -/
def Intrinsic.overloads (intrinsic : Intrinsic) (type : Ty) : Bool :=
  match intrinsic with
  | .fabs | .ceil | .floor | .roundeven | .trunc | .sqrt | .copysign | .minnum | .maxnum =>
      type.scalar.isFloat
  | .ctpop | .ctlz | .cttz | .fshl | .fshr | .saddSat | .ssubSat => type.scalar.isInt

/-- The parameters of an intrinsic declared for a type. -/
def Intrinsic.params (intrinsic : Intrinsic) (type : Ty) : List Ty :=
  match intrinsic with
  | .fabs | .ceil | .floor | .roundeven | .trunc | .sqrt | .ctpop => [type]
  | .copysign | .minnum | .maxnum | .saddSat | .ssubSat => [type, type]
  | .ctlz | .cttz => [type, .int 1]
  | .fshl | .fshr => [type, type, type]

/-- The operand types and the result type of an operation agree. -/
def Operation.wellTyped (operation : Operation) (operands : List Ty) (result : Ty) : Bool :=
  match operation, operands with
  | .binary operator, [left, right] =>
      left == right && result == left &&
        (if operator.isFloat then left.scalar.isFloat else left.scalar.isInt)
  | .fneg, [operand] => result == operand && operand.scalar.isFloat
  | .fcmp _, [left, right] =>
      left == right && left.scalar.isFloat && result == left.comparison
  | .cast kind, [operand] => kind.accepts operand result
  | .intrinsic callee declared, operands =>
      callee.overloads declared && operands == callee.params declared && result == declared
  | .extractElement, [vector, index] =>
      vector.isVector && index.isInt && result == vector.scalar
  | .insertElement, [vector, element, index] =>
      vector.isVector && element == vector.scalar && index.isInt && result == vector
  | .shuffleVector mask, [left, right] =>
      left.isVector && left == right && result == .vector mask.length left.scalar
  | .load, [address] => address == .ptr && result != .void
  | .store, [value, address] => value != .void && address == .ptr && result == .void
  | .getElementPtr _, base :: indices =>
      base == .ptr && indices.all Ty.isInt && result == .ptr
  | .memCpy, [dest, src, num] => dest == .ptr && src == .ptr && num.isInt && result == .void
  | .memSet, [dest, byte, num] => dest == .ptr && byte == .int 8 && num.isInt && result == .void
  | .call _ params, operands => operands == params
  | .callIndirect params, callee :: operands => callee == .ptr && operands == params
  | _, _ => false

def Plain.wellTyped : Plain Operation → Bool
  | .alloca _ => true
  | .load _ address => address.type == .ptr
  | .store _ address => address.type == .ptr
  | .icmp _ left right => left.type == right.type && (left.type.scalar.isInt || left.type == .ptr)
  | .select condition ifTrue ifFalse =>
      ifTrue.type == ifFalse.type &&
        (condition.type == .int 1 ||
          (ifTrue.type.isVector && condition.type == .vector ifTrue.type.lanes (.int 1)))
  | .op operation type operands => operation.wellTyped (operands.map Value.type) type

end WasmToLlvm.Llvm
